import AvroCompiler.Proofs.Emit.Reading
import AvroCompiler.Proofs.Schema.Soundness

namespace AvroCompiler

open Emitted
open Item (Braces behind_of_opened braces_of_chars braces_zero opened_of_chars)
open Template (fillText)
open Token (IsSpelled)

theorem braces_of_isSpelled {text : String} (h : IsSpelled text) : Braces 0 text :=
  braces_zero fun mem => absurd (h.2 _ mem) (by decide)

theorem braces_of_isTypeText {text : String} (h : IsTypeText text) : Braces 0 text :=
  braces_zero fun mem => absurd (h _ mem) (by decide)

theorem behind_declaration {name : String} (h : IsSpelled name) {first : String} (plain : Braces 0 first)
    (lines : List String) :
    Item.behind 1 (joinLines ([first, s!"pub enum {name} \x7b"] ++ lines)).toList = linesText lines := by
  have words : ∀ word ∈ [first, name], Braces 0 word := by
    simp [plain, braces_of_isSpelled h]
  have braces : Braces 0 "@\npub enum @ " := braces_of_chars (by decide)
  exact behind_of_opened braces words (opened_of_chars (by simp [fillText, linesText, toList_joinLines]))

theorem behind_matchMethod {type doc signature subject : String} (h : IsSpelled type)
    (hd : Braces 0 doc) (hs : Braces 0 signature) (hj : Braces 0 subject) (arms : List Arm) :
    Item.behind 3 (matchMethod type doc signature subject arms).toList =
      linesText (armLines "            " arms ++ ["        \x7d", "    \x7d", "\x7d"]) := by
  have words : ∀ word ∈ [type, doc, signature, subject], Braces 0 word := by
    simp [braces_of_isSpelled h, hd, hs, hj]
  have braces : Braces 2 "impl @ \x7b\n    /// @\n    @ \x7b\n        match @ " :=
    braces_of_chars (by decide)
  exact behind_of_opened braces words
    (opened_of_chars (by simp [fillText, linesText, matchMethod, toList_joinLines]))

theorem Shape.behind_writeRoutine {branches : List Shape} (h : (union branches).Spelled) :
    Item.behind 2 (union branches).writeRoutine.toList =
      linesText (armLines "        " (writeArms (union branches).canonicalName branches) ++
        ["    \x7d", "\x7d"]) := by
  have words : ∀ word ∈ [(union branches).writer, (union branches).borrowedType], Braces 0 word := by
    simp [braces_of_isSpelled h.isSpelled_writer, braces_of_isTypeText h.borrowedType_isTypeText]
  have braces : Braces 1
      "pub fn @<W: io::Write + ?Sized>(r: &@, w: &mut W) -> io::Result<()> \x7b\n    match r " :=
    braces_of_chars (by decide)
  exact behind_of_opened braces words (opened_of_chars
    (by simp [fillText, linesText, writeRoutine, writerSignature, writerBody, matchLines,
      toList_joinLines]))

theorem Shape.behind_readRoutine {branches : List Shape} (h : (union branches).Spelled) :
    Item.behind 2 (union branches).readRoutine.toList =
      linesText (armLines "        " (readArms (union branches).canonicalName branches) ++
        ["    \x7d", "\x7d"]) := by
  have words : ∀ word ∈ [(union branches).reader, (union branches).valueType], Braces 0 word := by
    simp [braces_of_isSpelled h.isSpelled_reader, braces_of_isTypeText h.valueType_isTypeText]
  have braces : Braces 1
      "pub fn @<R: io::Read + ?Sized>(r: &mut R) -> Result<@, DecodeError> \x7b\n    match decode_int(r)? " :=
    braces_of_chars (by decide)
  exact behind_of_opened braces words (opened_of_chars
    (by simp [fillText, linesText, readRoutine, readerSignature, readerBody, matchLines,
      toList_joinLines]))

theorem Record.behind_serializeRoutine {record : Record} (h : isName record.name = true) :
    Item.behind 2 record.serializeRoutine.toList =
      linesText (record.writeCalls ++ ["        Ok(())", "    \x7d", "\x7d"]) := by
  have doc : Braces 0 "Write this record in the binary encoding." := braces_of_chars (by decide)
  have words : ∀ word ∈ [record.name, "Write this record in the binary encoding."], Braces 0 word := by
    simp [doc, braces_of_isSpelled (isSpelled_of_isName h)]
  have braces : Braces 1
      "impl @ \x7b\n    /// @\n    pub fn serialize<W: io::Write + ?Sized>(&self, w: &mut W) -> io::Result<()> " :=
    braces_of_chars (by decide)
  exact behind_of_opened braces words
    (opened_of_chars (by simp [fillText, linesText, serializeRoutine, toList_joinLines]))

theorem Record.behind_deserializeRoutine {record : Record} (h : isName record.name = true) :
    Item.behind 2 record.deserializeRoutine.toList =
      if record.fields = [] then "\x7d)\n\x7d".toList
      else linesText (record.readCalls ++ ["    \x7d)", "\x7d"]) := by
  have source : Braces 0 "<R: io::Read + ?Sized>(r: &mut R)" := braces_of_chars (by decide)
  have words : ∀ word ∈ [record.name, deserializerName record.name, "<R: io::Read + ?Sized>(r: &mut R)",
      record.name, record.name], Braces 0 word := by
    simp [source, braces_of_isSpelled (isSpelled_of_isName h),
      braces_of_isSpelled (isSpelled_deserializerName h)]
  have braces : Braces 1
      "/// Read a `@` from the binary encoding.\npub fn @@ -> Result<@, DecodeError> \x7b\n    Ok(@ " :=
    braces_of_chars (by decide)
  refine behind_of_opened braces words (opened_of_chars ?_)
  by_cases empty : record.fields = []
  · simp [fillText, deserializeRoutine, toList_joinLines, empty]
  · simp [fillText, linesText, deserializeRoutine, toList_joinLines, empty]

structure Shape.UnionAgrees (branches : List Shape) : Prop where
  apart : (branches.map canonicalName).Nodup
  declaration : readItems 1 ',' variant? (unionDeclaration (union branches).canonicalName branches) =
    some (branches.map canonicalName)
  branch : readItems 3 ',' branchArm? (branchRoutine (union branches).canonicalName branches) =
    some (branches.zipIdx.map fun (branch, i) =>
      ⟨(union branches).canonicalName, branch.canonicalName, i, none⟩)
  write : readItems 2 ',' writeArm? (union branches).writeRoutine =
    some (branches.zipIdx.map fun (branch, i) =>
      ⟨(union branches).canonicalName, branch.canonicalName, i, branch.writer⟩)
  read : readItemsUpTo 2 ',' readArm? (isIndexFault (union branches).canonicalName)
      (union branches).readRoutine =
    some (branches.zipIdx.map fun (branch, i) =>
      ⟨(union branches).canonicalName, branch.canonicalName, i, branch.reader⟩)

structure Enumeration.Agrees (type : Enumeration) : Prop where
  apart : type.variants.Nodup
  declaration : readItems 1 ',' variant? type.declaration = some type.variants
  ordinals : readItemsUpTo 3 ',' ordinalArm? isNoVariant type.ordinalRoutine =
    some (type.variants.zipIdx.map fun (variant, i) => ⟨type.name, variant, i, none⟩)
  symbols : readItems 3 ',' symbolArm? type.symbolRoutine =
    some ((type.variants.zip type.symbols).map fun (variant, symbol) => (type.name, variant, symbol))

structure Record.Agrees (record : Record) : Prop where
  writes : readItemsUpTo 2 ';' writeCall? isDone record.serializeRoutine =
    some (record.fields.map fun field => (field.member, field.shape.writer))
  reads : readItems 2 ',' readCall? record.deserializeRoutine =
    some (record.fields.map fun field => (field.member, field.shape.reader))

theorem Shape.unionAgrees {branches : List Shape} (formed : UnionFormed branches)
    (h : ∀ branch ∈ branches, branch.Spelled) : UnionAgrees branches := by
  have spelled := spelled_union h
  have name := spelled.isSpelled_canonicalName
  have branch {x : Shape × Nat} (mem : x ∈ branches.zipIdx) : x.1.Spelled :=
    h x.1 (List.fst_mem_of_mem_zipIdx mem)
  refine ⟨formed.apart, ?_, ?_, ?_, ?_⟩
  · have body : Item.behind 1 (unionDeclaration (union branches).canonicalName branches).toList =
        linesText ((branches.flatMap fun branch => [s!"    {branch.variantDeclaration},"]) ++
          ["\x7d"]) := by
      rw [unionDeclaration, List.append_assoc, behind_declaration name (braces_of_chars (by decide)),
        List.map_eq_flatMap]
    exact readItems_of_lines body (fun branch mem => isRead_variantDeclaration (h branch mem)) (by cbv)
  · have body : Item.behind 3 (branchRoutine (union branches).canonicalName branches).toList =
        linesText ((branches.zipIdx.flatMap fun x =>
          (x.1.branchArm (union branches).canonicalName x.2).lines "            ") ++
            ["        \x7d", "    \x7d", "\x7d"]) := by
      rw [branchRoutine,
        behind_matchMethod name (braces_of_chars (by decide)) (braces_of_chars (by decide))
          (braces_of_chars (by decide)),
        armLines, branchArms_eq_map, List.flatMap_map]
    exact readItems_of_lines body (fun x mem => isRead_branchArm name (branch mem) x.2) (by cbv)
  · have body : Item.behind 2 (union branches).writeRoutine.toList =
        linesText ((branches.zipIdx.flatMap fun x =>
          (x.1.writeArm (union branches).canonicalName x.2).lines "        ") ++
            ["    \x7d", "\x7d"]) := by
      rw [behind_writeRoutine spelled, armLines, writeArms_eq_map, List.flatMap_map]
    exact readItems_of_lines body (fun x mem => isRead_writeArm name (branch mem) x.2) (by cbv)
  · obtain ⟨fault, isFault, refuses⟩ :=
      isRead_indexFaultArm spelled.canonicalName_isWord spelled.canonicalName_ne_empty
    have body : Item.behind 2 (union branches).readRoutine.toList =
        linesText ((branches.zipIdx.flatMap fun x =>
          (x.1.readArm (union branches).canonicalName x.2).lines "        ") ++
            ((indexFaultArm (union branches).canonicalName).lines "        " ++
              ["    \x7d", "\x7d"])) := by
      rw [behind_readRoutine spelled, armLines, readArms_eq_map, List.flatMap_append, List.flatMap_map,
        List.flatMap_singleton, List.append_assoc]
    refine readItemsUpTo_of_lines body (fun x mem => isRead_readArm name (branch mem) x.2) ?_
      (decide_eq_true refuses)
    rw [lineTokens_append, isFault]
    cbv

theorem Enumeration.pascalCase_ne_empty {seen symbols : List String}
    (faultless : symbolFault? seen symbols = none) : ∀ symbol ∈ symbols, pascalCase symbol ≠ "" := by
  induction symbols generalizing seen with
  | nil => nofun
  | cons symbol symbols ih =>
    rw [symbolFault?] at faultless
    split at faultless
    · cases faultless
    · rename_i named
      split at faultless
      · cases faultless
      · exact List.forall_mem_cons.mpr ⟨named, ih faultless⟩

theorem Enumeration.named_of_make {name : String} {symbols : List String} {type : Enumeration}
    (made : make name symbols = .ok type) :
    type = ⟨name, symbols⟩ ∧ ∀ symbol ∈ symbols, pascalCase symbol ≠ "" := by
  unfold make at made
  split at made
  · cases made
  · split at made
    · cases made
    · split at made
      · cases made
      · rename_i faultless
        cases made
        exact ⟨rfl, pascalCase_ne_empty faultless⟩

theorem Enumeration.agrees {type : Enumeration} (formed : type.Formed) (named : isName type.name = true)
    (h : ∀ symbol ∈ type.symbols, isName symbol = true ∧ pascalCase symbol ≠ "") : type.Agrees := by
  have name := isSpelled_of_isName named
  have spelled {symbol : String} (mem : symbol ∈ type.symbols) : IsSpelled (variantName symbol) :=
    isSpelled_variantName (h symbol mem).1 (h symbol mem).2
  have spelled' : ∀ variant ∈ type.variants, IsSpelled variant :=
    List.forall_mem_map.mpr fun symbol mem => spelled mem
  refine ⟨formed.apart, ?_, ?_, ?_⟩
  · have body : Item.behind 1 type.declaration.toList =
        linesText ((type.variants.flatMap fun variant => [s!"    {variant},"]) ++ ["\x7d"]) := by
      rw [declaration, List.append_assoc, behind_declaration name (braces_of_chars (by decide)),
        List.map_eq_flatMap]
    have read := readItems_of_lines body (fun variant mem => isRead_plainVariant (spelled' variant mem))
      (by cbv)
    rwa [List.map_id'] at read
  · have body : Item.behind 3 type.ordinalRoutine.toList =
        linesText ((type.variants.zipIdx.flatMap fun x =>
          (Arm.result (toString x.2) s!"Some({type.name}::{x.1})").lines "            ") ++
          ((Arm.result "_" "None").lines "            " ++ ["        \x7d", "    \x7d", "\x7d"])) := by
      rw [ordinalRoutine,
        behind_matchMethod name (braces_of_chars (by decide)) (braces_of_chars (by decide))
          (braces_of_chars (by decide)),
        armLines, ordinalArms, List.flatMap_append, List.flatMap_map, List.append_assoc]
      rfl
    exact readItemsUpTo_of_lines body
      (fun x mem => isRead_ordinalArm name (spelled' x.1 (List.fst_mem_of_mem_zipIdx mem)) x.2)
      (show _ = [tokens "_ => None"] by cbv) (by simp [isNoVariant])
  · have body : Item.behind 3 type.symbolRoutine.toList =
        linesText ((type.symbols.flatMap fun symbol =>
          (Arm.result s!"{type.name}::{variantName symbol}" (quote symbol)).lines "            ") ++
            ["        \x7d", "    \x7d", "\x7d"]) := by
      rw [symbolRoutine,
        behind_matchMethod name (braces_of_chars (by decide)) (braces_of_chars (by decide))
          (braces_of_chars (by decide)),
        armLines, symbolArms, List.flatMap_map]
    have read := readItems_of_lines body
      (fun symbol mem => isRead_symbolArm name (spelled mem) (h symbol mem).1) (by cbv)
    rw [read, variants, ← List.map_prod_right_eq_zip, List.map_map]
    rfl

theorem Record.agrees {record : Record} (named : isName record.name = true)
    (h : ∀ field ∈ record.fields, isName field.name = true ∧ field.shape.Spelled) : record.Agrees := by
  constructor
  · have body : Item.behind 2 record.serializeRoutine.toList =
        linesText ((record.fields.flatMap fun field =>
          [s!"        {field.shape.writer}(&self.{field.member}, w)?;"]) ++
            ["        Ok(())", "    \x7d", "\x7d"]) := by
      rw [behind_serializeRoutine named, writeCalls, List.map_eq_flatMap]
    exact readItemsUpTo_of_lines body
      (fun field mem => isRead_writeCall (h field mem).2.isSpelled_writer
        (Field.isSpelled_member (h field mem).1))
      (show _ = [tokens "Ok(())"] by cbv) (by simp [isDone])
  · by_cases empty : record.fields = []
    · have closed : Item.splitFrom ',' 0 [] (Token.readFrom [] "\x7d)\n\x7d".toList) = [] := by cbv
      rw [readItems, items, behind_deserializeRoutine named, if_pos empty, closed, empty]
      rfl
    · have body : Item.behind 2 record.deserializeRoutine.toList =
          linesText ((record.fields.flatMap fun field =>
            [s!"        {field.member}: {field.shape.reader}(r)?,"]) ++ ["    \x7d)", "\x7d"]) := by
        rw [behind_deserializeRoutine named, if_neg empty, readCalls, List.map_eq_flatMap]
      exact readItems_of_lines body
        (fun field mem => isRead_readCall (Field.isSpelled_member (h field mem).1)
          (h field mem).2.isSpelled_reader) (by cbv)

/-- Reading back the texts of unions and enumerations as they are accepted, and of all records, finds
every variant once, at its position, and every field in its place, with the routines of one shape. -/
theorem emitted_texts_agree :
    (∀ (branches : List Shape) (shape : Shape), Shape.makeUnion branches = .ok shape →
      (∀ branch ∈ branches, branch.Spelled) → shape = .union branches ∧ Shape.UnionAgrees branches) ∧
    (∀ (name : String) (symbols : List String) (type : Enumeration),
      Enumeration.make name symbols = .ok type → isName name = true →
      (∀ symbol ∈ symbols, isName symbol = true) → type = ⟨name, symbols⟩ ∧ type.Agrees) ∧
    ∀ record : Record, isName record.name = true →
      (∀ field ∈ record.fields, isName field.name = true ∧ field.shape.Spelled) → record.Agrees := by
  refine ⟨?_, ?_, ?_⟩
  · intro branches shape made spelled
    have formed := Shape.unionFormed_of_makeUnion made
    exact ⟨Shape.eq_union_of_makeUnion made, Shape.unionAgrees formed spelled⟩
  · intro name symbols type made named spelled
    obtain ⟨rfl, distinct⟩ := Enumeration.named_of_make made
    exact ⟨rfl, Enumeration.agrees (Enumeration.formed_of_make made) named fun symbol mem =>
      ⟨spelled symbol mem, distinct symbol mem⟩⟩
  · intro record named spelled
    exact Record.agrees named spelled

/-- A member of the record is a keyword, and the union has a null branch. -/
def pairRecord : Record :=
  ⟨"Pair", none, [⟨"left", .primitive .int, none⟩, ⟨"type", .union [.null, .record "Pair"], none⟩]⟩

theorem pairRecord_texts_agree :
    readItemsUpTo 2 ',' readArm? (isIndexFault "UnionNullPair")
        (Shape.union [.null, .record "Pair"]).readRoutine =
      some [⟨"UnionNullPair", "Null", 0, "read_null"⟩, ⟨"UnionNullPair", "Pair", 1, "read_pair"⟩] ∧
    readItems 3 ',' symbolArm? (Enumeration.symbolRoutine ⟨"Suit", ["SPADES", "DARK_HEARTS"]⟩) =
      some [("Suit", "Spades", "SPADES"), ("Suit", "DarkHearts", "DARK_HEARTS")] ∧
    readItems 2 ',' readCall? pairRecord.deserializeRoutine =
      some [("left", "read_int"), ("r#type", "read_union_null_pair")] := by
  obtain ⟨unions, enumerations, records⟩ := emitted_texts_agree
  have pair : (Shape.record "Pair").Spelled := by
    refine Shape.spelled_of_components ?_ nofun
    rintro name ⟨⟩
    decide
  have branches : ∀ branch ∈ [Shape.null, .record "Pair"], branch.Spelled :=
    List.forall_mem_cons.mpr
      ⟨Shape.spelled_of_components nofun nofun, List.forall_mem_singleton.mpr pair⟩
  have fields : ∀ field ∈ pairRecord.fields, isName field.name = true ∧ field.shape.Spelled :=
    List.forall_mem_cons.mpr ⟨⟨by decide, Shape.spelled_of_components nofun nofun⟩,
      List.forall_mem_singleton.mpr ⟨by decide, Shape.spelled_union branches⟩⟩
  obtain ⟨-, union⟩ := unions [.null, .record "Pair"] _ rfl branches
  obtain ⟨-, suit⟩ := enumerations "Suit" ["SPADES", "DARK_HEARTS"] _ rfl (by decide) (by decide)
  have record := records pairRecord (by decide) fields
  refine ⟨union.read.trans ?_, suit.symbols.trans ?_, record.reads.trans ?_⟩
  · cbv
  · cbv
  · cbv

end AvroCompiler

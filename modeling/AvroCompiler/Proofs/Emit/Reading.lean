import AvroCompiler.Emit.Glue
import AvroCompiler.Proofs.Emit.Items
import AvroCompiler.Proofs.Emit.Spelling
import Mathlib

namespace AvroCompiler

open Item (IsRead Lays filled_of_chars isRead_of_lays lays_of_chars)
open Template (fill fillText readWith)
open Token (IsSpelled)

/-- What an arm says of a variant: its position, and the routine that is called for its value. -/
structure Link where
  type : String
  variant : String
  position : Nat
  routine : Option String
  deriving DecidableEq, Repr

namespace Emitted

def variant? : List Token → Option String
  | [.word variant] => some (String.ofList variant)
  | .word variant :: .sign '(' :: _ => some (String.ofList variant)
  | _ => none

def link? (type variant position : String) (routine : Option String) : Option Link :=
  position.toNat?.map fun position => ⟨type, variant, position, routine⟩

def branchArm? (arm : List Token) : Option Link :=
  match readWith "@::@(_) => @" arm <|> readWith "@::@ => @" arm with
  | some [type, variant, position] => link? type variant position none
  | _ => none

def writeArm? (arm : List Token) : Option Link :=
  match readWith "@::@(v) => \x7b encode_int(w, @)?; @(v, w) \x7d" arm <|>
      readWith "@::@ => \x7b encode_int(w, @)?; @(&(), w) \x7d" arm with
  | some [type, variant, position, writer] => link? type variant position writer
  | _ => none

def readArm? (arm : List Token) : Option Link :=
  match readWith "@ => Ok(@::@(@(r)?))" arm, readWith "@ => \x7b @(r)?; Ok(@::@) \x7d" arm with
  | some [position, type, variant, reader], _ => link? type variant position reader
  | _, some [position, reader, type, variant] => link? type variant position reader
  | _, _ => none

/-- The arm that refuses every other index. -/
def isIndexFault (union : String) (arm : List Token) : Bool :=
  readWith "index => Err(DecodeError::InvalidUnionIndex \x7b type_name: \"@\", index \x7d)" arm =
    some [union]

def ordinalArm? (arm : List Token) : Option Link :=
  match readWith "@ => Some(@::@)" arm with
  | some [position, type, variant] => link? type variant position none
  | _ => none

def isNoVariant (arm : List Token) : Bool :=
  arm = tokens "_ => None"

def symbolArm? (arm : List Token) : Option (String × String × String) :=
  match readWith "@::@ => \"@\"" arm with
  | some [type, variant, symbol] => some (type, variant, symbol)
  | _ => none

def writeCall? (statement : List Token) : Option (String × String) :=
  match readWith "@(&self.@, w)?" statement with
  | some [writer, member] => some (member, writer)
  | _ => none

def isDone (statement : List Token) : Bool :=
  statement = tokens "Ok(())"

def readCall? (initialiser : List Token) : Option (String × String) :=
  match readWith "@: @(r)?" initialiser with
  | some [member, reader] => some (member, reader)
  | _ => none

theorem link?_toString (type variant : String) (position : Nat) (routine : Option String) :
    link? type variant (toString position) routine = some ⟨type, variant, position, routine⟩ := by
  -- No part of Mathlib has this lemma, only the whole.
  have same : (toString position).toNat? = some position := Nat.toNat?_repr position
  rw [link?, same]
  rfl

end Emitted

open Emitted

namespace Shape

def branchArm (union : String) (branch : Shape) (i : Nat) : Arm :=
  .result (branch.variantPattern union "_") (toString i)

def writeArm (union : String) (branch : Shape) (i : Nat) : Arm :=
  .block (branch.variantPattern union "v")
    [s!"encode_int(w, {i})?;",
     let value := if branch.isNull then "&()" else "v"
     s!"{branch.writer}({value}, w)"]

def readArm (union : String) (branch : Shape) (i : Nat) : Arm :=
  if branch.isNull then .block (toString i) ["read_null(r)?;", s!"Ok({union}::Null)"]
  else .result (toString i) s!"Ok({union}::{branch.canonicalName}({branch.reader}(r)?))"

def indexFaultArm (union : String) : Arm :=
  .result "index"
    s!"Err(DecodeError::InvalidUnionIndex \x7b type_name: {quote union}, index \x7d)"

theorem branchArms_eq_map (union : String) (branches : List Shape) :
    branchArms union branches = branches.zipIdx.map fun x => x.1.branchArm union x.2 :=
  rfl

theorem writeArms_eq_map (union : String) (branches : List Shape) :
    writeArms union branches = branches.zipIdx.map fun x => x.1.writeArm union x.2 :=
  rfl

theorem readArms_eq_map (union : String) (branches : List Shape) :
    readArms union branches =
      branches.zipIdx.map (fun x => x.1.readArm union x.2) ++ [indexFaultArm union] :=
  rfl

theorem canonicalName_of_isNull {branch : Shape} (h : branch.isNull = true) :
    branch.canonicalName = "Null" := by
  cases of_decide_eq_true h
  rfl

variable {union : String} {branch : Shape}

theorem isRead_branchArm (hu : IsSpelled union) (h : branch.Spelled) (i : Nat) :
    IsRead ',' branchArm? ((branch.branchArm union i).lines "            ")
      ⟨union, branch.canonicalName, i, none⟩ := by
  have spelled : ∀ word ∈ [union, branch.canonicalName, toString i], IsSpelled word := by
    simp [hu, h.isSpelled_canonicalName, isSpelled_repr]
  by_cases null : branch.isNull = true
  · rw [canonicalName_of_isNull null] at spelled ⊢
    have lays : Lays ',' "\n            @::@ => @," "@::@ => @" 3 := lays_of_chars (by decide)
    refine isRead_of_lays spelled lays (by decide)
      (filled_of_chars (by simp [linesText, fillText, Arm.lines, branchArm, variantPattern, null]))
      fun found => ?_
    have other : readWith "@::@(_) => @"
        (fill (tokens "@::@ => @") [union, "Null", toString i]) = none := rfl
    simp only [branchArm?, other, found]
    exact link?_toString union "Null" i none
  · have lays : Lays ',' "\n            @::@(_) => @," "@::@(_) => @" 3 := lays_of_chars (by decide)
    refine isRead_of_lays spelled lays (by decide)
      (filled_of_chars (by simp [linesText, fillText, Arm.lines, branchArm, variantPattern, null]))
      fun found => ?_
    simp only [branchArm?, found]
    exact link?_toString union branch.canonicalName i none

theorem isRead_writeArm (hu : IsSpelled union) (h : branch.Spelled) (i : Nat) :
    IsRead ',' writeArm? ((branch.writeArm union i).lines "        ")
      ⟨union, branch.canonicalName, i, branch.writer⟩ := by
  have spelled : ∀ word ∈ [union, branch.canonicalName, toString i, branch.writer], IsSpelled word := by
    simp [hu, h.isSpelled_canonicalName, isSpelled_repr, h.isSpelled_writer]
  by_cases null : branch.isNull = true
  · rw [canonicalName_of_isNull null] at spelled ⊢
    have lays : Lays ','
        "\n        @::@ => \x7b\n            encode_int(w, @)?;\n            @(&(), w)\n        \x7d"
        "@::@ => \x7b encode_int(w, @)?; @(&(), w) \x7d" 4 := lays_of_chars (by decide)
    refine isRead_of_lays spelled lays (by decide)
      (filled_of_chars (by simp [linesText, fillText, Arm.lines, writeArm, variantPattern, null]))
      fun found => ?_
    have other : readWith "@::@(v) => \x7b encode_int(w, @)?; @(v, w) \x7d"
        (fill (tokens "@::@ => \x7b encode_int(w, @)?; @(&(), w) \x7d")
          [union, "Null", toString i, branch.writer]) = none := rfl
    simp only [writeArm?, other, found]
    exact link?_toString union "Null" i branch.writer
  · have lays : Lays ','
        "\n        @::@(v) => \x7b\n            encode_int(w, @)?;\n            @(v, w)\n        \x7d"
        "@::@(v) => \x7b encode_int(w, @)?; @(v, w) \x7d" 4 := lays_of_chars (by decide)
    refine isRead_of_lays spelled lays (by decide)
      (filled_of_chars (by simp [linesText, fillText, Arm.lines, writeArm, variantPattern, null]))
      fun found => ?_
    simp only [writeArm?, found]
    exact link?_toString union branch.canonicalName i branch.writer

theorem isRead_readArm (hu : IsSpelled union) (h : branch.Spelled) (i : Nat) :
    IsRead ',' readArm? ((branch.readArm union i).lines "        ")
      ⟨union, branch.canonicalName, i, branch.reader⟩ := by
  by_cases null : branch.isNull = true
  · cases of_decide_eq_true null
    have reader : Shape.null.reader = "read_null" := by decide
    have name : Shape.null.canonicalName = "Null" := rfl
    have spelled : ∀ word ∈ [toString i, Shape.null.reader, union, "Null"], IsSpelled word := by
      simp [hu, isSpelled_repr, h.isSpelled_reader, ← name, h.isSpelled_canonicalName]
    have lays : Lays ',' "\n        @ => \x7b\n            @(r)?;\n            Ok(@::@)\n        \x7d"
        "@ => \x7b @(r)?; Ok(@::@) \x7d" 4 := lays_of_chars (by decide)
    refine isRead_of_lays spelled lays (by decide)
      (filled_of_chars (by simp [linesText, fillText, Arm.lines, readArm, null, reader])) fun found => ?_
    have other : readWith "@ => Ok(@::@(@(r)?))"
        (fill (tokens "@ => \x7b @(r)?; Ok(@::@) \x7d") [toString i, Shape.null.reader, union, "Null"]) =
          none := rfl
    simp only [readArm?, other, found]
    exact link?_toString union "Null" i Shape.null.reader
  · have spelled : ∀ word ∈ [toString i, union, branch.canonicalName, branch.reader], IsSpelled word := by
      simp [hu, h.isSpelled_canonicalName, isSpelled_repr, h.isSpelled_reader]
    have lays : Lays ',' "\n        @ => Ok(@::@(@(r)?))," "@ => Ok(@::@(@(r)?))" 4 :=
      lays_of_chars (by decide)
    refine isRead_of_lays spelled lays (by decide)
      (filled_of_chars (by simp [linesText, fillText, Arm.lines, readArm, null])) fun found => ?_
    simp only [readArm?, found]
    exact link?_toString union branch.canonicalName i branch.reader

theorem isRead_indexFaultArm (word : IsWord union) (nonempty : union ≠ "") :
    IsRead ','
      (readWith "index => Err(DecodeError::InvalidUnionIndex \x7b type_name: \"@\", index \x7d)")
      ((indexFaultArm union).lines "        ") [union] := by
  have spelled : ∀ word ∈ [union], IsSpelled word :=
    List.forall_mem_singleton.mpr (word.isSpelled nonempty)
  have lays : Lays ','
      "\n        index => Err(DecodeError::InvalidUnionIndex \x7b type_name: \"@\", index \x7d),"
      "index => Err(DecodeError::InvalidUnionIndex \x7b type_name: \"@\", index \x7d)" 1 :=
    lays_of_chars (by decide)
  exact isRead_of_lays spelled lays (by decide)
    (filled_of_chars (by simp [linesText, fillText, Arm.lines, indexFaultArm, quote_of_word word])) id

end Shape

theorem isRead_ordinalArm {type variant : String} (ht : IsSpelled type) (hv : IsSpelled variant)
    (i : Nat) :
    IsRead ',' ordinalArm? ((Arm.result (toString i) s!"Some({type}::{variant})").lines "            ")
      ⟨type, variant, i, none⟩ := by
  have spelled : ∀ word ∈ [toString i, type, variant], IsSpelled word := by
    simp [ht, hv, isSpelled_repr]
  have lays : Lays ',' "\n            @ => Some(@::@)," "@ => Some(@::@)" 3 := lays_of_chars (by decide)
  refine isRead_of_lays spelled lays (by decide)
    (filled_of_chars (by simp [linesText, fillText, Arm.lines])) fun found => ?_
  simp only [ordinalArm?, found]
  exact link?_toString type variant i none

theorem isRead_symbolArm {type variant symbol : String} (ht : IsSpelled type) (hv : IsSpelled variant)
    (hs : isName symbol = true) :
    IsRead ',' symbolArm? ((Arm.result s!"{type}::{variant}" (quote symbol)).lines "            ")
      (type, variant, symbol) := by
  have spelled : ∀ word ∈ [type, variant, symbol], IsSpelled word := by
    simp [ht, hv, isSpelled_of_isName hs]
  have lays : Lays ',' "\n            @::@ => \"@\"," "@::@ => \"@\"" 3 := lays_of_chars (by decide)
  refine isRead_of_lays spelled lays (by decide)
    (filled_of_chars (by simp [linesText, fillText, Arm.lines, quote_of_word (isWord_of_isName hs)]))
    fun found => ?_
  simp only [symbolArm?, found]

theorem isRead_writeCall {writer member : String} (hw : IsSpelled writer) (hm : IsSpelled member) :
    IsRead ';' writeCall? [s!"        {writer}(&self.{member}, w)?;"] (member, writer) := by
  have spelled : ∀ word ∈ [writer, member], IsSpelled word := by
    simp [hw, hm]
  have lays : Lays ';' "\n        @(&self.@, w)?;" "@(&self.@, w)?" 2 := lays_of_chars (by decide)
  refine isRead_of_lays spelled lays (by decide) (filled_of_chars (by simp [linesText, fillText]))
    fun found => ?_
  simp only [writeCall?, found]

theorem isRead_readCall {member reader : String} (hm : IsSpelled member) (hr : IsSpelled reader) :
    IsRead ',' readCall? [s!"        {member}: {reader}(r)?,"] (member, reader) := by
  have spelled : ∀ word ∈ [member, reader], IsSpelled word := by
    simp [hm, hr]
  have lays : Lays ',' "\n        @: @(r)?," "@: @(r)?" 2 := lays_of_chars (by decide)
  refine isRead_of_lays spelled lays (by decide) (filled_of_chars (by simp [linesText, fillText]))
    fun found => ?_
  simp only [readCall?, found]

theorem isRead_plainVariant {variant : String} (h : IsSpelled variant) :
    IsRead ',' variant? [s!"    {variant},"] variant := by
  have lays : Lays ',' "\n    @," "@" 1 := lays_of_chars (by decide)
  refine isRead_of_lays (List.forall_mem_singleton.mpr h) lays (by decide)
    (filled_of_chars (by simp [linesText, fillText])) fun _ => ?_
  exact congrArg some String.ofList_toList

theorem depthAfter_angled {left text : List Char} {c : Char} (sign : Token.isLetter c = false)
    {depth : Nat}
    (start : Item.depthAfter ',' depth (Token.readFrom [] left ++ Token.ofSign c) = some depth)
    (inner : Item.depthAfter ',' depth (Token.readFrom [] text) = some depth) :
    Item.depthAfter ',' depth (Token.readFrom [] (left ++ c :: (text ++ ['>']))) = some depth := by
  rw [Token.readFrom_between sign (by decide), ← List.append_assoc, Item.depthAfter_append start,
    Item.depthAfter_append inner]
  rfl

/-- The text of a type stays within the brackets that it stands in. -/
theorem depthAfter_valueType {shape : Shape} (h : shape.Spelled) (depth : Nat) :
    Item.depthAfter ',' (depth + 1) (tokens shape.valueType) = some (depth + 1) := by
  induction shape using Shape.induction_components with
  | step shape ih =>
    have inner {component : Shape} (mem : component ∈ shape.components) :
        Item.depthAfter ',' (depth + 1) (tokens component.valueType) = some (depth + 1) :=
      ih component mem (h.component mem)
    have word {name : String} (spelled : IsSpelled name) :
        Item.depthAfter ',' (depth + 1) (tokens name) = some (depth + 1) := by
      rw [tokens_of_isSpelled spelled]
      rfl
    cases shape with
    | primitive kind => cases kind <;> rfl
    | fixed type => exact word (isSpelled_of_isName (h.typeName rfl))
    | enumeration type => exact word (isSpelled_of_isName (h.typeName rfl))
    | union branches => exact word h.isSpelled_canonicalName
    | record name =>
      have text : (Shape.record name).valueType.toList =
          ['B', 'o', 'x'] ++ '<' :: (name.toList ++ ['>']) := by
        simp [Shape.valueType_record]
      rw [tokens, text]
      exact depthAfter_angled (by decide) rfl (word (isSpelled_of_isName (h.typeName rfl)))
    | array items =>
      have text : items.array.valueType.toList =
          ['V', 'e', 'c'] ++ '<' :: (items.valueType.toList ++ ['>']) := by
        simp [Shape.valueType_array]
      rw [tokens, text]
      exact depthAfter_angled (by decide) rfl (inner (List.mem_singleton_self items))
    | map values =>
      have text : values.map.valueType.toList =
          "HashMap<String,".toList ++ ' ' :: (values.valueType.toList ++ ['>']) := by
        simp [Shape.valueType_map]
      rw [tokens, text]
      exact depthAfter_angled (by decide) rfl (inner (List.mem_singleton_self values))

theorem Shape.isRead_variantDeclaration {branch : Shape} (h : branch.Spelled) :
    IsRead ',' variant? [s!"    {branch.variantDeclaration},"] branch.canonicalName := by
  by_cases null : branch.isNull = true
  · have line : branch.variantDeclaration = "Null" := if_pos null
    rw [canonicalName_of_isNull null, line]
    exact isRead_plainVariant (isSpelled_of_isName (by decide))
  · have text : linesText [s!"    {branch.variantDeclaration},"] =
        ("\n    ".toList ++ branch.canonicalName.toList) ++ '(' ::
          (branch.valueType.toList ++ ')' :: [',']) := by
      simp [linesText, variantDeclaration, null]
    have label : Token.readFrom [] ("\n    ".toList ++ branch.canonicalName.toList) =
        [.word branch.canonicalName.toList] := tokens_of_isSpelled h.isSpelled_canonicalName
    have code : lineTokens [s!"    {branch.variantDeclaration},"] =
        .word branch.canonicalName.toList :: .sign '(' ::
          (tokens branch.valueType ++ [.sign ')', .sign ',']) := by
      rw [lineTokens, text, Token.readFrom_between (by decide) (by decide), label]
      rfl
    have single : Item.single? ',' 1 (tokens branch.valueType ++ [.sign ')', .sign ',']) =
        some (tokens branch.valueType ++ [.sign ')']) := by
      rw [Item.single?_append (depthAfter_valueType h 0)]
      rfl
    refine ⟨.word branch.canonicalName.toList :: .sign '(' :: (tokens branch.valueType ++ [.sign ')']),
      Item.isItem_of_single ?_, congrArg some String.ofList_toList⟩
    rw [code]
    change ((Item.single? ',' 1 _).map _).map _ = _
    rw [single]
    rfl

end AvroCompiler

import AvroCompiler.Proofs.Text.Lines
import AvroCompiler.Proofs.Schema.Naming
import AvroCompiler.Proofs.Shape
import AvroCompiler.Registration.Task

namespace AvroCompiler

def isTypeChar (c : Char) : Bool :=
  c.isAlphanum || c ∈ ['_', '<', '>', '(', ')', '[', ']', ',', ' ']

def IsTypeText (text : String) : Prop :=
  ∀ c ∈ text.toList, isTypeChar c = true

instance (text : String) : Decidable (IsTypeText text) :=
  decidable_of_iff (text.toList.all isTypeChar = true) List.all_eq_true

theorem IsTypeText.append {a b : String} (ha : IsTypeText a) (hb : IsTypeText b) :
    IsTypeText (a ++ b) := by
  intro c mem
  rw [String.toList_append] at mem
  exact (List.mem_append.mp mem).elim (ha c) (hb c)

theorem IsWord.isTypeText {text : String} (h : IsWord text) : IsTypeText text := by
  intro c mem
  rcases h c mem with alnum | rfl
  · simp [isTypeChar, alnum]
  · rfl

namespace Shape

/-- The name of the type that a shape refers to. -/
def typeName? : Shape → Option String
  | .fixed type => some type.name
  | .enumeration type => some type.name
  | .record name => some name
  | .primitive _ | .array _ | .map _ | .union _ => none

/-- All types that a shape refers to, at any depth, have proper names. -/
def Proper (shape : Shape) : Prop :=
  ∀ part : Shape, part.Within shape → ∀ name, part.typeName? = some name → TypeName name

theorem Proper.component {whole component : Shape} (h : whole.Proper)
    (mem : component ∈ whole.components) : component.Proper :=
  fun part within => h part (.inside mem within)

theorem Proper.typeName {shape : Shape} (h : shape.Proper) {name : String}
    (named : shape.typeName? = some name) : TypeName name :=
  h shape .self name named

/-- All types that a shape refers to, at any depth, have names of the right spelling. -/
def Spelled (shape : Shape) : Prop :=
  ∀ part : Shape, part.Within shape → ∀ name, part.typeName? = some name → isName name = true

theorem Proper.spelled {shape : Shape} (h : shape.Proper) : shape.Spelled :=
  fun part within name named => (h part within name named).spelled

theorem Spelled.component {whole component : Shape} (h : whole.Spelled)
    (mem : component ∈ whole.components) : component.Spelled :=
  fun part within => h part (.inside mem within)

theorem Spelled.typeName {shape : Shape} (h : shape.Spelled) {name : String}
    (named : shape.typeName? = some name) : isName name = true :=
  h shape .self name named

theorem canonicalName_array (items : Shape) :
    items.array.canonicalName = "Array" ++ items.canonicalName := rfl

theorem canonicalName_map (values : Shape) :
    values.map.canonicalName = "Map" ++ values.canonicalName := rfl

theorem canonicalName_union (branches : List Shape) :
    (union branches).canonicalName = "Union" ++ canonicalNames branches := rfl

theorem canonicalNames_isWord {branches : List Shape}
    (h : ∀ branch ∈ branches, IsWord branch.canonicalName) : IsWord (canonicalNames branches) := by
  induction branches with
  | nil => simp [canonicalNames, IsWord]
  | cons branch rest ih =>
    obtain ⟨first, others⟩ := List.forall_mem_cons.mp h
    exact first.append (ih others)

theorem Spelled.canonicalName_isWord {shape : Shape} (h : shape.Spelled) :
    IsWord shape.canonicalName := by
  induction shape using induction_components with
  | step shape ih =>
    have inner {component : Shape} (mem : component ∈ shape.components) :
        IsWord component.canonicalName :=
      ih component mem (h.component mem)
    cases shape with
    | primitive kind =>
      cases kind <;> simp [IsWord, canonicalName, Primitive.canonicalName]
    | fixed type => exact isWord_of_isName (h.typeName rfl)
    | enumeration type => exact isWord_of_isName (h.typeName rfl)
    | record name => exact isWord_of_isName (h.typeName rfl)
    | array items =>
      exact IsWord.append (by simp [IsWord]) (inner (List.mem_singleton_self items))
    | map values =>
      exact IsWord.append (by simp [IsWord]) (inner (List.mem_singleton_self values))
    | union branches =>
      exact IsWord.append (by simp [IsWord]) (canonicalNames_isWord fun _ mem => inner mem)

theorem Proper.canonicalName_isWord {shape : Shape} (h : shape.Proper) : IsWord shape.canonicalName :=
  h.spelled.canonicalName_isWord

theorem valueType_array (items : Shape) :
    items.array.valueType = "Vec<" ++ items.valueType ++ ">" := rfl

theorem valueType_map (values : Shape) :
    values.map.valueType = "HashMap<String, " ++ values.valueType ++ ">" := rfl

theorem valueType_record (name : String) : (record name).valueType = "Box<" ++ name ++ ">" := rfl

theorem borrowedType_array (items : Shape) :
    items.array.borrowedType = "[" ++ items.valueType ++ "]" := rfl

theorem borrowedType_map (values : Shape) : values.map.borrowedType = values.map.valueType := rfl

theorem Spelled.valueType_isTypeText {shape : Shape} (h : shape.Spelled) : IsTypeText shape.valueType := by
  induction shape using induction_components with
  | step shape ih =>
    have inner {component : Shape} (mem : component ∈ shape.components) :
        IsTypeText component.valueType :=
      ih component mem (h.component mem)
    cases shape with
    | primitive kind => cases kind <;> decide
    | fixed type => exact (isWord_of_isName (h.typeName rfl)).isTypeText
    | enumeration type => exact (isWord_of_isName (h.typeName rfl)).isTypeText
    | record name =>
      exact (IsTypeText.append (by decide) (isWord_of_isName (h.typeName rfl)).isTypeText).append (by decide)
    | array items =>
      exact (IsTypeText.append (by decide) (inner (List.mem_singleton_self items))).append (by decide)
    | map values =>
      exact (IsTypeText.append (by decide) (inner (List.mem_singleton_self values))).append (by decide)
    | union branches => exact h.canonicalName_isWord.isTypeText

theorem Spelled.borrowedType_isTypeText {shape : Shape} (h : shape.Spelled) :
    IsTypeText shape.borrowedType := by
  cases shape with
  | primitive kind => cases kind <;> decide
  | record name => exact (isWord_of_isName (h.typeName rfl)).isTypeText
  | array items =>
    have inner := (h.component (List.mem_singleton_self items)).valueType_isTypeText
    exact (IsTypeText.append (by decide) inner).append (by decide)
  | fixed | enumeration | map | union => exact h.valueType_isTypeText

/-- Write routines under one name agree only where they pass the same type, and in all that follows
their first line. -/
theorem eq_of_writerSignature {a b : Shape} (ha : a.Proper) (hb : b.Proper)
    (name : a.writer = b.writer) {rest rest' : List String}
    (text : joinLines ((a.writerSignature ++ " \x7b") :: rest) =
      joinLines ((b.writerSignature ++ " \x7b") :: rest')) :
    a.borrowedType = b.borrowedType ∧
      (rest.flatMap fun l => '\n' :: l.toList) = rest'.flatMap fun l => '\n' :: l.toList := by
  have split (shape : Shape) (rest : List String) :
      (joinLines ((shape.writerSignature ++ " \x7b") :: rest)).toList =
        "pub fn ".toList ++ shape.writer.toList ++ "<W: io::Write + ?Sized>(r: &".toList ++
          ((shape.borrowedType.toList ++ ", w: &mut W) -> io::Result<()> ".toList) ++
            '\x7b' :: rest.flatMap fun l => '\n' :: l.toList) := by
    unfold writerSignature
    simp [toList_joinLines]
  have free {shape : Shape} (h : shape.Proper) :
      '\x7b' ∉ shape.borrowedType.toList ++ ", w: &mut W) -> io::Result<()> ".toList := by
    intro mem
    rcases List.mem_append.mp mem with mem | mem
    · exact absurd (h.spelled.borrowedType_isTypeText _ mem) (by decide)
    · exact absurd mem (by decide)
  have eq := congrArg String.toList text
  rw [split, split, name, List.append_cancel_left_eq] at eq
  obtain ⟨type, body⟩ := append_inj_of_first eq (free ha) (free hb)
  exact ⟨String.toList_inj.mp (List.append_cancel_right type), body⟩

theorem eq_of_readerSignature {a b : Shape} (ha : a.Proper) (hb : b.Proper)
    (name : a.reader = b.reader) {rest rest' : List String}
    (text : joinLines ((a.readerSignature ++ " \x7b") :: rest) =
      joinLines ((b.readerSignature ++ " \x7b") :: rest')) :
    a.valueType = b.valueType ∧
      (rest.flatMap fun l => '\n' :: l.toList) = rest'.flatMap fun l => '\n' :: l.toList := by
  have split (shape : Shape) (rest : List String) :
      (joinLines ((shape.readerSignature ++ " \x7b") :: rest)).toList =
        "pub fn ".toList ++ shape.reader.toList ++
          "<R: io::Read + ?Sized>(r: &mut R) -> Result<".toList ++
          ((shape.valueType.toList ++ ", DecodeError> ".toList) ++
            '\x7b' :: rest.flatMap fun l => '\n' :: l.toList) := by
    unfold readerSignature
    simp [toList_joinLines]
  have free {shape : Shape} (h : shape.Proper) :
      '\x7b' ∉ shape.valueType.toList ++ ", DecodeError> ".toList := by
    intro mem
    rcases List.mem_append.mp mem with mem | mem
    · exact absurd (h.spelled.valueType_isTypeText _ mem) (by decide)
    · exact absurd mem (by decide)
  have eq := congrArg String.toList text
  rw [split, split, name, List.append_cancel_left_eq] at eq
  obtain ⟨type, body⟩ := append_inj_of_first eq (free ha) (free hb)
  exact ⟨String.toList_inj.mp (List.append_cancel_right type), body⟩

/-- Shapes of one kind that generated code cannot tell apart at their head. -/
inductive SameForm : Shape → Shape → Prop
  | fixed {a b : Fixed} (name : a.name = b.name) : SameForm (.fixed a) (.fixed b)
  | enumeration {a b : Enumeration} (name : a.name = b.name) : SameForm (.enumeration a) (.enumeration b)
  | array {a b : Shape} (type : a.valueType = b.valueType) : SameForm (.array a) (.array b)
  | map {a b : Shape} (type : a.valueType = b.valueType) : SameForm (.map a) (.map b)
  | union {a b : List Shape} (name : (Shape.union a).canonicalName = (Shape.union b).canonicalName) :
      SameForm (.union a) (.union b)
  | record (name : String) : SameForm (.record name) (.record name)

def writerMark : Shape → String
  | .fixed _ => "    w."
  | .enumeration _ => "    en"
  | .array _ | .map _ => "    wr"
  | .union _ => "    ma"
  | .record _ => "    r."
  | .primitive _ => ""

def readerMark : Shape → String
  | .fixed _ => "    let mut b"
  | .enumeration _ => "    let ordin"
  | .array _ | .map _ => "    let mut i"
  | .union _ => "    match dec"
  | .record _ => "    deseriali"
  | .primitive _ => ""

theorem writerMark_prefix (shape : Shape) :
    ("\n" ++ shape.writerMark).toList <+:
      (shape.writerBody ++ ["\x7d"]).flatMap fun l => '\n' :: l.toList := by
  cases shape <;> refine prefix_lines ?_
  case primitive | fixed | enumeration | map | record => simp only [writerMark]; decide
  case array | union => exact prefix_append (prefix_append (by simp only [writerMark]; decide))

theorem readerMark_prefix (shape : Shape) :
    ("\n" ++ shape.readerMark).toList <+:
      (shape.readerBody ++ ["\x7d"]).flatMap fun l => '\n' :: l.toList := by
  cases shape <;> refine prefix_lines ?_
  case primitive | enumeration | array | map => simp only [readerMark]; decide
  case fixed => exact prefix_append (prefix_append (by simp only [readerMark]; decide))
  case union | record => simp [readerMark, deserializerName]

theorem sameForm_of_writeRoutine {a b : Shape} (ha : a.Proper) (hb : b.Proper) (compound : a.Compound)
    (compound' : b.Compound) (name : a.writer = b.writer) (text : a.writeRoutine = b.writeRoutine) :
    SameForm a b := by
  obtain ⟨type, body⟩ := eq_of_writerSignature ha hb name text
  have length {shape : Shape} (compound : shape.Compound) :
      ("\n" ++ shape.writerMark).toList.length = 7 := by
    cases shape with
    | primitive kind => exact absurd rfl (compound kind)
    | fixed | enumeration | array | map | union | record => simp [writerMark]
  have marks := eq_of_mark a.writerMark_prefix (body ▸ b.writerMark_prefix)
    ((length compound).trans (length compound').symm)
  rw [String.append_right_inj] at marks
  have noMap (items values : Shape) : items.array.borrowedType ≠ values.map.borrowedType := by
    intro eq
    have chars := congrArg String.toList eq
    simp [borrowedType_array, borrowedType_map, valueType_map] at chars
  cases a <;> cases b <;> simp [writerMark] at marks
  case primitive.primitive kind _ => exact absurd rfl (compound kind)
  case fixed.fixed => exact .fixed type
  case enumeration.enumeration => exact .enumeration type
  case array.array => exact .array (by simpa [borrowedType_array] using type)
  case array.map => exact absurd type (noMap _ _)
  case map.array => exact absurd type.symm (noMap _ _)
  case map.map => exact .map (by simpa [borrowedType_map, valueType_map] using type)
  case union.union => exact .union type
  case record.record first second =>
    have same : first = second := type
    subst same
    exact .record first

theorem sameForm_of_readRoutine {a b : Shape} (ha : a.Proper) (hb : b.Proper) (compound : a.Compound)
    (compound' : b.Compound) (name : a.reader = b.reader) (text : a.readRoutine = b.readRoutine) :
    SameForm a b := by
  obtain ⟨type, body⟩ := eq_of_readerSignature ha hb name text
  have length {shape : Shape} (compound : shape.Compound) :
      ("\n" ++ shape.readerMark).toList.length = 14 := by
    cases shape with
    | primitive kind => exact absurd rfl (compound kind)
    | fixed | enumeration | array | map | union | record => simp [readerMark]
  have marks := eq_of_mark a.readerMark_prefix (body ▸ b.readerMark_prefix)
    ((length compound).trans (length compound').symm)
  rw [String.append_right_inj] at marks
  have noMap (items values : Shape) : items.array.valueType ≠ values.map.valueType := by
    intro eq
    have chars := congrArg String.toList eq
    simp [valueType_array, valueType_map] at chars
  cases a <;> cases b <;> simp [readerMark] at marks
  case primitive.primitive kind _ => exact absurd rfl (compound kind)
  case fixed.fixed => exact .fixed type
  case enumeration.enumeration => exact .enumeration type
  case array.array => exact .array (by simpa [valueType_array] using type)
  case array.map => exact absurd type (noMap _ _)
  case map.array => exact absurd type.symm (noMap _ _)
  case map.map => exact .map (by simpa [valueType_map] using type)
  case union.union => exact .union type
  case record.record first second =>
    have same : first = second := by simpa [valueType_record] using type
    subst same
    exact .record first

def derived : String := "#[derive(Debug, Clone, PartialEq)]"

theorem unionDeclaration_start (name : String) (branches : List Shape) :
    (derived ++ ("\n" ++ "pub e")).toList <+: (unionDeclaration name branches).toList :=
  prefix_second_line (prefix_append (prefix_append (by decide)))

theorem unionDeclaration_ne_fixed (name : String) (branches : List Shape) (type : Fixed) :
    unionDeclaration name branches ≠ type.declaration := by
  have union : "#[derive(Debug, Clone, P".toList <+: (unionDeclaration name branches).toList :=
    prefix_joinLines (by decide)
  have fixed : "#[derive(Debug, Clone, C".toList <+: type.declaration.toList :=
    prefix_joinLines (by decide)
  exact ne_of_marks union fixed (by simp) (by simp)

theorem unionDeclaration_ne_enumeration (name : String) (branches : List Shape) (type : Enumeration) :
    unionDeclaration name branches ≠ type.declaration := by
  have union : "#[derive(Debug, Clone, P".toList <+: (unionDeclaration name branches).toList :=
    prefix_joinLines (by decide)
  have enumeration : "#[derive(Debug, Clone, C".toList <+: type.declaration.toList :=
    prefix_joinLines (by decide)
  exact ne_of_marks union enumeration (by simp) (by simp)

theorem docLines_start {doc : Option String} {line : String} (mem : line ∈ docLines "" doc) :
    "/".toList <+: line.toList := by
  unfold docLines at mem
  split at mem
  · cases mem
  · obtain ⟨text, _, rfl⟩ := List.mem_map.mp mem
    split <;> simp

theorem unionDeclaration_ne_record (name : String) (branches : List Shape) (record : Record) :
    unionDeclaration name branches ≠ record.declaration := by
  unfold Record.declaration
  cases docs : docLines "" record.doc with
  | nil =>
    have start : (derived ++ ("\n" ++ "pub s")).toList <+: (joinLines ([] ++ [derived] ++
        if record.fields = [] then [s!"pub struct {record.name} \x7b\x7d"]
        else [s!"pub struct {record.name} \x7b"] ++ record.fields.flatMap Record.memberLines ++
          ["\x7d"])).toList := by
      split
      · exact prefix_second_line (prefix_append (prefix_append (by decide)))
      · exact prefix_second_line (prefix_append (prefix_append (by decide)))
    exact ne_of_marks (unionDeclaration_start name branches) start (by simp) (by simp)
  | cons line lines =>
    have union : "#".toList <+: (unionDeclaration name branches).toList :=
      prefix_joinLines (by decide)
    exact ne_of_marks union (prefix_joinLines (docLines_start (docs ▸ List.mem_cons_self)))
      (by simp) (by simp)

end Shape

namespace Snippet

theorem name_start (snippet : Snippet) (letter : Char) (mem : letter ∈ ['a', 'm', 'u']) :
    ¬"write_".toList ++ [letter] <+: snippet.name.toList ∧
      ¬"read_".toList ++ [letter] <+: snippet.name.toList := by
  have ne (other : Char) (h : other ∉ ['a', 'm', 'u']) : letter ≠ other := by
    rintro rfl
    exact h mem
  cases snippet <;> simp [name, ne]

theorem eq_of_write_start {snippet : Snippet} (h : "write_".toList <+: snippet.name.toList) :
    snippet = .writeBlocks ∨ ∃ kind : Primitive, snippet = kind.writeSnippet := by
  cases snippet with
  | writeBlocks => exact Or.inl rfl
  | writeNull => exact Or.inr ⟨.null, rfl⟩
  | writeBool => exact Or.inr ⟨.boolean, rfl⟩
  | writeInt => exact Or.inr ⟨.int, rfl⟩
  | writeLong => exact Or.inr ⟨.long, rfl⟩
  | writeFloat => exact Or.inr ⟨.float, rfl⟩
  | writeDouble => exact Or.inr ⟨.double, rfl⟩
  | writeBytes => exact Or.inr ⟨.bytes, rfl⟩
  | writeString => exact Or.inr ⟨.string, rfl⟩
  | _ => simp [name] at h

/-- The write snippets have the signatures of their shapes; that of null ignores its arguments. -/
theorem head_writeSnippet_lines {kind : Primitive} (h : kind ≠ .null) :
    kind.writeSnippet.lines.head? = some ((Shape.primitive kind).writerSignature ++ " \x7b") := by
  cases kind with
  | null => exact absurd rfl h
  | boolean | int | long | float | double | bytes | string => rfl

end Snippet

namespace Shape

theorem snippet_name_ne {shape : Shape} (compound : shape.Compound) (unnamed : shape.typeName? = none)
    (snippet : Snippet) : snippet.name ≠ shape.writer ∧ snippet.name ≠ shape.reader := by
  have start (letter : Char) (mem : letter ∈ ['a', 'm', 'u'])
      (h : "write_".toList ++ [letter] <+: shape.writer.toList ∧
        "read_".toList ++ [letter] <+: shape.reader.toList) :
      snippet.name ≠ shape.writer ∧ snippet.name ≠ shape.reader := by
    obtain ⟨noWriter, noReader⟩ := snippet.name_start letter mem
    exact ⟨fun eq => noWriter (eq ▸ h.1), fun eq => noReader (eq ▸ h.2)⟩
  cases shape with
  | primitive kind => exact absurd rfl (compound kind)
  | fixed | enumeration | record => cases unnamed
  | array items =>
    refine start 'a' (by simp) ⟨?_, ?_⟩
    · simp [writer, writerName, canonicalName_array, snakeCase, snakeChars]
    · simp [reader, readerName, canonicalName_array, snakeCase, snakeChars]
  | map values =>
    refine start 'm' (by simp) ⟨?_, ?_⟩
    · simp [writer, writerName, canonicalName_map, snakeCase, snakeChars]
    · simp [reader, readerName, canonicalName_map, snakeCase, snakeChars]
  | union branches =>
    refine start 'u' (by simp) ⟨?_, ?_⟩
    · simp [writer, writerName, canonicalName_union, snakeCase, snakeChars]
    · simp [reader, readerName, canonicalName_union, snakeCase, snakeChars]

theorem writer_primitive (kind : Primitive) : (primitive kind).writer = kind.writeSnippet.name := by
  cases kind <;> rfl

theorem reader_primitive (kind : Primitive) : (primitive kind).reader = kind.readSnippet.name := by
  cases kind <;> rfl

theorem proper_primitive (kind : Primitive) : (primitive kind).Proper := by
  intro part within name named
  cases within with
  | self => cases named
  | inside mem => cases mem

/-- A routine that writes a named type differs from the snippet of the same name. -/
theorem snippet_text_ne {shape : Shape} (proper : shape.Proper) (named : TypeName shape.borrowedType)
    {snippet : Snippet} (name : snippet.name = shape.writer) : snippet.text ≠ shape.writeRoutine := by
  have start : "pub fn write_".toList <+: shape.writeRoutine.toList := by
    refine prefix_joinLines (prefix_append ?_)
    simp [writerSignature, writer, writerName]
  have written : "write_".toList <+: snippet.name.toList := by
    rw [name]
    simp [writer, writerName]
  rcases Snippet.eq_of_write_start written with rfl | ⟨kind, rfl⟩
  · have comment : "/// Write eve".toList <+: Snippet.writeBlocks.text.toList :=
      prefix_joinLines (by decide)
    exact ne_of_marks comment start (by simp) (by simp)
  · by_cases null : kind = .null
    · subst null
      have ignores : "pub fn write_null<W: io::Write + ?Sized>(_".toList <+:
          Snippet.writeNull.text.toList :=
        prefix_joinLines (by decide)
      have passes : "pub fn write_null<W: io::Write + ?Sized>(r".toList <+:
          shape.writeRoutine.toList := by
        refine prefix_joinLines (prefix_append ?_)
        rw [writerSignature, ← name]
        simp [Primitive.writeSnippet, Snippet.name]
      exact ne_of_marks ignores passes (by simp) (by simp)
    · obtain ⟨rest, lines⟩ := List.head?_eq_some_iff.mp (Snippet.head_writeSnippet_lines null)
      intro text
      unfold Snippet.text at text
      rw [lines] at text
      have same := (eq_of_writerSignature (proper_primitive kind) proper
        ((writer_primitive kind).trans name) text).1
      rw [← same] at named
      have free {w : String} (mem : w ∈ reservedNames) : ¬TypeName w :=
        fun typed => typed.declarable.1 mem
      cases kind with
      | null => exact null rfl
      | boolean => exact free (w := "bool") (by simp [reservedNames]) named
      | int => exact free (w := "i32") (by simp [reservedNames]) named
      | long => exact free (w := "i64") (by simp [reservedNames]) named
      | float => exact free (w := "f32") (by simp [reservedNames]) named
      | double => exact free (w := "f64") (by simp [reservedNames]) named
      | bytes => exact absurd named.spelled (by decide)
      | string => exact free (w := "str") (by simp [reservedNames]) named

end Shape

end AvroCompiler

import AvroCompiler.Proofs.Emit.Distinction

namespace AvroCompiler

theorem Primitive.eq_of_valueType {a b : Primitive} (h : a.valueType = b.valueType) : a = b := by
  cases a <;> cases b <;> simp [valueType] at h ⊢

theorem eq_of_map_eq_map {α β : Type} {f : α → β} {as bs : List α}
    (apart : ∀ a ∈ as, ∀ b ∈ bs, f a = f b → a = b) (same : as.map f = bs.map f) : as = bs := by
  induction as generalizing bs with
  | nil => exact (List.map_eq_nil_iff.mp same.symm).symm
  | cons a as ih =>
    cases bs with
    | nil => cases same
    | cons b bs =>
      obtain ⟨head, tail⟩ := List.cons.inj same
      have heads := apart a (.head _) b (.head _) head
      have tails := ih (fun a memA b memB => apart a (.tail _ memA) b (.tail _ memB)) tail
      rw [heads, tails]

namespace Shape

/-- The value type is a name alone, the canonical name of the shape. -/
def Bare : Shape → Prop
  | .fixed _ | .enumeration _ | .union _ => True
  | .primitive _ | .array _ | .map _ | .record _ => False

/-- Shapes of one value type, compared at their heads. -/
inductive SameValue : Shape → Shape → Prop
  | primitive (kind : Primitive) : SameValue (.primitive kind) (.primitive kind)
  | bare {a b : Shape} (ha : a.Bare) (hb : b.Bare) (name : a.canonicalName = b.canonicalName) :
      SameValue a b
  | array {a b : Shape} (type : a.valueType = b.valueType) : SameValue (.array a) (.array b)
  | map {a b : Shape} (type : a.valueType = b.valueType) : SameValue (.map a) (.map b)
  | record (name : String) : SameValue (.record name) (.record name)

def typeHead : Shape → String
  | .primitive .null => ""
  | .primitive .bytes => "Vec"
  | .primitive kind => kind.valueType
  | .array _ => "Vec"
  | .map _ => "HashMap"
  | .record _ => "Box"
  | .fixed type => type.name
  | .enumeration type => type.name
  | .union branches => (Shape.union branches).canonicalName

def isWordChar (c : Char) : Bool :=
  c.isAlphanum || c = '_'

theorem takeWhile_isWord {text : String} (h : IsWord text) :
    text.toList.takeWhile isWordChar = text.toList := by
  have all : ∀ c ∈ text.toList, isWordChar c = true := by
    intro c mem
    simpa [isWordChar] using h c mem
  have append : (text.toList ++ []).takeWhile isWordChar = text.toList ++ [].takeWhile isWordChar :=
    List.takeWhile_append_of_pos all
  simpa using append

theorem takeWhile_valueType {shape : Shape} (h : shape.Proper) :
    shape.valueType.toList.takeWhile isWordChar = shape.typeHead.toList := by
  cases shape with
  | primitive kind => cases kind <;> rfl
  | fixed type => exact takeWhile_isWord (h.typeName rfl).isWord
  | enumeration type => exact takeWhile_isWord (h.typeName rfl).isWord
  | union branches => exact takeWhile_isWord h.canonicalName_isWord
  | array items => simp [valueType_array, typeHead, List.takeWhile, isWordChar, Char.isAlphanum]
  | map values => simp [valueType_map, typeHead, List.takeWhile, isWordChar, Char.isAlphanum]
  | record name => simp [valueType_record, typeHead, List.takeWhile, isWordChar, Char.isAlphanum]

theorem typeHead_reserved {shape : Shape} (h : ¬shape.Bare) :
    shape.typeHead = "" ∨ shape.typeHead ∈ reservedNames := by
  cases shape with
  | primitive kind => cases kind <;> simp [typeHead, Primitive.valueType, reservedNames]
  | array | map | record => simp [typeHead, reservedNames]
  | fixed | enumeration | union => exact absurd trivial h

theorem reserved_start {word : String} (mem : word ∈ reservedNames) : word.toList.head? ≠ some 'U' := by
  revert word
  decide +kernel

theorem typeHead_free {shape : Shape} (proper : shape.Proper) (h : shape.Bare) :
    shape.typeHead ≠ "" ∧ shape.typeHead ∉ reservedNames := by
  cases shape with
  | primitive | array | map | record => cases h
  | fixed type => exact ⟨(proper.typeName rfl).ne_empty, (proper.typeName rfl).declarable.1⟩
  | enumeration type => exact ⟨(proper.typeName rfl).ne_empty, (proper.typeName rfl).declarable.1⟩
  | union branches =>
    have start : (union branches).typeHead.toList.head? = some 'U' := by
      simp [typeHead, canonicalName_union]
    refine ⟨?_, fun mem => reserved_start mem start⟩
    intro eq
    rw [eq] at start
    cases start

theorem typeHead_bare {shape : Shape} (h : shape.Bare) : shape.typeHead = shape.canonicalName := by
  cases shape with
  | primitive | array | map | record => cases h
  | fixed | enumeration | union => rfl

theorem Proper.valueType_ne_u8 {shape : Shape} (proper : shape.Proper) : shape.valueType ≠ "u8" := by
  intro eq
  have head : shape.typeHead = "u8" := by
    have words := takeWhile_valueType proper
    rw [eq, takeWhile_isWord (by decide)] at words
    exact (String.toList_inj.mp words).symm
  by_cases bare : shape.Bare
  · exact (typeHead_free proper bare).2 (by simp [head, reservedNames])
  · cases shape with
    | primitive kind => cases kind <;> simp [typeHead, Primitive.valueType] at head
    | array | map | record => simp [typeHead] at head
    | fixed | enumeration | union => exact bare trivial

theorem sameValue_of_valueType {a b : Shape} (ha : a.Proper) (hb : b.Proper)
    (type : a.valueType = b.valueType) : SameValue a b := by
  have heads : a.typeHead = b.typeHead := by
    have words := takeWhile_valueType ha
    rw [type, takeWhile_valueType hb] at words
    exact (String.toList_inj.mp words).symm
  have noBytes {items : Shape} (proper : items.array.Proper) :
      (primitive .bytes).valueType ≠ items.array.valueType := by
    intro eq
    have inner := proper.component (List.mem_singleton_self items)
    have same : "Vec<" ++ "u8" ++ ">" = "Vec<" ++ items.valueType ++ ">" := eq
    rw [String.append_left_inj, String.append_right_inj] at same
    exact inner.valueType_ne_u8 same.symm
  by_cases bareA : a.Bare
  · by_cases bareB : b.Bare
    · exact .bare bareA bareB (by rw [← typeHead_bare bareA, heads, typeHead_bare bareB])
    · have free := typeHead_free ha bareA
      rw [heads] at free
      exact absurd (typeHead_reserved bareB) (not_or.mpr free)
  · by_cases bareB : b.Bare
    · have free := typeHead_free hb bareB
      rw [← heads] at free
      exact absurd (typeHead_reserved bareA) (not_or.mpr free)
    · cases a with
      | fixed | enumeration | union => exact absurd trivial bareA
      | primitive kind =>
        cases b with
        | fixed | enumeration | union => exact absurd trivial bareB
        | primitive other =>
          cases Primitive.eq_of_valueType type
          exact .primitive kind
        | array items =>
          cases kind with
          | bytes => exact absurd type (noBytes hb)
          | null | boolean | int | long | float | double | string =>
            simp [typeHead, Primitive.valueType] at heads
        | map | record => cases kind <;> simp [typeHead, Primitive.valueType] at heads
      | array items =>
        cases b with
        | fixed | enumeration | union => exact absurd trivial bareB
        | primitive kind =>
          cases kind with
          | bytes => exact absurd type.symm (noBytes ha)
          | null | boolean | int | long | float | double | string =>
            simp [typeHead, Primitive.valueType] at heads
        | array others => exact .array (by simpa [valueType_array] using type)
        | map | record => simp [typeHead] at heads
      | map values =>
        cases b with
        | fixed | enumeration | union => exact absurd trivial bareB
        | primitive kind => cases kind <;> simp [typeHead, Primitive.valueType] at heads
        | map others => exact .map (by simpa [valueType_map] using type)
        | array | record => simp [typeHead] at heads
      | record name =>
        cases b with
        | fixed | enumeration | union => exact absurd trivial bareB
        | primitive kind => cases kind <;> simp [typeHead, Primitive.valueType] at heads
        | array | map => simp [typeHead] at heads
        | record other =>
          have same : name = other := by simpa [valueType_record] using type
          subst same
          exact .record name

theorem variantDeclaration_plain {branch : Shape} (h : branch.Proper) :
    '\n' ∉ branch.variantDeclaration.toList := by
  have name : '\n' ∉ branch.canonicalName.toList := fun mem =>
    absurd (h.canonicalName_isWord _ mem) (by decide)
  have type : '\n' ∉ branch.valueType.toList := fun mem =>
    absurd (h.spelled.valueType_isTypeText _ mem) (by decide)
  unfold variantDeclaration
  split
  · decide
  · simp [name, type]

theorem valueType_of_variantDeclaration {a b : Shape} (ha : a.Proper) (hb : b.Proper)
    (variant : a.variantDeclaration = b.variantDeclaration) : a.valueType = b.valueType := by
  have word {shape : Shape} (h : shape.Proper) : '(' ∉ shape.canonicalName.toList := fun mem =>
    absurd (h.canonicalName_isWord _ mem) (by decide)
  have chars := congrArg String.toList variant
  unfold variantDeclaration at chars
  by_cases nullA : a.isNull = true <;> by_cases nullB : b.isNull = true
  · rw [of_decide_eq_true nullA, of_decide_eq_true nullB]
  · have mem : '(' ∈ "Null".toList := by
      rw [if_pos nullA, if_neg nullB] at chars
      simp [chars]
    exact absurd mem (by decide)
  · have mem : '(' ∈ "Null".toList := by
      rw [if_neg nullA, if_pos nullB] at chars
      simp [← chars]
    exact absurd mem (by decide)
  · rw [if_neg nullA, if_neg nullB] at chars
    have split : a.canonicalName.toList ++ '(' :: (a.valueType ++ ")").toList =
        b.canonicalName.toList ++ '(' :: (b.valueType ++ ")").toList := by
      simpa using chars
    have types := String.toList_inj.mp (append_inj_of_first split (word ha) (word hb)).2
    exact (String.append_left_inj _).mp types

theorem unionDeclaration_plain {name : String} {branches : List Shape} (typed : IsWord name)
    (h : ∀ branch ∈ branches, branch.Proper) :
    ∀ line ∈ ["#[derive(Debug, Clone, PartialEq)]", s!"pub enum {name} \x7b"] ++
      branches.map (fun branch => s!"    {branch.variantDeclaration},") ++ ["\x7d"],
      '\n' ∉ line.toList := by
  have head : '\n' ∉ name.toList := fun mem => absurd (typed _ mem) (by decide)
  intro line mem
  simp only [List.mem_append, List.mem_cons, List.not_mem_nil, or_false, List.mem_map] at mem
  rcases mem with ((rfl | rfl) | ⟨branch, listed, rfl⟩) | rfl
  · decide
  · simp [head]
  · simp [variantDeclaration_plain (h branch listed)]
  · decide

/-- Unions are declared by different texts, unless two of their branches share a value type. -/
theorem eq_of_unionDeclaration {name : String} {as bs : List Shape} (typed : IsWord name)
    (ha : ∀ a ∈ as, a.Proper) (hb : ∀ b ∈ bs, b.Proper)
    (text : unionDeclaration name as = unionDeclaration name bs)
    (apart : ∀ a ∈ as, ∀ b ∈ bs, a.valueType = b.valueType → a = b) : as = bs := by
  have lines := joinLines_inj (unionDeclaration_plain typed ha) (unionDeclaration_plain typed hb)
    (by simp) (by simp) text
  rw [List.append_left_inj, List.append_right_inj] at lines
  refine eq_of_map_eq_map (fun a memA b memB line => apart a memA b memB ?_) lines
  rw [toString_text, toString_text, String.append_left_inj, String.append_right_inj] at line
  exact valueType_of_variantDeclaration (ha a memA) (hb b memB) line

end Shape

end AvroCompiler

import AvroCompiler.Package.Render
import AvroCompiler.Proofs.Emit.Distinction
import AvroCompiler.Proofs.Text.Case

namespace AvroCompiler

def IsLowered (text : String) : Prop :=
  ∀ c ∈ text.toList, c.isUpper = false

instance (text : String) : Decidable (IsLowered text) :=
  decidable_of_iff (text.toList.all fun c => c.isUpper = false) (by simp [IsLowered])

theorem IsLowered.append {a b : String} (ha : IsLowered a) (hb : IsLowered b) : IsLowered (a ++ b) := by
  intro c mem
  rw [String.toList_append] at mem
  exact (List.mem_append.mp mem).elim (ha c) (hb c)

theorem not_isLowered_append {a : String} (b : String) (h : ¬IsLowered b) : ¬IsLowered (a ++ b) := by
  intro lowered
  refine h fun c mem => lowered c ?_
  rw [String.toList_append]
  exact List.mem_append_right _ mem

def InSnakeCase (text : String) : Prop :=
  snakeCase text = text

instance (text : String) : Decidable (InSnakeCase text) :=
  inferInstanceAs (Decidable (snakeCase text = text))

theorem inSnakeCase_iff {text : String} : InSnakeCase text ↔ ∀ c ∈ text.toList, IsSnakeChar c :=
  snakeCase_eq_self_iff

theorem inSnakeCase_snakeCase (text : String) : InSnakeCase (snakeCase text) :=
  snakeCase_snakeCase text

theorem InSnakeCase.append {a b : String} (ha : InSnakeCase a) (hb : InSnakeCase b) :
    InSnakeCase (a ++ b) := by
  rw [inSnakeCase_iff, String.toList_append]
  exact List.forall_mem_append.mpr ⟨inSnakeCase_iff.mp ha, inSnakeCase_iff.mp hb⟩

theorem InSnakeCase.of_append {a b : String} (h : InSnakeCase (a ++ b)) : InSnakeCase b := by
  rw [inSnakeCase_iff, String.toList_append] at h
  exact inSnakeCase_iff.mpr (List.forall_mem_append.mp h).2

theorem InSnakeCase.isLowered {text : String} (h : InSnakeCase text) : IsLowered text :=
  fun c mem => (inSnakeCase_iff.mp h c mem).1

theorem inSnakeCase_moduleName (name : String) : InSnakeCase (moduleName name) := by
  unfold moduleName
  split
  · exact (inSnakeCase_snakeCase name).append (by decide +kernel)
  · exact inSnakeCase_snakeCase name

theorem inSnakeCase_fileName (name : String) : InSnakeCase (fileName name) :=
  (inSnakeCase_moduleName name).append (by decide +kernel)

theorem inSnakeCase_codecFile : InSnakeCase codecFile := by
  decide +kernel

theorem inSnakeCase_escapeKeyword {word : String} (h : InSnakeCase word) : InSnakeCase (escapeKeyword word) := by
  unfold escapeKeyword
  split
  · exact h.append (by decide +kernel)
  · split
    · exact InSnakeCase.append (by decide +kernel) h
    · exact h

theorem cutEnding_suffix (name : List Char) : cutEnding name <:+ name := by
  fun_induction cutEnding name with
  | case1 rest ih => exact ih.trans ⟨['s', 'r', '.'], rfl⟩
  | case2 => exact List.suffix_rfl

theorem inSnakeCase_moduleOfFile {file : String} (h : InSnakeCase file) : InSnakeCase (moduleOfFile file) := by
  refine inSnakeCase_escapeKeyword (inSnakeCase_iff.mpr fun c mem => ?_)
  rw [String.toList_ofList, List.mem_reverse] at mem
  have listed := (cutEnding_suffix _).mem mem
  exact inSnakeCase_iff.mp h c (List.mem_reverse.mp listed)

theorem isLowered_prefixed {mark : String} (lowered : IsLowered mark) (name : String) :
    IsLowered (mark ++ snakeCase name) :=
  lowered.append (inSnakeCase_snakeCase name).isLowered

theorem isLowered_deserializerName (record : String) : IsLowered (deserializerName record) :=
  isLowered_prefixed (by decide) record

theorem Shape.isLowered_writer (shape : Shape) : IsLowered shape.writer :=
  isLowered_prefixed (by decide) _

theorem Shape.isLowered_reader (shape : Shape) : IsLowered shape.reader :=
  isLowered_prefixed (by decide) _

theorem Snippet.isLowered_name_iff (snippet : Snippet) :
    IsLowered snippet.name ↔ snippet.isType = false := by
  cases snippet <;> decide

theorem not_isLowered_sizeConstant (fixed : String) : ¬IsLowered (sizeConstant fixed) :=
  not_isLowered_append "_SIZE" (by decide)

theorem Shape.not_isLowered_union (branches : List Shape) :
    ¬IsLowered (Shape.union branches).canonicalName := by
  intro lowered
  have capital := lowered 'U' (by rw [Shape.canonicalName_union]; simp)
  exact absurd capital (by decide)

theorem moduleName_of_inSnakeCase {name : String} (h : InSnakeCase name) (raw : name ∉ bareWords) :
    moduleName name = name := by
  have same : snakeCase name = name := h
  rw [moduleName, same, if_neg raw]

theorem Declarable.not_inSnakeCase {name : String} (h : Declarable name) : ¬InSnakeCase name := by
  intro settled
  obtain ⟨-, escaped, -, apart⟩ := h
  refine apart (moduleName_of_inSnakeCase settled fun bare => ?_)
  rw [escapeKeyword, if_pos bare] at escaped
  have length := congrArg String.length escaped
  simp at length

/-- There is no break in a word, and so the name of a type has a capital. -/
theorem TypeName.not_isLowered {name : String} (h : TypeName name) : ¬IsLowered name := by
  intro lowered
  refine h.declarable.not_inSnakeCase (inSnakeCase_iff.mpr fun c mem => ⟨lowered c mem, ?_, ?_⟩)
  · rintro rfl
    exact absurd (h.isWord _ mem) (by decide)
  · rintro rfl
    exact absurd (h.isWord _ mem) (by decide)

theorem isWord_snakeChars {spaced : Bool} {text : List Char}
    (word : ∀ c ∈ text, c.isAlphanum = true ∨ c = '_') :
    ∀ c ∈ snakeChars spaced text, c.isAlphanum = true ∨ c = '_' := by
  have letter {c : Char} (upper : c.isUpper = true) : c.toLower.isAlphanum = true :=
    isAlphanum_iff.mpr (Or.inl (isAlpha_iff.mpr (Or.inr (isLower_toLower upper))))
  fun_induction snakeChars spaced text with
  | case1 => simp
  | case2 c rest upper ih =>
    have others := ih (List.forall_mem_cons.mp word).2
    exact List.forall_mem_cons.mpr
      ⟨Or.inr rfl, List.forall_mem_cons.mpr ⟨Or.inl (letter upper), others⟩⟩
  | case3 spaced c rest upper _ ih =>
    exact List.forall_mem_cons.mpr ⟨Or.inl (letter upper), ih (List.forall_mem_cons.mp word).2⟩
  | case4 spaced c rest upper _ ih =>
    exact List.forall_mem_cons.mpr ⟨Or.inr rfl, ih (List.forall_mem_cons.mp word).2⟩
  | case5 spaced c rest upper _ ih =>
    obtain ⟨first, others⟩ := List.forall_mem_cons.mp word
    exact List.forall_mem_cons.mpr ⟨first, ih others⟩

theorem isWord_snakeCase {name : String} (h : IsWord name) : IsWord (snakeCase name) := by
  intro c mem
  rw [snakeCase, String.toList_ofList] at mem
  exact isWord_snakeChars h c mem

theorem isWord_moduleName {name : String} (h : IsWord name) : IsWord (moduleName name) := by
  unfold moduleName
  split
  · exact (isWord_snakeCase h).append (by decide)
  · exact isWord_snakeCase h

theorem moduleName_not_bare (name : String) : moduleName name ∉ bareWords := by
  unfold moduleName
  split
  · rename_i bare
    intro bare'
    simp only [bareWords, List.mem_cons, List.not_mem_nil, or_false] at bare
    rcases bare with eq | eq | eq | eq | eq <;> rw [eq] at bare' <;> exact absurd bare' (by decide)
  · assumption

theorem escapeKeyword_inj {a b : String} (ha : IsWord a) (hb : IsWord b) (raw : a ∉ bareWords)
    (raw' : b ∉ bareWords) (h : escapeKeyword a = escapeKeyword b) : a = b := by
  have marked {word other : String} (typed : IsWord word) : word ≠ "r#" ++ other := by
    rintro rfl
    have mark := typed '#' (by simp)
    exact absurd mark (by decide)
  rw [escapeKeyword, escapeKeyword, if_neg raw, if_neg raw'] at h
  split at h
  · split at h
    · exact (String.append_right_inj "r#").mp h
    · exact absurd h.symm (marked hb)
  · split at h
    · exact absurd h (marked ha)
    · exact h

theorem cutEnding_of_not_mem {name : List Char} (h : '.' ∉ name) : cutEnding name = name := by
  unfold cutEnding
  split
  · simp at h
  · rfl

theorem moduleOfFile_fileName {name : String} (h : IsWord name) :
    moduleOfFile (fileName name) = escapeKeyword (moduleName name) := by
  have plain : '.' ∉ (moduleName name).toList.reverse := by
    intro mem
    exact absurd (isWord_moduleName h '.' (List.mem_reverse.mp mem)) (by decide)
  have cut : cutEnding (fileName name).toList.reverse = (moduleName name).toList.reverse := by
    have ending : ".rs".toList.reverse = ['s', 'r', '.'] := by decide
    rw [fileName, String.toList_append, List.reverse_append, ending, List.cons_append,
      List.cons_append, List.cons_append, List.nil_append, cutEnding, cutEnding_of_not_mem plain]
  rw [moduleOfFile, cut, List.reverse_reverse, String.ofList_toList]

theorem fileName_eq_of_module {a b : String} (ha : IsWord a) (hb : IsWord b)
    (h : moduleOfFile (fileName a) = moduleOfFile (fileName b)) : fileName a = fileName b := by
  rw [moduleOfFile_fileName ha, moduleOfFile_fileName hb] at h
  have same := escapeKeyword_inj (isWord_moduleName ha) (isWord_moduleName hb) (moduleName_not_bare a)
    (moduleName_not_bare b) h
  rw [fileName, fileName, same]

theorem fileName_eq_of_snakeCase {a b : String} (h : snakeCase a = snakeCase b) :
    fileName a = fileName b := by
  rw [fileName, fileName, moduleName, moduleName, h]

end AvroCompiler

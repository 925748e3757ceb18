import AvroCompiler.Code.TreeParser
import AvroCompiler.Proofs.Emit.Agreement
import AvroCompiler.Proofs.Schema.Writing

namespace AvroCompiler

/-- A name in code: a letter or an underscore, then letters, digits and underscores. A reserved word is
one only in its raw form, and some words have none. -/
def IsIdentifier (text : String) : Prop :=
  (isName text = true ∧ text ∉ Code.reservedWords) ∨
    ∃ word, text = "r#" ++ word ∧ isName word = true ∧ word ∉ Code.neverRaw

/-- The first character that is no word break is a digit. -/
def BeginsWithDigit (text : String) : Prop :=
  ∃ c, (text.toList.dropWhile isWordBreak).head? = some c ∧ c.isDigit = true

theorem isDigit_of_isAlpha {c : Char} (h : c.isAlpha = true) : c.isDigit = false := by
  rw [isAlpha_iff, isUpper_iff, isLower_iff] at h
  simp only [Bool.eq_false_iff, Ne, Char.isDigit_iff_toNat, Char.reduceToNat]
  omega

theorem isDigit_toUpper (c : Char) : c.toUpper.isDigit = c.isDigit := by
  cases lower : c.isLower with
  | false => rw [toUpper_eq_self lower]
  | true =>
    have alpha := isAlpha_iff.mpr (Or.inl (isUpper_toUpper lower))
    rw [isDigit_of_isAlpha (isAlpha_iff.mpr (Or.inr lower)), isDigit_of_isAlpha alpha]

theorem isDigit_toLower (c : Char) : c.toLower.isDigit = c.isDigit := by
  cases upper : c.isUpper with
  | false => rw [toLower_eq_self upper]
  | true =>
    have alpha := isAlpha_iff.mpr (Or.inr (isLower_toLower upper))
    rw [isDigit_of_isAlpha (isAlpha_iff.mpr (Or.inl upper)), isDigit_of_isAlpha alpha]

theorem isName_iff (text : String) :
    isName text = true ↔ IsWord text ∧ ∃ c, text.toList.head? = some c ∧ c.isDigit = false := by
  unfold isName IsWord
  cases text.toList with
  | nil => simp
  | cons c rest =>
    simp only [Bool.and_eq_true, Bool.or_eq_true, decide_eq_true_eq, List.all_eq_true,
      List.forall_mem_cons, List.head?_cons, Option.some.injEq, exists_eq_left']
    constructor
    · rintro ⟨alpha | rfl, others⟩
      · exact ⟨⟨Or.inl (isAlphanum_iff.mpr (Or.inl alpha)), others⟩, isDigit_of_isAlpha alpha⟩
      · exact ⟨⟨Or.inr rfl, others⟩, rfl⟩
    · rintro ⟨⟨alnum | rfl, others⟩, digit⟩
      · have alpha := (isAlphanum_iff.mp alnum).resolve_right (Bool.eq_false_iff.mp digit)
        exact ⟨Or.inl alpha, others⟩
      · exact ⟨Or.inr rfl, others⟩

theorem isName_append {a b : String} (named : isName a = true) (word : IsWord b) :
    isName (a ++ b) = true := by
  obtain ⟨wordA, c, head, digit⟩ := (isName_iff a).mp named
  refine (isName_iff _).mpr ⟨wordA.append word, c, ?_, digit⟩
  rw [String.toList_append, List.head?_append, head, Option.some_or]

theorem head?_snakeChars {c : Char} (rest : List Char) (word : c.isAlphanum = true ∨ c = '_') :
    (snakeChars false (c :: rest)).head? = some c.toLower := by
  have plain : ¬(c = '-' ∨ c = ' ') := by
    rintro (rfl | rfl)
    · exact absurd word (by decide)
    · exact absurd word (by decide)
  rw [snakeChars, if_neg Bool.false_ne_true, if_neg plain]
  split
  · rfl
  · rename_i upper
    rw [toLower_eq_self (Bool.eq_false_iff.mpr upper)]
    rfl

theorem isName_snakeCase {text : String} (named : isName text = true) : isName (snakeCase text) = true := by
  obtain ⟨word, c, head, digit⟩ := (isName_iff text).mp named
  refine (isName_iff _).mpr ⟨isWord_snakeCase word, c.toLower, ?_, ?_⟩
  · obtain ⟨rest, chars⟩ := List.head?_eq_some_iff.mp head
    have first := word c (by simp [chars])
    rw [snakeCase, String.toList_ofList, chars, head?_snakeChars rest first]
  · rw [isDigit_toLower, digit]

theorem isName_upperCase {text : String} (named : isName text = true) : isName (upperCase text) = true := by
  obtain ⟨word, c, head, digit⟩ := (isName_iff text).mp named
  refine (isName_iff _).mpr ⟨?_, c.toUpper, ?_, ?_⟩
  · intro d mem
    rw [upperCase, String.toList_ofList] at mem
    obtain ⟨e, inside, rfl⟩ := List.mem_map.mp mem
    exact toUpper_of_word (word e inside)
  · rw [upperCase, String.toList_ofList, List.head?_map, head, Option.map_some]
  · rw [isDigit_toUpper, digit]

theorem head?_pascalChars (text : List Char) :
    (pascalChars text).head? = ((text.dropWhile isWordBreak).head?).map Char.toUpper := by
  induction text with
  | nil => rfl
  | cons c rest ih =>
    by_cases broken : isWordBreak c = true
    · have split : splitWords (c :: rest) = [] :: splitWords rest := by rw [splitWords, if_pos broken]
      rw [pascalChars, split, List.flatMap_cons, capitalizeWord, List.nil_append,
        List.dropWhile_cons_of_pos broken]
      exact ih
    · rw [List.dropWhile_cons_of_neg broken, pascalChars, splitWords, if_neg broken]
      split <;> simp [capitalizeWord]

theorem isDigit_head?_pascalCase {symbol : String} {c : Char}
    (head : (pascalCase symbol).toList.head? = some c) : c.isDigit = true ↔ BeginsWithDigit symbol := by
  rw [pascalCase, String.toList_ofList, head?_pascalChars] at head
  obtain ⟨d, first, rfl⟩ := Option.map_eq_some_iff.mp head
  rw [isDigit_toUpper, BeginsWithDigit, first]
  simp

theorem isIdentifier_escapeKeyword {word : String} (named : isName word = true) :
    IsIdentifier (escapeKeyword word) := by
  have bare : ∀ w ∈ bareWords, isName (w ++ "_") = true ∧ w ++ "_" ∉ Code.reservedWords := by decide
  have reserved : ∀ w ∈ Code.reservedWords, w ∈ bareWords ∨ w ∈ keywords := by decide
  have never : ∀ w ∈ Code.neverRaw, w ∈ bareWords := by decide
  unfold escapeKeyword
  split
  · rename_i mem
    exact Or.inl (bare word mem)
  · rename_i notBare
    split
    · exact Or.inr ⟨word, rfl, named, fun mem => notBare (never word mem)⟩
    · rename_i notKeyword
      exact Or.inl ⟨named, fun mem => (reserved word mem).elim notBare notKeyword⟩

theorem isIdentifier_append {start word : String} (named : isName start = true)
    (free : ∀ w ∈ Code.reservedWords, ¬start.toList <+: w.toList) (typed : IsWord word) :
    IsIdentifier (start ++ word) := by
  refine Or.inl ⟨isName_append named typed, fun mem => free _ mem ?_⟩
  rw [String.toList_append]
  exact List.prefix_append _ _

theorem isIdentifier_sizeConstant {name : String} (named : isName name = true) :
    IsIdentifier (sizeConstant name) := by
  have free : ∀ w ∈ Code.reservedWords, ¬"_SIZE".toList <:+ w.toList := by decide
  have lettered := isName_upperCase (isName_snakeCase named)
  refine Or.inl ⟨isName_append lettered (by decide), fun mem => free _ mem ?_⟩
  rw [sizeConstant, String.toList_append]
  exact List.suffix_append _ _

theorem isName_moduleName {name : String} (named : isName name = true) :
    isName (moduleName name) = true := by
  unfold moduleName
  split
  · exact isName_append (isName_snakeCase named) (by decide)
  · exact isName_snakeCase named

theorem not_isIdentifier_of_digit {text : String} {c : Char} (head : text.toList.head? = some c)
    (digit : c.isDigit = true) : ¬IsIdentifier text := by
  rintro (⟨named, -⟩ | ⟨word, rfl, -⟩)
  · obtain ⟨-, d, head', other⟩ := (isName_iff text).mp named
    cases Option.some.inj (head.symm.trans head')
    rw [digit] at other
    cases other
  · rw [String.toList_append] at head
    cases Option.some.inj head
    cases digit

/-- A symbol that begins with a digit gives a variant that does, and no escape is made for it. -/
theorem isIdentifier_variantName_iff {symbol : String} (named : isName symbol = true)
    (letters : pascalCase symbol ≠ "") :
    IsIdentifier (variantName symbol) ↔ ¬BeginsWithDigit symbol := by
  have word := isWord_pascalCase (isWord_of_isName named)
  have chars : (pascalCase symbol).toList ≠ [] := fun nil => letters (String.toList_eq_nil_iff.mp nil)
  obtain ⟨c, rest, eq⟩ := List.exists_cons_of_ne_nil chars
  have head : (pascalCase symbol).toList.head? = some c := by rw [eq, List.head?_cons]
  rw [← isDigit_head?_pascalCase head]
  constructor
  · intro identifier digit
    have free : ∀ w ∈ bareWords ++ keywords, w.toList.head?.any Char.isDigit = false := by decide
    have plain : escapeKeyword (pascalCase symbol) = pascalCase symbol := by
      have apart : pascalCase symbol ∉ bareWords ++ keywords := by
        intro mem
        have other := free _ mem
        rw [head, Option.any_some, digit] at other
        cases other
      rw [List.mem_append, not_or] at apart
      rw [escapeKeyword, if_neg apart.1, if_neg apart.2]
    rw [variantName, plain] at identifier
    exact not_isIdentifier_of_digit head digit identifier
  · intro digit
    exact isIdentifier_escapeKeyword
      ((isName_iff _).mpr ⟨word, c, head, Bool.eq_false_iff.mpr digit⟩)

/-- The names that generated code takes from a name are identifiers: the member of a field, the variant of a
symbol unless the symbol begins with a digit, and all that is named after a type. -/
theorem names_in_code_are_identifiers (name : String) (named : isName name = true) :
    IsIdentifier (memberName name) ∧
    (∀ owner symbols type, Enumeration.make owner symbols = .ok type → name ∈ symbols →
      (IsIdentifier (variantName name) ↔ ¬BeginsWithDigit name)) ∧
    (checkTypeName name = .ok () →
      IsIdentifier name ∧ IsIdentifier (escapeKeyword (moduleName name)) ∧
      IsIdentifier (writerName name) ∧ IsIdentifier (readerName name) ∧
      IsIdentifier (deserializerName name) ∧ IsIdentifier (sizeConstant name)) := by
  refine ⟨isIdentifier_escapeKeyword (isName_snakeCase named), fun owner symbols type made mem => ?_,
    fun checked => ?_⟩
  · have letters := (Enumeration.named_of_make made).2 name mem
    exact isIdentifier_variantName_iff named letters
  · have word := isWord_snakeCase (isWord_of_isName named)
    obtain ⟨-, escaped, -, -⟩ := (checkTypeName_eq_ok_iff name).mp checked
    have itself := isIdentifier_escapeKeyword named
    rw [escaped] at itself
    exact ⟨itself, isIdentifier_escapeKeyword (isName_moduleName named),
      isIdentifier_append (by decide) (by decide) word, isIdentifier_append (by decide) (by decide) word,
      isIdentifier_append (by decide) (by decide) word, isIdentifier_sizeConstant named⟩

def level : Enumeration where
  name := "Level"
  symbols := ["LOW", "_1"]

theorem level_made : Enumeration.make "Level" ["LOW", "_1"] = .ok level := by
  have declarable : Declarable "Level" := by decide
  have faultless : Enumeration.symbolFault? [] ["LOW", "_1"] = none := by decide
  exact Enumeration.make_of_declarable declarable (List.cons_ne_nil _ _) faultless

theorem level_in_code :
    IsIdentifier (memberName "type") ∧ IsIdentifier (variantName "LOW") ∧
      IsIdentifier (sizeConstant "Level") := by
  have checked : checkTypeName "Level" = .ok () := (checkTypeName_eq_ok_iff _).mpr (by decide)
  obtain ⟨member, -, -⟩ := names_in_code_are_identifiers "type" (by decide)
  obtain ⟨-, variant, -⟩ := names_in_code_are_identifiers "LOW" (by decide)
  obtain ⟨-, -, type⟩ := names_in_code_are_identifiers "Level" (by decide)
  obtain ⟨-, -, -, -, -, size⟩ := type checked
  refine ⟨member, (variant _ _ _ level_made (by decide)).mpr ?_, size⟩
  rintro ⟨c, head, digit⟩
  cases head
  cases digit

def levelText : String :=
  "\x7b\"type\":\"enum\",\"name\":\"Level\",\"symbols\":[\"LOW\",\"_1\"]\x7d"

def levelNamespace : Namespace where
  types := (∅ : Keyed String NamedType).insert "Level" (.enumeration level)

theorem levelText_eq : levelText = (Schema.enumeration level).text := by
  decide

theorem levelText_reads : (readDocuments [levelText]).runFrom .empty = (.ok (), levelNamespace) := by
  rw [levelText_eq]
  exact readDocuments_text (by decide) (by decide) (Schema.run_enumeration rfl)

/-- An enumeration that is read and has a variant that is no identifier. -/
theorem level_variant_is_no_identifier :
    (readDocuments [levelText]).runFrom .empty = (.ok (), levelNamespace) ∧
      Enumeration.make "Level" ["LOW", "_1"] = .ok level ∧ isName "_1" = true ∧
      ¬IsIdentifier (variantName "_1") := by
  refine ⟨levelText_reads, level_made, by decide, ?_⟩
  rw [isIdentifier_variantName_iff (by decide) (by decide)]
  exact not_not_intro ⟨'1', rfl, rfl⟩

end AvroCompiler

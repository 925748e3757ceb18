import AvroCompiler.Proofs.Emit.Template
import AvroCompiler.Proofs.Identifier

namespace AvroCompiler

open Token (IsSpelled)

theorem IsWord.isSpelled {text : String} (h : IsWord text) (nonempty : text ≠ "") : IsSpelled text := by
  refine ⟨nonempty, fun c mem => ?_⟩
  rcases h c mem with alnum | rfl
  · simp [Token.isLetter, alnum]
  · rfl

theorem isSpelled_of_isName {name : String} (h : isName name = true) : IsSpelled name :=
  (isWord_of_isName h).isSpelled (ne_empty_of_isName h)

theorem append_ne_empty {a : String} (nonempty : a ≠ "") (b : String) : a ++ b ≠ "" := by
  intro eq
  exact nonempty (String.append_eq_empty_iff.mp eq).1

theorem isSpelled_repr (n : Nat) : IsSpelled n.repr := by
  refine IsWord.isSpelled ?_ Nat.repr_ne_empty
  intro c mem
  rw [Nat.toList_repr] at mem
  have digit := Nat.isDigit_of_mem_toDigits (by decide) (by decide) mem
  exact Or.inl (isAlphanum_iff.mpr (Or.inr digit))

theorem snakeCase_ne_empty {name : String} (h : isName name = true) : snakeCase name ≠ "" := by
  intro eq
  have chars : name.toList ≠ [] := fun nil => ne_empty_of_isName h (String.toList_eq_nil_iff.mp nil)
  have none : snakeChars false name.toList = [] := by
    rw [← String.toList_ofList (l := snakeChars false name.toList)]
    exact String.toList_eq_nil_iff.mpr eq
  obtain ⟨c, rest, eq⟩ := List.exists_cons_of_ne_nil chars
  rw [eq, snakeChars] at none
  split at none
  · simp at none
  · split at none <;> simp at none

theorem isSpelled_escapeKeyword {word : String} (h : IsWord word) (nonempty : word ≠ "") :
    IsSpelled (escapeKeyword word) := by
  unfold escapeKeyword
  split
  · exact (h.append (by decide)).isSpelled (append_ne_empty nonempty "_")
  · split
    · obtain ⟨_, letters⟩ := h.isSpelled nonempty
      have raw : ∀ c ∈ "r#".toList, Token.isLetter c = true := by simp [Token.isLetter]
      refine ⟨append_ne_empty (show "r#" ≠ "" by decide) word, ?_⟩
      rw [String.toList_append]
      exact List.forall_mem_append.mpr ⟨raw, letters⟩
    · exact h.isSpelled nonempty

theorem Field.isSpelled_member {field : Field} (h : isName field.name = true) : IsSpelled field.member :=
  isSpelled_escapeKeyword (isWord_snakeCase (isWord_of_isName h)) (snakeCase_ne_empty h)

theorem isSpelled_deserializerName {record : String} (h : isName record = true) :
    IsSpelled (deserializerName record) := by
  have word := IsWord.append (show IsWord "deserialize_" by decide) (isWord_snakeCase (isWord_of_isName h))
  exact word.isSpelled (append_ne_empty (by decide) _)

theorem mem_of_mem_splitWords {text piece : List Char} (h : piece ∈ splitWords text) {c : Char}
    (mem : c ∈ piece) : c ∈ text := by
  induction text generalizing piece with
  | nil =>
    cases List.mem_singleton.mp h
    exact mem
  | cons d text ih =>
    rw [splitWords] at h
    split at h
    · rcases List.mem_cons.mp h with rfl | h
      · cases mem
      · exact List.mem_cons_of_mem d (ih h mem)
    · split at h
      · cases List.mem_singleton.mp h
        cases List.mem_singleton.mp mem
        exact List.mem_cons_self
      · rename_i piece' pieces eq
        rw [eq] at ih
        rcases List.mem_cons.mp h with rfl | h
        · rcases List.mem_cons.mp mem with rfl | mem
          · exact List.mem_cons_self
          · exact List.mem_cons_of_mem d (ih List.mem_cons_self mem)
        · exact List.mem_cons_of_mem d (ih (List.mem_cons_of_mem piece' h) mem)

theorem toUpper_of_word {c : Char} (h : c.isAlphanum = true ∨ c = '_') :
    c.toUpper.isAlphanum = true ∨ c.toUpper = '_' := by
  cases lower : c.isLower with
  | false => rwa [toUpper_eq_self lower]
  | true => exact Or.inl (isAlphanum_iff.mpr (Or.inl (isAlpha_iff.mpr (Or.inl (isUpper_toUpper lower)))))

theorem toLower_of_word {c : Char} (h : c.isAlphanum = true ∨ c = '_') :
    c.toLower.isAlphanum = true ∨ c.toLower = '_' := by
  cases upper : c.isUpper with
  | false => rwa [toLower_eq_self upper]
  | true => exact Or.inl (isAlphanum_iff.mpr (Or.inl (isAlpha_iff.mpr (Or.inr (isLower_toLower upper)))))

theorem isWord_pascalCase {symbol : String} (h : IsWord symbol) : IsWord (pascalCase symbol) := by
  intro c mem
  rw [pascalCase, String.toList_ofList, pascalChars] at mem
  obtain ⟨piece, split, mem⟩ := List.mem_flatMap.mp mem
  have word : ∀ d ∈ piece, d.isAlphanum = true ∨ d = '_' := fun d inside =>
    h d (mem_of_mem_splitWords split inside)
  cases piece with
  | nil => cases mem
  | cons first rest =>
    obtain ⟨head, tail⟩ := List.forall_mem_cons.mp word
    rw [capitalizeWord] at mem
    rcases List.mem_cons.mp mem with rfl | mem
    · exact toUpper_of_word head
    · split at mem
      · exact tail c mem
      · obtain ⟨d, inside, rfl⟩ := List.mem_map.mp mem
        exact toLower_of_word (tail d inside)

theorem isShown_of_alphanum {c : Char} (h : c.isAlphanum = true) : isShown c = true := by
  have bounds : 0x20 ≤ c.toNat ∧ c.toNat < 0x7F := by
    simp only [isAlphanum_iff, isAlpha_iff, isUpper_iff, isLower_iff, Char.isDigit_iff_toNat,
      Char.reduceToNat] at h
    omega
  simp [isShown, bounds]

theorem quoteChar_of_word {c : Char} (h : c.isAlphanum = true ∨ c = '_') : quoteChar c = c.toString := by
  rcases h with alnum | rfl
  · have plain (d : Char) (sign : d.isAlphanum = false) : c ≠ d := by
      rintro rfl
      exact absurd alnum (by simp [sign])
    rw [quoteChar, if_neg (plain _ (by decide)), if_neg (plain _ (by decide)), if_neg (plain _ (by decide)),
      if_neg (plain _ (by decide)), if_neg (plain _ (by decide)), if_neg (plain _ (by decide)),
      if_pos (isShown_of_alphanum alnum)]
  · decide

theorem quote_of_word {text : String} (h : IsWord text) : quote text = "\"" ++ text ++ "\"" := by
  have plain : text.toList.map quoteChar = text.toList.map Char.toString :=
    List.map_congr_left fun c mem => quoteChar_of_word (h c mem)
  have joined : String.join (text.toList.map Char.toString) = text := by
    rw [← String.toList_inj, String.toList_join, List.flatMap_map]
    simp
  rw [quote, plain, joined]

theorem isSpelled_variantName {symbol : String} (h : isName symbol = true) (named : pascalCase symbol ≠ "") :
    IsSpelled (variantName symbol) :=
  isSpelled_escapeKeyword (isWord_pascalCase (isWord_of_isName h)) named

namespace Shape

theorem spelled_of_components {shape : Shape}
    (named : ∀ name, shape.typeName? = some name → isName name = true)
    (inner : ∀ component ∈ shape.components, component.Spelled) : shape.Spelled := by
  intro part within
  cases within with
  | self => exact named
  | inside mem within => exact inner _ mem part within

theorem spelled_union {branches : List Shape} (h : ∀ branch ∈ branches, branch.Spelled) :
    (union branches).Spelled :=
  spelled_of_components nofun h

theorem Spelled.canonicalName_ne_empty {shape : Shape} (h : shape.Spelled) : shape.canonicalName ≠ "" := by
  cases shape with
  | primitive kind => cases kind <;> decide
  | fixed type => exact ne_empty_of_isName (h.typeName rfl)
  | enumeration type => exact ne_empty_of_isName (h.typeName rfl)
  | record name => exact ne_empty_of_isName (h.typeName rfl)
  | array items => exact append_ne_empty (by decide) _
  | map values => exact append_ne_empty (by decide) _
  | union branches => exact append_ne_empty (by decide) _

theorem Spelled.isSpelled_canonicalName {shape : Shape} (h : shape.Spelled) :
    IsSpelled shape.canonicalName :=
  h.canonicalName_isWord.isSpelled h.canonicalName_ne_empty

theorem Spelled.isSpelled_writer {shape : Shape} (h : shape.Spelled) : IsSpelled shape.writer := by
  have word := IsWord.append (show IsWord "write_" by decide) (isWord_snakeCase h.canonicalName_isWord)
  exact word.isSpelled (append_ne_empty (by decide) _)

theorem Spelled.isSpelled_reader {shape : Shape} (h : shape.Spelled) : IsSpelled shape.reader := by
  have word := IsWord.append (show IsWord "read_" by decide) (isWord_snakeCase h.canonicalName_isWord)
  exact word.isSpelled (append_ne_empty (by decide) _)

end Shape

end AvroCompiler

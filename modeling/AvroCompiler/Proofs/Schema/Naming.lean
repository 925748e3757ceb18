import AvroCompiler.Proofs.Schema.Induction
import Mathlib.Data.List.TakeWhile

namespace AvroCompiler

/-- A name under which a type may be declared. -/
structure TypeName (name : String) : Prop where
  spelled : isName name = true
  declarable : Declarable name

theorem checkTypeName_eq_ok_iff (name : String) : checkTypeName name = .ok () ↔ Declarable name := by
  unfold checkTypeName
  split <;> simp [*]

def IsWord (text : String) : Prop :=
  ∀ c ∈ text.toList, c.isAlphanum = true ∨ c = '_'

instance (text : String) : Decidable (IsWord text) :=
  decidable_of_iff (text.toList.all fun c => c.isAlphanum || c = '_') (by simp [IsWord])

theorem IsWord.append {a b : String} (ha : IsWord a) (hb : IsWord b) : IsWord (a ++ b) := by
  intro c mem
  rw [String.toList_append] at mem
  exact (List.mem_append.mp mem).elim (ha c) (hb c)

theorem isWord_of_isName {name : String} (spelled : isName name = true) : IsWord name := by
  unfold isName at spelled
  intro c mem
  split at spelled
  · cases spelled
  · rename_i first rest eq
    simp only [Bool.and_eq_true, Bool.or_eq_true, decide_eq_true_eq, List.all_eq_true] at spelled
    rw [eq] at mem
    rcases List.mem_cons.mp mem with rfl | mem
    · exact spelled.1.imp_left fun alpha => by simp [Char.isAlphanum, alpha]
    · exact spelled.2 c mem

theorem ne_empty_of_isName {name : String} (spelled : isName name = true) : name ≠ "" := by
  rintro rfl
  cases spelled

theorem TypeName.isWord {name : String} (h : TypeName name) : IsWord name :=
  isWord_of_isName h.spelled

theorem TypeName.ne_empty {name : String} (h : TypeName name) : name ≠ "" :=
  ne_empty_of_isName h.spelled

mutual

/-- The types of a schema have proper names. A record is only checked once its fields are read. -/
def Schema.Proper : Schema → Prop
  | .fixed type => TypeName type.name
  | .enumeration type => TypeName type.name
  | .array items => items.Proper
  | .map values => values.Proper
  | .union branches => Schema.ProperAll branches
  | .record name _ fields => isName name = true ∧ fields.Proper
  | .invalid _ | .primitive _ | .reference _ => True

def Schema.ProperAll : List Schema → Prop
  | [] => True
  | schema :: schemas => schema.Proper ∧ Schema.ProperAll schemas

def FieldSchemas.Proper : FieldSchemas → Prop
  | .done | .invalid _ => True
  | .cons _ _ schema rest => schema.Proper ∧ rest.Proper

end

theorem isName_of_checkName {name result : String} (h : checkName name = .ok result) :
    isName result = true := by
  unfold checkName at h
  split at h
  · rename_i named
    cases h
    exact named
  · cases h

theorem isName_of_requiredName {members : Json.Members} {name : String}
    (h : requiredName members = .ok name) : isName name = true := by
  unfold requiredName at h
  split at h
  · exact isName_of_checkName h
  · cases h

theorem ne_dot_of_isName {name : String} (spelled : isName name = true) :
    ∀ c ∈ name.toList.reverse, decide (c ≠ '.') = true := by
  intro c mem
  refine decide_eq_true ?_
  rintro rfl
  exact absurd (isWord_of_isName spelled '.' (List.mem_reverse.mp mem)) (by decide)

theorem shortName_of_isName {name : String} (spelled : isName name = true) : shortName name = name := by
  rw [shortName, List.takeWhile_eq_self_iff.mpr (ne_dot_of_isName spelled), List.reverse_reverse,
    String.ofList_toList]

theorem checkName_of_isName {name : String} (spelled : isName name = true) :
    checkName name = .ok name :=
  if_pos spelled

theorem requiredName_of_isName {members : Json.Members} {name : String}
    (named : Json.stringMember? "name" members = some name) (spelled : isName name = true) :
    requiredName members = .ok name := by
  rw [requiredName, named]
  dsimp only
  rw [shortName_of_isName spelled, checkName_of_isName spelled]

theorem Fixed.of_make {name : String} {size : Nat} {type : Fixed} (h : make name size = .ok type) :
    type.name = name ∧ Declarable name := by
  unfold make at h
  split at h
  · rename_i declarable
    cases h
    exact ⟨rfl, declarable⟩
  · cases h

theorem Enumeration.of_make {name : String} {symbols : List String} {type : Enumeration}
    (h : make name symbols = .ok type) : type.name = name ∧ Declarable name := by
  unfold make at h
  split at h
  · cases h
  · rename_i declarable
    split at h
    · cases h
    · split at h
      · cases h
      · cases h
        exact ⟨rfl, Decidable.not_not.mp declarable⟩

theorem Record.of_make {name : String} {doc : Option String} {fields : List Field} {record : Record}
    (h : make name doc fields = .ok record) :
    record = ⟨name, doc, fields⟩ ∧ Declarable name := by
  unfold make at h
  split at h
  · cases h
  · rename_i declarable
    split at h
    · cases h
    · cases h
      exact ⟨rfl, Decidable.not_not.mp declarable⟩

theorem exists_ok_of_bind {α β : Type} {first : Except Error α} {rest : α → Except Error β} {b : β}
    (h : first >>= rest = .ok b) : ∃ a, first = .ok a ∧ rest a = .ok b := by
  cases first with
  | error error => cases h
  | ok a => exact ⟨a, rfl, h⟩

theorem typeName_of_readEnumeration {members : Json.Members} {type : Enumeration}
    (h : readEnumeration members = .ok type) : TypeName type.name := by
  obtain ⟨name, named, h⟩ := exists_ok_of_bind h
  split at h
  · obtain ⟨symbols, _, made⟩ := exists_ok_of_bind h
    obtain ⟨rfl, declarable⟩ := Enumeration.of_make made
    exact ⟨isName_of_requiredName named, declarable⟩
  · cases h

theorem typeName_of_readFixed {members : Json.Members} {type : Fixed}
    (h : readFixed members = .ok type) : TypeName type.name := by
  obtain ⟨name, named, h⟩ := exists_ok_of_bind h
  split at h
  · obtain ⟨rfl, declarable⟩ := Fixed.of_make h
    exact ⟨isName_of_requiredName named, declarable⟩
  · cases h

theorem Schema.properAll_of_forall {schemas : List Schema} (h : ∀ schema ∈ schemas, schema.Proper) :
    Schema.ProperAll schemas := by
  induction schemas with
  | nil => trivial
  | cons schema schemas ih =>
    obtain ⟨first, others⟩ := List.forall_mem_cons.mp h
    exact ⟨first, ih others⟩

theorem Schema.proper_kept : Schema.KeptByReading Schema.Proper FieldSchemas.Proper where
  invalid _ := trivial
  primitive _ := trivial
  reference _ := trivial
  fixed := typeName_of_readFixed
  enumeration := typeName_of_readEnumeration
  array := id
  map := id
  union := Schema.properAll_of_forall
  record _ _ named proper := ⟨isName_of_requiredName named, proper⟩
  done := trivial
  malformed _ := trivial
  cons _ _ _ _ proper proper' := ⟨proper, proper'⟩

theorem Document.proper_ofJson (value : Json.Value) : Schema.ProperAll (Document.ofJson value) :=
  Schema.properAll_of_forall (Document.holds_ofJson Schema.proper_kept value)

end AvroCompiler

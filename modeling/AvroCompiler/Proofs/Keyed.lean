import AvroCompiler.Keyed

namespace AvroCompiler

variable {κ β : Type}

theorem Increasing.keys_nodup [KeyOrder κ] {entries : List (κ × β)} (h : Increasing entries) :
    (entries.map Prod.fst).Nodup := by
  refine List.pairwise_map.mpr (h.imp ?_)
  intro a b lt eq
  exact KeyOrder.irrefl b.1 (eq ▸ lt)

theorem mem_of_lookup_eq_some [DecidableEq κ] {entries : List (κ × β)} {key : κ} {value : β}
    (h : entries.lookup key = some value) : (key, value) ∈ entries := by
  obtain ⟨before, after, rfl, -⟩ := List.lookup_eq_some_iff.mp h
  simp

theorem lookup_eq_some_of_mem [DecidableEq κ] {entries : List (κ × β)} {key : κ} {value : β}
    (nodup : (entries.map Prod.fst).Nodup) (mem : (key, value) ∈ entries) :
    entries.lookup key = some value := by
  induction entries with
  | nil => simp at mem
  | cons head rest ih =>
    obtain ⟨fresh, nodup⟩ := List.nodup_cons.mp nodup
    rcases List.mem_cons.mp mem with rfl | mem
    · exact List.lookup_cons_self
    · have ne : (key == head.1) = false := by
        simp only [beq_eq_false_iff_ne]
        rintro rfl
        exact fresh (List.mem_map.mpr ⟨_, mem, rfl⟩)
      rw [List.lookup_cons, ne]
      exact ih nodup mem

theorem lookup_eq_some_iff_mem [DecidableEq κ] {entries : List (κ × β)}
    (nodup : (entries.map Prod.fst).Nodup) (key : κ) (value : β) :
    entries.lookup key = some value ↔ (key, value) ∈ entries :=
  ⟨mem_of_lookup_eq_some, lookup_eq_some_of_mem nodup⟩

theorem lookup_perm [DecidableEq κ] {entries others : List (κ × β)} (perm : entries.Perm others)
    (nodup : (entries.map Prod.fst).Nodup) (key : κ) : entries.lookup key = others.lookup key := by
  have nodup' : (others.map Prod.fst).Nodup := (perm.map Prod.fst).nodup_iff.mp nodup
  apply Option.ext
  intro value
  rw [lookup_eq_some_iff_mem nodup, lookup_eq_some_iff_mem nodup', perm.mem_iff]

namespace Keyed

theorem get?_eq_some_iff_mem [KeyOrder κ] [DecidableEq κ] {keyed : Keyed κ β} {key : κ} {value : β} :
    keyed.get? key = some value ↔ (key, value) ∈ keyed.entries :=
  lookup_eq_some_iff_mem keyed.increasing.keys_nodup key value

theorem nodup_entries [KeyOrder κ] (keyed : Keyed κ β) : keyed.entries.Nodup :=
  (List.pairwise_map.mp keyed.increasing.keys_nodup).imp fun ne eq => ne (congrArg Prod.fst eq)

theorem ext_get? [KeyOrder κ] [DecidableEq κ] {a b : Keyed κ β}
    (h : ∀ key, a.get? key = b.get? key) : a = b := by
  have mem (entry : κ × β) : entry ∈ a.entries ↔ entry ∈ b.entries := by
    rw [← get?_eq_some_iff_mem, ← get?_eq_some_iff_mem, h]
  have perm : a.entries.Perm b.entries :=
    (List.perm_ext_iff_of_nodup a.nodup_entries b.nodup_entries).mpr mem
  have eq : a.entries = b.entries := by
    refine perm.eq_of_pairwise ?_ a.increasing b.increasing
    intro x y _ _ lt gt
    exact absurd (KeyOrder.trans lt gt) (KeyOrder.irrefl x.1)
  obtain ⟨_, _⟩ := a
  obtain ⟨_, _⟩ := b
  cases eq
  rfl

theorem get?_empty [LT κ] [DecidableEq κ] (key : κ) : (∅ : Keyed κ β).get? key = none := rfl

theorem get?_foldl_insert [KeyOrder κ] [DecidableEq κ] {entries : List (κ × β)} (keyed : Keyed κ β)
    (nodup : (entries.map Prod.fst).Nodup) (key : κ) :
    (entries.foldl (fun keyed entry => keyed.insert entry.1 entry.2) keyed).get? key =
      (entries.lookup key).or (keyed.get? key) := by
  induction entries generalizing keyed with
  | nil => rfl
  | cons head rest ih =>
    obtain ⟨fresh, nodup⟩ := List.nodup_cons.mp nodup
    rw [List.foldl_cons, ih _ nodup, get?_insert, List.lookup_cons]
    by_cases eq : key = head.1
    · subst eq
      have none : rest.lookup head.1 = none := by
        apply Option.eq_none_iff_forall_ne_some.mpr
        intro value found
        exact fresh (List.mem_map.mpr ⟨_, mem_of_lookup_eq_some found, rfl⟩)
      simp [none]
    · have ne : (key == head.1) = false := by simpa using eq
      simp [eq, ne]

end Keyed

end AvroCompiler

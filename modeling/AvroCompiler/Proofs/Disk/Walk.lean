import AvroCompiler.Proofs.Disk.Location
import AvroCompiler.Proofs.Keyed
import Mathlib.Data.String.Basic

namespace AvroCompiler

namespace FileTree

/-- As a file system has it: each folder has one entry of a name, and a name is a piece of a path. -/
inductive WellNamed : FileTree → Prop
  | file (bytes : List UInt8) : WellNamed (file bytes)
  | directory {entries : List (String × FileTree)} (nodup : (entries.map Prod.fst).Nodup)
      (names : ∀ entry ∈ entries, IsEntryName entry.1 ∧ isTooLong entry.1 = false)
      (inner : ∀ entry ∈ entries, WellNamed entry.2) : WellNamed (directory entries)

variable {tree inner : FileTree} {place here : Location}

theorem find?_append (held : tree.get? here = some inner) (place : Location) :
    tree.find? (here ++ place) = inner.find? place := by
  induction here generalizing tree with
  | nil =>
    rw [get?, Option.some.injEq] at held
    rw [List.nil_append, held]
  | cons name rest ih =>
    cases tree with
    | file bytes => cases held
    | directory entries =>
      rw [List.cons_append, find?_directory_cons]
      rw [get?] at held
      cases entry : entries.lookup name with
      | none => simp [entry] at held
      | some below =>
        rw [entry] at held
        exact ih held

theorem WellNamed.get? (named : tree.WellNamed) (held : tree.get? place = some inner) : inner.WellNamed := by
  induction named generalizing place with
  | file bytes =>
    cases place with
    | nil => exact Option.some.inj held ▸ .file bytes
    | cons name rest => cases held
  | @directory entries nodup names below ih =>
    cases place with
    | nil => exact Option.some.inj held ▸ .directory nodup names below
    | cons name rest =>
      rw [FileTree.get?] at held
      cases entry : entries.lookup name with
      | none => simp [entry] at held
      | some tree =>
        rw [entry] at held
        exact ih _ (mem_of_lookup_eq_some entry) held

theorem WellNamed.entry_names (named : tree.WellNamed) {kind : Found} (held : tree.find? place = some kind) :
    ∀ name ∈ place, IsEntryName name ∧ isTooLong name = false := by
  induction named generalizing place with
  | file bytes => cases place <;> simp at held ⊢
  | @directory entries nodup names inner ih =>
    cases place with
    | nil => simp
    | cons name rest =>
      rw [find?_directory_cons] at held
      obtain ⟨tree, entry, held⟩ := Option.bind_eq_some_iff.mp held
      have mem := mem_of_lookup_eq_some entry
      exact List.forall_mem_cons.mpr ⟨names _ mem, ih _ mem held⟩

theorem filesOf_eq_map (entries : List (String × FileTree)) :
    filesOf entries = entries.map fun entry => (entry.1, entry.2.files) := by
  induction entries with
  | nil => rfl
  | cons entry rest ih => rw [filesOf, ih, List.map_cons]

theorem byName_perm {α : Type} (entries : List (String × α)) : (byName entries).Perm entries :=
  List.mergeSort_perm _ _

theorem mem_files_directory {entries : List (String × FileTree)} {file : Location × List UInt8} :
    file ∈ (directory entries).files ↔
      ∃ entry ∈ entries, ∃ below ∈ entry.2.files, (entry.1 :: below.1, below.2) = file := by
  simp only [files, List.mem_flatMap, (byName_perm _).mem_iff, filesOf_eq_map, List.mem_map,
    exists_exists_and_eq_and]

theorem mem_files_iff (named : tree.WellNamed) {bytes : List UInt8} :
    (place, bytes) ∈ tree.files ↔ tree.find? place = some (.file bytes) := by
  induction named generalizing place with
  | file held => cases place <;> simp [files, found, eq_comm]
  | @directory entries nodup names inner ih =>
    rw [mem_files_directory]
    cases place with
    | nil => simp [found]
    | cons name rest =>
      rw [find?_directory_cons, Option.bind_eq_some_iff]
      constructor
      · rintro ⟨entry, mem, below, file, eq⟩
        cases eq
        exact ⟨entry.2, lookup_eq_some_of_mem nodup mem, (ih entry mem).mp file⟩
      · rintro ⟨tree, entry, file⟩
        have mem := mem_of_lookup_eq_some entry
        exact ⟨_, mem, _, (ih _ mem).mpr file, rfl⟩

theorem byName_increasing {α : Type} {entries : List (String × α)} (nodup : (entries.map Prod.fst).Nodup) :
    (byName entries).Pairwise fun a b => a.1 < b.1 := by
  have trans (a b c : String × α) (ab : decide (a.1 ≤ b.1) = true) (bc : decide (b.1 ≤ c.1) = true) :
      decide (a.1 ≤ c.1) = true :=
    decide_eq_true ((of_decide_eq_true ab).trans (of_decide_eq_true bc))
  have total (a b : String × α) : (decide (a.1 ≤ b.1) || decide (b.1 ≤ a.1)) = true := by
    simpa using le_total a.1 b.1
  have sorted := List.pairwise_mergeSort trans total entries
  have apart := List.pairwise_map.mp (((byName_perm entries).map Prod.fst).nodup_iff.mpr nodup)
  exact (sorted.and apart).imp fun ⟨le, ne⟩ => lt_of_le_of_ne (of_decide_eq_true le) ne

theorem byName_eq {α : Type} {entries sorted : List (String × α)} (perm : sorted.Perm entries)
    (increasing : sorted.Pairwise fun a b => a.1 < b.1) : byName entries = sorted := by
  have nodup : (sorted.map Prod.fst).Nodup := List.pairwise_map.mpr (increasing.imp ne_of_lt)
  have increasing' := byName_increasing ((perm.map Prod.fst).nodup_iff.mp nodup)
  have perm' := (byName_perm entries).trans perm.symm
  exact perm'.eq_of_pairwise (fun a b _ _ lt lt' => absurd lt' lt.asymm) increasing' increasing

theorem files_directory {entries sorted : List (String × FileTree)} (perm : sorted.Perm entries)
    (increasing : sorted.Pairwise fun a b => a.1 < b.1) : (directory entries).files =
      sorted.flatMap fun entry => entry.2.files.map fun file => (entry.1 :: file.1, file.2) := by
  have order : byName (filesOf entries) = filesOf sorted := by
    rw [filesOf_eq_map, filesOf_eq_map]
    exact byName_eq (perm.map _) (List.pairwise_map.mpr increasing)
  rw [files, order, filesOf_eq_map, List.flatMap_map]

/-- The walk goes through the locations in their order. -/
theorem files_increasing (named : tree.WellNamed) : (tree.files.map Prod.fst).Pairwise (· < ·) := by
  induction named with
  | file bytes => exact List.pairwise_singleton _ _
  | @directory entries nodup names inner ih =>
    have heads : ((filesOf entries).map Prod.fst).Nodup := by
      rw [filesOf_eq_map, List.map_map]
      exact nodup
    rw [files, List.map_flatMap, List.pairwise_flatMap]
    constructor
    · -- Below one entry all locations start with its name.
      intro entry mem
      rw [(byName_perm _).mem_iff, filesOf_eq_map, List.mem_map] at mem
      obtain ⟨entry, mem, rfl⟩ := mem
      rw [List.map_map]
      exact (List.pairwise_map.mp (ih entry mem)).map _ fun a b lt => List.cons_lt_cons_iff.mpr (.inr ⟨rfl, lt⟩)
    · refine (byName_increasing heads).imp fun lt place mem place' mem' => ?_
      obtain ⟨_, file, rfl⟩ := List.mem_map.mp mem
      obtain ⟨_, _, rfl⟩ := List.mem_map.mp file
      obtain ⟨_, file', rfl⟩ := List.mem_map.mp mem'
      obtain ⟨_, _, rfl⟩ := List.mem_map.mp file'
      exact List.cons_lt_cons_iff.mpr (.inl lt)

end FileTree

end AvroCompiler

import AvroCompiler.Proofs.Disk.FileTree
import AvroCompiler.Proofs.Disk.Path

namespace AvroCompiler

/-- One piece of a path further: two dots go back up. -/
def Location.move (here : Location) (piece : String) : Location :=
  if piece = ".." then here.dropLast else here ++ [piece]

namespace Location

theorem move_eq (here : Location) (piece : String) :
    (if piece = ".." then here.dropLast else here ++ [piece]) = here.move piece := rfl

theorem move_entry {name : String} (entry : IsEntryName name) (here : Location) :
    here.move name = here ++ [name] :=
  if_neg entry.ne_dots

end Location

namespace FileTree

variable {tree : FileTree} {place : Location}

theorem find?_eq_folder_iff :
    tree.find? place = some .folder ↔ ∃ entries, tree.get? place = some (.directory entries) := by
  rw [find?, Option.map_eq_some_iff]
  constructor
  · rintro ⟨inner, held, kind⟩
    cases inner with
    | file bytes => cases kind
    | directory entries => exact ⟨entries, held⟩
  · rintro ⟨entries, held⟩
    exact ⟨_, held, rfl⟩

theorem find?_eq_file_iff {bytes : List UInt8} :
    tree.find? place = some (.file bytes) ↔ tree.get? place = some (.file bytes) := by
  rw [find?, Option.map_eq_some_iff]
  constructor
  · rintro ⟨inner, held, kind⟩
    cases inner with
    | file held_bytes => rwa [← Found.file.inj kind]
    | directory entries => cases kind
  · intro held
    exact ⟨_, held, rfl⟩

theorem any_isDirectory_iff : (tree.get? place).any isDirectory = true ↔ tree.find? place = some .folder := by
  rw [find?_eq_folder_iff]
  cases tree.get? place with
  | none => simp
  | some inner => cases inner <;> simp [isDirectory]

end FileTree

namespace Disk

def find? (disk : Disk) (place : Location) : Option Found :=
  disk.root.find? place

variable {disk : Disk} {here there : Location} {piece path base name : String}

theorem find?_eq_none_iff : disk.find? here = none ↔ disk.root.get? here = none := by
  rw [find?, FileTree.find?, Option.map_eq_none_iff]

theorem follow_cons_ok_iff {rest : List String} : disk.follow here (piece :: rest) = .ok there ↔
    disk.find? here = some .folder ∧ isTooLong piece = false ∧
      disk.follow (here.move piece) rest = .ok there := by
  rw [find?, FileTree.find?_eq_folder_iff, follow]
  cases disk.root.get? here with
  | none => simp
  | some inner =>
    cases inner with
    | file bytes => simp
    | directory entries => cases isTooLong piece <;> simp [Location.move]

theorem follow_append_ok_iff {a b : List String} : disk.follow here (a ++ b) = .ok there ↔
    ∃ middle, disk.follow here a = .ok middle ∧ disk.follow middle b = .ok there := by
  induction a generalizing here with
  | nil => simp [follow]
  | cons piece rest ih =>
    rw [List.cons_append, follow_cons_ok_iff, ih]
    simp only [follow_cons_ok_iff]
    constructor
    · rintro ⟨folder, short, middle, first, second⟩
      exact ⟨middle, ⟨folder, short, first⟩, second⟩
    · rintro ⟨middle, ⟨folder, short, first⟩, second⟩
      exact ⟨folder, short, middle, first, second⟩

theorem eq_of_follow {pieces : List String} (followed : disk.follow here pieces = .ok there) :
    there = pieces.foldl Location.move here := by
  induction pieces generalizing here with
  | nil => exact (Except.ok.inj followed).symm
  | cons piece rest ih => exact ih (follow_cons_ok_iff.mp followed).2.2

theorem find?_dropLast (folder : disk.find? here = some .folder) : disk.find? here.dropLast = some .folder := by
  cases here using List.reverseRecOn with
  | nil => exact folder
  | append_singleton front name =>
    rw [List.dropLast_concat]
    by_contra other
    rw [find?, FileTree.find?_below_eq_none other] at folder
    cases folder

theorem folder_of_follow {pieces : List String} (followed : disk.follow here pieces = .ok there)
    (folder : disk.find? there = some .folder) : disk.find? here = some .folder := by
  cases pieces with
  | nil => exact Except.ok.inj followed ▸ folder
  | cons piece rest => exact (follow_cons_ok_iff.mp followed).1

theorem follow_dropLast {pieces : List String} (followed : disk.follow here pieces = .ok there)
    (folder : disk.find? there = some .folder) :
    ∃ above, disk.follow here pieces.dropLast = .ok above ∧ disk.find? above = some .folder := by
  cases pieces using List.reverseRecOn with
  | nil => exact ⟨there, followed, folder⟩
  | append_singleton front piece =>
    obtain ⟨above, followed, last⟩ := follow_append_ok_iff.mp followed
    rw [List.dropLast_concat]
    exact ⟨above, followed, (follow_cons_ok_iff.mp last).1⟩

theorem requireDirectory_ok_iff :
    disk.requireDirectory here = .ok there ↔ disk.find? here = some .folder ∧ here = there := by
  rw [find?, FileTree.find?_eq_folder_iff, requireDirectory]
  cases disk.root.get? here with
  | none => simp
  | some inner => cases inner <;> simp

theorem locate_ok_iff : disk.locate path = .ok here ↔
    path ≠ "" ∧ '\x00' ∉ path.toList ∧ disk.follow (disk.start path) (Path.components path) = .ok here ∧
      (Path.endsInDot path = true → disk.find? here = some .folder) := by
  unfold locate
  by_cases empty : path = ""
  · simp [empty]
  by_cases nul : '\x00' ∈ path.toList
  · simp [empty, nul]
  rw [if_neg empty, if_neg (by simpa using nul)]
  cases followed : disk.follow (disk.start path) (Path.components path) with
  | error fault => simp [bind, Except.bind]
  | ok place =>
    cases dot : Path.endsInDot path with
    | false => simp [bind, Except.bind, pure, Except.pure, empty, nul]
    | true =>
      simp only [bind, Except.bind, if_true, requireDirectory_ok_iff, Except.ok.injEq]
      constructor
      · rintro ⟨folder, rfl⟩
        exact ⟨empty, nul, rfl, fun _ => folder⟩
      · rintro ⟨-, -, rfl, folder⟩
        exact ⟨folder trivial, rfl⟩

theorem start_join (entry : IsEntryName name) (disk : Disk) (base : String) :
    disk.start (Path.join base name) = disk.start base := by
  rw [start, start, Path.isAbsolute_join entry]

/-- A name in a folder stands at the location of that name below the folder. -/
theorem locate_join (plain : '\x00' ∉ base.toList)
    (followed : disk.follow (disk.start base) (Path.components base) = .ok here)
    (folder : disk.find? here = some .folder) (entry : IsEntryName name) (short : isTooLong name = false) :
    disk.locate (Path.join base name) = .ok (here ++ [name]) := by
  have last : disk.follow here [name] = .ok (here ++ [name]) :=
    follow_cons_ok_iff.mpr ⟨folder, short, by rw [Location.move_entry entry]; rfl⟩
  refine locate_ok_iff.mpr ⟨Path.join_ne_empty entry base, Path.no_nul_join entry plain, ?_, ?_⟩
  · rw [start_join entry, Path.components_join entry]
    exact follow_append_ok_iff.mpr ⟨here, followed, last⟩
  · simp [Path.endsInDot_join entry]

theorem isDirectory_iff :
    disk.isDirectory path = true ↔ ∃ here, disk.locate path = .ok here ∧ disk.find? here = some .folder := by
  unfold isDirectory
  cases disk.locate path with
  | error fault => simp
  | ok here => simp [find?, FileTree.any_isDirectory_iff]

theorem readBytes_ok_iff {bytes : List UInt8} : disk.readBytes path = .ok bytes ↔
    ∃ here, disk.locate path = .ok here ∧ disk.find? here = some (.file bytes) ∧
      Path.endsWithSlash path = false := by
  unfold readBytes
  cases disk.locate path with
  | error fault => simp [bind, Except.bind]
  | ok here =>
    simp only [find?, FileTree.find?_eq_file_iff, Except.ok.injEq, exists_eq_left']
    cases held : disk.root.get? here with
    | none => simp [bind, Except.bind, throw, throwThe, MonadExceptOf.throw, held]
    | some inner =>
      cases inner with
      | directory entries => simp [bind, Except.bind, throw, throwThe, MonadExceptOf.throw, held]
      | file old =>
        cases Path.endsWithSlash path <;>
          simp [bind, Except.bind, throw, throwThe, MonadExceptOf.throw, pure, Except.pure, held]

end Disk

end AvroCompiler

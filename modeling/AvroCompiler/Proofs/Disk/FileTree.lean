import AvroCompiler.Disk.FileTree

namespace AvroCompiler

/-- What stands at a location: a file with its bytes, or a folder, whatever it holds. -/
inductive Found where
  | file (bytes : List UInt8)
  | folder
  deriving DecidableEq, Repr

namespace FileTree

def found : FileTree → Found
  | .file bytes => .file bytes
  | .directory _ => .folder

def find? (tree : FileTree) (place : Location) : Option Found :=
  (tree.get? place).map found

variable {tree new : FileTree} {name : String} {place other : Location}

@[simp]
theorem find?_nil (tree : FileTree) : tree.find? [] = some tree.found := by
  cases tree <;> rfl

@[simp]
theorem find?_file_cons (bytes : List UInt8) (name : String) (rest : Location) :
    (file bytes).find? (name :: rest) = none := rfl

theorem find?_directory_cons (entries : List (String × FileTree)) (name : String) (rest : Location) :
    (directory entries).find? (name :: rest) = (entries.lookup name).bind fun tree => tree.find? rest := by
  rw [find?, get?]
  cases entries.lookup name <;> rfl

theorem find?_below_eq_none (other : tree.find? place ≠ some .folder) (name : String) (rest : Location) :
    tree.find? (place ++ name :: rest) = none := by
  induction place generalizing tree with
  | nil =>
    cases tree with
    | file bytes => rfl
    | directory entries => exact absurd rfl other
  | cons piece place ih =>
    cases tree with
    | file bytes => rfl
    | directory entries =>
      rw [find?_directory_cons] at other
      rw [List.cons_append, find?_directory_cons]
      cases held : entries.lookup piece with
      | none => rfl
      | some inner =>
        rw [held] at other
        exact ih other

theorem lookup_cons_eq (key : String) (tree : FileTree) (rest : List (String × FileTree)) (name : String) :
    ((key, tree) :: rest).lookup name = if name = key then some tree else rest.lookup name := by
  by_cases same : name = key
  · simp [same]
  · rw [List.lookup_cons, beq_false_of_ne same, if_neg same]

theorem lookup_setEntry (name : String) (tree : FileTree) (entries : List (String × FileTree))
    (other : String) : (setEntry name tree entries).lookup other = if other = name then some tree else entries.lookup other := by
  induction entries with
  | nil => rw [setEntry, lookup_cons_eq]
  | cons entry rest ih =>
    unfold setEntry
    split
    · rename_i same
      rw [lookup_cons_eq, lookup_cons_eq, same]
      split <;> rfl
    · rename_i differ
      rw [lookup_cons_eq, lookup_cons_eq, ih]
      by_cases own : other = entry.1
      · rw [if_pos own, if_pos own, if_neg (own ▸ differ)]
      · rw [if_neg own, if_neg own]

theorem find?_put_cons (entries : List (String × FileTree)) (new : FileTree) (name other : String)
    (rest further : Location) :
    ((directory entries).put new (name :: rest)).find? (other :: further) =
      if other = name then (((entries.lookup name).getD (directory [])).put new rest).find? further
      else (directory entries).find? (other :: further) := by
  rw [put, find?_directory_cons, find?_directory_cons, lookup_setEntry]
  split <;> rfl

/-- A file is put where its folder is there and no folder is in its place: nothing else changes. -/
theorem find?_put_file (bytes : List UInt8) (folder : place ≠ [] → tree.find? place.dropLast = some .folder)
    (free : tree.find? place ≠ some .folder) (other : Location) :
    (tree.put (.file bytes) place).find? other =
      if other = place then some (.file bytes) else tree.find? other := by
  induction place generalizing tree other with
  | nil =>
    rw [put]
    cases tree with
    | directory entries => exact absurd rfl free
    | file old => cases other <;> simp [found]
  | cons name rest ih =>
    have folder := folder (List.cons_ne_nil _ _)
    cases tree with
    | file old => cases rest <;> simp [found] at folder
    | directory entries =>
      cases other with
      | nil => simp [put, found]
      | cons name' further =>
        rw [find?_put_cons]
        by_cases same : name' = name
        · subst same
          rw [if_pos rfl]
          cases rest with
          | nil =>
            -- The file may take the place of another file, and there is nothing below either of them.
            rw [put]
            cases further with
            | nil => simp [found]
            | cons piece further =>
              rw [find?_file_cons, if_neg (by simp)]
              exact (find?_below_eq_none free piece further).symm
          | cons piece rest =>
            rw [List.dropLast_cons_of_ne_nil (List.cons_ne_nil _ _), find?_directory_cons] at folder
            obtain ⟨inner, held, folder⟩ := Option.bind_eq_some_iff.mp folder
            rw [find?_directory_cons, held] at free
            rw [held, Option.getD_some, ih (fun _ => folder) free, find?_directory_cons, held]
            simp
        · rw [if_neg same, if_neg (by simp [same])]

theorem find?_put_empty (place other : Location) :
    ((directory []).put (directory []) place).find? other = if other <+: place then some .folder else none := by
  induction place generalizing other with
  | nil => cases other <;> simp [put, found, find?_directory_cons]
  | cons name rest ih =>
    cases other with
    | nil => simp [put, found]
    | cons name' further =>
      rw [find?_put_cons, List.lookup_nil, Option.getD_none, ih]
      by_cases same : name' = name
      · simp [same, List.cons_prefix_cons]
      · simp [same, find?_directory_cons, List.cons_prefix_cons]

/-- A folder is made where nothing is: only folders on the way to it come in. -/
theorem find?_put_folder (free : tree.find? place = none) (other : Location) :
    (tree.put (.directory []) place).find? other = tree.find? other ∨
      other <+: place ∧ tree.find? other = none ∧
        (tree.put (.directory []) place).find? other = some .folder := by
  induction place generalizing tree other with
  | nil => simp at free
  | cons name rest ih =>
    cases tree with
    | file bytes => exact .inl rfl
    | directory entries =>
      cases other with
      | nil => exact .inl (by simp [put, found])
      | cons name' further =>
        rw [find?_put_cons]
        by_cases same : name' = name
        · subst same
          rw [if_pos rfl]
          rw [find?_directory_cons] at free
          cases held : entries.lookup name' with
          | some inner =>
            have below : (directory entries).find? (name' :: further) = inner.find? further := by
              rw [find?_directory_cons, held, Option.bind_some]
            rw [held] at free
            rw [Option.getD_some, below]
            exact (ih free further).imp_right fun ⟨before, new⟩ => ⟨List.cons_prefix_cons.mpr ⟨rfl, before⟩, new⟩
          | none =>
            -- Nothing has this name, so that all folders are made in a new one.
            have unknown : (directory entries).find? (name' :: further) = none := by
              rw [find?_directory_cons, held, Option.bind_none]
            rw [Option.getD_none, find?_put_empty, unknown]
            by_cases before : further <+: rest
            · exact .inr ⟨List.cons_prefix_cons.mpr ⟨rfl, before⟩, rfl, if_pos before⟩
            · exact .inl (if_neg before)
        · rw [if_neg same]
          exact .inl rfl

theorem find?_put_new_folder (above : tree.find? place = some .folder)
    (free : tree.find? (place ++ [name]) = none) :
    (tree.put (.directory []) (place ++ [name])).find? (place ++ [name]) = some .folder := by
  induction place generalizing tree with
  | nil =>
    cases tree with
    | file bytes => simp [found] at above
    | directory entries =>
      rw [List.nil_append, find?_put_cons, if_pos rfl]
      rfl
  | cons piece rest ih =>
    cases tree with
    | file bytes => simp at above
    | directory entries =>
      rw [find?_directory_cons] at above
      obtain ⟨inner, held, above⟩ := Option.bind_eq_some_iff.mp above
      rw [List.cons_append, find?_directory_cons, held] at free
      rw [List.cons_append, find?_put_cons, if_pos rfl, held]
      exact ih above free

end FileTree

end AvroCompiler

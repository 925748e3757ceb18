import AvroCompiler.Collection
import AvroCompiler.Proofs.Disk.Walk
import Mathlib.Data.List.Nodup
import Mathlib.Data.List.Sort

namespace AvroCompiler

def Path.below (input : String) (place : Location) : String :=
  place.foldl Path.join input

def Location.EndsInSchema (place : Location) : Prop :=
  ∃ front stem, place = front ++ [stem ++ ".avsc"] ∧ stem ≠ ""

/-- What an input stands for on a disk. -/
inductive Disk.Collects (disk : Disk) (input : String) : List String → Prop
  | alone (other : disk.isDirectory input = false) : Collects disk input [input]
  | below {here : Location} {places : List Location} (located : disk.locate input = .ok here)
      (folder : disk.find? here = some .folder) (ordered : places.Pairwise (· < ·))
      (complete : ∀ place, place ∈ places ↔
        place.EndsInSchema ∧ ∃ bytes, disk.find? (here ++ place) = some (.file bytes)) :
      Collects disk input (places.map (Path.below input))

theorem isSchemaFile_iff {place : Location} : isSchemaFile place = true ↔ place.EndsInSchema := by
  have plain : '.' ∉ "avsc".toList := by decide
  have dotted (stem : String) : stem ++ "." ++ "avsc" = stem ++ ".avsc" := String.append_assoc ..
  rw [isSchemaFile]
  cases place using List.reverseRecOn with
  | nil => simp [Location.EndsInSchema]
  | append_singleton front name _ =>
    rw [List.getLast?_concat]
    simp only [decide_eq_true_eq, Path.extension?_eq_some_iff, plain, not_false_eq_true, true_and, dotted]
    constructor
    · rintro ⟨stem, full, rfl⟩
      exact ⟨front, stem, rfl, full⟩
    · rintro ⟨front', stem, eq, full⟩
      exact ⟨stem, full, (List.append_singleton_inj.mp eq).2⟩

namespace Path

variable {place : Location}

theorem components_below (input : String) (names : ∀ name ∈ place, IsEntryName name) :
    components (below input place) = components input ++ place := by
  induction place generalizing input with
  | nil => simp [below]
  | cons name rest ih =>
    obtain ⟨entry, names⟩ := List.forall_mem_cons.mp names
    have further := ih (join input name) names
    rw [components_join entry, List.append_assoc] at further
    exact further

theorem endsWithSlash_below (input : String) (some : place ≠ []) (names : ∀ name ∈ place, IsEntryName name) :
    endsWithSlash (below input place) = false := by
  obtain ⟨front, name, rfl⟩ := List.eq_nil_or_concat place |>.resolve_left some
  rw [below, List.concat_eq_append, List.foldl_append]
  exact endsWithSlash_join (names name (by simp)) _

end Path

namespace Disk

variable {disk : Disk} {input : String} {here place : Location} {listing : List String}

theorem locate_below {kind : Found} (located : disk.locate input = .ok here)
    (names : ∀ name ∈ place, IsEntryName name ∧ isTooLong name = false)
    (found : disk.find? (here ++ place) = some kind) :
    disk.locate (Path.below input place) = .ok (here ++ place) := by
  induction place generalizing input here with
  | nil => rwa [List.append_nil]
  | cons name rest ih =>
    obtain ⟨⟨entry, short⟩, names⟩ := List.forall_mem_cons.mp names
    -- Something is found further down, which it is not below a file.
    have folder : disk.find? here = some .folder := by
      by_contra other
      have none := FileTree.find?_below_eq_none other name rest
      rw [find?, none] at found
      cases found
    have moved : here ++ name :: rest = here ++ [name] ++ rest := List.append_cons ..
    rw [moved] at found ⊢
    obtain ⟨-, plain, followed, -⟩ := locate_ok_iff.mp located
    exact ih (locate_join plain followed folder entry short) names found

variable (named : disk.root.WellNamed)

include named

theorem entry_names_below {kind : Found} (found : disk.find? (here ++ place) = some kind) :
    ∀ name ∈ place, IsEntryName name ∧ isTooLong name = false :=
  fun name mem => named.entry_names found name (List.mem_append_right _ mem)

theorem collects_of_isDirectory (directory : disk.isDirectory input = true) :
    ∃ listing, collectOne disk input = .ok listing ∧ disk.Collects input listing := by
  obtain ⟨here, located, folder⟩ := isDirectory_iff.mp directory
  obtain ⟨entries, held⟩ := FileTree.find?_eq_folder_iff.mp folder
  have walked : disk.filesBelow input = (FileTree.directory entries).files := by
    rw [filesBelow, located]
    simp [held]
  have inner := named.get? held
  refine ⟨_, if_pos directory, ?_⟩
  rw [walked]
  refine .below located folder ((FileTree.files_increasing inner).filter _) fun place => ?_
  have member : place ∈ (FileTree.directory entries).files.map Prod.fst ↔
      ∃ bytes, (place, bytes) ∈ (FileTree.directory entries).files := by simp
  rw [List.mem_filter, isSchemaFile_iff, member, and_comm, find?]
  simp only [FileTree.mem_files_iff inner, FileTree.find?_append held]

theorem collects_collectOne (input : String) :
    ∃ listing, collectOne disk input = .ok listing ∧ disk.Collects input listing := by
  cases directory : disk.isDirectory input with
  | false => exact ⟨[input], if_neg (Bool.eq_false_iff.mp directory), .alone directory⟩
  | true => exact collects_of_isDirectory named directory

theorem collects_inputs (inputs : List String) :
    ∃ listings, List.Forall₂ disk.Collects inputs listings ∧
      collectSchemaFiles disk inputs = .ok listings.flatten := by
  suffices ∃ listings, List.Forall₂ disk.Collects inputs listings ∧
      inputs.mapM (collectOne disk) = .ok listings by
    obtain ⟨listings, collects, all⟩ := this
    exact ⟨listings, collects, congrArg (Except.map List.flatten) all⟩
  induction inputs with
  | nil => exact ⟨[], .nil, rfl⟩
  | cons input inputs ih =>
    obtain ⟨listing, one, first⟩ := collects_collectOne named input
    obtain ⟨listings, others, all⟩ := ih
    refine ⟨listing :: listings, .cons first others, ?_⟩
    rw [List.mapM_cons, one, all]
    rfl

omit named in
theorem Collects.unique {other : List String} (collects : disk.Collects input listing)
    (collects' : disk.Collects input other) : listing = other := by
  cases collects with
  | alone lone =>
    cases collects' with
    | alone => rfl
    | below located folder =>
      rw [isDirectory_iff.mpr ⟨_, located, folder⟩] at lone
      cases lone
  | below located folder ordered complete =>
    cases collects' with
    | alone lone =>
      rw [isDirectory_iff.mpr ⟨_, located, folder⟩] at lone
      cases lone
    | below located' folder' ordered' complete' =>
      obtain rfl := Except.ok.inj (located.symm.trans located')
      have same := ordered.eq_of_mem_iff ordered' fun place => (complete place).trans (complete' place).symm
      rw [same]

/-- The paths for a directory are different, and each of them is that of a file. -/
theorem Collects.files (collects : disk.Collects input listing) (directory : disk.isDirectory input = true) :
    listing.Nodup ∧ ∀ path ∈ listing, disk.isFile path = true ∧ disk.isDirectory path = false := by
  cases collects with
  | alone lone =>
    rw [lone] at directory
    cases directory
  | @below here places located folder ordered complete =>
    have names (place : Location) (mem : place ∈ places) :
        ∀ name ∈ place, IsEntryName name ∧ isTooLong name = false := by
      obtain ⟨-, bytes, found⟩ := (complete place).mp mem
      exact entry_names_below named found
    constructor
    · refine List.Nodup.map_on ?_ (ordered.imp ne_of_lt)
      intro place mem place' mem' eq
      have pieces := congrArg Path.components eq
      rw [Path.components_below input fun name inside => (names place mem name inside).1,
        Path.components_below input fun name inside => (names place' mem' name inside).1] at pieces
      exact List.append_cancel_left pieces
    · intro path mem
      obtain ⟨place, listed, rfl⟩ := List.mem_map.mp mem
      obtain ⟨⟨front, stem, ends, -⟩, bytes, found⟩ := (complete place).mp listed
      have some : place ≠ [] := by simp [ends]
      have located := locate_below located (names place listed) found
      have bare := Path.endsWithSlash_below input some fun name inside => (names place listed name inside).1
      constructor
      · rw [isFile, readBytes_ok_iff.mpr ⟨_, located, found, bare⟩]
        rfl
      · refine Bool.eq_false_iff.mpr fun folder => ?_
        obtain ⟨there, located', folder⟩ := isDirectory_iff.mp folder
        obtain rfl := Except.ok.inj (located.symm.trans located')
        rw [found] at folder
        cases folder

end Disk

/-- The schema files of the inputs are those of each input in turn. For an input that is no directory it is
this path itself; for a directory they are all schema files below it, once each and in their order. -/
theorem collectSchemaFiles_is_complete_and_ordered (disk : Disk) (named : disk.root.WellNamed)
    (inputs : List String) :
    (∃ listings, List.Forall₂ disk.Collects inputs listings ∧
      collectSchemaFiles disk inputs = .ok listings.flatten) ∧
    (∀ input listing other, disk.Collects input listing → disk.Collects input other → listing = other) ∧
    ∀ input listing, disk.Collects input listing → disk.isDirectory input = true →
      listing.Nodup ∧ ∀ path ∈ listing, disk.isFile path = true ∧ disk.isDirectory path = false := by
  exact ⟨Disk.collects_inputs named inputs, fun _ _ _ => Disk.Collects.unique, fun _ _ => Disk.Collects.files named⟩

def schemaEntries : List (String × FileTree) :=
  [("b.avsc", .directory [("c.avsc", .file [])]), ("a.avsc", .file []),
    ("a", .directory [("z.avsc", .file [])]), (".avsc", .file [])]

def schemaDisk : Disk := ⟨.directory [("w", .directory [("d", .directory schemaEntries)])], "/w"⟩

theorem schemaDisk_wellNamed : schemaDisk.root.WellNamed := by
  have single (name : String) (tree : FileTree) (entry : IsEntryName name ∧ isTooLong name = false)
      (named : tree.WellNamed) : (FileTree.directory [(name, tree)]).WellNamed := by
    refine .directory (List.nodup_singleton _) ?_ ?_
    · simp [entry]
    · simp [named]
  have inner : ∀ entry ∈ schemaEntries, entry.2.WellNamed := by
    simp only [schemaEntries, List.forall_mem_cons]
    exact ⟨single _ _ (by decide) (.file _), .file _, single _ _ (by decide) (.file _), .file _, by simp⟩
  exact single _ _ (by decide) (single _ _ (by decide) (.directory (by decide) (by decide) inner))

theorem schemaDisk_filesBelow : schemaDisk.filesBelow "d" =
    [([".avsc"], []), (["a", "z.avsc"], []), (["a.avsc"], []), (["b.avsc", "c.avsc"], [])] := by
  have located : schemaDisk.locate "d" = .ok ["w", "d"] := by decide +kernel
  have held : schemaDisk.root.get? ["w", "d"] = some (.directory schemaEntries) := by rfl
  have increasing : schemaEntries.reverse.Pairwise fun a b => a.1 < b.1 := by decide
  rw [Disk.filesBelow, located]
  simp only [held, Option.map_some, Option.getD_some]
  rw [FileTree.files_directory (List.reverse_perm _) increasing]
  simp [schemaEntries, FileTree.files, FileTree.filesOf, FileTree.byName]

/-- As a text, the path of `a.avsc` comes before that of the file in `a`. -/
theorem schemaDisk_collects :
    schemaDisk.root.WellNamed ∧
      ∃ listings, List.Forall₂ schemaDisk.Collects ["d", "x.json"] listings ∧
        listings.flatten = ["d/a/z.avsc", "d/a.avsc", "d/b.avsc/c.avsc", "x.json"] := by
  have directory : schemaDisk.isDirectory "d" = true := by decide +kernel
  have lone : schemaDisk.isDirectory "x.json" = false := by decide +kernel
  obtain ⟨⟨listings, each, all⟩, -⟩ :=
    collectSchemaFiles_is_complete_and_ordered schemaDisk schemaDisk_wellNamed ["d", "x.json"]
  refine ⟨schemaDisk_wellNamed, listings, each, Except.ok.inj (all.symm.trans ?_)⟩
  have walked : FileSystem.filesBelow schemaDisk "d" =
      .ok [[".avsc"], ["a", "z.avsc"], ["a.avsc"], ["b.avsc", "c.avsc"]] := by
    simp only [FileSystem.filesBelow, schemaDisk_filesBelow]
    rfl
  have asked (path : String) : FileSystem.isDirectory schemaDisk path = schemaDisk.isDirectory path := rfl
  simp only [collectSchemaFiles, List.mapM_cons, List.mapM_nil, collectOne, asked, directory, lone, walked]
  decide +kernel

end AvroCompiler

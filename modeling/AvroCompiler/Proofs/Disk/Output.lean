import AvroCompiler.Proofs.Output
import AvroCompiler.Proofs.Disk.Location
import AvroCompiler.Proofs.Text.Utf8
import Mathlib.Data.List.Nodup

namespace AvroCompiler

namespace Disk

def place (disk : Disk) (path : String) : Location :=
  (Path.components path).foldl Location.move (disk.start path)

/-- The location is passed, or is above one that is passed, when the pieces are followed. -/
def OnTheWay (here : Location) (pieces : List String) (place : Location) : Prop :=
  ∃ front, front <+: pieces ∧ place <+: front.foldl Location.move here

/-- Only what stands at the places has changed, besides new folders where there was nothing. -/
structure ChangesOnly (way : Location → Prop) (places : List Location) (before after : Disk) : Prop where
  work : after.work = before.work
  folders : ∀ place, before.find? place = some .folder → after.find? place = some .folder
  elsewhere : ∀ place ∉ places, after.find? place = before.find? place ∨
    way place ∧ before.find? place = none ∧ after.find? place = some .folder

namespace ChangesOnly

variable {way way' : Location → Prop} {places places' : List Location} {before mid after : Disk}
  {here : Location} {path text : String}

theorem refl (disk : Disk) : ChangesOnly way [] disk disk where
  work := rfl
  folders _ folder := folder
  elsewhere _ _ := .inl rfl

theorem trans (first : ChangesOnly way places before mid) (second : ChangesOnly way places' mid after) :
    ChangesOnly way (places ++ places') before after where
  work := second.work.trans first.work
  folders place folder := second.folders place (first.folders place folder)
  elsewhere place other := by
    obtain ⟨other, other'⟩ := not_or.mp (mt List.mem_append.mpr other)
    rcases first.elsewhere place other with same | ⟨passed, none, made⟩ <;>
      rcases second.elsewhere place other' with same' | ⟨passed', none', made'⟩
    · exact .inl (same'.trans same)
    · exact .inr ⟨passed', same ▸ none', made'⟩
    · exact .inr ⟨passed, none, same'.trans made⟩
    · -- A folder that has come is no free place.
      rw [made] at none'
      cases none'

theorem mono (h : ChangesOnly way places before after) (wider : ∀ place, way place → way' place) :
    ChangesOnly way' places before after where
  work := h.work
  folders := h.folders
  elsewhere place other := (h.elsewhere place other).imp_right fun ⟨passed, rest⟩ => ⟨wider place passed, rest⟩

theorem start_eq (h : ChangesOnly way places before after) (path : String) :
    after.start path = before.start path := by
  rw [start, start, h.work]

theorem place_eq (h : ChangesOnly way places before after) (path : String) :
    after.place path = before.place path := by
  rw [place, place, h.start_eq]

theorem follow (h : ChangesOnly way places before after) {pieces : List String} {there : Location}
    (followed : before.follow here pieces = .ok there) : after.follow here pieces = .ok there := by
  induction pieces generalizing here with
  | nil => exact followed
  | cons piece rest ih =>
    obtain ⟨folder, short, followed⟩ := follow_cons_ok_iff.mp followed
    exact follow_cons_ok_iff.mpr ⟨h.folders here folder, short, ih followed⟩

theorem locate (h : ChangesOnly way places before after) (located : before.locate path = .ok here) :
    after.locate path = .ok here := by
  obtain ⟨some, plain, followed, dot⟩ := locate_ok_iff.mp located
  rw [← h.start_eq] at followed
  exact locate_ok_iff.mpr ⟨some, plain, h.follow followed, fun ends => h.folders here (dot ends)⟩

theorem file_iff (h : ChangesOnly way places before after) {place : Location} (other : place ∉ places)
    (bytes : List UInt8) :
    after.find? place = some (.file bytes) ↔ before.find? place = some (.file bytes) := by
  rcases h.elsewhere place other with same | ⟨-, none, made⟩
  · rw [same]
  · simp [none, made]

end ChangesOnly

variable {disk before mid after left : Disk} {here there : Location} {path root text : String} {error : Error}

theorem place_of_locate (located : disk.locate path = .ok here) : disk.place path = here :=
  (eq_of_follow (locate_ok_iff.mp located).2.2.1).symm

theorem place_join {name : String} (entry : IsEntryName name) (disk : Disk) (base : String) :
    disk.place (Path.join base name) = disk.place base ++ [name] := by
  rw [place, place, start_join entry, Path.components_join entry, List.foldl_append, List.foldl_cons,
    Location.move_entry entry, List.foldl_nil]

theorem readText_ok_iff : disk.readText path = .ok text ↔
    ∃ bytes, disk.readBytes path = .ok bytes ∧ decodeUtf8 bytes = .ok text := by
  unfold readText
  cases disk.readBytes path with
  | error fault => simp [bind, Except.bind]
  | ok bytes =>
    simp only [bind, Except.bind, Except.ok.injEq, exists_eq_left']
    cases decodeUtf8 bytes <;> simp [throw, throwThe, MonadExceptOf.throw, pure, Except.pure]

section Directories

theorem onTheWay_cons {piece : String} {rest : List String} {place : Location}
    (h : OnTheWay (here.move piece) rest place) : OnTheWay here (piece :: rest) place := by
  obtain ⟨front, before, above⟩ := h
  exact ⟨piece :: front, List.cons_prefix_cons.mpr ⟨rfl, before⟩, above⟩

theorem changesOnly_put_folder (free : disk.find? here = none) :
    ChangesOnly (· <+: here) [] disk { disk with root := disk.root.put (.directory []) here } where
  work := rfl
  folders place folder := by
    rcases FileTree.find?_put_folder free place with same | ⟨-, -, made⟩
    · exact same.trans folder
    · exact made
  elsewhere place _ := FileTree.find?_put_folder free place

theorem changesOnly_makeAlong (disk : Disk) (here : Location) (pieces : List String) :
    ChangesOnly (OnTheWay here pieces) [] disk (disk.makeAlong here pieces).2 := by
  induction pieces generalizing disk here with
  | nil => exact .refl disk
  | cons piece rest ih =>
    rw [makeAlong, Location.move_eq]
    split
    · exact .refl disk
    split
    · exact (ih disk _).mono fun _ => onTheWay_cons
    · exact .refl disk
    · rename_i free
      have first := changesOnly_put_folder (find?_eq_none_iff.mpr free)
      refine (first.mono fun place above => ?_).trans ((ih _ _).mono fun _ => onTheWay_cons)
      exact ⟨[piece], by simp, above⟩

theorem changesOnly_makeAbove (disk : Disk) (path : String) :
    ChangesOnly (OnTheWay (disk.start path) (Path.components path)) [] disk (disk.makeAbove path).2 := by
  have changes : ChangesOnly (OnTheWay (disk.start path) (Path.components path)) [] disk
      (disk.makeAlong (disk.start path) (Path.components path).dropLast).2 := by
    refine (changesOnly_makeAlong disk _ _).mono fun place => ?_
    rintro ⟨front, before, prefixed⟩
    exact ⟨front, before.trans (List.dropLast_prefix _), prefixed⟩
  unfold makeAbove
  split <;> rename_i along <;> rwa [along] at changes

/-- Folders that are made before a fault stay. -/
theorem changesOnly_makeDirectories (disk : Disk) (path : String) :
    ChangesOnly (OnTheWay (disk.start path) (Path.components path)) [] disk (disk.makeDirectories path).2 := by
  unfold makeDirectories
  split
  · exact .refl disk
  split
  · exact changesOnly_makeAbove disk path
  · exact changesOnly_makeAlong disk _ _

end Directories

theorem writeText_ok_iff : disk.writeText path text = .ok after ↔
    ∃ here, disk.locate path = .ok here ∧ Path.endsWithSlash path = false ∧ disk.find? here ≠ some .folder ∧
      disk.find? here.dropLast = some .folder ∧
      after = { disk with root := disk.root.put (.file (utf8Bytes text)) here } := by
  unfold writeText
  cases disk.locate path with
  | error fault => simp [bind, Except.bind]
  | ok here =>
    simp only [bind, Except.bind, Bool.or_eq_true, FileTree.any_isDirectory_iff, Except.ok.injEq,
      exists_eq_left']
    rw [find?, find?, ← Bool.not_eq_true, ← and_assoc, ← not_or]
    by_cases refused : Path.endsWithSlash path = true ∨ disk.root.find? here = some .folder
    · simp [refused, throw, throwThe, MonadExceptOf.throw]
    · rw [if_neg refused, @FileTree.find?_eq_folder_iff _ here.dropLast, @eq_comm _ after]
      rcases disk.root.get? here.dropLast with _ | bytes | entries <;>
        simp [refused, throw, throwThe, MonadExceptOf.throw, pure, Except.pure]

theorem writeText_folder (located : disk.locate path = .ok here) (folder : disk.find? here = some .folder)
    (text : String) : disk.writeText path text = .error .isADirectory := by
  have any := FileTree.any_isDirectory_iff.mpr folder
  simp [writeText, located, any, bind, Except.bind, throw, throwThe, MonadExceptOf.throw]

theorem writeText_ok (way : Location → Prop) (written : disk.writeText path text = .ok after) :
    ChangesOnly way [disk.place path] disk after ∧ after.locate path = .ok (disk.place path) ∧
      after.find? (disk.place path) = some (.file (utf8Bytes text)) := by
  obtain ⟨here, located, -, free, above, rfl⟩ := writeText_ok_iff.mp written
  rw [place_of_locate located]
  have view := FileTree.find?_put_file (utf8Bytes text) (fun _ => above) free
  have changes : ChangesOnly way [here] disk
      { disk with root := disk.root.put (.file (utf8Bytes text)) here } := by
    refine ⟨rfl, fun place folder => ?_, fun place other => .inl ?_⟩
    · have other : place ≠ here := fun same => free (same ▸ folder)
      exact (view place).trans ((if_neg other).trans folder)
    · exact (view place).trans (if_neg (mt List.mem_singleton.mpr other))
  exact ⟨changes, changes.locate located, (view here).trans (if_pos rfl)⟩

def files : Files Disk Location where
  leads disk path := (disk.locate path).toOption
  bytes disk place :=
    match disk.find? place with
    | some (.file bytes) => some bytes
    | _ => none

theorem leads_iff : files.leads disk path = some here ↔ disk.locate path = .ok here := by
  simp only [files]
  cases disk.locate path <;> simp [Except.toOption]

theorem bytes_iff {bytes : List UInt8} :
    files.bytes disk here = some bytes ↔ disk.find? here = some (.file bytes) := by
  simp only [files]
  rcases disk.find? here with _ | _ | _ <;> simp

theorem run_writeText (disk : Disk) (path text : String) : (output.writeText path text).run disk =
    match disk.writeText path text with
    | .ok written => (.ok (), written)
    | .error fault => (.error fault, disk) := rfl

theorem run_writeText_ok_iff :
    (output.writeText path text).run before = (.ok (), after) ↔ before.writeText path text = .ok after := by
  rw [run_writeText]
  cases before.writeText path text <;> constructor <;> intro same <;> cases same <;> rfl

theorem run_writeText_error_iff {fault : FileFault} :
    (output.writeText path text).run before = (.error fault, left) ↔
      before.writeText path text = .error fault ∧ before = left := by
  rw [run_writeText]
  cases before.writeText path text with
  | ok written =>
    constructor
    · intro same
      cases same
    · rintro ⟨⟨⟩, -⟩
  | error other =>
    constructor
    · intro same
      cases same
      exact ⟨rfl, rfl⟩
    · rintro ⟨⟨⟩, rfl⟩
      rfl

theorem ChangesOnly.keeps {way : Location → Prop} {places : List Location}
    (h : ChangesOnly way places before after) : files.Keeps (· ∈ places) before after where
  leads path place led := leads_iff.mpr (h.locate (leads_iff.mp led))
  bytes place other := by
    ext bytes
    rw [bytes_iff, bytes_iff, h.file_iff other]

/-- On this disk a file that cannot be written is left as it is. -/
theorem lawful_output : files.Lawful output where
  directories path before result after run := by
    obtain rfl : (before.makeDirectories path).2 = after := congrArg Prod.snd run
    exact (changesOnly_makeDirectories before path).keeps.mono fun _ => List.not_mem_nil
  text path text before result after run := by
    rcases result with fault | ⟨⟩
    · obtain ⟨-, rfl⟩ := run_writeText_error_iff.mp run
      exact .refl before
    · obtain ⟨changes, located, -⟩ := writeText_ok (fun _ => False) (run_writeText_ok_iff.mp run)
      refine changes.keeps.mono fun place mem => ?_
      rw [List.mem_singleton.mp mem]
      exact leads_iff.mpr located
  written path text before after run := by
    obtain ⟨-, located, held⟩ := writeText_ok (fun _ => False) (run_writeText_ok_iff.mp run)
    exact ⟨_, leads_iff.mpr located, bytes_iff.mpr held⟩

section Stored

variable {files earlier : List RenderedFile} {file : RenderedFile} {error : Error}

def places (disk : Disk) (root : String) (files : List RenderedFile) : List Location :=
  files.map fun file => disk.place (Path.join root file.name)

/-- The files are in the output directory with all their contents, and nothing else has changed. -/
structure Stored (root : String) (files : List RenderedFile) (before after : Disk) : Prop where
  changes : ChangesOnly (OnTheWay (before.start root) (Path.components root)) (before.places root files)
    before after
  contents : ∀ file ∈ files, after.readText (Path.join root file.name) = .ok file.contents

theorem changesOnly_of_writes (written : output.Writes root files before after) :
    ChangesOnly (OnTheWay (before.start root) (Path.components root)) (before.places root files)
      before after := by
  induction written with
  | done disk => exact .refl disk
  | @next file files before made mid after directory text rest ih =>
    obtain rfl : (before.makeDirectories root).2 = made := congrArg Prod.snd directory
    have folders := changesOnly_makeDirectories before root
    have changes := (writeText_ok (OnTheWay (before.start root) (Path.components root))
      (run_writeText_ok_iff.mp text)).1
    rw [folders.place_eq] at changes
    have first := folders.trans changes
    have same : mid.places root files = before.places root files :=
      List.map_congr_left fun file _ => first.place_eq _
    rw [same, first.start_eq] at ih
    exact first.trans ih

theorem changesOnly_of_refuses (refused : output.Refuses root file error before left) :
    ChangesOnly (OnTheWay (before.start root) (Path.components root)) [] before left := by
  cases refused with
  | directory fails =>
    obtain rfl : (before.makeDirectories root).2 = left := congrArg Prod.snd fails
    exact changesOnly_makeDirectories before root
  | text directory fails =>
    obtain rfl : (before.makeDirectories root).2 = _ := congrArg Prod.snd directory
    obtain ⟨-, rfl⟩ := run_writeText_error_iff.mp fails
    exact changesOnly_makeDirectories before root

/-- Different names in a directory never lead to one place, so that no file is written over. -/
theorem contents_of_receives {tried : List RenderedFile}
    (names : ∀ file ∈ files ++ tried, IsEntryName file.name)
    (apart : ((files ++ tried).map RenderedFile.name).Nodup)
    (receives : Disk.files.Receives root files tried before after) :
    ∀ file ∈ files, after.readText (Path.join root file.name) = .ok file.contents := by
  intro file mem
  obtain ⟨front, back, rfl⟩ := List.append_of_mem mem
  obtain ⟨place, led, held⟩ := receives.contents front file back rfl
  have located := leads_iff.mp led
  have entry := names file (by simp)
  have found := bytes_iff.mp <| held <| by
    rintro ⟨other, later, led⟩
    have entry' := names other (by simp at later ⊢; tauto)
    have same := (place_of_locate located).trans (place_of_locate (leads_iff.mp led)).symm
    rw [place_join entry, place_join entry', List.append_right_inj, List.singleton_inj] at same
    rw [List.append_assoc, List.cons_append, List.map_append, List.map_cons] at apart
    exact (List.nodup_cons.mp (List.nodup_append'.mp apart).2.1).1 (List.mem_map.mpr ⟨other, later, same.symm⟩)
  have read := readBytes_ok_iff.mpr ⟨place, located, found, Path.endsWithSlash_join entry root⟩
  exact readText_ok_iff.mpr ⟨_, read, decodeUtf8_utf8Bytes file.contents⟩

theorem stored_of_writes (names : ∀ file ∈ files, IsEntryName file.name)
    (apart : (files.map RenderedFile.name).Nodup) (written : output.Writes root files before after) :
    Stored root files before after :=
  ⟨changesOnly_of_writes written, contents_of_receives (by simpa using names) (by simpa using apart)
    (lawful_output.receives written)⟩

theorem stored_of_refuses (names : ∀ other ∈ earlier ++ [file], IsEntryName other.name)
    (apart : ((earlier ++ [file]).map RenderedFile.name).Nodup)
    (written : output.Writes root earlier before mid) (refused : output.Refuses root file error mid left) :
    Stored root earlier before left := by
  have changes := changesOnly_of_writes written
  have last := changesOnly_of_refuses refused
  rw [changes.start_eq] at last
  have whole := changes.trans last
  rw [List.append_nil] at whole
  exact ⟨whole, contents_of_receives names apart (lawful_output.receives_of_refuses written refused)⟩

end Stored

section Success

variable {files : List RenderedFile} {file : RenderedFile} {pieces : List String}

theorem makeAlong_made (start : disk.find? here = some .folder)
    (made : disk.makeAlong here pieces = (.ok (), after)) :
    after.follow here pieces = .ok (pieces.foldl Location.move here) ∧
      after.find? (pieces.foldl Location.move here) = some .folder := by
  induction pieces generalizing disk here with
  | nil =>
    cases made
    exact ⟨rfl, start⟩
  | cons piece rest ih =>
    have changes := changesOnly_makeAlong disk here (piece :: rest)
    rw [made] at changes
    rw [makeAlong, Location.move_eq] at made
    split at made
    · cases made
    rename_i short
    have further {disk : Disk} (next : disk.find? (here.move piece) = some .folder)
        (made : disk.makeAlong (here.move piece) rest = (.ok (), after)) :
        after.follow here (piece :: rest) = .ok (rest.foldl Location.move (here.move piece)) ∧
          after.find? (rest.foldl Location.move (here.move piece)) = some .folder := by
      obtain ⟨followed, folder⟩ := ih next made
      exact ⟨follow_cons_ok_iff.mpr ⟨changes.folders here start, Bool.eq_false_iff.mpr short, followed⟩, folder⟩
    split at made
    · rename_i entries held
      exact further (FileTree.find?_eq_folder_iff.mpr ⟨entries, held⟩) made
    · cases made
    · rename_i free
      refine further ?_ made
      rw [← find?_eq_none_iff] at free
      by_cases up : piece = ".."
      · rw [Location.move, if_pos up, find?_dropLast start] at free
        cases free
      · rw [Location.move, if_neg up] at free ⊢
        exact FileTree.find?_put_new_folder start free

theorem makeAlong_of_follow (followed : disk.follow here pieces = .ok there)
    (folder : disk.find? there = some .folder) : disk.makeAlong here pieces = (.ok (), disk) := by
  induction pieces generalizing here with
  | nil => rfl
  | cons piece rest ih =>
    obtain ⟨-, short, followed⟩ := follow_cons_ok_iff.mp followed
    obtain ⟨entries, held⟩ := FileTree.find?_eq_folder_iff.mp (folder_of_follow followed folder)
    rw [makeAlong, Location.move_eq, short, held]
    exact ih followed

structure Made (disk : Disk) (root : String) : Prop where
  plain : '\x00' ∉ root.toList
  followed : disk.follow (disk.start root) (Path.components root) = .ok (disk.place root)
  folder : disk.find? (disk.place root) = some .folder

theorem made_of_makeDirectories (start : disk.find? (disk.start root) = some .folder)
    (made : disk.makeDirectories root = (.ok (), after)) : after.Made root := by
  have changes := changesOnly_makeDirectories disk root
  rw [made] at changes
  unfold makeDirectories at made
  split at made
  · cases made
  rename_i plain
  have plain : '\x00' ∉ root.toList := by simpa using plain
  split at made
  · rename_i dot
    unfold makeAbove at made
    split at made
    · cases made
    · cases made
    · rename_i above along
      cases located : above.locate root with
      | error fault => simp [located, Except.map] at made
      | ok here =>
        obtain rfl : above = after := congrArg Prod.snd made
        obtain ⟨-, -, followed, folder⟩ := locate_ok_iff.mp located
        obtain rfl := place_of_locate located
        exact ⟨plain, followed, folder dot⟩
  · obtain ⟨followed, folder⟩ := makeAlong_made start made
    have place : after.place root = disk.place root := changes.place_eq root
    exact ⟨plain, by rw [place, changes.start_eq]; exact followed, by rw [place]; exact folder⟩

namespace Made

variable (made : disk.Made root)

include made

theorem makeDirectories_eq : disk.makeDirectories root = (.ok (), disk) := by
  obtain ⟨plain, followed, folder⟩ := made
  rw [makeDirectories, if_neg (by simpa using plain)]
  split
  · rename_i dot
    obtain ⟨above, along, there⟩ := follow_dropLast followed folder
    have located : disk.locate root = .ok (disk.place root) := by
      refine locate_ok_iff.mpr ⟨?_, plain, followed, fun _ => folder⟩
      rintro rfl
      simp [Path.endsInDot] at dot
    rw [makeAbove, makeAlong_of_follow along there]
    simp [located, Except.map]
  · exact makeAlong_of_follow followed folder

theorem of_changesOnly {way : Location → Prop} {places : List Location}
    (changes : ChangesOnly way places disk after) : after.Made root where
  plain := made.plain
  followed := by
    rw [changes.start_eq, changes.place_eq]
    exact changes.follow made.followed
  folder := by
    rw [changes.place_eq]
    exact changes.folders _ made.folder

end Made

/-- A file can have this name in the output directory: it is not too long, and no folder has it. -/
structure Fits (disk : Disk) (root name : String) : Prop where
  short : isTooLong name = false
  free : disk.find? (disk.place (Path.join root name)) ≠ some .folder

instance (disk : Disk) (root name : String) : Decidable (disk.Fits root name) :=
  decidable_of_iff (isTooLong name = false ∧ disk.find? (disk.place (Path.join root name)) ≠ some .folder)
    ⟨fun ⟨short, free⟩ => ⟨short, free⟩, fun ⟨short, free⟩ => ⟨short, free⟩⟩

theorem Made.writeText_ok_iff (made : disk.Made root) (entry : IsEntryName file.name) :
    (∃ after, disk.writeText (Path.join root file.name) file.contents = .ok after) ↔ disk.Fits root file.name := by
  constructor
  · rintro ⟨after, written⟩
    obtain ⟨here, located, -, free, -⟩ := Disk.writeText_ok_iff.mp written
    obtain ⟨-, -, followed, -⟩ := locate_ok_iff.mp located
    rw [Path.components_join entry] at followed
    obtain ⟨above, -, last⟩ := follow_append_ok_iff.mp followed
    exact ⟨(follow_cons_ok_iff.mp last).2.1, by rwa [place_of_locate located]⟩
  · rintro ⟨short, free⟩
    rw [place_join entry] at free
    have located := locate_join made.plain made.followed made.folder entry short
    have above : disk.find? (disk.place root ++ [file.name]).dropLast = some .folder := by
      rw [List.dropLast_concat]
      exact made.folder
    exact ⟨_, Disk.writeText_ok_iff.mpr ⟨_, located, Path.endsWithSlash_join entry root, free, above, rfl⟩⟩

theorem fits_iff_of_writeText {name : String} (written : disk.writeText path text = .ok after) :
    after.Fits root name ↔ disk.Fits root name := by
  obtain ⟨changes, -, held⟩ := writeText_ok (fun _ => False) written
  constructor
  · rintro ⟨short, free⟩
    rw [changes.place_eq] at free
    exact ⟨short, mt (changes.folders _) free⟩
  · rintro ⟨short, free⟩
    refine ⟨short, fun folder => free ?_⟩
    rw [changes.place_eq] at folder
    have other : disk.place (Path.join root name) ≠ disk.place path := by
      intro same
      rw [same, held] at folder
      cases folder
    rcases changes.elsewhere _ (mt List.mem_singleton.mp other) with same | ⟨none, -⟩
    · exact same.symm.trans folder
    · exact none.elim

theorem Made.writes_iff (made : disk.Made root) (names : ∀ file ∈ files, IsEntryName file.name) :
    (∃ after, output.Writes root files disk after) ↔ ∀ file ∈ files, disk.Fits root file.name := by
  induction files generalizing disk with
  | nil => exact ⟨fun _ => by simp, fun _ => ⟨disk, .done disk⟩⟩
  | cons file files ih =>
    obtain ⟨entry, names⟩ := List.forall_mem_cons.mp names
    rw [List.forall_mem_cons, ← made.writeText_ok_iff entry]
    have rest {mid : Disk} (written : disk.writeText (Path.join root file.name) file.contents = .ok mid) :
        (∃ after, output.Writes root files mid after) ↔ ∀ file ∈ files, disk.Fits root file.name := by
      rw [ih (made.of_changesOnly (writeText_ok (fun _ => False) written).1) names]
      exact forall₂_congr fun other _ => fits_iff_of_writeText written
    constructor
    · rintro ⟨after, written⟩
      cases written with
      | next directory text others =>
        obtain rfl : disk = _ := congrArg Prod.snd (made.makeDirectories_eq.symm.trans directory)
        have written := run_writeText_ok_iff.mp text
        exact ⟨⟨_, written⟩, (rest written).mp ⟨after, others⟩⟩
    · rintro ⟨⟨mid, written⟩, fits⟩
      obtain ⟨after, others⟩ := (rest written).mpr fits
      exact ⟨after, .next made.makeDirectories_eq (run_writeText_ok_iff.mpr written) others⟩

theorem Made.not_fits_of_refuses {earlier : List RenderedFile} {error : Error} (made : disk.Made root)
    (names : ∀ other ∈ earlier ++ [file], IsEntryName other.name)
    (written : output.Writes root earlier disk mid) (refused : output.Refuses root file error mid left) :
    ¬disk.Fits root file.name := by
  intro fits
  have room := (made.writes_iff fun other mem => names other (List.mem_append_left _ mem)).mp ⟨mid, written⟩
  obtain ⟨after, whole⟩ := (made.writes_iff names).mpr
    (List.forall_mem_append.mpr ⟨room, List.forall_mem_singleton.mpr fits⟩)
  cases whole.run_eq.symm.trans (Output.run_eq_of_refuses written refused)

theorem Made.refuses_folder {error : Error} (made : disk.Made root) (entry : IsEntryName file.name)
    (short : isTooLong file.name = false)
    (folder : disk.find? (disk.place (Path.join root file.name)) = some .folder)
    (refused : output.Refuses root file error disk left) :
    error = .fileAccess (Path.join root file.name) .isADirectory := by
  cases refused with
  | directory fails => cases made.makeDirectories_eq.symm.trans fails
  | text directory fails =>
    obtain rfl : disk = _ := congrArg Prod.snd (made.makeDirectories_eq.symm.trans directory)
    have located := locate_join made.plain made.followed made.folder entry short
    rw [place_join entry] at folder
    have failed := (run_writeText_error_iff.mp fails).1
    rw [writeText_folder located folder] at failed
    rw [← Except.error.inj failed]

/-- All files are written where the directory can be made and has room for each of them. -/
theorem writes_iff (start : disk.find? (disk.start root) = some .folder) (some : files ≠ [])
    (names : ∀ file ∈ files, IsEntryName file.name) : (∃ after, output.Writes root files disk after) ↔
      (disk.makeDirectories root).1 = .ok () ∧ ∀ file ∈ files,
        (disk.makeDirectories root).2.Fits root file.name := by
  obtain ⟨first, others, rfl⟩ := List.exists_cons_of_ne_nil some
  rcases directory : disk.makeDirectories root with ⟨fault | ⟨⟩, made⟩
  · refine ⟨?_, by rintro ⟨⟨⟩, -⟩⟩
    rintro ⟨after, written⟩
    cases written with
    | next made => cases directory.symm.trans made
  · have there := made_of_makeDirectories start directory
    rw [← there.writes_iff names]
    constructor
    · rintro ⟨after, written⟩
      cases written with
      | next same text rest =>
        obtain rfl : made = _ := congrArg Prod.snd (directory.symm.trans same)
        exact ⟨rfl, after, .next there.makeDirectories_eq text rest⟩
    · rintro ⟨-, after, written⟩
      cases written with
      | next same text rest =>
        obtain rfl : made = _ := congrArg Prod.snd (there.makeDirectories_eq.symm.trans same)
        exact ⟨after, .next directory text rest⟩

end Success

end Disk

end AvroCompiler

import AvroCompiler.Proofs.Package.Listing
import AvroCompiler.Proofs.Registration.Run
import Mathlib.Data.List.Nodup

namespace AvroCompiler

/-- Two items want one place for different entries. -/
def Placed.Clashes (a b : Placed) : Prop :=
  a.file = b.file ∧ a.entry.key = b.entry.key ∧ a.entry ≠ b.entry

instance (a b : Placed) : Decidable (a.Clashes b) :=
  inferInstanceAs (Decidable (_ ∧ _ ∧ _))

namespace Package

/-- Inserts items one after the other, also after one is refused, and tells what came of each. -/
def insertAll (pkg : Package) : List Placed → List (Except Error Bool) × Package
  | [] => ([], pkg)
  | item :: rest =>
    match pkg.insert item.file item.entry with
    | .ok (new, pkg') => (.ok new :: (pkg'.insertAll rest).1, (pkg'.insertAll rest).2)
    | .error error => (.error error :: (pkg.insertAll rest).1, (pkg.insertAll rest).2)

def build (package : String) (items : List Placed) : List (Except Error Bool) × Package :=
  (⟨package, ∅⟩ : Package).insertAll items

section Insertion

variable {pkg : Package} {item : Placed}

theorem Holds.not_clashes {other : Placed} (h : pkg.Holds item) (h' : pkg.Holds other) :
    ¬item.Clashes other := by
  rintro ⟨file, key, ne⟩
  unfold Holds at h h'
  rw [file, key, h'] at h
  exact ne (Option.some.inj h).symm

theorem insert_cases (pkg : Package) (item : Placed) :
    (pkg.get? item.file item.entry.key = none ∧
        pkg.insert item.file item.entry = .ok (true, pkg.put item.file item.entry)) ∨
      (pkg.Holds item ∧ pkg.insert item.file item.entry = .ok (false, pkg)) ∨
      ∃ other, pkg.Holds other ∧ item.Clashes other ∧
        pkg.insert item.file item.entry = .error (.conflict item.file item.entry.key.label) := by
  cases found : pkg.get? item.file item.entry.key with
  | none => exact Or.inl ⟨rfl, insert_of_free found⟩
  | some existing =>
    refine Or.inr ?_
    by_cases same : existing = item.entry
    · subst same
      exact Or.inl ⟨found, insert_of_holds found⟩
    · have key := key_of_get? found
      have held : pkg.Holds ⟨item.file, existing⟩ := by
        unfold Holds
        rw [key]
        exact found
      refine Or.inr ⟨⟨item.file, existing⟩, held, ⟨rfl, key.symm, Ne.symm same⟩, ?_⟩
      unfold insert
      rw [found]
      exact if_neg same

variable {rest : List Placed}

theorem insertAll_new (unset : pkg.get? item.file item.entry.key = none) :
    pkg.insertAll (item :: rest) =
      (.ok true :: ((pkg.put item.file item.entry).insertAll rest).1,
        ((pkg.put item.file item.entry).insertAll rest).2) := by
  rw [insertAll, insert_of_free unset]

theorem insertAll_again (held : pkg.Holds item) :
    pkg.insertAll (item :: rest) = (.ok false :: (pkg.insertAll rest).1, (pkg.insertAll rest).2) := by
  rw [insertAll, insert_of_holds held]

theorem insertAll_refused {error : Error} (refused : pkg.insert item.file item.entry = .error error) :
    pkg.insertAll (item :: rest) = (.error error :: (pkg.insertAll rest).1, (pkg.insertAll rest).2) := by
  rw [insertAll, refused]

end Insertion

/-- Where nothing is refused, a package holds afterwards what it held and what was inserted. -/
theorem holds_insertAll {pkg : Package} {items : List Placed} (other : Placed)
    (accepted : ∀ error, .error error ∉ (pkg.insertAll items).1) :
    (pkg.insertAll items).2.Holds other ↔ pkg.Holds other ∨ other ∈ items := by
  induction items generalizing pkg with
  | nil => simp [insertAll]
  | cons item rest ih =>
    rcases pkg.insert_cases item with ⟨unset, _⟩ | ⟨held, _⟩ | ⟨_, _, _, refused⟩
    · rw [insertAll_new unset] at accepted ⊢
      rw [ih fun error mem => accepted error (List.mem_cons_of_mem _ mem), holds_put unset,
        List.mem_cons, or_assoc, or_left_comm]
    · rw [insertAll_again held] at accepted ⊢
      rw [ih fun error mem => accepted error (List.mem_cons_of_mem _ mem), List.mem_cons]
      constructor
      · exact Or.imp_right Or.inr
      · rintro (old | rfl | mem)
        · exact Or.inl old
        · exact Or.inl held
        · exact Or.inr mem
    · rw [insertAll_refused refused] at accepted
      exact absurd (List.mem_cons_self) (accepted _)

theorem exists_clash_of_refused {pkg : Package} {items : List Placed} {error : Error}
    (refused : .error error ∈ (pkg.insertAll items).1) :
    ∃ a ∈ items, ∃ b, (pkg.Holds b ∨ b ∈ items) ∧ a.Clashes b ∧
      error = .conflict a.file a.entry.key.label := by
  induction items generalizing pkg with
  | nil => cases refused
  | cons item rest ih =>
    rcases pkg.insert_cases item with ⟨unset, _⟩ | ⟨held, _⟩ | ⟨other, held, clash, stopped⟩
    · rw [insertAll_new unset] at refused
      obtain ⟨a, mem, b, there, clash⟩ := ih ((List.mem_cons.mp refused).resolve_left nofun)
      refine ⟨a, List.mem_cons_of_mem _ mem, b, ?_, clash⟩
      rcases there with there | there
      · rcases (holds_put unset).mp there with rfl | there
        · exact Or.inr List.mem_cons_self
        · exact Or.inl there
      · exact Or.inr (List.mem_cons_of_mem _ there)
    · rw [insertAll_again held] at refused
      obtain ⟨a, mem, b, there, clash⟩ := ih ((List.mem_cons.mp refused).resolve_left nofun)
      exact ⟨a, List.mem_cons_of_mem _ mem, b, there.imp_right (List.mem_cons_of_mem _), clash⟩
    · rw [insertAll_refused stopped] at refused
      rcases List.mem_cons.mp refused with eq | later
      · cases eq
        exact ⟨item, List.mem_cons_self, other, Or.inl held, clash, rfl⟩
      · obtain ⟨a, mem, b, there, clash⟩ := ih later
        exact ⟨a, List.mem_cons_of_mem _ mem, b, there.imp_right (List.mem_cons_of_mem _), clash⟩

theorem holds_build {package : String} {items : List Placed}
    (accepted : ∀ error, .error error ∉ (build package items).1) (item : Placed) :
    (build package items).2.Holds item ↔ item ∈ items :=
  (holds_insertAll item accepted).trans (or_iff_right (not_holds_empty package item))

/-- Insertions into a fresh package are all accepted, unless two of them clash. -/
theorem refused_iff_clash (package : String) (items : List Placed) :
    (∃ error, .error error ∈ (build package items).1) ↔ ∃ a ∈ items, ∃ b ∈ items, a.Clashes b := by
  constructor
  · rintro ⟨error, refused⟩
    obtain ⟨a, mem, b, there, clash, _⟩ := exists_clash_of_refused refused
    exact ⟨a, mem, b, there.resolve_left (not_holds_empty package b), clash⟩
  · rintro ⟨a, mem, b, mem', clash⟩
    refine Classical.byContradiction fun none => ?_
    have accepted : ∀ error, .error error ∉ (build package items).1 :=
      fun error refused => none ⟨error, refused⟩
    have held := (holds_build accepted a).mpr mem
    have held' := (holds_build accepted b).mpr mem'
    exact held.not_clashes held' clash

def Filled (pkg : Package) : Prop :=
  ∀ file ∈ pkg.files.keys, ∃ entry, pkg.Holds ⟨file, entry⟩

theorem filled_empty (package : String) : (⟨package, ∅⟩ : Package).Filled :=
  List.forall_mem_nil _

theorem filled_insertAll {pkg : Package} (filled : pkg.Filled) (items : List Placed) :
    (pkg.insertAll items).2.Filled := by
  induction items generalizing pkg with
  | nil => exact filled
  | cons item rest ih =>
    rcases pkg.insert_cases item with ⟨unset, _⟩ | ⟨held, _⟩ | ⟨_, _, _, refused⟩
    · rw [insertAll_new unset]
      refine ih fun file mem => ?_
      rcases mem_keys_put mem with rfl | mem
      · exact ⟨item.entry, (holds_put unset).mpr (Or.inl rfl)⟩
      · obtain ⟨entry, held⟩ := filled file mem
        exact ⟨entry, (holds_put unset).mpr (Or.inr held)⟩
    · rw [insertAll_again held]
      exact ih filled
    · rw [insertAll_refused refused]
      exact ih filled

theorem name_insertAll (pkg : Package) (items : List Placed) :
    (pkg.insertAll items).2.name = pkg.name := by
  induction items generalizing pkg with
  | nil => rfl
  | cons item rest ih =>
    rcases pkg.insert_cases item with ⟨unset, _⟩ | ⟨held, _⟩ | ⟨_, _, _, refused⟩
    · rw [insertAll_new unset]
      exact ih _
    · rw [insertAll_again held]
      exact ih _
    · rw [insertAll_refused refused]
      exact ih _

theorem mem_keys_iff_holds {pkg : Package} (filled : pkg.Filled) (file : String) :
    file ∈ pkg.files.keys ↔ ∃ entry, pkg.Holds ⟨file, entry⟩ := by
  constructor
  · exact filled file
  · rintro ⟨entry, held⟩
    refine Classical.byContradiction fun absent => ?_
    have missing : pkg.files.get? file = none := by
      refine Option.eq_none_iff_forall_ne_some.mpr fun value found => absent ?_
      exact List.mem_map.mpr ⟨_, Keyed.get?_eq_some_iff_mem.mp found, rfl⟩
    unfold Holds Package.get? Package.file at held
    rw [missing] at held
    cases entry <;> cases held

theorem get?_eq_some_iff_holds {pkg : Package} {file : String} {key : EntryKey} {entry : Entry} :
    pkg.get? file key = some entry ↔ entry.key = key ∧ pkg.Holds ⟨file, entry⟩ := by
  constructor
  · intro found
    have same := key_of_get? found
    refine ⟨same, ?_⟩
    unfold Holds
    rw [same]
    exact found
  · rintro ⟨rfl, held⟩
    exact held

/-- Packages of one name without empty files are the same if they hold the same. -/
theorem eq_of_holds {a b : Package} (name : a.name = b.name) (filled : a.Filled) (filled' : b.Filled)
    (same : ∀ item, a.Holds item ↔ b.Holds item) : a = b := by
  have files : a.files = b.files := by
    refine Keyed.ext_get? fun file => ?_
    have content : a.file file = b.file file := by
      refine File.ext_get? fun key => Option.ext fun entry => ?_
      exact get?_eq_some_iff_holds.trans ((and_congr_right fun _ => same _).trans
        get?_eq_some_iff_holds.symm)
    have listed : file ∈ a.files.keys ↔ file ∈ b.files.keys := by
      rw [mem_keys_iff_holds filled, mem_keys_iff_holds filled']
      exact exists_congr fun entry => same _
    rw [get?_files, get?_files, content]
    simp only [listed]
  obtain ⟨_, _⟩ := a
  obtain ⟨_, _⟩ := b
  cases name
  cases files
  rfl

/-- The package is written out as these items: a file for each file that is named, besides the index,
and in it each entry once. -/
structure WritesOnce (pkg : Package) (items : List Placed) : Prop where
  files_nodup : pkg.files.keys.Nodup
  mem_files : ∀ file, file ∈ pkg.files.keys ↔ ∃ item ∈ items, item.file = file
  once : ∀ file entry,
    (pkg.file file).listing.count entry = if (⟨file, entry⟩ : Placed) ∈ items then 1 else 0
  rendered : ∀ sources, (pkg.render sources).Perm
    (⟨indexFile, pkg.renderIndex sources⟩ ::
      pkg.files.keys.map fun file => ⟨file, layout pkg.name sources (pkg.file file).listing⟩)

theorem writesOnce_of_holds {pkg : Package} {items : List Placed} (filled : pkg.Filled)
    (holds : ∀ item, pkg.Holds item ↔ item ∈ items) : pkg.WritesOnce items := by
  refine ⟨pkg.files.increasing.keys_nodup, fun file => ?_, fun file entry => ?_, pkg.render_perm⟩
  · rw [mem_keys_iff_holds filled]
    constructor
    · rintro ⟨entry, held⟩
      exact ⟨_, (holds _).mp held, rfl⟩
    · rintro ⟨item, mem, rfl⟩
      exact ⟨item.entry, (holds item).mpr mem⟩
  · have listed : entry ∈ (pkg.file file).listing ↔ (⟨file, entry⟩ : Placed) ∈ items :=
      File.mem_listing.trans (holds ⟨file, entry⟩)
    rw [(File.nodup_listing _).count]
    simp only [listed]

def Conflicts (outcomes : List (Except Error Bool)) : Prop :=
  ∃ file label, .error (.conflict file label) ∈ outcomes

theorem conflicts_iff_refused (pkg : Package) (items : List Placed) :
    Conflicts (pkg.insertAll items).1 ↔ ∃ error, .error error ∈ (pkg.insertAll items).1 := by
  constructor
  · rintro ⟨file, label, refused⟩
    exact ⟨_, refused⟩
  · rintro ⟨error, refused⟩
    obtain ⟨a, _, _, _, _, rfl⟩ := exists_clash_of_refused refused
    exact ⟨_, _, refused⟩

section Order

variable {package : String} {items others : List Placed}

theorem conflicts_iff_clash (package : String) (items : List Placed) :
    Conflicts (build package items).1 ↔ ∃ a ∈ items, ∃ b ∈ items, a.Clashes b :=
  (conflicts_iff_refused _ items).trans (refused_iff_clash package items)

theorem accepted_of_not_conflicts (free : ¬Conflicts (build package items).1) :
    ∀ error, .error error ∉ (build package items).1 :=
  fun error refused => free ((conflicts_iff_refused _ items).mpr ⟨error, refused⟩)

theorem conflicts_iff_of_perm (package : String) (perm : items.Perm others) :
    Conflicts (build package items).1 ↔ Conflicts (build package others).1 := by
  rw [conflicts_iff_clash, conflicts_iff_clash]
  simp only [perm.mem_iff]

theorem filled_build (package : String) (items : List Placed) : (build package items).2.Filled :=
  filled_insertAll (filled_empty package) items

theorem build_eq_of_perm (perm : items.Perm others) (free : ¬Conflicts (build package items).1) :
    (build package items).2 = (build package others).2 := by
  have free' := fun conflicts => free ((conflicts_iff_of_perm package perm).mpr conflicts)
  have name (list : List Placed) : (build package list).2.name = package := name_insertAll _ list
  refine eq_of_holds ((name items).trans (name others).symm) (filled_build package items)
    (filled_build package others) fun item => ?_
  rw [holds_build (accepted_of_not_conflicts free), holds_build (accepted_of_not_conflicts free'),
    perm.mem_iff]

end Order

/-- Whether insertions into a fresh package conflict does not depend on their order, and where they do
not conflict, neither do the files that are written. -/
theorem build_order (package : String) {items others : List Placed} (perm : items.Perm others) :
    (Conflicts (build package items).1 ↔ Conflicts (build package others).1) ∧
      (Conflicts (build package items).1 ↔ ∃ a ∈ items, ∃ b ∈ items, a.Clashes b) ∧
      (Conflicts (build package items).1 ∨
        ∀ outcome ∈ (build package items).1, ∃ new, outcome = .ok new) ∧
      (¬Conflicts (build package items).1 →
        (∀ sources, (build package items).2.render sources = (build package others).2.render sources) ∧
        (build package items).2.WritesOnce items) := by
  refine ⟨conflicts_iff_of_perm package perm, conflicts_iff_clash package items, ?_, fun free => ?_⟩
  · refine or_iff_not_imp_left.mpr fun free outcome mem => ?_
    cases outcome with
    | ok new => exact ⟨new, rfl⟩
    | error error => exact absurd mem (accepted_of_not_conflicts free error)
  · have holds := holds_build (accepted_of_not_conflicts free)
    have same := build_eq_of_perm perm free
    exact ⟨fun sources => congrArg (render · sources) same,
      writesOnce_of_holds (filled_build package items) holds⟩

def someItems : List Placed :=
  [⟨"b.rs", .routine (.free "f") "pub fn f() {}"⟩,
   ⟨"a.rs", .type "B" "pub struct B;"⟩,
   ⟨"a.rs", .routine (.free "B") "pub fn B() {}"⟩,
   ⟨"a.rs", .constant "B" 4⟩,
   ⟨"a.rs", .type "B" "pub struct B;"⟩,
   ⟨"a.rs", .use "std::io"⟩,
   ⟨"a.rs", .routine ⟨"B", "f"⟩ "impl B {}"⟩]

theorem someItems_reversed :
    someItems.Perm someItems.reverse ∧ ¬Conflicts (build "avro" someItems).1 ∧
      (∀ sources, (build "avro" someItems).2.render sources =
        (build "avro" someItems.reverse).2.render sources) ∧
      (build "avro" someItems).2.WritesOnce someItems := by
  have perm : someItems.Perm someItems.reverse := (List.reverse_perm someItems).symm
  obtain ⟨_, clash, _, settled⟩ := build_order "avro" perm
  have free : ¬Conflicts (build "avro" someItems).1 := by
    rw [clash]
    decide
  exact ⟨perm, free, settled free⟩

end Package

end AvroCompiler

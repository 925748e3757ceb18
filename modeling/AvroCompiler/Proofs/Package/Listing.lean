import AvroCompiler.Package.Render
import AvroCompiler.Proofs.Keyed
import Mathlib.Data.List.Basic

namespace AvroCompiler

namespace Entry

def useLine? : Entry → Option String
  | .use path => some s!"use {path};"
  | _ => none

def constantLine? : Entry → Option String
  | .constant name value => some (constantLine name value)
  | _ => none

def typeText? : Entry → Option String
  | .type _ text => some text
  | _ => none

def routineText? : Entry → Option String
  | .routine _ text => some text
  | _ => none

end Entry

/-- The text of a file with these entries: uses and constants a line each, types and routines a section
each. -/
def layout (package : String) (sources : List String) (entries : List Entry) : String :=
  joinSections <|
    [provenance sources, File.header package] ++
    linesSection (entries.filterMap Entry.useLine?) ++
    linesSection (entries.filterMap Entry.constantLine?) ++
    entries.filterMap Entry.typeText? ++
    entries.filterMap Entry.routineText?

namespace File

/-- The entries of a file in the order in which they are written. -/
def listing (file : File) : List Entry :=
  file.imports.keys.map .use ++
    file.constants.entries.map (fun entry => .constant entry.1 entry.2) ++
    file.types.entries.map (fun entry => .type entry.1 entry.2) ++
    file.routines.entries.map (fun entry => .routine entry.1 entry.2)

theorem filterMap_listing {β : Type} (pick : Entry → Option β) (file : File) :
    file.listing.filterMap pick =
      file.imports.keys.filterMap (fun path => pick (.use path)) ++
        file.constants.entries.filterMap (fun entry => pick (.constant entry.1 entry.2)) ++
        file.types.entries.filterMap (fun entry => pick (.type entry.1 entry.2)) ++
        file.routines.entries.filterMap (fun entry => pick (.routine entry.1 entry.2)) := by
  simp only [listing, List.filterMap_append, List.filterMap_map, Function.comp_def]

theorem render_eq_layout (file : File) (package : String) (sources : List String) :
    file.render package sources = layout package sources file.listing := by
  have uses : file.listing.filterMap Entry.useLine? =
      file.imports.keys.map fun path => s!"use {path};" := by
    simp [filterMap_listing, Entry.useLine?]
  have constants : file.listing.filterMap Entry.constantLine? =
      file.constants.entries.map fun entry => constantLine entry.1 entry.2 := by
    simp [filterMap_listing, Entry.constantLine?]
  have types : file.listing.filterMap Entry.typeText? = file.types.values := by
    simp [filterMap_listing, Entry.typeText?, Keyed.values]
  have routines : file.listing.filterMap Entry.routineText? = file.routines.values := by
    simp [filterMap_listing, Entry.routineText?, Keyed.values]
  rw [layout, uses, constants, types, routines]
  rfl

theorem mem_listing {file : File} {entry : Entry} :
    entry ∈ file.listing ↔ file.get? entry.key = some entry := by
  cases entry with
  | use path =>
    simp [listing, get?, Entry.key, Keyed.keys, ← Keyed.get?_eq_some_iff_mem]
  | constant name value =>
    simp [listing, get?, Entry.key, ← Keyed.get?_eq_some_iff_mem]
  | type name text =>
    simp [listing, get?, Entry.key, ← Keyed.get?_eq_some_iff_mem]
  | routine key text =>
    simp [listing, get?, Entry.key, ← Keyed.get?_eq_some_iff_mem]

theorem nodup_listing (file : File) : file.listing.Nodup := by
  have uses : (file.imports.keys.map Entry.use).Nodup :=
    List.Pairwise.map Entry.use (fun _ _ ne eq => ne (Entry.use.inj eq)) file.imports.increasing.keys_nodup
  have constants : (file.constants.entries.map fun entry => Entry.constant entry.1 entry.2).Nodup :=
    List.Pairwise.map _ (fun _ _ ne eq => ne (Prod.ext_iff.mpr (Entry.constant.inj eq))) file.constants.nodup_entries
  have types : (file.types.entries.map fun entry => Entry.type entry.1 entry.2).Nodup :=
    List.Pairwise.map _ (fun _ _ ne eq => ne (Prod.ext_iff.mpr (Entry.type.inj eq))) file.types.nodup_entries
  have routines : (file.routines.entries.map fun entry => Entry.routine entry.1 entry.2).Nodup :=
    List.Pairwise.map _ (fun _ _ ne eq => ne (Prod.ext_iff.mpr (Entry.routine.inj eq))) file.routines.nodup_entries
  simp only [listing, List.nodup_append]
  refine ⟨⟨⟨uses, constants, ?_⟩, types, ?_⟩, routines, ?_⟩
  all_goals
    intro entry mem other mem' same
    simp only [List.mem_append, List.mem_map] at mem mem'
    grind

theorem ext_get? {a b : File} (h : ∀ key, a.get? key = b.get? key) : a = b := by
  have imports : a.imports = b.imports := by
    refine Keyed.ext_get? fun path => ?_
    have same := h (.use path)
    simp only [get?] at same
    cases left : a.imports.get? path <;> cases right : b.imports.get? path <;> simp_all
  have constants : a.constants = b.constants :=
    Keyed.ext_get? fun name =>
      Option.map_injective (fun _ _ eq => (Entry.constant.inj eq).2) (h (.constant name))
  have types : a.types = b.types :=
    Keyed.ext_get? fun name =>
      Option.map_injective (fun _ _ eq => (Entry.type.inj eq).2) (h (.type name))
  have routines : a.routines = b.routines :=
    Keyed.ext_get? fun key =>
      Option.map_injective (fun _ _ eq => (Entry.routine.inj eq).2) (h (.routine key))
  obtain ⟨_, _, _, _⟩ := a
  obtain ⟨_, _, _, _⟩ := b
  cases imports
  cases constants
  cases types
  cases routines
  rfl

end File

namespace Package

theorem get?_files (pkg : Package) (file : String) :
    pkg.files.get? file = if file ∈ pkg.files.keys then some (pkg.file file) else none := by
  cases found : pkg.files.get? file with
  | none =>
    have absent : file ∉ pkg.files.keys := by
      intro mem
      obtain ⟨⟨_, value⟩, listed, rfl⟩ := List.mem_map.mp mem
      rw [Keyed.get?_eq_some_iff_mem.mpr listed] at found
      cases found
    rw [if_neg absent]
  | some value =>
    have listed : file ∈ pkg.files.keys :=
      List.mem_map.mpr ⟨_, Keyed.get?_eq_some_iff_mem.mp found, rfl⟩
    rw [if_pos listed, Package.file, found, Option.getD_some]

/-- A package writes a file for each file that it keeps, and the index. -/
theorem render_perm (pkg : Package) (sources : List String) :
    (pkg.render sources).Perm
      (⟨indexFile, pkg.renderIndex sources⟩ ::
        pkg.files.keys.map fun file => ⟨file, layout pkg.name sources (pkg.file file).listing⟩) := by
  let written := pkg.files.entries.map fun entry =>
    RenderedFile.mk entry.1 (entry.2.render pkg.name sources)
  have same : written = pkg.files.keys.map fun file =>
      ⟨file, layout pkg.name sources (pkg.file file).listing⟩ := by
    rw [Keyed.keys, List.map_map]
    refine List.map_congr_left fun entry listed => ?_
    have found : pkg.file entry.1 = entry.2 := by
      rw [Package.file, Keyed.get?_eq_some_iff_mem.mpr listed, Option.getD_some]
    simp only [Function.comp_apply, found, File.render_eq_layout]
  rw [← same]
  have parts : (written.filter (fun f => f.name ≤ indexFile) ++
      written.filter (fun f => indexFile < f.name)).Perm written := by
    have later : (fun f : RenderedFile => decide (indexFile < f.name)) =
        fun f => !decide (f.name ≤ indexFile) := by
      funext f
      simp only [← String.not_le, decide_not]
    rw [later]
    exact List.filter_append_perm _ written
  have shown : pkg.render sources = written.filter (fun f => f.name ≤ indexFile) ++
      ⟨indexFile, pkg.renderIndex sources⟩ :: written.filter (fun f => indexFile < f.name) := by
    rw [← List.singleton_append, ← List.append_assoc]
    rfl
  rw [shown]
  exact List.perm_middle.trans (parts.cons _)

end Package

end AvroCompiler

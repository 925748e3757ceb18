import AvroCompiler.Program
import AvroCompiler.Proofs.Disk.Output
import AvroCompiler.Proofs.Registration.Index

namespace AvroCompiler

variable {σ : Type} [FileSystem σ]

/-- The files hold documents that are read one after another into a namespace. -/
def ReadsInto (disk : σ) (paths : List String) (ns : Namespace) : Prop :=
  ∃ texts, List.Forall₂ (fun path text => FileSystem.readText disk path = .ok text) paths texts ∧
    (readDocuments texts).runFrom .empty = (.ok (), ns)

section Inputs

variable {disk : σ} {ns ns' : Namespace} {path : String} {paths : List String}

theorem readSchemaFile_ok_iff : (readSchemaFile disk path).runFrom ns = (.ok (), ns') ↔
    ∃ text, FileSystem.readText disk path = .ok text ∧ (readDocument text).runFrom ns = (.ok (), ns') := by
  unfold readSchemaFile
  cases FileSystem.readText disk path with
  | error fault =>
    constructor
    · intro run
      cases run
    · rintro ⟨text, held, -⟩
      cases held
  | ok text => simp

theorem readSchemaFiles_ok_iff : readSchemaFiles disk paths ns = .ok ns' ↔
    ∃ texts, List.Forall₂ (fun path text => FileSystem.readText disk path = .ok text) paths texts ∧
      (readDocuments texts).runFrom ns = (.ok (), ns') := by
  induction paths generalizing ns with
  | nil =>
    constructor
    · intro read
      exact ⟨[], .nil, congrArg _ (Except.ok.inj read)⟩
    · rintro ⟨texts, held, run⟩
      cases held
      exact congrArg _ (Reading.pure_ok run).2
  | cons path paths ih =>
    rw [readSchemaFiles]
    constructor
    · intro read
      split at read
      · rename_i middle first
        obtain ⟨text, held, ran⟩ := readSchemaFile_ok_iff.mp first
        obtain ⟨texts, others, run⟩ := ih.mp read
        exact ⟨text :: texts, .cons held others, readDocuments_cons ran run⟩
      · cases read
    · rintro ⟨_, held, run⟩
      cases held with
      | @cons _ text _ texts first others =>
        obtain ⟨_, middle, ran, run⟩ := Reading.bind_ok run
        rw [readSchemaFile_ok_iff.mpr ⟨text, first, ran⟩]
        exact ih.mpr ⟨texts, others, run⟩

theorem readSchemaFiles_append (front back : List String) (disk : σ) (ns : Namespace) :
    readSchemaFiles disk (front ++ back) ns =
      (readSchemaFiles disk front ns).bind (readSchemaFiles disk back) := by
  induction front generalizing ns with
  | nil => rfl
  | cons path front ih =>
    rw [List.cons_append, readSchemaFiles, readSchemaFiles]
    split
    · exact ih _
    · rfl

theorem readSchemaFiles_error {failure : Failure} (refused : readSchemaFiles disk paths ns = .error failure) :
    ∃ front path back middle error, paths = front ++ path :: back ∧
      readSchemaFiles disk front ns = .ok middle ∧
      ((readSchemaFile disk path).runFrom middle).1 = .error error ∧ failure = .schema path error := by
  induction paths generalizing ns with
  | nil => cases refused
  | cons path paths ih =>
    rw [readSchemaFiles] at refused
    split at refused
    · rename_i middle first
      obtain ⟨front, other, back, last, error, rfl, read, stopped, blamed⟩ := ih refused
      refine ⟨path :: front, other, back, last, error, rfl, ?_, stopped, blamed⟩
      rw [readSchemaFiles, first]
      exact read
    · rename_i error left stopped
      exact ⟨[], path, paths, ns, error, rfl, rfl, congrArg Prod.fst stopped, (Except.error.inj refused).symm⟩

end Inputs

section Names

theorem IsModuleFile.isEntryName {file : String} (h : IsModuleFile file) : IsEntryName file := by
  obtain ⟨name, word, rfl⟩ := h
  have plain (c : Char) (odd : ¬(c.isAlphanum = true ∨ c = '_')) (other : c ∉ ".rs".toList) :
      c ∉ (fileName name).toList := by
    rw [fileName, String.toList_append, List.mem_append, not_or]
    exact ⟨fun mem => odd (isWord_moduleName word c mem), other⟩
  have ends : ".rs".toList <:+ (fileName name).toList := by simp [fileName]
  refine ⟨?_, ?_, ?_, plain '/' (by decide) (by decide), plain '\x00' (by decide) (by decide)⟩
  all_goals
    intro eq
    rw [eq] at ends
    exact absurd ends (by decide)

/-- The files of a package have different names, in their order, that stand for themselves in a path. -/
theorem Package.renders_in_order {ns : Namespace} {package : String} {pkg : Package} (closed : ns.Closed)
    (generated : generate ns package = .ok pkg) (sources : List String) :
    (pkg.fileNames sources).Pairwise (· < ·) ∧ ∀ file ∈ pkg.render sources, IsEntryName file.name := by
  refine ⟨pkg.fileNames_increasing sources (indexFile_not_mem_keys closed generated), fun file mem => ?_⟩
  have listed : file.name ∈ pkg.fileNames sources := List.mem_map_of_mem mem
  rw [Package.fileNames_eq, List.mem_append, List.mem_cons, List.mem_filter, List.mem_filter] at listed
  rcases listed with ⟨held, -⟩ | index | ⟨held, -⟩
  · exact (isModuleFile_of_generate closed generated held).isEntryName
  · rw [index]
    decide
  · exact (isModuleFile_of_generate closed generated held).isEntryName

end Names

/-- The settings are loaded, and the schema files of the inputs, of which there are some, are read. -/
structure Surroundings.Loads (around : Surroundings σ) (arguments : Arguments) (settings : Settings)
    (sources : List String) (ns : Namespace) : Prop where
  loaded : around.settings arguments.config = .ok settings
  collected : collectSchemaFiles around.disk arguments.inputs = .ok sources
  full : sources ≠ []
  read : ReadsInto around.disk sources ns

/-- What becomes of a command line before anything is written: the first of the stages that fails says why,
or the files of the package of all schemas are ready. -/
inductive Surroundings.Prepares (around : Surroundings σ) (arguments : Arguments) :
    Except Failure Compilation → Prop
  | unsettled {fault : SettingsFault} (faulty : around.settings arguments.config = .error fault) :
      Prepares around arguments (.error (.settings fault))
  | uncollected {settings : Settings} {error : Error} (loaded : around.settings arguments.config = .ok settings)
      (refused : collectSchemaFiles around.disk arguments.inputs = .error error) :
      Prepares around arguments (.error (.collection error))
  | nothing {settings : Settings} (loaded : around.settings arguments.config = .ok settings)
      (none : collectSchemaFiles around.disk arguments.inputs = .ok []) :
      Prepares around arguments (.error (.noSchemas arguments.inputs))
  | unread {settings : Settings} {front back : List String} {path : String} {ns : Namespace} {error : Error}
      (loaded : around.settings arguments.config = .ok settings)
      (collected : collectSchemaFiles around.disk arguments.inputs = .ok (front ++ path :: back))
      (read : ReadsInto around.disk front ns)
      (refused : ((readSchemaFile around.disk path).runFrom ns).1 = .error error) :
      Prepares around arguments (.error (.schema path error))
  | ungenerated {settings : Settings} {sources : List String} {ns : Namespace} {error : Error}
      (loads : around.Loads arguments settings sources ns)
      (refused : generate ns (arguments.override settings).packageName = .error error) :
      Prepares around arguments (.error (.generation error))
  | malformed {settings : Settings} {sources : List String} {ns : Namespace} {pkg : Package}
      {front back : List RenderedFile} {file : RenderedFile} {error : Error}
      (loads : around.Loads arguments settings sources ns)
      (generated : generate ns (arguments.override settings).packageName = .ok pkg)
      (validated : settings.validate = true) (rendered : pkg.render sources = front ++ file :: back)
      (passed : ∀ other ∈ front, other.fault? = none) (refused : file.fault? = some error) :
      Prepares around arguments (.error (.generation error))
  | ready {settings : Settings} {sources : List String} {ns : Namespace} {pkg : Package}
      (loads : around.Loads arguments settings sources ns)
      (generated : generate ns (arguments.override settings).packageName = .ok pkg)
      (passed : settings.validate = true → ∀ file ∈ pkg.render sources, file.fault? = none) :
      Prepares around arguments (.ok
        { packageName := (arguments.override settings).packageName
          directory := (arguments.override settings).outputPath (FileSystem.work around.disk)
          schemas := sources, types := ns.types.size, files := pkg.render sources })

section Rendering

variable {ns : Namespace} {name : String} {pkg : Package} {sources : List String} {error : Error}

theorem generateFiles_error (refused : generate ns name = .error error) (sources : List String)
    (validate : Bool) : generateFiles ns name sources validate = .error error := by
  rw [generateFiles, refused]
  rfl

theorem generateFiles_plain (generated : generate ns name = .ok pkg) (sources : List String) :
    generateFiles ns name sources false = .ok (pkg.render sources) := by
  rw [generateFiles, generated]
  rfl

theorem generateFiles_checked (generated : generate ns name = .ok pkg) (sources : List String) :
    generateFiles ns name sources true = pkg.renderChecked sources := by
  rw [generateFiles, generated]
  rfl

theorem renderChecked_ok (passed : ∀ file ∈ pkg.render sources, file.fault? = none) :
    pkg.renderChecked sources = .ok (pkg.render sources) := by
  rw [Package.renderChecked, List.findSome?_eq_none_iff.mpr passed]

theorem renderChecked_error {front back : List RenderedFile} {file : RenderedFile}
    (rendered : pkg.render sources = front ++ file :: back) (passed : ∀ other ∈ front, other.fault? = none)
    (refused : file.fault? = some error) : pkg.renderChecked sources = .error error := by
  have first := List.findSome?_eq_some_iff.mpr ⟨front, file, back, rendered, refused, passed⟩
  rw [Package.renderChecked, first]

end Rendering

namespace Surroundings

variable {around : Surroundings σ} {arguments : Arguments} {outcome : Except Failure Compilation}

theorem compile_unsettled {fault : SettingsFault} (faulty : around.settings arguments.config = .error fault) :
    around.compile arguments = .error (.settings fault) := by
  rw [compile, faulty]
  rfl

theorem compile_uncollected {settings : Settings} {error : Error}
    (loaded : around.settings arguments.config = .ok settings)
    (refused : collectSchemaFiles around.disk arguments.inputs = .error error) :
    around.compile arguments = .error (.collection error) := by
  rw [compile, loaded, refused]
  rfl

theorem compile_nothing {settings : Settings} (loaded : around.settings arguments.config = .ok settings)
    (none : collectSchemaFiles around.disk arguments.inputs = .ok []) :
    around.compile arguments = .error (.noSchemas arguments.inputs) := by
  rw [compile, loaded, none]
  rfl

theorem compile_unread {settings : Settings} {sources : List String} {failure : Failure}
    (loaded : around.settings arguments.config = .ok settings)
    (collected : collectSchemaFiles around.disk arguments.inputs = .ok sources) (full : sources ≠ [])
    (refused : readSchemaFiles around.disk sources .empty = .error failure) :
    around.compile arguments = .error failure := by
  rw [compile, loaded, collected]
  simp [Except.mapError, bind, Except.bind, full, refused]

theorem Loads.compile_eq {settings : Settings} {sources : List String} {ns : Namespace}
    (loads : around.Loads arguments settings sources ns) : around.compile arguments =
      ((generateFiles ns (arguments.override settings).packageName sources settings.validate).mapError
        .generation).map fun files =>
          { packageName := (arguments.override settings).packageName
            directory := (arguments.override settings).outputPath (FileSystem.work around.disk)
            schemas := sources, types := ns.types.size, files } := by
  rw [compile, loads.loaded, loads.collected]
  simp [Except.mapError, bind, Except.bind, pure, Except.pure, loads.full, readSchemaFiles_ok_iff.mpr loads.read]
  rfl

/-- Where all is read, the package is generated and, if asked for, its files are checked one by one. -/
theorem Loads.prepares_compile {settings : Settings} {sources : List String} {ns : Namespace}
    (loads : around.Loads arguments settings sources ns) :
    around.Prepares arguments (around.compile arguments) := by
  rw [loads.compile_eq]
  cases generated : generate ns (arguments.override settings).packageName with
  | error error =>
    rw [generateFiles_error generated]
    exact .ungenerated loads generated
  | ok pkg =>
    cases validated : settings.validate with
    | false =>
      rw [generateFiles_plain generated]
      exact .ready loads generated (by simp [validated])
    | true =>
      rw [generateFiles_checked generated]
      cases first : (pkg.render sources).findSome? RenderedFile.fault? with
      | none =>
        have passed := List.findSome?_eq_none_iff.mp first
        rw [renderChecked_ok passed]
        exact .ready loads generated fun _ => passed
      | some error =>
        obtain ⟨front, file, back, rendered, refused, passed⟩ := List.findSome?_eq_some_iff.mp first
        rw [renderChecked_error rendered passed refused]
        exact .malformed loads generated validated rendered passed refused

theorem prepares_compile (around : Surroundings σ) (arguments : Arguments) :
    around.Prepares arguments (around.compile arguments) := by
  cases loaded : around.settings arguments.config with
  | error fault => exact compile_unsettled loaded ▸ .unsettled loaded
  | ok settings =>
    rcases collected : collectSchemaFiles around.disk arguments.inputs with error | sources
    · exact compile_uncollected loaded collected ▸ .uncollected loaded collected
    by_cases none : sources = []
    · exact compile_nothing loaded (none ▸ collected) ▸ .nothing loaded (none ▸ collected)
    cases outcome : readSchemaFiles around.disk sources .empty with
    | error failure =>
      rw [compile_unread loaded collected none outcome]
      obtain ⟨front, path, back, middle, error, rfl, read, refused, rfl⟩ := readSchemaFiles_error outcome
      exact .unread loaded collected (readSchemaFiles_ok_iff.mp read) refused
    | ok ns => exact Loads.prepares_compile ⟨loaded, collected, none, readSchemaFiles_ok_iff.mp outcome⟩

/-- The stages leave no choice: what they prepare is what is compiled. -/
theorem Prepares.compile_eq (prepares : around.Prepares arguments outcome) :
    around.compile arguments = outcome := by
  cases prepares with
  | unsettled faulty => exact compile_unsettled faulty
  | uncollected loaded refused => exact compile_uncollected loaded refused
  | nothing loaded none => exact compile_nothing loaded none
  | @unread settings front back path ns error loaded collected read refused =>
    refine compile_unread loaded collected (by simp) ?_
    rw [readSchemaFiles_append, readSchemaFiles_ok_iff.mpr read, Except.bind, readSchemaFiles]
    generalize (readSchemaFile around.disk path).runFrom ns = stopped at refused
    obtain ⟨result, left⟩ := stopped
    obtain rfl : result = .error error := refused
    rfl
  | ungenerated loads refused =>
    rw [loads.compile_eq, generateFiles_error refused]
    rfl
  | malformed loads generated validated rendered passed refused =>
    rw [loads.compile_eq, validated, generateFiles_checked generated,
      renderChecked_error rendered passed refused]
    rfl
  | @ready settings sources ns pkg loads generated passed =>
    rw [loads.compile_eq]
    cases validated : settings.validate with
    | false =>
      rw [generateFiles_plain generated]
      rfl
    | true =>
      rw [generateFiles_checked generated, renderChecked_ok (passed validated)]
      rfl

theorem Prepares.names {done : Compilation} (prepares : around.Prepares arguments (.ok done)) :
    (done.files.map RenderedFile.name).Pairwise (· < ·) ∧ ∀ file ∈ done.files, IsEntryName file.name := by
  cases prepares with
  | ready loads generated =>
    obtain ⟨texts, -, read⟩ := loads.read
    exact Package.renders_in_order (closed_of_readDocuments read) generated _

section Ends

variable {out : Output (StateM σ)} {texts : List String} {done : Compilation} {earlier later : List RenderedFile}
  {file : RenderedFile} {mid after left : σ} {error : Error}

theorem run_compile (out : Output (StateM σ))
    (command : CommandLine.read? texts = some (.compile arguments)) :
    around.run out texts = around.carryOut out arguments := by
  unfold run
  rw [command]

theorem run_other (around : Surroundings σ) (out : Output (StateM σ))
    (other : ∀ arguments, CommandLine.read? texts ≠ some (.compile arguments)) (before : σ) :
    ((around.run out texts).run before).2 = before := by
  unfold run
  split
  · rfl
  · rfl
  · rename_i arguments command
    exact absurd command (other arguments)

theorem carryOut_of_failure {failure : Failure} (prepares : around.Prepares arguments (.error failure))
    (out : Output (StateM σ)) (before : σ) :
    (around.carryOut out arguments).run before = ({ exitCode := 1, failure := some failure }, before) := by
  unfold carryOut
  rw [prepares.compile_eq]
  rfl

theorem carryOut_dry (prepares : around.Prepares arguments (.ok done)) (dry : arguments.dryRun = true)
    (out : Output (StateM σ)) (before : σ) :
    (around.carryOut out arguments).run before = ({ output := done.banner ++ done.listing }, before) := by
  unfold carryOut
  rw [prepares.compile_eq]
  simp only [dry]
  rfl

theorem carryOut_ready (prepares : around.Prepares arguments (.ok done)) (wet : arguments.dryRun = false)
    (out : Output (StateM σ)) (before : σ) : (around.carryOut out arguments).run before =
      match (out.writeAll done.directory done.files).run before with
      | (.ok (), after) => ({ output := done.banner ++ done.report }, after)
      | (.error error, left) =>
        ({ output := done.banner, exitCode := 1, failure := some (.output done.directory error) }, left) := by
  unfold carryOut
  rw [prepares.compile_eq]
  simp only [wet]
  change (out.writeAll done.directory done.files >>= _).run before = _
  rw [StateT.run_bind]
  rcases (out.writeAll done.directory done.files).run before with ⟨error | ⟨⟩, after⟩ <;> rfl

end Ends

end Surroundings

def digestSurroundings (generated : List (String × FileTree)) : Surroundings Disk where
  disk := ⟨.directory [("w", .directory [("s.avsc", .file (utf8Bytes digestText)),
    ("generated", .directory generated)])], "/w"⟩
  home := none
  environment := [("AVROGEN__GENERATE__VALIDATE", "false")]

/-- The index cannot be written, because a folder has its name. -/
def blockedSurroundings : Surroundings Disk := digestSurroundings [("mod.rs", .directory [])]

theorem digest_prepares : ∃ done : Compilation, done.directory = "/w/generated" ∧
    done.files.map RenderedFile.name = ["md5.rs", "mod.rs", "primitive.rs"] ∧
    ∀ generated, (digestSurroundings generated).settings none = .ok { validate := false } →
      collectSchemaFiles (digestSurroundings generated).disk ["s.avsc"] = .ok ["s.avsc"] →
      (digestSurroundings generated).disk.locate "s.avsc" = .ok ["w", "s.avsc"] →
      (digestSurroundings generated).Prepares { inputs := ["s.avsc"] } (.ok done) := by
  have made : (Package.rehearse checksumNamespace 50 [] ⟨"avro", ∅⟩ checksumNamespace.tasks).map
      (fun pkg => decide ((pkg.render ["s.avsc"]).map RenderedFile.name =
        ["md5.rs", "mod.rs", "primitive.rs"])) = some true := by
    decide +kernel
  obtain ⟨pkg, rehearsed, names⟩ := Option.map_eq_some_iff.mp made
  have directory : ({ validate := false } : Settings).outputPath "/w" = "/w/generated" := by decide +kernel
  refine ⟨⟨"avro", ({ validate := false } : Settings).outputPath "/w", ["s.avsc"], checksumNamespace.types.size,
    pkg.render ["s.avsc"]⟩, directory, of_decide_eq_true names, fun generated settings collected located => ?_⟩
  have held := Disk.readBytes_ok_iff.mpr ⟨_, located, rfl, by decide⟩
  have text := Disk.readText_ok_iff.mpr ⟨_, held, decodeUtf8_utf8Bytes digestText⟩
  have read : ReadsInto (digestSurroundings generated).disk ["s.avsc"] checksumNamespace :=
    ⟨[digestText], .cons text .nil, checksum_reads⟩
  have loads : (digestSurroundings generated).Loads { inputs := ["s.avsc"] } { validate := false } ["s.avsc"]
      checksumNamespace := ⟨settings, collected, by decide, read⟩
  exact .ready loads (generate_of_rehearse rehearsed) nofun

theorem blocked_refuses {earlier later : List RenderedFile} {file : RenderedFile} {mid left : Disk} {error : Error}
    (names : (earlier ++ file :: later).map RenderedFile.name = ["md5.rs", "mod.rs", "primitive.rs"])
    (entries : ∀ other ∈ earlier ++ [file], IsEntryName other.name)
    (written : Disk.output.Writes "/w/generated" earlier blockedSurroundings.disk mid)
    (refused : Disk.output.Refuses "/w/generated" file error mid left) :
    (∃ digest, earlier = [digest] ∧ digest.name = "md5.rs") ∧
      error = .fileAccess "/w/generated/mod.rs" .isADirectory := by
  have made : blockedSurroundings.disk.Made "/w/generated" := ⟨by decide, by decide +kernel, by decide +kernel⟩
  have digest_fits : blockedSurroundings.disk.Fits "/w/generated" "md5.rs" := by decide +kernel
  have index_stuck : ¬blockedSurroundings.disk.Fits "/w/generated" "mod.rs" := by decide +kernel
  have room := (made.writes_iff fun other mem => entries other (List.mem_append_left _ mem)).mp ⟨mid, written⟩
  have stuck := made.not_fits_of_refuses entries written refused
  rcases earlier with _ | ⟨digest, _ | ⟨index, more⟩⟩
  · obtain ⟨name, -⟩ := List.cons.inj names
    exact absurd (name ▸ digest_fits) stuck
  · obtain ⟨first, names⟩ := List.cons.inj names
    obtain ⟨name, -⟩ := List.cons.inj names
    have entry := entries file (by simp)
    have changes := Disk.changesOnly_of_writes written
    have folder : mid.find? (mid.place (Path.join "/w/generated" file.name)) = some .folder := by
      rw [changes.place_eq, name]
      exact changes.folders _ (by decide +kernel)
    have failed := (made.of_changesOnly changes).refuses_folder entry (by rw [name]; decide) folder refused
    rw [name] at failed
    exact ⟨⟨digest, rfl, first⟩, failed⟩
  · obtain ⟨-, names⟩ := List.cons.inj names
    obtain ⟨name, -⟩ := List.cons.inj names
    exact absurd (name ▸ room index (by simp)) index_stuck

end AvroCompiler

import AvroCompiler.CommandLine
import AvroCompiler.Generation
import AvroCompiler.Collection
import AvroCompiler.Output
import AvroCompiler.Settings.Source

namespace AvroCompiler

inductive Failure where
  | settings (fault : SettingsFault)
  | collection (error : Error)
  | noSchemas (inputs : List String)
  | schema (path : String) (error : Error)
  | generation (error : Error)
  | output (directory : String) (error : Error)
  deriving DecidableEq, Repr

namespace Failure

/-- The message up to what comes from a reader, a checker or the file system. -/
def headline : Failure → String
  | .settings _ => "Failed to load configuration:"
  | .collection error => error.headline ++ settledCause error
  | .noSchemas inputs => s!"No .avsc schemas found in {quoteList inputs}"
  | .schema path error => s!"Failed to parse {path}: {error.headline}" ++ settledCause error
  | .generation error => s!"Code generation failed: {error.headline}" ++ settledCause error
  | .output directory error =>
    s!"Failed to write package to {directory}: {error.headline}" ++ settledCause error
where
  settledCause (error : Error) : String := if error.detail = "" then error.cause else ""

def detail : Failure → String
  | .settings fault => " " ++ fault.message
  | .collection error => openCause error
  | .noSchemas _ => ""
  | .schema _ error => openCause error
  | .generation error => openCause error
  | .output _ error => openCause error
where
  /-- The rest of an error's message with its cause. -/
  openCause (error : Error) : String :=
    if error.detail = "" then "" else error.detail ++ error.cause

def message (failure : Failure) : String :=
  "Error: " ++ failure.headline ++ failure.detail

end Failure

/-- A finished compilation that has written nothing yet. -/
structure Compilation where
  packageName : String
  directory : String
  schemas : List String
  types : Nat
  files : List RenderedFile

section Reading

variable {σ : Type} [FileSystem σ]

def readSchemaFiles (disk : σ) : List String → Namespace → Except Failure Namespace
  | [], ns => .ok ns
  | path :: paths, ns =>
    match (readSchemaFile disk path).runFrom ns with
    | (.ok (), ns) => readSchemaFiles disk paths ns
    | (.error error, _) => .error (.schema path error)

def Arguments.override (arguments : Arguments) (settings : Settings) : Settings :=
  { settings with
    packageName := arguments.packageName.getD settings.packageName
    outputDir := arguments.output.getD settings.outputDir }

/-- Reads and checks everything. Nothing is written. -/
def Surroundings.compile (around : Surroundings σ) (arguments : Arguments) : Except Failure Compilation := do
  let loaded ← (around.settings arguments.config).mapError .settings
  let settings := arguments.override loaded
  let schemas ← (collectSchemaFiles around.disk arguments.inputs).mapError .collection
  if schemas = [] then
    throw (.noSchemas arguments.inputs)
  let ns ← readSchemaFiles around.disk schemas Namespace.empty
  let files ← (generateFiles ns settings.packageName schemas settings.validate).mapError .generation
  return ⟨settings.packageName, settings.outputPath (FileSystem.work around.disk), schemas,
    ns.types.size, files⟩

end Reading

namespace Compilation

def banner (done : Compilation) : String :=
  s!"📦 avrogen\n  Package: {done.packageName}\n  Schemas: {done.schemas.length}\n" ++
  s!"  Types:   {done.types}\n\n"

def listing (done : Compilation) : String :=
  "🔍 Dry run - files that would be written:\n" ++
  String.join (done.files.map fun file => s!"  {file.name} ({file.contents.utf8ByteSize} bytes)\n")

def report (done : Compilation) : String :=
  s!"✅ Wrote {done.files.length} files to {done.directory}\n"

end Compilation

/-- How a run ends, and what it prints. -/
structure Ending where
  output : String := ""
  exitCode : Nat := 0
  failure : Option Failure := none

namespace Surroundings

variable {σ : Type} [FileSystem σ] {m : Type → Type} [Monad m]

def carryOut (around : Surroundings σ) (out : Output m) (arguments : Arguments) : m Ending :=
  match around.compile arguments with
  | .error failure => return { exitCode := 1, failure := some failure }
  | .ok done =>
    if arguments.dryRun then return { output := done.banner ++ done.listing }
    else do
      match ← out.writeAll done.directory done.files with
      | .ok () => return { output := done.banner ++ done.report }
      | .error error =>
        return { output := done.banner, exitCode := 1, failure := some (.output done.directory error) }

/-- Runs the program. A command line that cannot be read ends it with exit code 2. -/
def run (around : Surroundings σ) (out : Output m) (arguments : List String) : m Ending :=
  match CommandLine.read? arguments with
  | none => return { exitCode := 2 }
  | some .help => return { output := CommandLine.helpText }
  | some (.compile arguments) => around.carryOut out arguments

end Surroundings

end AvroCompiler

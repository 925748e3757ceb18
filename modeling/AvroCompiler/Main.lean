import AvroCompiler.Program

namespace AvroCompiler

/-- What a run can ask for, brought in from the file system beforehand. -/
structure Snapshot where
  disk : Disk
  unread : List (String × FileFault)
  /-- The directories in which a walk fails, and where. -/
  unwalked : List (String × String × FileFault)

instance : FileSystem Snapshot where
  work snapshot := snapshot.disk.work
  isDirectory snapshot := snapshot.disk.isDirectory
  isFile snapshot := snapshot.disk.isFile
  holds snapshot := snapshot.disk.holds
  readText snapshot path :=
    match snapshot.unread.lookup path with
    | some fault => .error fault
    | none => snapshot.disk.readText path
  filesBelow snapshot path :=
    match snapshot.unwalked.lookup path with
    | some fault => .error fault
    | none => FileSystem.filesBelow snapshot.disk path

def faultOf : IO.Error → FileFault
  | .noFileOrDirectory .. => .notFound
  | .alreadyExists .. => .alreadyExists
  | error => .other (toString error)

def attempt {α : Type} (action : IO α) : IO (Except FileFault α) := do
  try
    return .ok (← action)
  catch error => return .error (faultOf error)

def fileOutput : Output IO where
  makeDirectories path := attempt (IO.FS.createDirAll path)
  writeText path text := attempt (IO.FS.writeFile path text)

def locationOf (work path : String) : Location :=
  let start := if Path.isAbsolute path then [] else Path.components work
  (Path.components path).foldl
    (fun here piece => if piece = ".." then here.dropLast else here ++ [piece]) start

/-- A walk notes the files that it cannot read and ends where it cannot go on. -/
abbrev Walk := StateT (List (String × FileFault)) (ExceptT (String × FileFault) IO)

def loadFile (path : String) : Walk FileTree := do
  match ← attempt (IO.FS.readBinFile path) with
  | .ok bytes => return .file bytes.toList
  | .error fault =>
    modify fun unread => (path, fault) :: unread
    return .file []

/-- Loads a directory with the schema files below it. Links to directories are not followed. -/
partial def loadDirectory (path : String) : Walk FileTree := do
  let here ← IO.currentDir
  match ← attempt (here / path).readDir with
  | .error fault => throw (path, fault)
  | .ok found =>
    let mut entries := []
    for name in (found.toList.map fun entry => entry.fileName).mergeSort (· ≤ ·) do
      let inner := Path.join path name
      match ← attempt (here / inner).symlinkMetadata with
      | .error fault => throw (inner, fault)
      | .ok kind =>
        if kind.type == .dir then
          entries := (name, ← loadDirectory inner) :: entries
        else if isSchemaFile [name] then
          if let .ok kind ← attempt (here / inner).metadata then
            if kind.type == .file then
              entries := (name, ← loadFile inner) :: entries
    return .directory entries

def loadPath (path : String) : Walk (Option FileTree) := do
  match ← attempt ((← IO.currentDir) / path).metadata with
  | .error _ => return none
  | .ok kind =>
    if kind.type == .dir then loadDirectory path
    else loadFile path

/-- A snapshot with what is at the paths. Files go in last, because a directory brings only its schema
files. -/
def loadSnapshot (work : String) (paths : List String) : IO Snapshot := do
  let mut found := []
  let mut unread := []
  let mut unwalked := []
  for path in paths do
    match ← (loadPath path).run unread with
    | .ok (some tree, noted) =>
      found := (locationOf work path, tree) :: found
      unread := noted
    | .ok (none, _) => pure ()
    | .error fault =>
      found := (locationOf work path, .directory []) :: found
      unwalked := (path, fault) :: unwalked
  let (folders, files) := found.partition fun (_, tree) => tree.isDirectory
  let empty := FileTree.put (.directory []) (.directory []) (Path.components work)
  let root := (folders ++ files).foldl (fun root (location, tree) => root.put tree location) empty
  return ⟨⟨root, work⟩, unread, unwalked⟩

def settingsNames (name : String) : List String :=
  name :: SettingsFormat.byExtension.filterMap fun (ending, _) => Path.addExtension? name ending

def splitVariables (text : String) : List (String × String) :=
  (text.splitOn "\x00").filterMap fun setting =>
    match setting.splitOn "=" with
    | name :: value => some (name, "=".intercalate value)
    | [] => none

def loadEnvironment : IO (List (String × String)) := do
  try
    return splitVariables (decodeLossy (← IO.FS.readBinFile "/proc/self/environ").toList)
  catch _ => return []

def loadSurroundings (explicit : Option String) (inputs : List String) : IO (Surroundings Snapshot) := do
  let work := (← IO.currentDir).toString
  let home := (← IO.getEnv "HOME").filter (· ≠ "")
  let environment ← loadEnvironment
  let optional := home.toList.map fun home => homeSettingsFile home environment
  let names := localSettingsFiles ++ optional ++ explicit.toList
  return ⟨← loadSnapshot work ((names.map (Path.join work)).flatMap settingsNames ++ inputs), home, environment⟩

def runTool (texts : List String) : IO UInt32 := do
  let around ← match CommandLine.read? texts with
    | some (.compile arguments) => loadSurroundings arguments.config arguments.inputs
    | _ => loadSurroundings none []
  let ending ← around.run fileOutput texts
  IO.print ending.output
  if let some failure := ending.failure then
    IO.eprintln failure.message
  if ending.exitCode = 2 then
    IO.eprintln "error: invalid arguments\n\nUsage: avrogen [OPTIONS] <INPUTS>..."
  return ending.exitCode.toUInt32

end AvroCompiler

def main (texts : List String) : IO UInt32 :=
  AvroCompiler.runTool texts

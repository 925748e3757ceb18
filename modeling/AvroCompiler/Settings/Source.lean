import AvroCompiler.Settings.Basic
import AvroCompiler.Toml.Reader
import AvroCompiler.Json.Reader
import AvroCompiler.Json5.Reader
import AvroCompiler.Yaml.Reader
import AvroCompiler.Ini.Reader
import AvroCompiler.Ron.Reader
import AvroCompiler.FileSystem

namespace AvroCompiler

inductive SettingsFormat where
  | toml
  | json
  | json5
  | yaml
  | ini
  | ron
  deriving DecidableEq, Repr

namespace SettingsFormat

def byExtension : List (String × SettingsFormat) :=
  [("toml", .toml), ("json", .json), ("yaml", .yaml), ("yml", .yaml), ("ini", .ini), ("ron", .ron),
   ("json5", .json5)]

def read? (text : String) : SettingsFormat → Option Layer
  | .toml => Toml.read? text
  | .json =>
    match Json.read text with
    | .ok (.object members) => some (Setting.ofMembers members)
    | _ => none
  | .json5 => Json5.read? text
  | .yaml => Yaml.read? text
  | .ini => Ini.read? text
  | .ron => Ron.read? text

end SettingsFormat

section Files

variable {σ : Type} [FileSystem σ]

/-- The file that holds the settings of a name: the file of that name, or the one whose name has an
extension more. -/
def findSettings? (disk : σ) (name : String) : Option (String × SettingsFormat) :=
  let path := Path.join (FileSystem.work disk) name
  if FileSystem.isFile disk path then do
    let format ← SettingsFormat.byExtension.lookup (← Path.extension? (← Path.fileName? path))
    return (path, format)
  else
    SettingsFormat.byExtension.findSome? fun (ending, format) => do
      let extended ← Path.addExtension? path ending
      if FileSystem.isFile disk extended then some (extended, format) else none

/-- The settings of a file. A file that is not there or holds no text has none, unless it is
required. -/
def settingsLayer (disk : σ) (required : Bool) (name : String) : Except SettingsFault Layer :=
  match findSettings? disk name with
  | none => if required then .error (.missing name) else .ok []
  | some (path, format) =>
    match FileSystem.readText disk path with
    | .error _ => if required then .error (.missing name) else .ok []
    | .ok text =>
      match format.read? text with
      | some layer => .ok layer
      | none => .error (.malformed path)

end Files

def variableStart : List Char := "avrogen__".toList

/-- Two underscores divide the keys in the name of a variable. -/
def dotKeys : List Char → List Char
  | '_' :: '_' :: cs => '.' :: dotKeys cs
  | c :: cs => c :: dotKeys cs
  | [] => []

def variableKey? (name : String) : Option String :=
  let cs := (foldKey name).toList
  if variableStart.isPrefixOf cs then
    some (String.ofList (dotKeys (cs.drop variableStart.length)))
  else none

def environmentLayer (environment : List (String × String)) : Layer :=
  environment.filterMap fun (name, value) =>
    (variableKey? name).map fun key => (key, Setting.ofWord value)

structure Surroundings (σ : Type) where
  disk : σ
  home : Option String
  environment : List (String × String)

def localSettingsFiles : List String :=
  ["avrogen.toml", ".avrogen.toml", "config/avrogen.toml"]

/-- The directory for settings, which a variable names if its path is absolute. -/
def configDirectory (home : String) (environment : List (String × String)) : String :=
  match (environment.lookup "XDG_CONFIG_HOME").filter Path.isAbsolute with
  | some directory => directory
  | none => Path.join home ".config"

def homeSettingsFile (home : String) (environment : List (String × String)) : String :=
  Path.join (configDirectory home environment) "avrogen/avrogen.toml"

namespace Surroundings

variable {σ : Type} [FileSystem σ]

/-- The settings files that need not be there. The one of the home directory is left out where it is
not. -/
def optionalFiles (around : Surroundings σ) : List String :=
  localSettingsFiles ++ (around.home.toList.map fun home => homeSettingsFile home around.environment).filter
    (FileSystem.holds around.disk)

def layers (around : Surroundings σ) (explicit : Option String) :
    Except SettingsFault (List Layer) := do
  let found ← around.optionalFiles.mapM (settingsLayer around.disk false)
  let asked ← explicit.toList.mapM (settingsLayer around.disk true)
  return found ++ asked ++ [environmentLayer around.environment]

def settings (around : Surroundings σ) (explicit : Option String) :
    Except SettingsFault Settings := do
  let layers ← around.layers explicit
  Settings.ofSetting (layers.foldl Setting.overlay (.table []))

end Surroundings

def Settings.outputPath (settings : Settings) (work : String) : String :=
  Path.join work settings.outputDir

end AvroCompiler

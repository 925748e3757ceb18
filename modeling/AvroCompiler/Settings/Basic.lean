import AvroCompiler.Settings.Layer
import AvroCompiler.Toml.Text

namespace AvroCompiler

structure Settings where
  packageName : String := "avro"
  /-- Check every rendered file before anything is written. -/
  validate : Bool := true
  outputDir : String := "generated"
  deriving DecidableEq, Repr

inductive SettingsFault where
  | missing (path : String)
  | malformed (path : String)
  | unsuitable (key : String)
  deriving DecidableEq, Repr

def SettingsFault.message : SettingsFault → String
  | .missing path => s!"configuration file {quote path} not found"
  | .malformed path => s!"configuration file {quote path} is malformed"
  | .unsuitable key => s!"unsuitable value for {key}"

namespace Setting

def isSection : Setting → Bool
  | .table _ => true
  | .list _ => true
  | _ => false

/-- The setting of a section at a name, or at its place. -/
def field? (part : Setting) (name : String) (place : Nat) : Option Setting :=
  match part with
  | .table entries => entries.lookup name
  | .list items => items[place]?
  | _ => none

/-- A section of the settings; one that is not there is empty. -/
def section? (root : Setting) (name : String) : Except SettingsFault Setting :=
  match root.get? name with
  | none => .ok (.table [])
  | some part => if part.isSection then .ok part else .error (.unsuitable name)

end Setting

def readSetting {α : Type} (read : Setting → Option α) (key : String) (fallback : α) :
    Option Setting → Except SettingsFault α
  | none => .ok fallback
  | some setting =>
    match read setting with
    | some value => .ok value
    | none => .error (.unsuitable key)

namespace Settings

def ofSetting (root : Setting) : Except SettingsFault Settings := do
  let standard : Settings := {}
  let generate ← root.section? "generate"
  let output ← root.section? "output"
  let packageName ←
    readSetting Setting.text? "package" standard.packageName (generate.field? "package" 0)
  let validate ←
    readSetting Setting.flag? "validate" standard.validate (generate.field? "validate" 1)
  let outputDir ← readSetting Setting.text? "dir" standard.outputDir (output.field? "dir" 0)
  return ⟨packageName, validate, outputDir⟩

def text (settings : Settings) : String :=
  "[generate]\npackage = " ++ Toml.quoteText settings.packageName ++
  "\nvalidate = " ++ (if settings.validate then "true" else "false") ++
  "\n\n[output]\ndir = " ++ Toml.quoteText settings.outputDir ++ "\n"

end Settings

end AvroCompiler

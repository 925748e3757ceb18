import AvroCompiler.FileSystem
import AvroCompiler.Package.Render

namespace AvroCompiler

namespace Output

variable {m : Type → Type} [Monad m]

/-- Writes one file into a directory, which is made if needed. -/
def writeRendered (out : Output m) (root : String) (file : RenderedFile) : m (Except Error Unit) := do
  match ← out.makeDirectories root with
  | .error fault => return .error (.fileAccess root fault)
  | .ok () =>
    let path := Path.join root file.name
    match ← out.writeText path file.contents with
    | .error fault => return .error (.fileAccess path fault)
    | .ok () => return .ok ()

/-- Writes files in order and stops at the first that fails. -/
def writeAll (out : Output m) (root : String) : List RenderedFile → m (Except Error Unit)
  | [] => return .ok ()
  | file :: files => do
    match ← out.writeRendered root file with
    | .error error => return .error error
    | .ok () => out.writeAll root files

end Output

/-- Keeps files by name. A later file replaces one of the same name. -/
def keepFiles (kept : Keyed String String) (files : List RenderedFile) : Keyed String String :=
  files.foldl (fun kept file => kept.insert file.name file.contents) kept

end AvroCompiler

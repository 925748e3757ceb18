import AvroCompiler.Registration.Basic
import AvroCompiler.Package.Render
import AvroCompiler.Code.File

namespace AvroCompiler

def RenderedFile.fault? (file : RenderedFile) : Option Error :=
  if Code.isFile file.contents then none
  else some (.unparsable file.name "malformed code" file.contents)

/-- All files of a package, if each of them is well formed. -/
def Package.renderChecked (pkg : Package) (sources : List String) :
    Except Error (List RenderedFile) :=
  match (pkg.render sources).findSome? RenderedFile.fault? with
  | some error => .error error
  | none => .ok (pkg.render sources)

def generateFiles (ns : Namespace) (name : String) (sources : List String) (validate : Bool) :
    Except Error (List RenderedFile) := do
  let pkg ← generate ns name
  if validate then pkg.renderChecked sources else return pkg.render sources

end AvroCompiler

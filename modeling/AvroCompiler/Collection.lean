import AvroCompiler.FileSystem
import AvroCompiler.Schema.Reader

namespace AvroCompiler

variable {σ : Type} [FileSystem σ]

def isSchemaFile (location : Location) : Bool :=
  match location.getLast? with
  | some name => Path.extension? name = some "avsc"
  | none => false

/-- A path that is no directory stands for itself, a directory for the schema files below it. -/
def collectOne (disk : σ) (input : String) : Except Error (List String) :=
  if FileSystem.isDirectory disk input then
    match FileSystem.filesBelow disk input with
    | .error (path, fault) => .error (.fileAccess path fault)
    | .ok found => .ok ((found.filter isSchemaFile).map fun location => location.foldl Path.join input)
  else .ok [input]

def collectSchemaFiles (disk : σ) (inputs : List String) : Except Error (List String) :=
  (inputs.mapM (collectOne disk)).map List.flatten

def readSchemaFile (disk : σ) (path : String) : Reading Unit :=
  match FileSystem.readText disk path with
  | .ok text => readDocument text
  | .error fault => throw (.fileAccess path fault)

end AvroCompiler

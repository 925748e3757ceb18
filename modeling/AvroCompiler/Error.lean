import AvroCompiler.Text.Quoted
import AvroCompiler.Json.Value

namespace AvroCompiler

inductive UnionFault where
  | noBranches
  | nested
  | repeated (branch : String)
  deriving DecidableEq, Repr

inductive EnumFault where
  | noSymbols
  | unnamed (symbol : String)
  | collision (symbol variant : String)
  deriving DecidableEq, Repr

inductive SchemaFault where
  | unexpected (value : Json.Scalar)
  | untyped
  | unnamed
  | missing (owner what : String)
  | symbolNotText (enumeration : String)
  | fieldNotObject (record : String)
  deriving DecidableEq, Repr

inductive FileFault where
  | notFound
  | alreadyExists
  | notADirectory
  | isADirectory
  | nameTooLong
  | nameWithNul
  | notText
  | other (message : String)
  deriving DecidableEq, Repr

inductive Error where
  | unknownType (name : String)
  | duplicateType (name : String)
  | reservedName (name : String)
  | invalidName (name : String)
  | invalidUnion (name : String) (fault : UnionFault)
  | invalidEnum (name : String) (fault : EnumFault)
  | duplicateField (record member : String)
  | invalidSchema (fault : SchemaFault)
  | conflict (file key : String)
  | missingSnippet (file : String)
  | unparsable (file message contents : String)
  | fileAccess (path : String) (fault : FileFault)
  | json (fault : Json.Fault)
  deriving DecidableEq, Repr

def UnionFault.message : UnionFault → String
  | .noBranches => "no branches"
  | .nested => "unions may not directly contain unions"
  | .repeated branch => s!"branch {branch} appears more than once"

def EnumFault.message : EnumFault → String
  | .noSymbols => "no symbols"
  | .unnamed symbol => s!"symbol {quote symbol} has no letters or digits to name a variant"
  | .collision symbol variant => s!"symbol {symbol} collides with another symbol as {variant}"

def SchemaFault.message : SchemaFault → String
  | .unexpected value => s!"unexpected schema value: {value.text}"
  | .untyped => "schema object without \"type\""
  | .unnamed => "named type without \"name\""
  | .missing owner what => s!"{owner} is missing {quote what}"
  | .symbolNotText enumeration => s!"enum {enumeration} has a non-string symbol"
  | .fieldNotObject record => s!"record {record} has a non-object field"

def FileFault.message : FileFault → String
  | .notFound => "No such file or directory (os error 2)"
  | .alreadyExists => "File exists (os error 17)"
  | .notADirectory => "Not a directory (os error 20)"
  | .isADirectory => "Is a directory (os error 21)"
  | .nameTooLong => "File name too long (os error 36)"
  | .nameWithNul => "file name contained an unexpected NUL byte"
  | .notText => "stream did not contain valid UTF-8"
  | .other message => message

/-- The file system itself gives the reason. -/
def FileFault.bySystem : FileFault → Bool
  | .nameWithNul => false
  | .notText => false
  | _ => true

/-- The message up to what a reader of the text, a checker or the file system has to add. -/
def Error.headline : Error → String
  | .unknownType name => s!"Unknown type: {name}"
  | .duplicateType name => s!"Type {name} is already defined with a different shape"
  | .reservedName name => s!"Type name {name} is reserved in generated code"
  | .invalidName name => s!"Invalid name: {quote name}"
  | .invalidUnion name fault => s!"Invalid union {name}: {fault.message}"
  | .invalidEnum name fault => s!"Invalid enum {name}: {fault.message}"
  | .duplicateField record member => s!"Record {record} has more than one field named {member}"
  | .invalidSchema fault => s!"Invalid schema: {fault.message}"
  | .conflict file key => s!"Conflicting definitions of {key} in {file}"
  | .missingSnippet file => s!"Codec snippet not found: {file}"
  | .unparsable file _ _ => s!"Generated file {file} is not valid Rust:"
  | .fileAccess path fault =>
    if fault.bySystem then s!"Failed to write {path}:"
    else s!"Failed to write {path}: {fault.message}"
  | .json _ => "JSON error:"

def Error.detail : Error → String
  | .unparsable _ message contents => s!" {message}\n\nContents:\n{contents}"
  | .fileAccess _ fault => if fault.bySystem then s!" {fault.message}" else ""
  | .json .ended => " unexpected end of text"
  | .json .malformed => " malformed text"
  | _ => ""

def Error.message (error : Error) : String :=
  error.headline ++ error.detail

/-- What lies behind an error. A report that lists causes names it after the error. -/
def Error.cause : Error → String
  | .fileAccess _ fault => s!": {fault.message}"
  | .json .ended => ": unexpected end of text"
  | .json .malformed => ": malformed text"
  | _ => ""

end AvroCompiler

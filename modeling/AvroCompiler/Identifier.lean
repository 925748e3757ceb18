import AvroCompiler.Text.Case
import AvroCompiler.Error

namespace AvroCompiler

def codecFile : String := "primitive.rs"

def indexFile : String := "mod.rs"

/-- Names that generated modules use for something else: the standard types and traits, the helper
types of the codec and the type parameters of its routines. -/
def reservedNames : List String :=
  ["String", "Vec", "Option", "Result", "Box", "Rc", "Arc",
   "HashMap", "HashSet", "BTreeMap", "BTreeSet", "RefCell", "Cell",
   "Mutex", "RwLock", "Debug", "Clone", "Default", "Copy", "Send", "Sync",
   "Some", "None", "Ok", "Err", "Sized", "Drop", "Fn", "FnMut", "FnOnce",
   "Iterator", "PartialEq", "Eq", "Hash", "From", "Into", "TryFrom", "ToString",
   "bool", "i8", "i16", "i32", "i64", "i128", "isize",
   "u8", "u16", "u32", "u64", "u128", "usize", "f32", "f64", "str",
   "io", "fmt",
   "Null", "Bool", "Int", "Long", "Float", "Double", "Bytes", "Blocks",
   "ByteWriter", "StringWriter", "ByteReader", "DecodeError",
   "W", "R"]

/-- Words that have no raw spelling; they get a trailing underscore. -/
def bareWords : List String :=
  ["self", "Self", "super", "crate", "_"]

def keywords : List String :=
  ["as", "break", "const", "continue", "else", "enum", "extern", "false", "fn",
   "for", "if", "impl", "in", "let", "loop", "match", "mod", "move", "mut", "pub",
   "ref", "return", "static", "struct", "trait", "true", "type", "unsafe", "use",
   "where", "while", "async", "await", "dyn", "abstract", "become", "box", "do",
   "final", "macro", "override", "priv", "typeof", "unsized", "virtual", "yield",
   "try"]

def escapeKeyword (word : String) : String :=
  if word ∈ bareWords then word ++ "_"
  else if word ∈ keywords then "r#" ++ word
  else word

def memberName (field : String) : String :=
  escapeKeyword (snakeCase field)

def variantName (symbol : String) : String :=
  escapeKeyword (pascalCase symbol)

def writerName (canonical : String) : String :=
  "write_" ++ snakeCase canonical

def readerName (canonical : String) : String :=
  "read_" ++ snakeCase canonical

def deserializerName (record : String) : String :=
  "deserialize_" ++ snakeCase record

def sizeConstant (fixed : String) : String :=
  upperCase (snakeCase fixed) ++ "_SIZE"

/-- The module of a declared type, before its spelling as a raw identifier. -/
def moduleName (name : String) : String :=
  if snakeCase name ∈ bareWords then snakeCase name ++ "_" else snakeCase name

def fileName (name : String) : String :=
  moduleName name ++ ".rs"

/-- A type may be declared under this name: it is free in generated modules, is no keyword, and
differs from its own module and from the index. -/
def Declarable (name : String) : Prop :=
  name ∉ reservedNames ∧ escapeKeyword name = name ∧ moduleName name ≠ "mod" ∧
    moduleName name ≠ name

instance (name : String) : Decidable (Declarable name) :=
  inferInstanceAs (Decidable (_ ∧ _))

def checkTypeName (name : String) : Except Error Unit :=
  if Declarable name then .ok () else .error (.reservedName name)

end AvroCompiler

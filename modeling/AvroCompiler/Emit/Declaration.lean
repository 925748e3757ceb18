import AvroCompiler.Emit.Representation
import AvroCompiler.Text.Blank
import AvroCompiler.Record

namespace AvroCompiler

/-- An arm of a match: a pattern with a result, or with a block of statements. -/
inductive Arm where
  | result (pattern value : String)
  | block (pattern : String) (body : List String)
  deriving DecidableEq, Repr

def Arm.lines (indent : String) : Arm → List String
  | .result pattern value => [s!"{indent}{pattern} => {value},"]
  | .block pattern body =>
    s!"{indent}{pattern} => \x7b" :: body.map (fun line => s!"{indent}    {line}") ++
      [s!"{indent}\x7d"]

def armLines (indent : String) (arms : List Arm) : List String :=
  arms.flatMap (Arm.lines indent)

def matchMethod (type doc signature subject : String) (arms : List Arm) : String :=
  joinLines <|
    [s!"impl {type} \x7b",
     s!"    /// {doc}",
     s!"    {signature} \x7b",
     s!"        match {subject} \x7b"] ++
    armLines "            " arms ++
    ["        \x7d",
     "    \x7d",
     "\x7d"]

namespace Fixed

def declaration (type : Fixed) : String :=
  joinLines
    ["#[derive(Debug, Clone, Copy, PartialEq, Eq, Hash)]",
     s!"pub struct {type.name}(pub [u8; {sizeConstant type.name}]);"]

def conversion (type : Fixed) : String :=
  joinLines
    [s!"impl TryFrom<&[u8]> for {type.name} \x7b",
     "    type Error = std::array::TryFromSliceError;",
     "",
     "    fn try_from(bytes: &[u8]) -> Result<Self, Self::Error> \x7b",
     s!"        <[u8; {sizeConstant type.name}]>::try_from(bytes).map({type.name})",
     "    \x7d",
     "\x7d"]

end Fixed

namespace Enumeration

def declaration (type : Enumeration) : String :=
  joinLines <|
    ["#[derive(Debug, Clone, Copy, PartialEq, Eq, Hash)]",
     s!"pub enum {type.name} \x7b"] ++
    type.variants.map (fun variant => s!"    {variant},") ++
    ["\x7d"]

def ordinalArms (type : Enumeration) : List Arm :=
  type.variants.zipIdx.map (fun (variant, i) => .result (toString i) s!"Some({type.name}::{variant})") ++
    [.result "_" "None"]

def symbolArms (type : Enumeration) : List Arm :=
  type.symbols.map fun symbol => .result s!"{type.name}::{variantName symbol}" (quote symbol)

def ordinalRoutine (type : Enumeration) : String :=
  matchMethod type.name "Symbol at a wire ordinal, if in range."
    "pub fn from_ordinal(ordinal: i64) -> Option<Self>" "ordinal" type.ordinalArms

def symbolRoutine (type : Enumeration) : String :=
  matchMethod type.name "Symbol as declared in the schema."
    "pub fn symbol(&self) -> &'static str" "self" type.symbolArms

end Enumeration

namespace Shape

/-- A variant of a union as it is declared. The null branch holds nothing. -/
def variantDeclaration (branch : Shape) : String :=
  if branch.isNull then "Null" else s!"{branch.canonicalName}({branch.valueType})"

def variantPattern (union : String) (branch : Shape) (binding : String) : String :=
  if branch.isNull then s!"{union}::Null" else s!"{union}::{branch.canonicalName}({binding})"

def unionDeclaration (name : String) (branches : List Shape) : String :=
  joinLines <|
    ["#[derive(Debug, Clone, PartialEq)]",
     s!"pub enum {name} \x7b"] ++
    branches.map (fun branch => s!"    {branch.variantDeclaration},") ++
    ["\x7d"]

def branchArms (name : String) (branches : List Shape) : List Arm :=
  branches.zipIdx.map fun (branch, i) => .result (branch.variantPattern name "_") (toString i)

def branchRoutine (name : String) (branches : List Shape) : String :=
  matchMethod name "Position of the active branch in the declared branch list."
    "pub fn branch(&self) -> usize" "self" (branchArms name branches)

end Shape

/-- A documentation text as comment lines, each without blanks at its ends. -/
def docLines (indent : String) (doc : Option String) : List String :=
  match doc with
  | none => []
  | some text =>
    (trimmedLines text).map fun line =>
      if line = "" then s!"{indent}///" else s!"{indent}/// {line}"

namespace Record

def memberLines (field : Field) : List String :=
  docLines "    " field.doc ++ [s!"    pub {field.member}: {field.shape.valueType},"]

def declaration (record : Record) : String :=
  joinLines <|
    docLines "" record.doc ++
    ["#[derive(Debug, Clone, PartialEq)]"] ++
    if record.fields = [] then [s!"pub struct {record.name} \x7b\x7d"]
    else
      [s!"pub struct {record.name} \x7b"] ++ record.fields.flatMap memberLines ++ ["\x7d"]

def writeCalls (record : Record) : List String :=
  record.fields.map fun field => s!"        {field.shape.writer}(&self.{field.member}, w)?;"

def readCalls (record : Record) : List String :=
  record.fields.map fun field => s!"        {field.member}: {field.shape.reader}(r)?,"

def serializeRoutine (record : Record) : String :=
  joinLines <|
    [s!"impl {record.name} \x7b",
     "    /// Write this record in the binary encoding.",
     "    pub fn serialize<W: io::Write + ?Sized>(&self, w: &mut W) -> io::Result<()> \x7b"] ++
    record.writeCalls ++
    ["        Ok(())",
     "    \x7d",
     "\x7d"]

def deserializeRoutine (record : Record) : String :=
  joinLines <|
    [s!"/// Read a `{record.name}` from the binary encoding.",
     s!"pub fn {deserializerName record.name}<R: io::Read + ?Sized>(r: &mut R) " ++
       s!"-> Result<{record.name}, DecodeError> \x7b"] ++
    if record.fields = [] then [s!"    Ok({record.name} \x7b\x7d)", "\x7d"]
    else [s!"    Ok({record.name} \x7b"] ++ record.readCalls ++ ["    \x7d)", "\x7d"]

end Record

end AvroCompiler

import AvroCompiler.Emit.Glue
import AvroCompiler.Snippet.Text
import AvroCompiler.Package.Basic
import AvroCompiler.Namespace

namespace AvroCompiler

structure Placed where
  file : String
  entry : Entry
  deriving DecidableEq, Repr

inductive Task where
  | enter (item : Placed)
  | snippet (snippet : Snippet)
  | declare (shape : Shape)
  | write (shape : Shape)
  | read (shape : Shape)
  | declareRecord (record : Record)
  | serializeRecord (record : Record)
  | deserializeRecord (record : Record)
  | serializeNamed (name : String)
  | deserializeNamed (name : String)
  deriving DecidableEq

/-- The entry of a task, if it has one, and the tasks that follow a new entry. -/
structure Plan where
  head : Option Placed
  next : List Task

def ioPath : String := "std::io"

def mapPath : String := "std::collections::HashMap"

def siblingsPath : String := "super::*"

def useTasks (file : String) (paths : List String) : List Task :=
  paths.map fun path => .enter ⟨file, .use path⟩

def mapPaths (needed : Bool) : List String :=
  if needed then [mapPath] else []

def Snippet.entry (snippet : Snippet) : Entry :=
  if snippet.isType then .type snippet.name snippet.text
  else .routine (.free snippet.name) snippet.text

def Snippet.plan (snippet : Snippet) : Plan where
  head := some ⟨codecFile, snippet.entry⟩
  next := useTasks codecFile snippet.imports ++ snippet.deps.map .snippet

def Fixed.plan (type : Fixed) : Plan where
  head := some ⟨fileName type.name, .type type.name type.declaration⟩
  next :=
    [.enter ⟨fileName type.name, .constant (sizeConstant type.name) type.size⟩,
     .enter ⟨fileName type.name, .routine ⟨type.name, "try_from"⟩ type.conversion⟩]

def Enumeration.plan (type : Enumeration) : Plan where
  head := some ⟨fileName type.name, .type type.name type.declaration⟩
  next :=
    [.enter ⟨fileName type.name, .routine ⟨type.name, "from_ordinal"⟩ type.ordinalRoutine⟩,
     .enter ⟨fileName type.name, .routine ⟨type.name, "symbol"⟩ type.symbolRoutine⟩]

def unionPlan (name : String) (branches : List Shape) : Plan where
  head := some ⟨fileName name, .type name (Shape.unionDeclaration name branches)⟩
  next :=
    useTasks (fileName name) (siblingsPath :: mapPaths (branches.any Shape.usesMap)) ++
    [.enter ⟨fileName name, .routine ⟨name, "branch"⟩ (Shape.branchRoutine name branches)⟩] ++
    branches.map .declare

namespace Record

def declarePlan (record : Record) : Plan where
  head := some ⟨fileName record.name, .type record.name record.declaration⟩
  next :=
    useTasks (fileName record.name)
      (ioPath :: siblingsPath :: mapPaths (record.shapes.any Shape.usesMap)) ++
    record.shapes.map .declare

def serializePlan (record : Record) : Plan where
  head := some ⟨fileName record.name, .routine ⟨record.name, "serialize"⟩ record.serializeRoutine⟩
  next := record.shapes.map .write

def deserializePlan (record : Record) : Plan where
  head := some ⟨fileName record.name,
    .routine (.free (deserializerName record.name)) record.deserializeRoutine⟩
  next := .snippet .decodeError :: record.shapes.map .read

end Record

namespace Primitive

def writeSnippet : Primitive → Snippet
  | .null => .writeNull
  | .boolean => .writeBool
  | .int => .writeInt
  | .long => .writeLong
  | .float => .writeFloat
  | .double => .writeDouble
  | .bytes => .writeBytes
  | .string => .writeString

def readSnippet : Primitive → Snippet
  | .null => .readNull
  | .boolean => .readBool
  | .int => .readInt
  | .long => .readLong
  | .float => .readFloat
  | .double => .readDouble
  | .bytes => .readBytes
  | .string => .readString

end Primitive

namespace Shape

/-- Declares the named types that a shape needs. -/
def declarePlan (ns : Namespace) (shape : Shape) : Except Error Plan :=
  match shape with
  | .primitive _ => .ok ⟨none, []⟩
  | .fixed type => .ok type.plan
  | .enumeration type => .ok type.plan
  | .array items => .ok ⟨none, [.declare items]⟩
  | .map values => .ok ⟨none, [.declare values]⟩
  | .union branches => .ok (unionPlan shape.canonicalName branches)
  | .record name => (ns.record name).map Record.declarePlan

def writerTasks (shape : Shape) : List Task :=
  match shape with
  | .primitive kind => [.snippet kind.writeSnippet]
  | .fixed _ => [.declare shape]
  | .enumeration _ => [.declare shape, .snippet .encodeInt]
  | .array items => [.snippet .writeBlocks, .write items]
  | .map values => [.snippet .writeBlocks, .snippet .writeString, .write values]
  | .union branches => .declare shape :: .snippet .encodeInt :: branches.map .write
  | .record name => [.declare shape, .serializeNamed name]

def readerTasks (shape : Shape) : List Task :=
  match shape with
  | .primitive kind => [.snippet kind.readSnippet]
  | .fixed _ => [.declare shape, .snippet .byteReader, .snippet .decodeError]
  | .enumeration _ => [.declare shape, .snippet .decodeInt, .snippet .decodeError]
  | .array items => [.snippet .readBlocks, .read items]
  | .map values => [.snippet .readBlocks, .snippet .readString, .read values]
  | .union branches =>
    .declare shape :: .snippet .decodeInt :: .snippet .decodeError :: branches.map .read
  | .record name => [.declare shape, .deserializeNamed name]

/-- A routine in the codec file. The primitive shapes have snippets in its place. -/
def gluePlan (shape : Shape) (name text : String) (tasks : List Task) : Plan :=
  match shape with
  | .primitive _ => ⟨none, tasks⟩
  | _ =>
    { head := some ⟨codecFile, .routine (.free name) text⟩
      next := useTasks codecFile (ioPath :: siblingsPath :: mapPaths shape.usesMap) ++ tasks }

def writePlan (shape : Shape) : Plan :=
  shape.gluePlan shape.writer shape.writeRoutine shape.writerTasks

def readPlan (shape : Shape) : Plan :=
  shape.gluePlan shape.reader shape.readRoutine shape.readerTasks

end Shape

def Task.plan (ns : Namespace) : Task → Except Error Plan
  | .enter item => .ok ⟨some item, []⟩
  | .snippet item => .ok item.plan
  | .declare shape => shape.declarePlan ns
  | .write shape => .ok shape.writePlan
  | .read shape => .ok shape.readPlan
  | .declareRecord record => .ok record.declarePlan
  | .serializeRecord record => .ok record.serializePlan
  | .deserializeRecord record => .ok record.deserializePlan
  | .serializeNamed name => (ns.record name).map Record.serializePlan
  | .deserializeNamed name => (ns.record name).map Record.deserializePlan

end AvroCompiler

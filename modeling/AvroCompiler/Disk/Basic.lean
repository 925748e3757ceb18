import AvroCompiler.Disk.FileTree
import AvroCompiler.Disk.Path
import AvroCompiler.Text.Utf8
import AvroCompiler.Error

namespace AvroCompiler

structure Disk where
  root : FileTree
  /-- The working directory, as an absolute path. -/
  work : String

def isTooLong (name : String) : Bool :=
  255 < name.utf8ByteSize

namespace Disk

/-- Follows the pieces of a path. Everything on the way has to be a directory; what the last piece
names need not exist. -/
def follow (disk : Disk) (here : Location) : List String → Except FileFault Location
  | [] => .ok here
  | piece :: rest =>
    match disk.root.get? here with
    | none => .error .notFound
    | some (.file _) => .error .notADirectory
    | some (.directory _) =>
      if isTooLong piece then .error .nameTooLong
      else disk.follow (if piece = ".." then here.dropLast else here ++ [piece]) rest

def start (disk : Disk) (path : String) : Location :=
  if Path.isAbsolute path then [] else Path.components disk.work

def requireDirectory (disk : Disk) (location : Location) : Except FileFault Location :=
  match disk.root.get? location with
  | none => .error .notFound
  | some (.file _) => .error .notADirectory
  | some (.directory _) => .ok location

def locate (disk : Disk) (path : String) : Except FileFault Location :=
  if path = "" then .error .notFound
  else if path.toList.contains '\x00' then .error .nameWithNul
  else do
    let location ← disk.follow (disk.start path) (Path.components path)
    if Path.endsInDot path then disk.requireDirectory location else return location

def isDirectory (disk : Disk) (path : String) : Bool :=
  match disk.locate path with
  | .ok location => (disk.root.get? location).any FileTree.isDirectory
  | .error _ => false

def holds (disk : Disk) (path : String) : Bool :=
  match disk.locate path with
  | .ok location => (disk.root.get? location).isSome
  | .error _ => false

def readBytes (disk : Disk) (path : String) : Except FileFault (List UInt8) := do
  let location ← disk.locate path
  match disk.root.get? location with
  | none => throw .notFound
  | some (.directory _) => throw .isADirectory
  | some (.file bytes) => if Path.endsWithSlash path then throw .notADirectory else return bytes

def isFile (disk : Disk) (path : String) : Bool :=
  (disk.readBytes path).isOk

def readText (disk : Disk) (path : String) : Except FileFault String := do
  match decodeUtf8 (← disk.readBytes path) with
  | .ok text => return text
  | .error _ => throw .notText

/-- Makes the directories that the pieces name where they are missing. Those made before a fault stay. -/
def makeAlong (disk : Disk) (here : Location) : List String → Except FileFault Unit × Disk
  | [] => (.ok (), disk)
  | piece :: rest =>
    let next := if piece = ".." then here.dropLast else here ++ [piece]
    if isTooLong piece then (.error .nameTooLong, disk) else
    match disk.root.get? next with
    | some (.directory _) => disk.makeAlong next rest
    | some (.file _) => (.error (if rest = [] then .alreadyExists else .notADirectory), disk)
    | none => { disk with root := disk.root.put (.directory []) next }.makeAlong next rest

/-- Makes what stands above a path that ends in a dot. The directory before the dot has to be there. -/
def makeAbove (disk : Disk) (path : String) : Except FileFault Unit × Disk :=
  match disk.makeAlong (disk.start path) (Path.components path).dropLast with
  | (.error .alreadyExists, made) => (.error .notADirectory, made)
  | (.error fault, made) => (.error fault, made)
  | (.ok (), made) => ((made.locate path).map fun _ => (), made)

def makeDirectories (disk : Disk) (path : String) : Except FileFault Unit × Disk :=
  if path.toList.contains '\x00' then (.error .nameWithNul, disk)
  else if Path.endsInDot path then disk.makeAbove path
  else disk.makeAlong (disk.start path) (Path.components path)

def writeText (disk : Disk) (path text : String) : Except FileFault Disk := do
  let location ← disk.locate path
  if Path.endsWithSlash path || (disk.root.get? location).any FileTree.isDirectory then
    throw .isADirectory
  match disk.root.get? location.dropLast with
  | none => throw .notFound
  | some (.file _) => throw .notADirectory
  | some (.directory _) =>
    return { disk with root := disk.root.put (.file (utf8Bytes text)) location }

/-- The files below a directory, with their locations relative to it. -/
def filesBelow (disk : Disk) (path : String) : List (Location × List UInt8) :=
  match disk.locate path with
  | .ok location => ((disk.root.get? location).map FileTree.files).getD []
  | .error _ => []

end Disk

end AvroCompiler

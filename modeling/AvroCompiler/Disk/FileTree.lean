namespace AvroCompiler

inductive FileTree where
  | file (bytes : List UInt8)
  | directory (entries : List (String × FileTree))
  deriving Inhabited

/-- The names of the directories on the way to something, outermost first, and its own name. -/
abbrev Location := List String

namespace FileTree

def isDirectory : FileTree → Bool
  | .directory _ => true
  | .file _ => false

def get? : FileTree → Location → Option FileTree
  | tree, [] => some tree
  | .file _, _ :: _ => none
  | .directory entries, name :: rest =>
    match entries.lookup name with
    | some tree => tree.get? rest
    | none => none

def setEntry (name : String) (tree : FileTree) : List (String × FileTree) → List (String × FileTree)
  | [] => [(name, tree)]
  | entry :: rest =>
    if entry.1 = name then (name, tree) :: rest else entry :: setEntry name tree rest

/-- Puts something at a location. Directories on the way are made; a file on the way stays. -/
def put : FileTree → FileTree → Location → FileTree
  | _, new, [] => new
  | .file bytes, _, _ :: _ => .file bytes
  | .directory entries, new, name :: rest =>
    .directory (setEntry name (((entries.lookup name).getD (.directory [])).put new rest) entries)

def byName {α : Type} (entries : List (String × α)) : List (String × α) :=
  entries.mergeSort fun a b => a.1 ≤ b.1

mutual

/-- The files below, depth first, the entries of a directory in the order of their names. -/
def files : FileTree → List (Location × List UInt8)
  | .file bytes => [([], bytes)]
  | .directory entries =>
    (byName (filesOf entries)).flatMap fun entry =>
      entry.2.map fun file => (entry.1 :: file.1, file.2)

def filesOf : List (String × FileTree) → List (String × List (Location × List UInt8))
  | [] => []
  | (name, tree) :: rest => (name, files tree) :: filesOf rest

end

end FileTree

end AvroCompiler

import AvroCompiler.Package.RoutineKey
import AvroCompiler.Error

namespace AvroCompiler

inductive Entry where
  | use (path : String)
  | constant (name : String) (value : Nat)
  | type (name text : String)
  | routine (key : RoutineKey) (text : String)
  deriving DecidableEq, Repr

inductive EntryKey where
  | use (path : String)
  | constant (name : String)
  | type (name : String)
  | routine (key : RoutineKey)
  deriving DecidableEq, Repr

def Entry.key : Entry → EntryKey
  | .use path => .use path
  | .constant name _ => .constant name
  | .type name _ => .type name
  | .routine key _ => .routine key

def EntryKey.label : EntryKey → String
  | .use path => path
  | .constant name => name
  | .type name => name
  | .routine key => key.label

structure File where
  imports : Keyed String Unit := ∅
  constants : Keyed String Nat := ∅
  types : Keyed String String := ∅
  routines : Keyed RoutineKey String := ∅

namespace File

def empty : File := {}

def get? (file : File) : EntryKey → Option Entry
  | .use path => (file.imports.get? path).map fun _ => .use path
  | .constant name => (file.constants.get? name).map (.constant name)
  | .type name => (file.types.get? name).map (.type name)
  | .routine key => (file.routines.get? key).map (.routine key)

def put (file : File) : Entry → File
  | .use path => { file with imports := file.imports.insert path () }
  | .constant name value => { file with constants := file.constants.insert name value }
  | .type name text => { file with types := file.types.insert name text }
  | .routine key text => { file with routines := file.routines.insert key text }

theorem get?_put (file : File) (entry : Entry) (key : EntryKey) :
    (file.put entry).get? key = if key = entry.key then some entry else file.get? key := by
  cases entry <;> cases key <;>
    simp only [put, get?, Entry.key, Keyed.get?_insert, EntryKey.use.injEq, EntryKey.constant.injEq,
      EntryKey.type.injEq, EntryKey.routine.injEq, reduceCtorEq, if_false]
  all_goals
    split
    · simp_all
    · rfl

end File

structure Package where
  name : String
  files : Keyed String File := ∅

namespace Package

def file (pkg : Package) (name : String) : File :=
  (pkg.files.get? name).getD .empty

def get? (pkg : Package) (file : String) (key : EntryKey) : Option Entry :=
  (pkg.file file).get? key

def has (pkg : Package) (file : String) (key : EntryKey) : Bool :=
  (pkg.get? file key).isSome

def touch (pkg : Package) (file : String) : Package :=
  if pkg.files.contains file then pkg
  else { pkg with files := pkg.files.insert file .empty }

def put (pkg : Package) (file : String) (entry : Entry) : Package :=
  { pkg with files := pkg.files.insert file ((pkg.file file).put entry) }

theorem get?_put (pkg : Package) (file other : String) (entry : Entry) (key : EntryKey) :
    (pkg.put file entry).get? other key =
      if other = file ∧ key = entry.key then some entry else pkg.get? other key := by
  by_cases h : other = file
  · subst other
    simp [get?, put, Package.file, Keyed.get?_insert, File.get?_put]
  · simp [get?, put, Package.file, Keyed.get?_insert, h]

/-- Adds an entry to a file and tells whether it is new. -/
def insert (pkg : Package) (file : String) (entry : Entry) : Except Error (Bool × Package) :=
  match pkg.get? file entry.key with
  | none => .ok (true, pkg.put file entry)
  | some existing =>
    if existing = entry then .ok (false, pkg)
    else .error (.conflict file entry.key.label)

end Package

end AvroCompiler

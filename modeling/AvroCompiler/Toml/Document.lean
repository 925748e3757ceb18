import AvroCompiler.Settings.Value

namespace AvroCompiler.Toml

inductive Origin where
  /-- Named on the way to another table of a header. -/
  | passing
  | header
  | dotted
  deriving DecidableEq, Repr

inductive Node where
  | value (setting : Setting)
  | table (origin : Origin) (entries : List (String × Node))
  /-- An array of tables, the newest first. -/
  | tables (items : List (List (String × Node)))
  deriving Inhabited

abbrev Entries := List (String × Node)

def putNode (key : String) (node : Node) : Entries → Entries
  | [] => [(key, node)]
  | entry :: rest => if entry.1 = key then (key, node) :: rest else entry :: putNode key node rest

/-- Changes the table that a path leads to. Missing tables are made; of an array of tables the newest
is meant; a value is in the way, and for dotted keys so is a table that has a header. -/
def updateAt (dotted : Bool) (change : Origin → Entries → Option Entries) :
    List String → Origin → Entries → Option Entries
  | [], origin, entries => change origin entries
  | key :: rest, _, entries =>
    match entries.lookup key with
    | none => do
      let origin := if dotted then Origin.dotted else .passing
      return putNode key (.table origin (← updateAt dotted change rest origin [])) entries
    | some (.table origin inner) => do
      guard (¬dotted ∨ origin ≠ .header)
      return putNode key (.table origin (← updateAt dotted change rest origin inner)) entries
    | some (.tables (newest :: older)) => do
      return putNode key (.tables ((← updateAt dotted change rest .header newest) :: older)) entries
    | _ => none

def addValue (key : List String) (setting : Setting) (origin : Origin) (entries : Entries) :
    Option Entries := do
  let last ← key.getLast?
  let add (origin : Origin) (entries : Entries) : Option Entries := do
    guard ((origin = .dotted ↔ key.length ≠ 1) ∧ entries.lookup last = none)
    return entries ++ [(last, .value setting)]
  updateAt true add key.dropLast origin entries

def openTable (key : String) (entries : Entries) : Option Entries :=
  match entries.lookup key with
  | none => some (putNode key (.table .header []) entries)
  | some (.table .passing inner) => some (putNode key (.table .header inner) entries)
  | _ => none

def openItem (key : String) (entries : Entries) : Option Entries :=
  match entries.lookup key with
  | none => some (putNode key (.tables [[]]) entries)
  | some (.tables items) => some (putNode key (.tables ([] :: items)) entries)
  | _ => none

structure Document where
  root : Entries := []
  current : List String := []

namespace Document

def header (doc : Document) (item : Bool) (path : List String) : Option Document := do
  let last ← path.getLast?
  let root ← updateAt false (fun _ => if item then openItem last else openTable last)
    path.dropLast .header doc.root
  return ⟨root, path⟩

def add (doc : Document) (key : List String) (setting : Setting) : Option Document := do
  let root ← updateAt false (addValue key setting) doc.current .header doc.root
  return { doc with root }

end Document

mutual

def Node.setting : Node → Setting
  | .value setting => setting
  | .table _ entries => .table (settings entries)
  | .tables items => .list (itemSettings items).reverse

def settings : List (String × Node) → List (String × Setting)
  | [] => []
  | (key, node) :: rest => (key, node.setting) :: settings rest

def itemSettings : List (List (String × Node)) → List Setting
  | [] => []
  | entries :: rest => .table (settings entries) :: itemSettings rest

end

end AvroCompiler.Toml

import AvroCompiler.Settings.KeyPath
import AvroCompiler.Settings.Value

namespace AvroCompiler

/-- Keys in lower case. Beside the capital letters, only the Kelvin sign becomes an ASCII letter. -/
def foldKey (key : String) : String :=
  String.ofList (key.toList.map fun c => if c = '\u212A' then 'k' else c.toLower)

def putSetting (key : String) (value : Setting) : List (String × Setting) → List (String × Setting)
  | [] => [(key, value)]
  | entry :: rest => if entry.1 = key then (key, value) :: rest else entry :: putSetting key value rest

namespace Setting

def entries : Setting → List (String × Setting)
  | .table entries => entries
  | _ => []

def get? (root : Setting) (key : String) : Option Setting :=
  root.entries.lookup key

mutual

/-- Sets a key of a table. What is no table gives way to one. -/
def place (root : Setting) (key : String) : Setting → Setting
  | .table incoming =>
    let old := (root.get? (foldKey key)).getD (.table [])
    .table (putSetting (foldKey key) (placeAll old incoming) root.entries)
  | value => .table (putSetting (foldKey key) value root.entries)

def placeAll (root : Setting) : List (String × Setting) → Setting
  | [] => root
  | (key, value) :: rest => placeAll (root.place key value) rest

end

def items : Setting → List Setting
  | .list items => items
  | _ => []

/-- Sets the place of a list. What is no list gives way to one, and a list that is too short is
filled up with nothing. -/
def setItem (root : Setting) (place : Nat) (value : Setting) : Setting :=
  let filled := root.items ++ List.replicate (place + 1 - root.items.length) .nothing
  .list (filled.set place value)

/-- Sets what a path names. What stands in its way gives way to tables and lists. -/
def placeAt (root : Setting) (value : Setting) : List KeyStep → Setting
  | [] => value
  | [.key name] => root.place name value
  | .key name :: rest =>
    let old := (root.get? (foldKey name)).getD .nothing
    .table (putSetting (foldKey name) (old.placeAt value rest) root.entries)
  | .place index :: rest =>
    let place := placeOf index root.items.length
    root.setItem place (((root.items[place]?).getD .nothing).placeAt value rest)

end Setting

/-- What one source says: keys, perhaps paths, with their values. -/
abbrev Layer := List (String × Setting)

def Setting.overlay (root : Setting) (layer : Layer) : Setting :=
  layer.foldl (fun root entry => root.placeAt entry.2 (keyPath entry.1)) root

end AvroCompiler

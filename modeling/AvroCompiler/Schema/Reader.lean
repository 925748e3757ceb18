import AvroCompiler.Schema.Basic
import AvroCompiler.Json.Reader

namespace AvroCompiler

/-- A letter or underscore, then letters, digits and underscores. -/
def isName (name : String) : Bool :=
  match name.toList with
  | [] => false
  | c :: cs => (c.isAlpha || c = '_') && cs.all fun d => d.isAlphanum || d = '_'

def checkName (name : String) : Except Error String :=
  if isName name then .ok name else .error (.invalidName name)

/-- The last part of a dotted name. -/
def shortName (name : String) : String :=
  String.ofList (name.toList.reverse.takeWhile (· ≠ '.')).reverse

def missing (owner what : String) : Error :=
  .invalidSchema (.missing owner what)

open Json (Value Members member? stringMember?)

theorem sizeOf_member? {members : Members} {key : String} {value : Value}
    (h : member? key members = some value) : sizeOf value < sizeOf members := by
  induction members with
  | nil => simp [member?] at h
  | cons head rest ih =>
    obtain ⟨k, v⟩ := head
    simp only [member?, List.lookup_cons] at h
    split at h
    · cases Option.some.inj h
      simp only [List.cons.sizeOf_spec, Prod.mk.sizeOf_spec]
      omega
    · have := ih h
      simp only [List.cons.sizeOf_spec]
      omega

def requiredName (members : Members) : Except Error String :=
  match stringMember? "name" members with
  | some name => checkName (shortName name)
  | none => .error (.invalidSchema .unnamed)

/-- The symbols of an enumeration up to the first that is malformed. -/
def readSymbols (enumeration : String) : List Value → Except Error (List String)
  | [] => .ok []
  | .string symbol :: rest => do
    let symbol ← checkName symbol
    return symbol :: (← readSymbols enumeration rest)
  | _ :: _ => .error (.invalidSchema (.symbolNotText enumeration))

def readEnumeration (members : Members) : Except Error Enumeration := do
  let name ← requiredName members
  match member? "symbols" members with
  | some (.array symbols) => Enumeration.make name (← readSymbols name symbols)
  | _ => throw (missing name "symbols")

def readFixed (members : Members) : Except Error Fixed := do
  let name ← requiredName members
  match (member? "size" members).bind Value.natural? with
  | some size => Fixed.make name size
  | none => throw (missing name "size")

namespace Schema

def ofExcept {α : Type} (make : α → Schema) : Except Error α → Schema
  | .ok value => make value
  | .error error => .invalid error

def ofName (name : String) : Schema :=
  match Primitive.ofName? name with
  | some kind => .primitive kind
  | none => ofExcept .reference (checkName (shortName name))

mutual

def ofJson : Value → Schema
  | .scalar value => .invalid (.invalidSchema (.unexpected value))
  | .string name => ofName name
  | .array items => .union (ofItems items)
  | .object members =>
    match _typed : member? "type" members with
    | none => .invalid (.invalidSchema .untyped)
    | some (.string kind) =>
      if kind = "record" ∨ kind = "error" then
        match requiredName members with
        | .error error => .invalid error
        | .ok name =>
          match _listed : member? "fields" members with
          | some (.array items) => .record name (stringMember? "doc" members) (ofFields name items)
          | _ => .record name (stringMember? "doc" members) (.invalid (missing name "fields"))
      else if kind = "enum" then ofExcept .enumeration (readEnumeration members)
      else if kind = "fixed" then ofExcept .fixed (readFixed members)
      else if kind = "array" then
        match _held : member? "items" members with
        | some items => .array (ofJson items)
        | none => .invalid (missing "array" "items")
      else if kind = "map" then
        match _held : member? "values" members with
        | some values => .map (ofJson values)
        | none => .invalid (missing "map" "values")
      else ofName kind
    | some nested => ofJson nested
termination_by value => sizeOf value
decreasing_by
  all_goals simp_wf
  · have := sizeOf_member? _listed
    simp only [Value.array.sizeOf_spec] at this
    omega
  · have := sizeOf_member? _held
    omega
  · have := sizeOf_member? _held
    omega
  · have := sizeOf_member? _typed
    omega

def ofItems : List Value → List Schema
  | [] => []
  | item :: items => ofJson item :: ofItems items
termination_by items => sizeOf items

def ofFields (record : String) : List Value → FieldSchemas
  | [] => .done
  | .object members :: rest =>
    match stringMember? "name" members with
    | none => .invalid (missing record "field name")
    | some name =>
      match checkName name with
      | .error error => .invalid error
      | .ok name =>
        match _typed : member? "type" members with
        | none => .invalid (missing name "type")
        | some value => .cons name (stringMember? "doc" members) (ofJson value) (ofFields record rest)
  | _ :: _ => .invalid (.invalidSchema (.fieldNotObject record))
termination_by items => sizeOf items
decreasing_by
  · have := sizeOf_member? _typed
    simp_wf
    omega
  · decreasing_tactic

end

end Schema

/-- The schemas of a document: the items of a list, or one schema. -/
def Document.ofJson : Value → Document
  | .array items => Schema.ofItems items
  | value => [Schema.ofJson value]

def readDocument (text : String) : Reading Unit :=
  match Json.read text with
  | .error fault => throw (.json fault)
  | .ok value => (Document.ofJson value).load

/-- Reads a single schema; a list of schemas is a union here. -/
def readSchema (text : String) : Reading Shape :=
  match Json.read text with
  | .error fault => throw (.json fault)
  | .ok value => (Schema.ofJson value).shape

/-- Reads documents in order and stops at the first error. -/
def readDocuments : List String → Reading Unit
  | [] => return ()
  | text :: texts => do
    readDocument text
    readDocuments texts

end AvroCompiler

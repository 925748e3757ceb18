import AvroCompiler.Namespace

namespace AvroCompiler

mutual

inductive Schema where
  | invalid (error : Error)
  | primitive (kind : Primitive)
  | reference (name : String)
  | fixed (type : Fixed)
  | enumeration (type : Enumeration)
  | array (items : Schema)
  | map (values : Schema)
  | union (branches : List Schema)
  | record (name : String) (doc : Option String) (fields : FieldSchemas)

/-- The fields of a record up to the first that is malformed. -/
inductive FieldSchemas where
  | done
  | invalid (error : Error)
  | cons (name : String) (doc : Option String) (schema : Schema) (rest : FieldSchemas)

end

/-- A computation that may extend a namespace and may fail. What it added before it failed stays. -/
abbrev Reading (α : Type) := ExceptT Error (StateM Namespace) α

namespace Reading

def runFrom {α : Type} (reading : Reading α) (ns : Namespace) : Except Error α × Namespace :=
  reading ns

def lift {α : Type} (result : Except Error α) : Reading α :=
  fun ns => (result, ns)

/-- Replaces the namespace unless the change is refused. -/
def change (update : Namespace → Except Error Namespace) : Reading Unit := fun ns =>
  match update ns with
  | .ok ns' => (.ok (), ns')
  | .error error => (.error error, ns)

def look {α : Type} (view : Namespace → Except Error α) : Reading α :=
  fun ns => (view ns, ns)

end Reading

mutual

/-- The shape that a schema denotes. The types it defines are added to the namespace. -/
def Schema.shape : Schema → Reading Shape
  | .invalid error => throw error
  | .primitive kind => return .primitive kind
  | .reference name => .look (·.resolve name)
  | .fixed type => do
    .change (·.define (.fixed type))
    return .fixed type
  | .enumeration type => do
    .change (·.define (.enumeration type))
    return .enumeration type
  | .array items => return .array (← items.shape)
  | .map values => return .map (← values.shape)
  | .union branches => do .lift (Shape.makeUnion (← Schema.shapes branches))
  | .record name doc fields => do
    .change (·.declare name)
    let record ← .lift (Record.make name doc (← fields.fields))
    .change (·.define (.record record))
    return .record name

def Schema.shapes : List Schema → Reading (List Shape)
  | [] => return []
  | schema :: schemas => return (← schema.shape) :: (← Schema.shapes schemas)

def FieldSchemas.fields : FieldSchemas → Reading (List Field)
  | .done => return []
  | .invalid error => throw error
  | .cons name doc schema rest => do
    let shape ← schema.shape
    return ⟨name, shape, doc⟩ :: (← rest.fields)

end

/-- A schema document: a list of schemas that are read one after the other. -/
abbrev Document := List Schema

def Document.load (document : Document) : Reading Unit := do
  let _ ← Schema.shapes document
  return ()

end AvroCompiler

import AvroCompiler.Shape

namespace AvroCompiler

structure Field where
  name : String
  shape : Shape
  doc : Option String := none
  deriving DecidableEq, Repr

structure Record where
  name : String
  doc : Option String := none
  fields : List Field
  deriving DecidableEq, Repr

def Field.member (field : Field) : String :=
  memberName field.name

namespace Record

/-- The first member that is the member of an earlier field. -/
def repeatedMember? : List String → List Field → Option String
  | _, [] => none
  | seen, field :: fields =>
    if field.member ∈ seen then some field.member
    else repeatedMember? (field.member :: seen) fields

def make (name : String) (doc : Option String) (fields : List Field) : Except Error Record :=
  if ¬Declarable name then .error (.reservedName name)
  else
    match repeatedMember? [] fields with
    | some member => .error (.duplicateField name member)
    | none => .ok ⟨name, doc, fields⟩

def shapes (record : Record) : List Shape :=
  record.fields.map Field.shape

end Record

end AvroCompiler

import AvroCompiler.Record
import AvroCompiler.Keyed

namespace AvroCompiler

inductive NamedType where
  | fixed (type : Fixed)
  | enumeration (type : Enumeration)
  | record (type : Record)
  deriving DecidableEq, Repr

namespace NamedType

def name : NamedType → String
  | .fixed type => type.name
  | .enumeration type => type.name
  | .record type => type.name

def shape : NamedType → Shape
  | .fixed type => .fixed type
  | .enumeration type => .enumeration type
  | .record type => .record type.name

def isRecord : NamedType → Bool
  | .record _ => true
  | _ => false

end NamedType

structure Namespace where
  types : Keyed String NamedType := ∅
  declared : List String := []
  deriving Inhabited

namespace Namespace

def empty : Namespace := {}

def names (ns : Namespace) : List String :=
  ns.types.keys

def get? (ns : Namespace) (name : String) : Option NamedType :=
  ns.types.get? name

/-- Reserves the name of a record whose fields are still to be read. -/
def declare (ns : Namespace) (name : String) : Except Error Namespace :=
  if ¬Declarable name then .error (.reservedName name)
  else
    match ns.get? name with
    | some (.fixed _) => .error (.duplicateType name)
    | some (.enumeration _) => .error (.duplicateType name)
    | _ =>
      if name ∈ ns.declared then .ok ns
      else .ok { ns with declared := name :: ns.declared }

/-- Adds a type. The same type may be added again; another type of the same name is refused. -/
def define (ns : Namespace) (type : NamedType) : Except Error Namespace :=
  match ns.get? type.name with
  | some existing => if existing = type then .ok ns else .error (.duplicateType type.name)
  | none =>
    if type.name ∈ ns.declared ∧ ¬type.isRecord then .error (.duplicateType type.name)
    else
      .ok { types := ns.types.insert type.name type
            declared := ns.declared.filter (· ≠ type.name) }

def resolve (ns : Namespace) (name : String) : Except Error Shape :=
  match ns.get? name with
  | some type => .ok type.shape
  | none =>
    if name ∈ ns.declared then .ok (.record name) else .error (.unknownType name)

def record? (ns : Namespace) (name : String) : Option Record :=
  match ns.get? name with
  | some (.record type) => some type
  | _ => none

def record (ns : Namespace) (name : String) : Except Error Record :=
  match ns.record? name with
  | some type => .ok type
  | none => .error (.unknownType name)

end Namespace

end AvroCompiler

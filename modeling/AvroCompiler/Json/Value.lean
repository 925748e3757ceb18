import AvroCompiler.Decimal.Shortest

namespace AvroCompiler.Json

/-- Integers that fit 64 bits, signed or unsigned, are kept exactly; every other number is a
double, given by its bits. -/
inductive Number where
  | integer (value : Int)
  | double (bits : UInt64)
  deriving DecidableEq, Repr

inductive Scalar where
  | null
  | bool (value : Bool)
  | number (value : Number)
  deriving DecidableEq, Repr

inductive Value where
  | scalar (value : Scalar)
  | string (value : String)
  | array (items : List Value)
  | object (members : List (String × Value))
  deriving Repr, Inhabited

inductive Fault where
  | ended
  | malformed
  deriving DecidableEq, Repr

def Number.text : Number → String
  | .integer value => toString value
  | .double bits => doubleText bits

def Scalar.text : Scalar → String
  | .null => "null"
  | .bool true => "true"
  | .bool false => "false"
  | .number value => value.text

abbrev Members := List (String × Value)

def member? (key : String) (members : Members) : Option Value :=
  members.lookup key

/-- Adds a member. A repeated key takes the new value. -/
def putMember (key : String) (value : Value) (members : Members) : Members :=
  members.filter (·.1 != key) ++ [(key, value)]

def Value.string? : Value → Option String
  | .string value => some value
  | _ => none

/-- A number without sign, fraction and exponent. -/
def Value.natural? : Value → Option Nat
  | .scalar (.number (.integer value)) => if 0 ≤ value then some value.toNat else none
  | _ => none

def stringMember? (key : String) (members : Members) : Option String :=
  (member? key members).bind Value.string?

end AvroCompiler.Json

import AvroCompiler.Decimal.Positional
import AvroCompiler.Json.Value
import AvroCompiler.Text.Case

namespace AvroCompiler

inductive Setting where
  | nothing
  | flag (value : Bool)
  | integer (value : Int)
  /-- A double, given by its bits. -/
  | real (bits : UInt64)
  | text (value : String)
  | list (items : List Setting)
  | table (entries : List (String × Setting))
  deriving Inhabited

def fitsWord (value : Int) : Bool :=
  -0x8000000000000000 ≤ value && value < 0x8000000000000000

namespace Setting

def text? : Setting → Option String
  | .flag value => some (if value then "true" else "false")
  | .integer value => some (toString value)
  | .real bits => some (positionalText bits)
  | .text value => some value
  | _ => none

def flagWord? (word : String) : Option Bool :=
  if ["1", "true", "on", "yes"].contains word then some true
  else if ["0", "false", "off", "no"].contains word then some false
  else none

/-- A scalar as a flag. Numbers other than zero hold, and a text has to be a flag word. -/
def flag? : Setting → Option Bool
  | .flag value => some value
  | .integer value => some (value != 0)
  | .real bits => some (bits.toNat % signBit != 0)
  | .text value => flagWord? (lowerCase value)
  | _ => none

def readInteger? (cs : List Char) : Option Int :=
  let (negative, ds) := splitSign cs
  let value : Int := if negative then -(digitsValue ds : Int) else digitsValue ds
  if ds ≠ [] ∧ ds.all Char.isDigit ∧ fitsWord value then some value else none

def readReal? (cs : List Char) : Option UInt64 :=
  let (negative, rest) := splitSign cs
  let word := lowerCase (String.ofList rest)
  if word = "nan" then some notANumberBits
  else if word = "inf" ∨ word = "infinity" then some (signedInfinity negative)
  else readUnsignedDecimal? negative rest

/-- A bare word is a flag, an integer or a real number where it reads as one. -/
def ofWord (word : String) : Setting :=
  if lowerCase word = "true" then .flag true
  else if lowerCase word = "false" then .flag false
  else
    match readInteger? word.toList, readReal? word.toList with
    | some value, _ => .integer value
    | none, some bits => .real bits
    | none, none => .text word

def ofNumber : Json.Number → Setting
  | .integer value =>
    if fitsWord value then .integer value else .real (decimalBits false value.toNat 0)
  | .double bits => .real bits

mutual

def ofJson : Json.Value → Setting
  | .scalar .null => .nothing
  | .scalar (.bool value) => .flag value
  | .scalar (.number value) => ofNumber value
  | .string value => .text value
  | .array items => .list (ofItems items)
  | .object members => .table (ofMembers members)

def ofItems : List Json.Value → List Setting
  | [] => []
  | value :: rest => ofJson value :: ofItems rest

def ofMembers : List (String × Json.Value) → List (String × Setting)
  | [] => []
  | (key, value) :: rest => (key, ofJson value) :: ofMembers rest

end

end Setting

end AvroCompiler

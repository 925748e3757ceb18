import AvroCompiler.Decimal.Nearest

namespace AvroCompiler

inductive KeyStep where
  | key (name : String)
  /-- A place of a list. Below zero it counts from the end. -/
  | place (index : Int)
  deriving DecidableEq, Repr

def placeOf (index : Int) (length : Nat) : Nat :=
  if 0 ≤ index then index.toNat else length - index.natAbs

def isPathChar (c : Char) : Bool :=
  c.isAlphanum || c = '_' || c = '-' || c = ' '

def isPathBlank (c : Char) : Bool :=
  c = ' ' || c = '\t'

/-- The number of a place: digits, perhaps after a minus sign, in the range of a word. -/
def readPlace? (cs : List Char) : Option Int :=
  let (negative, digits) := match cs with
    | '-' :: rest => (true, rest)
    | _ => (false, cs)
  let value : Int := if negative then -(digitsValue digits : Int) else digitsValue digits
  if digits ≠ [] ∧ digits.all Char.isDigit ∧ -0x8000000000000000 ≤ value ∧
      value < 0x8000000000000000 then some value
  else none

def trimBlanks (cs : List Char) : List Char :=
  ((cs.dropWhile isPathBlank).reverse.dropWhile isPathBlank).reverse

def readSteps? : List Char → Option (List KeyStep)
  | [] => some []
  | '.' :: cs =>
    let name := cs.takeWhile isPathChar
    if name = [] then none
    else (readSteps? (cs.dropWhile isPathChar)).map (.key (String.ofList name) :: ·)
  | '[' :: cs =>
    match _h : cs.dropWhile (· ≠ ']') with
    | _ :: rest => do
      let place ← readPlace? (trimBlanks (cs.takeWhile (· ≠ ']')))
      return .place place :: (← readSteps? rest)
    | [] => none
  | _ => none
termination_by cs => cs.length
decreasing_by
  · exact Nat.lt_succ_of_le (List.dropWhile_suffix _).length_le
  · have := (List.dropWhile_suffix (l := cs) (· ≠ ']')).length_le
    simp_all
    omega

/-- The steps that a key names. A key that is no path stands for itself. -/
def keyPath (key : String) : List KeyStep :=
  let name := key.toList.takeWhile isPathChar
  match name, readSteps? (key.toList.dropWhile isPathChar) with
  | _ :: _, some steps => .key (String.ofList name) :: steps
  | _, _ => [.key key]

end AvroCompiler

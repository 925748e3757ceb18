import AvroCompiler.Settings.Value
import AvroCompiler.Json.Token
import AvroCompiler.Toml.Moment

namespace AvroCompiler.Toml

/-- Digits without the underscores that stand between two of them. -/
def ungroup? (isDigit : Char → Bool) : List Char → Option (List Char)
  | [] => none
  | [c] => if isDigit c then some [c] else none
  | c :: '_' :: rest => if isDigit c then (ungroup? isDigit rest).map (c :: ·) else none
  | c :: rest => if isDigit c then (ungroup? isDigit rest).map (c :: ·) else none

def isGroupChar (c : Char) : Bool :=
  c.isDigit || c = '_'

/-- Decimal digits. Only zero itself starts with a zero. -/
def whole? (cs : List Char) : Option (List Char) := do
  let ds ← ungroup? Char.isDigit cs
  guard (ds.head? ≠ some '0' ∨ ds.length = 1)
  return ds

def wordInteger (value : Int) : Option Setting :=
  if fitsWord value then some (.integer value) else none

def based? : List Char → Option Setting
  | '0' :: 'x' :: cs => inBase 16 cs
  | '0' :: 'o' :: cs => inBase 8 cs
  | '0' :: 'b' :: cs => inBase 2 cs
  | _ => none
where
  inBase (base : Nat) (cs : List Char) : Option Setting := do
    let isDigit (c : Char) : Bool := (Json.hexValue? c).any (· < base)
    let ds ← ungroup? isDigit cs
    wordInteger (ds.foldl (fun n c => n * base + (Json.hexValue? c).getD 0) 0 : Nat)

def power? : List Char → Option (List Char)
  | [] => some []
  | mark :: cs => do
    let (negative, rest) := splitSign cs
    let ds ← ungroup? Char.isDigit rest
    return mark :: (if negative then '-' :: ds else ds)

/-- A number after its sign. A real number too large for a double is refused where it is
positive. -/
def number? (negative : Bool) (cs : List Char) : Option Setting := do
  let ds ← whole? (cs.takeWhile isGroupChar)
  match cs.dropWhile isGroupChar with
  | [] => wordInteger (if negative then -(digitsValue ds : Int) else digitsValue ds)
  | '.' :: rest =>
    let fraction ← ungroup? Char.isDigit (rest.takeWhile isGroupChar)
    real (ds ++ '.' :: fraction ++ (← power? (rest.dropWhile isGroupChar)))
  | rest => real (ds ++ (← power? rest))
where
  real (cs : List Char) : Option Setting := do
    let bits ← readUnsignedDecimal? negative cs
    guard (bits ≠ signedInfinity false)
    return .real bits

def scalar? (word : String) : Option Setting :=
  let (negative, rest) := splitSign word.toList
  if word = "true" then some (.flag true)
  else if word = "false" then some (.flag false)
  else if rest = ['i', 'n', 'f'] then some (.real (signedInfinity negative))
  else if rest = ['n', 'a', 'n'] then some (.real notANumberBits)
  else
    match moment? word.toList with
    | some text => some (.text (String.ofList text))
    | none => (based? word.toList).or (number? negative rest)

end AvroCompiler.Toml

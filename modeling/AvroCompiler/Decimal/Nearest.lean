import AvroCompiler.Decimal.Shortest

namespace AvroCompiler

/-- The nearest whole number to a ratio; a half goes to the even neighbour. -/
def roundRatio (top bottom : Nat) : Nat :=
  let below := top / bottom
  let twice := 2 * (top % bottom)
  if twice > bottom || (twice == bottom && below % 2 == 1) then below + 1 else below

def infiniteBits : Nat := 0x7FF0000000000000

/-- The bits of the nearest double to a positive ratio. The significand is rounded in the place of
its 53rd bit, or in the last place that doubles have. -/
def ratioBits (top bottom : Nat) : Nat :=
  let guess : Int := max ((top.log2 : Int) - bottom.log2 - 53) (-1074)
  let rounded (power : Int) : Nat :=
    roundRatio (top * Nat.pow 2 (-power).toNat) (bottom * Nat.pow 2 power.toNat)
  let power := if rounded guess < 2 * hiddenBit then guess else guess + 1
  min ((power + 1074).toNat * hiddenBit + rounded power) infiniteBits

/-- The bits of the double nearest to `digits * 10 ^ exponent`. Exponents so far out that only zero
or infinity can be meant are not computed with. -/
def decimalBits (negative : Bool) (digits : Nat) (exponent : Int) : UInt64 :=
  let size : Nat :=
    if digits = 0 then 0
    else if exponent > 400 then infiniteBits
    else if exponent + (digits.log2 : Int) < -1200 then 0
    else ratioBits (digits * Nat.pow 10 exponent.toNat) (Nat.pow 10 (-exponent).toNat)
  .ofNat (if negative then signBit + size else size)

def digitsValue (ds : List Char) : Nat :=
  ds.foldl (fun n c => n * 10 + (c.toNat - '0'.toNat)) 0

def readPower? : List Char → Option Int
  | [] => some 0
  | mark :: rest =>
    let (down, ds) :=
      match rest with
      | '+' :: ds => (false, ds)
      | '-' :: ds => (true, ds)
      | ds => (false, ds)
    if (mark = 'e' ∨ mark = 'E') ∧ ds ≠ [] ∧ ds.all Char.isDigit then
      some (if down then -(digitsValue ds : Int) else digitsValue ds)
    else none

def readUnsignedDecimal? (negative : Bool) (cs : List Char) : Option UInt64 := do
  let whole := cs.takeWhile Char.isDigit
  let rest := cs.dropWhile Char.isDigit
  let (fraction, rest) :=
    match rest with
    | '.' :: rest => (rest.takeWhile Char.isDigit, rest.dropWhile Char.isDigit)
    | _ => ([], rest)
  guard (whole ++ fraction ≠ [])
  return decimalBits negative (digitsValue (whole ++ fraction)) ((← readPower? rest) - fraction.length)

def splitSign : List Char → Bool × List Char
  | '+' :: rest => (false, rest)
  | '-' :: rest => (true, rest)
  | cs => (false, cs)

def notANumberBits : UInt64 := 0x7FF8000000000000

def signedInfinity (negative : Bool) : UInt64 :=
  .ofNat (if negative then signBit + infiniteBits else infiniteBits)

end AvroCompiler

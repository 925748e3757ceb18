namespace AvroCompiler

/-- A finite double, `significand * 2 ^ exponent` with a sign. `narrow` holds where the gap to the
next smaller double is half the gap to the next larger one. -/
structure Binary where
  negative : Bool
  significand : Nat
  exponent : Int
  narrow : Bool

def hiddenBit : Nat := 0x10000000000000

def signBit : Nat := 0x8000000000000000

def Binary.ofBits (bits : UInt64) : Binary :=
  let n : Nat := bits.toNat
  let fraction := n % hiddenBit
  let biased := n / hiddenBit % 0x800
  if biased = 0 then ⟨n ≥ signBit, fraction, -1074, false⟩
  else ⟨n ≥ signBit, hiddenBit + fraction, (biased : Int) - 1075, fraction = 0 ∧ biased > 1⟩

/-- A decimal, `digits * 10 ^ exponent`. -/
structure Decimal where
  digits : Nat
  exponent : Int
  deriving DecidableEq, Repr

/-- The decimal with the given power of ten that reads back as the double, if there is one. The
double is measured in quarters of its last place, so that both ends of its interval are whole. -/
def Binary.onGrid? (b : Binary) (power : Int) : Option Decimal :=
  let quarter := b.exponent - 2
  let grid := Nat.pow 10 power.toNat * Nat.pow 2 (-quarter).toNat
  let unit := Nat.pow 2 quarter.toNat * Nat.pow 10 (-power).toNat
  let value := 4 * b.significand * unit
  let low := (4 * b.significand - if b.narrow then 1 else 2) * unit
  let high := (4 * b.significand + 2) * unit
  let inside (x : Nat) : Bool :=
    if b.significand % 2 = 0 then low ≤ x && x ≤ high else low < x && x < high
  let below := value / grid
  let down := inside (below * grid)
  let up := inside ((below + 1) * grid)
  let nearUp := 2 * value > (2 * below + 1) * grid ||
    (2 * value == (2 * below + 1) * grid && below % 2 == 1)
  if down && up then some ⟨if nearUp then below + 1 else below, power⟩
  else if down then some ⟨below, power⟩
  else if up then some ⟨below + 1, power⟩
  else none

def Binary.search (b : Binary) (power : Int) : Nat → Decimal
  | 0 => ⟨b.significand, 0⟩
  | steps + 1 =>
    match b.onGrid? power with
    | some d => d
    | none => b.search (power - 1) steps

/-- A double has at most 17 digits, and the first grid is coarser than its value. -/
def Binary.shortest (b : Binary) : Decimal :=
  let magnitude := ((b.significand.log2 : Int) + b.exponent) * 30103 / 100000
  b.search (magnitude + 2) 24

def zeros (n : Nat) : String :=
  String.ofList (List.replicate n '0')

/-- Positional from `10 ^ -5` up to below `10 ^ 16`, with at least one digit after the point;
scientific with a signed exponent elsewhere. -/
def Decimal.text (d : Decimal) : String :=
  let ds := Nat.toDigits 10 d.digits
  let lead : Int := ds.length + d.exponent - 1
  if -5 ≤ lead ∧ lead < 16 then
    if 0 ≤ d.exponent then String.ofList ds ++ zeros d.exponent.toNat ++ ".0"
    else if 0 ≤ lead then
      String.ofList (ds.take (lead.toNat + 1)) ++ "." ++ String.ofList (ds.drop (lead.toNat + 1))
    else "0." ++ zeros (-lead - 1).toNat ++ String.ofList ds
  else
    let fraction := ds.drop 1
    String.ofList (ds.take 1) ++ (if fraction.isEmpty then "" else "." ++ String.ofList fraction) ++
      (if lead < 0 then "e-" else "e+") ++ toString lead.natAbs

def doubleText (bits : UInt64) : String :=
  let b := Binary.ofBits bits
  (if b.negative then "-" else "") ++
    if b.significand = 0 then "0.0" else b.shortest.text

end AvroCompiler

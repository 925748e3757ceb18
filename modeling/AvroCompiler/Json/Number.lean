import AvroCompiler.Json.Value

namespace AvroCompiler.Json

def powerOfTen (n : Nat) : Float :=
  Float.ofScientific 1 false n

/-- `value * 10 ^ exponent` in double arithmetic, for a value of at most 64 bits. Nothing is returned
where the result is too large. -/
def scale (value : Float) (exponent : Int) : Option Float :=
  if exponent > 308 then
    if value == 0 then some value else none
  else if exponent ≥ 0 then
    let scaled := value * powerOfTen exponent.toNat
    if scaled.isInf then none else some scaled
  else if exponent ≥ -308 then some (value / powerOfTen (-exponent).toNat)
  else if exponent ≥ -616 then some (value / powerOfTen 308 / powerOfTen (-exponent - 308).toNat)
  else some 0

def signedDouble (negative : Bool) (value : Float) : Scalar :=
  .number (.double (if negative then -value else value).toBits)

def scaled (negative : Bool) (significand : Nat) (exponent : Int) : Except Fault Scalar :=
  match scale (Float.ofNat significand) exponent with
  | some value => .ok (signedDouble negative value)
  | none => .error .malformed

def digitValue (c : Char) : Nat := c.toNat - '0'.toNat

/-- Appends digits while the significand fits 64 bits. Returns it with the number of digits
taken and the digits left. -/
def takeDigits : Nat → Nat → List Char → Nat × Nat × List Char
  | significand, taken, [] => (significand, taken, [])
  | significand, taken, c :: cs =>
    if c.isDigit ∧ significand * 10 + digitValue c < 0x10000000000000000 then
      takeDigits (significand * 10 + digitValue c) (taken + 1) cs
    else (significand, taken, c :: cs)

def readExponent (negative : Bool) (significand : Nat) (start : Int) (cs : List Char) :
    Except Fault Scalar :=
  let (down, ds) :=
    match cs with
    | '+' :: rest => (false, rest)
    | '-' :: rest => (true, rest)
    | _ => (false, cs)
  let digits := ds.takeWhile Char.isDigit
  match ds, ds.dropWhile Char.isDigit with
  | [], _ => .error .ended
  | _ :: _, _ :: _ => .error .malformed
  | _ :: _, [] =>
    let size := digits.foldl (fun n c => n * 10 + digitValue c) 0
    if size ≥ 0x80000000 then
      if significand ≠ 0 ∧ ¬down then .error .malformed
      else .ok (signedDouble negative 0)
    else scaled negative significand (if down then start - size else start + size)

def readFraction (negative : Bool) (significand : Nat) (start : Int) (cs : List Char) :
    Except Fault Scalar :=
  let (significand, taken, left) := takeDigits significand 0 cs
  let exponent := start - taken
  match cs with
  | [] => .error .ended
  | c :: _ =>
    if ¬c.isDigit then .error .malformed
    else
      match left.dropWhile Char.isDigit with
      | [] => scaled negative significand exponent
      | 'e' :: rest => readExponent negative significand exponent rest
      | 'E' :: rest => readExponent negative significand exponent rest
      | _ => .error .malformed

/-- An integer that fits 64 bits, or the double nearest to a negative one that does not. -/
def wholeNumber (negative : Bool) (significand : Nat) : Scalar :=
  if ¬negative then .number (.integer significand)
  else if 0 < significand ∧ significand ≤ 0x8000000000000000 then .number (.integer (-significand))
  else signedDouble true (Float.ofNat significand)

def readUnsigned (negative : Bool) : List Char → Except Fault Scalar
  | [] => .error .ended
  | c :: cs =>
    let (significand, _, left) := if c = '0' then (0, 1, cs) else takeDigits 0 0 (c :: cs)
    let dropped := (left.takeWhile Char.isDigit).length
    if ¬c.isDigit ∨ (c = '0' ∧ 0 < dropped) then .error .malformed
    else
      match left.dropWhile Char.isDigit with
      | [] =>
        if dropped = 0 then .ok (wholeNumber negative significand)
        else scaled negative significand dropped
      | '.' :: rest => readFraction negative significand dropped rest
      | 'e' :: rest => readExponent negative significand dropped rest
      | 'E' :: rest => readExponent negative significand dropped rest
      | _ => .error .malformed

def readNumber : List Char → Except Fault Scalar
  | '-' :: rest => readUnsigned true rest
  | cs => readUnsigned false cs

end AvroCompiler.Json

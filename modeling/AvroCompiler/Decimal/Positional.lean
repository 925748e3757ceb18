import AvroCompiler.Decimal.Nearest

namespace AvroCompiler

def Decimal.positional (d : Decimal) : String :=
  let ds := Nat.toDigits 10 d.digits
  let lead : Int := ds.length + d.exponent
  if 0 ≤ d.exponent then String.ofList ds ++ zeros d.exponent.toNat
  else if 0 < lead then
    String.ofList (ds.take lead.toNat) ++ "." ++ String.ofList (ds.drop lead.toNat)
  else "0." ++ zeros (-lead).toNat ++ String.ofList ds

def positionalText (bits : UInt64) : String :=
  let magnitude := bits.toNat % signBit
  let b := Binary.ofBits bits
  if magnitude > infiniteBits then "NaN"
  else (if b.negative then "-" else "") ++
    if magnitude = infiniteBits then "inf"
    else if b.significand = 0 then "0"
    else b.shortest.positional

end AvroCompiler

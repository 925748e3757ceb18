import AvroCompiler.Wire.Varint

namespace AvroCompiler.Wire

/-- The lowest `count` bytes of a number, lowest first. -/
def littleEndian : Nat → Nat → List UInt8
  | 0, _ => []
  | count + 1, n => .ofNat (n % 256) :: littleEndian count (n / 256)

def ofLittleEndian : List UInt8 → Nat
  | [] => 0
  | b :: bytes => b.toNat + 256 * ofLittleEndian bytes

def boolBytes (value : Bool) : List UInt8 :=
  [if value then 1 else 0]

def floatBytes (bits : UInt32) : List UInt8 :=
  littleEndian 4 bits.toNat

def doubleBytes (bits : UInt64) : List UInt8 :=
  littleEndian 8 bits.toNat

def sizedBytes (bytes : List UInt8) : List UInt8 :=
  intBytes (.ofNat bytes.length) ++ bytes

def stringBytes (text : String) : List UInt8 :=
  sizedBytes (utf8Bytes text)

def writeNull : Writer := pure ()

def writeBool (value : Bool) : Writer :=
  putByte (if value then 1 else 0)

def writeInt (n : Int32) : Writer :=
  encodeInt n.toInt64

def writeLong (n : Int64) : Writer :=
  encodeInt n

def writeFloat (bits : UInt32) : Writer :=
  put (floatBytes bits)

def writeDouble (bits : UInt64) : Writer :=
  put (doubleBytes bits)

def writeBytes (bytes : List UInt8) : Writer := do
  writeLong (.ofNat bytes.length)
  put bytes

def writeUtf8 (text : String) : Writer :=
  put (utf8Bytes text)

def writeString (text : String) : Writer := do
  writeLong (.ofNat (utf8Bytes text).length)
  writeUtf8 text

def readNull : Decoder Unit := pure ()

def readBool : Decoder Bool := do
  let b ← .byte
  if b = 0 then return false
  else if b = 1 then return true
  else .fail (.invalidBool b)

def readInt : Decoder Int32 := do
  let n ← decodeInt
  if n.toInt32.toInt64 = n then return n.toInt32
  else .fail (.intOutOfRange n)

theorem readInt_consumes {source rest : Source} {n : Int32}
    (h : readInt.run source = (.ok n, rest)) : rest.bytes.length < source.bytes.length := by
  obtain ⟨value, middle, hv, hr⟩ := Decoder.exists_of_bind_ok h
  have lt := decodeInt_consumes hv
  split at hr
  · cases hr
    exact lt
  · cases hr

def readLong : Decoder Int64 := decodeInt

def readFloat : Decoder UInt32 := do
  return .ofNat (ofLittleEndian (← .exactly 4))

def readDouble : Decoder UInt64 := do
  return .ofNat (ofLittleEndian (← .exactly 8))

/-- Bytes after their length. The length is checked against what is there. -/
def readBytes : Decoder (List UInt8) := do
  let length ← readLong
  if length < 0 then .fail (.negativeLength length)
  else
    let bytes ← .atMost length.toInt.toNat
    if bytes.length < length.toInt.toNat then .fail .endOfInput
    else return bytes

def readString : Decoder String := do
  match decodeUtf8 (← readBytes) with
  | .ok text => return text
  | .error fault => .fail (.invalidUtf8 fault)

end AvroCompiler.Wire

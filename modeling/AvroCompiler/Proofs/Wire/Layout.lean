import AvroCompiler.Shape
import AvroCompiler.Proofs.Wire.Blocks
import AvroCompiler.Proofs.Wire.Law

namespace AvroCompiler.Wire

inductive Layout where
  | primitive (kind : Primitive)
  | blocks (items : Layout)
  deriving DecidableEq, Repr

namespace Layout

/-- Floating point numbers are held as their bits. -/
def Value : Layout → Type
  | .primitive .null => Unit
  | .primitive .boolean => Bool
  | .primitive .int => Int32
  | .primitive .long => Int64
  | .primitive .float => UInt32
  | .primitive .double => UInt64
  | .primitive .bytes => List UInt8
  | .primitive .string => String
  | .blocks items => List items.Value

def write : (layout : Layout) → layout.Value → Writer
  | .primitive .null => fun _ => writeNull
  | .primitive .boolean => writeBool
  | .primitive .int => writeInt
  | .primitive .long => writeLong
  | .primitive .float => writeFloat
  | .primitive .double => writeDouble
  | .primitive .bytes => writeBytes
  | .primitive .string => writeString
  | .blocks items => writeBlocks items.write

def bytes : (layout : Layout) → layout.Value → List UInt8
  | .primitive .null => fun _ => []
  | .primitive .boolean => boolBytes
  | .primitive .int => fun n => intBytes n.toInt64
  | .primitive .long => intBytes
  | .primitive .float => floatBytes
  | .primitive .double => doubleBytes
  | .primitive .bytes => sizedBytes
  | .primitive .string => stringBytes
  | .blocks items => blockBytes items.bytes

def read : (layout : Layout) → Decoder layout.Value
  | .primitive .null => readNull
  | .primitive .boolean => readBool
  | .primitive .int => readInt
  | .primitive .long => readLong
  | .primitive .float => readFloat
  | .primitive .double => readDouble
  | .primitive .bytes => readBytes
  | .primitive .string => readString
  | .blocks items => readBlocks items.read

theorem write_eq (layout : Layout) (value : layout.Value) :
    layout.write value = put (layout.bytes value) := by
  induction layout with
  | primitive kind =>
    cases kind with
    | null => exact Writer.put_nil.symm
    | boolean => rfl
    | int => exact writeInt_eq value
    | long => exact encodeInt_eq value
    | float => rfl
    | double => rfl
    | bytes => exact writeBytes_eq value
    | string => exact writeString_eq value
  | blocks items ih => exact writeBlocks_eq fun item _ => ih item

end Layout

/-- What the elementary reads obey, and what sequences and blocks pass on, every layout obeys. -/
theorem Decoder.Law.readLayout {P : {α : Type} → Decoder α → List UInt8 → Prop} (law : Law P)
    (layout : Layout) : ∀ bytes, P layout.read bytes := by
  induction layout with
  | primitive kind =>
    cases kind with
    | null => exact law.pure ()
    | boolean => exact law.readBool
    | int => exact law.readInt
    | long => exact law.decodeInt
    | float => exact law.readFloat
    | double => exact law.readDouble
    | bytes => exact law.readBytes
    | string => exact law.readString
  | blocks items ih => exact law.readBlocks ih

end AvroCompiler.Wire

import AvroCompiler.Text.Utf8

namespace AvroCompiler.Wire

inductive Fault where
  | endOfInput
  | invalidBool (byte : UInt8)
  | invalidOrdinal (type : String) (ordinal : Int64)
  | invalidBranch (type : String) (index : Int64)
  | negativeLength (length : Int64)
  | tooManyItems (count : Int64)
  | intOutOfRange (value : Int64)
  | varintOverflow
  | invalidUtf8 (fault : Utf8Fault)
  | input (failure : String)
  deriving DecidableEq

def hexByte (b : UInt8) : String :=
  String.ofList [Nat.digitChar (b.toNat / 16), Nat.digitChar (b.toNat % 16)]

namespace Fault

def message : Fault → String
  | .endOfInput => "unexpected end of input"
  | .invalidBool byte => s!"invalid boolean byte 0x{hexByte byte}"
  | .invalidOrdinal type ordinal => s!"ordinal {ordinal} out of range for enum {type}"
  | .invalidBranch type index => s!"branch index {index} out of range for union {type}"
  | .negativeLength length => s!"negative length {length}"
  | .tooManyItems count => s!"collection of {count} items exceeds the limit"
  | .intOutOfRange value => s!"value {value} does not fit in an int"
  | .varintOverflow => "varint longer than 10 bytes"
  | .invalidUtf8 fault => s!"invalid UTF-8 in string: {fault.message}"
  | .input failure => s!"I/O error: {failure}"

/-- The message of the failure behind the fault. -/
def source? : Fault → Option String
  | .invalidUtf8 fault => some fault.message
  | .input failure => some failure
  | _ => none

end Fault

end AvroCompiler.Wire

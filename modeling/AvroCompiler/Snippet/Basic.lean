namespace AvroCompiler

inductive Snippet where
  | byteWriter
  | stringWriter
  | byteReader
  | decodeError
  | encodeInt
  | decodeInt
  | writeNull
  | readNull
  | writeBool
  | readBool
  | writeInt
  | readInt
  | writeLong
  | readLong
  | writeFloat
  | readFloat
  | writeDouble
  | readDouble
  | writeBytes
  | readBytes
  | writeString
  | readString
  | writeBlocks
  | readBlocks
  deriving DecidableEq, Repr

namespace Snippet

def all : List Snippet :=
  [byteWriter, stringWriter, byteReader, decodeError, encodeInt, decodeInt, writeNull, readNull,
   writeBool, readBool, writeInt, readInt, writeLong, readLong, writeFloat, readFloat, writeDouble,
   readDouble, writeBytes, readBytes, writeString, readString, writeBlocks, readBlocks]

def name : Snippet → String
  | byteWriter => "ByteWriter"
  | stringWriter => "StringWriter"
  | byteReader => "ByteReader"
  | decodeError => "DecodeError"
  | encodeInt => "encode_int"
  | decodeInt => "decode_int"
  | writeNull => "write_null"
  | readNull => "read_null"
  | writeBool => "write_bool"
  | readBool => "read_bool"
  | writeInt => "write_int"
  | readInt => "read_int"
  | writeLong => "write_long"
  | readLong => "read_long"
  | writeFloat => "write_float"
  | readFloat => "read_float"
  | writeDouble => "write_double"
  | readDouble => "read_double"
  | writeBytes => "write_bytes"
  | readBytes => "read_bytes"
  | writeString => "write_string"
  | readString => "read_string"
  | writeBlocks => "write_blocks"
  | readBlocks => "read_blocks"

def ofName? (name : String) : Option Snippet :=
  all.find? (·.name = name)

def isType : Snippet → Bool
  | byteWriter | stringWriter | byteReader | decodeError => true
  | _ => false

def deps : Snippet → List Snippet
  | byteWriter | stringWriter | decodeError => []
  | byteReader => [decodeError]
  | encodeInt => [byteWriter]
  | decodeInt => [byteReader, decodeError]
  | writeNull => []
  | readNull => [decodeError]
  | writeBool => [byteWriter]
  | readBool => [byteReader, decodeError]
  | writeInt | writeLong => [encodeInt]
  | readInt | readLong => [decodeInt, decodeError]
  | writeFloat | writeDouble => []
  | readFloat | readDouble => [byteReader, decodeError]
  | writeBytes => [writeLong]
  | readBytes => [readLong, decodeError]
  | writeString => [writeLong, stringWriter]
  | readString => [readBytes, decodeError]
  | writeBlocks => [encodeInt]
  | readBlocks => [decodeInt, decodeError]

def imports : Snippet → List String
  | decodeError => ["std::fmt", "std::io"]
  | _ => ["std::io"]

end Snippet

end AvroCompiler

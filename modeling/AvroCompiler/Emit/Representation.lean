import AvroCompiler.Shape

namespace AvroCompiler

def Primitive.valueType : Primitive → String
  | .null => "()"
  | .boolean => "bool"
  | .int => "i32"
  | .long => "i64"
  | .float => "f32"
  | .double => "f64"
  | .bytes => "Vec<u8>"
  | .string => "String"

namespace Shape

def valueType : Shape → String
  | .primitive kind => kind.valueType
  | .fixed type => type.name
  | .enumeration type => type.name
  | .array items => s!"Vec<{items.valueType}>"
  | .map values => s!"HashMap<String, {values.valueType}>"
  | .union branches => (Shape.union branches).canonicalName
  | .record name => s!"Box<{name}>"

def borrowedType : Shape → String
  | .primitive .bytes => "[u8]"
  | .primitive .string => "str"
  | .array items => s!"[{items.valueType}]"
  | .record name => name
  | shape => shape.valueType

def usesMap : Shape → Bool
  | .map _ => true
  | .array items => items.usesMap
  | _ => false

def writer (shape : Shape) : String :=
  writerName shape.canonicalName

def reader (shape : Shape) : String :=
  readerName shape.canonicalName

end Shape

end AvroCompiler

import AvroCompiler.Emit.Declaration

namespace AvroCompiler

namespace Shape

def writerSignature (shape : Shape) : String :=
  s!"pub fn {shape.writer}<W: io::Write + ?Sized>(r: &{shape.borrowedType}, w: &mut W) " ++
    "-> io::Result<()>"

def readerSignature (shape : Shape) : String :=
  s!"pub fn {shape.reader}<R: io::Read + ?Sized>(r: &mut R) " ++
    s!"-> Result<{shape.valueType}, DecodeError>"

def matchLines (subject : String) (arms : List Arm) : List String :=
  [s!"    match {subject} \x7b"] ++ armLines "        " arms ++ ["    \x7d"]

def writeArms (name : String) (branches : List Shape) : List Arm :=
  branches.zipIdx.map fun (branch, i) =>
    .block (branch.variantPattern name "v")
      [s!"encode_int(w, {i})?;",
       let value := if branch.isNull then "&()" else "v"
       s!"{branch.writer}({value}, w)"]

def readArms (name : String) (branches : List Shape) : List Arm :=
  branches.zipIdx.map (fun (branch, i) =>
    if branch.isNull then .block (toString i) ["read_null(r)?;", s!"Ok({name}::Null)"]
    else .result (toString i) s!"Ok({name}::{branch.canonicalName}({branch.reader}(r)?))") ++
  [.result "index"
    s!"Err(DecodeError::InvalidUnionIndex \x7b type_name: {quote name}, index \x7d)"]

def writerBody (shape : Shape) : List String :=
  match shape with
  | .primitive _ => []
  | .fixed _ => ["    w.write_all(&r.0)"]
  | .enumeration _ => ["    encode_int(w, *r as i64)"]
  | .array items => [s!"    write_blocks(w, r.iter(), |item, w| {items.writer}(item, w))"]
  | .map values =>
    ["    write_blocks(w, r.iter(), |(key, value), w| \x7b",
     "        write_string(key, w)?;",
     s!"        {values.writer}(value, w)",
     "    \x7d)"]
  | .union branches => matchLines "r" (writeArms shape.canonicalName branches)
  | .record _ => ["    r.serialize(w)"]

def readerBody (shape : Shape) : List String :=
  match shape with
  | .primitive _ => []
  | .fixed type =>
    [s!"    let mut buf = [0u8; {sizeConstant type.name}];",
     "    r.read_exact_bytes(&mut buf)?;",
     s!"    Ok({type.name}(buf))"]
  | .enumeration type =>
    ["    let ordinal = decode_int(r)?;",
     s!"    {type.name}::from_ordinal(ordinal).ok_or(DecodeError::InvalidEnumOrdinal " ++
       s!"\x7b type_name: {quote type.name}, ordinal \x7d)"]
  | .array items =>
    ["    let mut items = Vec::new();",
     "    read_blocks(r, |r| \x7b",
     s!"        items.push({items.reader}(r)?);",
     "        Ok(())",
     "    \x7d)?;",
     "    Ok(items)"]
  | .map values =>
    ["    let mut items = HashMap::new();",
     "    read_blocks(r, |r| \x7b",
     "        let key = read_string(r)?;",
     s!"        items.insert(key, {values.reader}(r)?);",
     "        Ok(())",
     "    \x7d)?;",
     "    Ok(items)"]
  | .union branches => matchLines "decode_int(r)?" (readArms shape.canonicalName branches)
  | .record name => [s!"    {deserializerName name}(r).map(Box::new)"]

def writeRoutine (shape : Shape) : String :=
  joinLines ([shape.writerSignature ++ " \x7b"] ++ shape.writerBody ++ ["\x7d"])

def readRoutine (shape : Shape) : String :=
  joinLines ([shape.readerSignature ++ " \x7b"] ++ shape.readerBody ++ ["\x7d"])

end Shape

end AvroCompiler

import AvroCompiler.Snippet.Basic
import AvroCompiler.Text.Blank

namespace AvroCompiler

namespace Snippet

def lines : Snippet → List String
  | byteWriter =>
    ["/// Byte-at-a-time output, available on every `io::Write`.",
     "pub trait ByteWriter: io::Write \x7b",
     "    fn write_byte(&mut self, byte: u8) -> io::Result<()> \x7b",
     "        self.write_all(&[byte])",
     "    \x7d",
     "\x7d",
     "",
     "impl<W: io::Write + ?Sized> ByteWriter for W \x7b\x7d"]
  | stringWriter =>
    ["/// Raw UTF-8 content output, available on every `io::Write`.",
     "pub trait StringWriter: io::Write \x7b",
     "    fn write_utf8(&mut self, s: &str) -> io::Result<()> \x7b",
     "        self.write_all(s.as_bytes())",
     "    \x7d",
     "\x7d",
     "",
     "impl<W: io::Write + ?Sized> StringWriter for W \x7b\x7d"]
  | byteReader =>
    ["/// Exact-length input, available on every `io::Read`.",
     "pub trait ByteReader: io::Read \x7b",
     "    fn read_byte(&mut self) -> Result<u8, DecodeError> \x7b",
     "        let mut buf = [0u8; 1];",
     "        self.read_exact_bytes(&mut buf)?;",
     "        Ok(buf[0])",
     "    \x7d",
     "",
     "    fn read_exact_bytes(&mut self, buf: &mut [u8]) -> Result<(), DecodeError> \x7b",
     "        self.read_exact(buf)?;",
     "        Ok(())",
     "    \x7d",
     "\x7d",
     "",
     "impl<R: io::Read + ?Sized> ByteReader for R \x7b\x7d"]
  | decodeError =>
    ["/// Malformed input found while decoding.",
     "#[derive(Debug)]",
     "pub enum DecodeError \x7b",
     "    UnexpectedEof,",
     "    InvalidBool(u8),",
     "    InvalidEnumOrdinal \x7b type_name: &'static str, ordinal: i64 \x7d,",
     "    InvalidUnionIndex \x7b type_name: &'static str, index: i64 \x7d,",
     "    NegativeLength(i64),",
     "    TooManyItems(i64),",
     "    IntOutOfRange(i64),",
     "    VarintOverflow,",
     "    InvalidUtf8(std::str::Utf8Error),",
     "    Io(io::Error),",
     "\x7d",
     "",
     "impl fmt::Display for DecodeError \x7b",
     "    fn fmt(&self, f: &mut fmt::Formatter<'_>) -> fmt::Result \x7b",
     "        match self \x7b",
     "            DecodeError::UnexpectedEof => write!(f, \"unexpected end of input\"),",
     "            DecodeError::InvalidBool(byte) => write!(f, \"invalid boolean byte \x7b:#04x\x7d\", byte),",
     "            DecodeError::InvalidEnumOrdinal \x7b type_name, ordinal \x7d => \x7b",
     "                write!(f, \"ordinal \x7b\x7d out of range for enum \x7b\x7d\", ordinal, type_name)",
     "            \x7d",
     "            DecodeError::InvalidUnionIndex \x7b type_name, index \x7d => \x7b",
     "                write!(f, \"branch index \x7b\x7d out of range for union \x7b\x7d\", index, type_name)",
     "            \x7d",
     "            DecodeError::NegativeLength(len) => write!(f, \"negative length \x7b\x7d\", len),",
     "            DecodeError::TooManyItems(count) => write!(f, \"collection of \x7b\x7d items exceeds the limit\", count),",
     "            DecodeError::IntOutOfRange(value) => write!(f, \"value \x7b\x7d does not fit in an int\", value),",
     "            DecodeError::VarintOverflow => write!(f, \"varint longer than 10 bytes\"),",
     "            DecodeError::InvalidUtf8(err) => write!(f, \"invalid UTF-8 in string: \x7b\x7d\", err),",
     "            DecodeError::Io(err) => write!(f, \"I/O error: \x7b\x7d\", err),",
     "        \x7d",
     "    \x7d",
     "\x7d",
     "",
     "impl std::error::Error for DecodeError \x7b",
     "    fn source(&self) -> Option<&(dyn std::error::Error + 'static)> \x7b",
     "        match self \x7b",
     "            DecodeError::InvalidUtf8(err) => Some(err),",
     "            DecodeError::Io(err) => Some(err),",
     "            _ => None,",
     "        \x7d",
     "    \x7d",
     "\x7d",
     "",
     "impl From<io::Error> for DecodeError \x7b",
     "    fn from(err: io::Error) -> Self \x7b",
     "        if err.kind() == io::ErrorKind::UnexpectedEof \x7b",
     "            DecodeError::UnexpectedEof",
     "        \x7d else \x7b",
     "            DecodeError::Io(err)",
     "        \x7d",
     "    \x7d",
     "\x7d"]
  | encodeInt =>
    ["/// Zigzag-map `n`, then emit it as a little-endian base-128 varint.",
     "pub fn encode_int<W: io::Write + ?Sized>(w: &mut W, n: i64) -> io::Result<()> \x7b",
     "    let mut value = ((n << 1) ^ (n >> 63)) as u64;",
     "    while value & !0x7f != 0 \x7b",
     "        w.write_byte((value & 0x7f) as u8 | 0x80)?;",
     "        value >>= 7;",
     "    \x7d",
     "    w.write_byte(value as u8)",
     "\x7d"]
  | decodeInt =>
    ["/// Read a base-128 varint and undo the zigzag mapping.",
     "pub fn decode_int<R: io::Read + ?Sized>(r: &mut R) -> Result<i64, DecodeError> \x7b",
     "    let mut value: u64 = 0;",
     "    let mut shift = 0;",
     "    loop \x7b",
     "        let byte = r.read_byte()?;",
     "        // The tenth byte may only carry the top bit.",
     "        if shift == 63 && byte > 1 \x7b",
     "            return Err(DecodeError::VarintOverflow);",
     "        \x7d",
     "        value |= u64::from(byte & 0x7f) << shift;",
     "        if byte & 0x80 == 0 \x7b",
     "            break;",
     "        \x7d",
     "        shift += 7;",
     "    \x7d",
     "    Ok((value >> 1) as i64 ^ -((value & 1) as i64))",
     "\x7d"]
  | writeNull =>
    ["pub fn write_null<W: io::Write + ?Sized>(_r: &(), _w: &mut W) -> io::Result<()> \x7b",
     "    Ok(())",
     "\x7d"]
  | readNull =>
    ["pub fn read_null<R: io::Read + ?Sized>(_r: &mut R) -> Result<(), DecodeError> \x7b",
     "    Ok(())",
     "\x7d"]
  | writeBool =>
    ["pub fn write_bool<W: io::Write + ?Sized>(r: &bool, w: &mut W) -> io::Result<()> \x7b",
     "    w.write_byte(u8::from(*r))",
     "\x7d"]
  | readBool =>
    ["pub fn read_bool<R: io::Read + ?Sized>(r: &mut R) -> Result<bool, DecodeError> \x7b",
     "    match r.read_byte()? \x7b",
     "        0 => Ok(false),",
     "        1 => Ok(true),",
     "        byte => Err(DecodeError::InvalidBool(byte)),",
     "    \x7d",
     "\x7d"]
  | writeInt =>
    ["pub fn write_int<W: io::Write + ?Sized>(r: &i32, w: &mut W) -> io::Result<()> \x7b",
     "    encode_int(w, i64::from(*r))",
     "\x7d"]
  | readInt =>
    ["pub fn read_int<R: io::Read + ?Sized>(r: &mut R) -> Result<i32, DecodeError> \x7b",
     "    let value = decode_int(r)?;",
     "    i32::try_from(value).map_err(|_| DecodeError::IntOutOfRange(value))",
     "\x7d"]
  | writeLong =>
    ["pub fn write_long<W: io::Write + ?Sized>(r: &i64, w: &mut W) -> io::Result<()> \x7b",
     "    encode_int(w, *r)",
     "\x7d"]
  | readLong =>
    ["pub fn read_long<R: io::Read + ?Sized>(r: &mut R) -> Result<i64, DecodeError> \x7b",
     "    decode_int(r)",
     "\x7d"]
  | writeFloat =>
    ["pub fn write_float<W: io::Write + ?Sized>(r: &f32, w: &mut W) -> io::Result<()> \x7b",
     "    w.write_all(&r.to_le_bytes())",
     "\x7d"]
  | readFloat =>
    ["pub fn read_float<R: io::Read + ?Sized>(r: &mut R) -> Result<f32, DecodeError> \x7b",
     "    let mut buf = [0u8; 4];",
     "    r.read_exact_bytes(&mut buf)?;",
     "    Ok(f32::from_le_bytes(buf))",
     "\x7d"]
  | writeDouble =>
    ["pub fn write_double<W: io::Write + ?Sized>(r: &f64, w: &mut W) -> io::Result<()> \x7b",
     "    w.write_all(&r.to_le_bytes())",
     "\x7d"]
  | readDouble =>
    ["pub fn read_double<R: io::Read + ?Sized>(r: &mut R) -> Result<f64, DecodeError> \x7b",
     "    let mut buf = [0u8; 8];",
     "    r.read_exact_bytes(&mut buf)?;",
     "    Ok(f64::from_le_bytes(buf))",
     "\x7d"]
  | writeBytes =>
    ["pub fn write_bytes<W: io::Write + ?Sized>(r: &[u8], w: &mut W) -> io::Result<()> \x7b",
     "    write_long(&(r.len() as i64), w)?;",
     "    w.write_all(r)",
     "\x7d"]
  | readBytes =>
    ["/// Read a length-prefixed byte string without trusting the length for allocation.",
     "pub fn read_bytes<R: io::Read + ?Sized>(r: &mut R) -> Result<Vec<u8>, DecodeError> \x7b",
     "    let len = read_long(r)?;",
     "    let len = u64::try_from(len).map_err(|_| DecodeError::NegativeLength(len))?;",
     "    let mut buf = Vec::new();",
     "    let mut limited = io::Read::take(&mut *r, len);",
     "    io::Read::read_to_end(&mut limited, &mut buf)?;",
     "    if (buf.len() as u64) < len \x7b",
     "        return Err(DecodeError::UnexpectedEof);",
     "    \x7d",
     "    Ok(buf)",
     "\x7d"]
  | writeString =>
    ["pub fn write_string<W: io::Write + ?Sized>(r: &str, w: &mut W) -> io::Result<()> \x7b",
     "    write_long(&(r.len() as i64), w)?;",
     "    w.write_utf8(r)",
     "\x7d"]
  | readString =>
    ["pub fn read_string<R: io::Read + ?Sized>(r: &mut R) -> Result<String, DecodeError> \x7b",
     "    let bytes = read_bytes(r)?;",
     "    String::from_utf8(bytes).map_err(|err| DecodeError::InvalidUtf8(err.utf8_error()))",
     "\x7d"]
  | writeBlocks =>
    ["/// Write every item as a single counted block, then the terminating empty block.",
     "pub fn write_blocks<W, I, F>(w: &mut W, items: I, mut write_item: F) -> io::Result<()>",
     "where",
     "    W: io::Write + ?Sized,",
     "    I: ExactSizeIterator,",
     "    F: FnMut(I::Item, &mut W) -> io::Result<()>,",
     "\x7b",
     "    if items.len() > 0 \x7b",
     "        encode_int(w, items.len() as i64)?;",
     "        for item in items \x7b",
     "            write_item(item, &mut *w)?;",
     "        \x7d",
     "    \x7d",
     "    encode_int(w, 0)",
     "\x7d"]
  | readBlocks =>
    ["/// Read counted blocks until the empty block, calling `read_item` once per item.",
     "///",
     "/// A negative count is followed by the block's size in bytes, which is skipped.",
     "/// At most `i32::MAX` items are read in total, which also bounds the loop for",
     "/// items that take no bytes on the wire (`null`, empty records).",
     "pub fn read_blocks<R, F>(r: &mut R, mut read_item: F) -> Result<(), DecodeError>",
     "where",
     "    R: io::Read + ?Sized,",
     "    F: FnMut(&mut R) -> Result<(), DecodeError>,",
     "\x7b",
     "    const MAX_ITEMS: i64 = i32::MAX as i64;",
     "    let mut total: i64 = 0;",
     "    loop \x7b",
     "        let mut count = decode_int(r)?;",
     "        if count == 0 \x7b",
     "            return Ok(());",
     "        \x7d",
     "        if count < 0 \x7b",
     "            decode_int(r)?;",
     "            count = count.checked_neg().ok_or(DecodeError::NegativeLength(count))?;",
     "        \x7d",
     "        total = total.saturating_add(count);",
     "        if total > MAX_ITEMS \x7b",
     "            return Err(DecodeError::TooManyItems(total));",
     "        \x7d",
     "        for _ in 0..count \x7b",
     "            read_item(&mut *r)?;",
     "        \x7d",
     "    \x7d",
     "\x7d"]

def text (snippet : Snippet) : String :=
  joinLines snippet.lines

end Snippet

end AvroCompiler

import AvroCompiler.Yaml.Scalar

namespace AvroCompiler.Yaml

structure Tag where
  handle : String
  suffix : String
  deriving DecidableEq, Repr

def isUriSign (c : Char) : Bool :=
  ";/?:@&=+$,.!~*'()[]".toList.contains c

def octetWidth? (octet : Nat) : Option Nat :=
  if octet < 0x80 then some 1
  else if octet < 0xC0 then none
  else if octet < 0xE0 then some 2
  else if octet < 0xF0 then some 3
  else if octet < 0xF8 then some 4
  else none

def takeOctet? : List Char → Option (Nat × List Char)
  | '%' :: a :: b :: cs => do return (← hexNumber? [a, b], cs)
  | _ => none

/-- The octets of a character after the first one. Their bits are put side by side. -/
def takeOctets? : Nat → Nat → List Char → Option (Char × List Char)
  | 0, code, cs => if code.isValidChar then some (Char.ofNat code, cs) else none
  | missing + 1, code, cs => do
    let (octet, cs) ← takeOctet? cs
    guard (0x80 ≤ octet ∧ octet < 0xC0)
    takeOctets? missing (code * 256 + octet) cs

def takeUri? : Nat → List Char → Option (List Char × List Char)
  | 0, cs => some ([], cs)
  | _, [] => some ([], [])
  | fuel + 1, c :: cs =>
    if c = '%' then do
      let (octet, rest) ← takeOctet? (c :: cs)
      let (char, rest) ← takeOctets? ((← octetWidth? octet) - 1) octet rest
      (takeUri? fuel rest).map fun (text, rest) => (char :: text, rest)
    else if isUriSign c || isLabelChar c then
      (takeUri? fuel cs).map fun (text, rest) => (c :: text, rest)
    else some ([], c :: cs)

namespace Cursor

def moveTo (cur : Cursor) (rest : List Char) : Cursor :=
  cur.skipN (cur.rest.length - rest.length)

def takeHandle? (cur : Cursor) : Option (List Char × Cursor) := do
  guard (cur.head? = some '!')
  let name := cur.skip.takeWhile isLabelChar
  let cur := cur.skip.skipWhile isLabelChar
  if cur.head? = some '!' then return ('!' :: name ++ ['!'], cur.skip)
  else return ('!' :: name, cur)

/-- A tag. It is followed by a gap, a line end or the end of the text. -/
def takeTag? (cur : Cursor) : Option (Tag × Cursor) := do
  let (tag, cur) ← if cur.at? 1 = some '<' then verbatim cur.skip.skip else short cur
  guard (cur.endsWordAt 0)
  return (tag, cur)
where
  uri (cur : Cursor) : Option (List Char × Cursor) := do
    let (text, rest) ← takeUri? (cur.rest.length + 1) cur.rest
    return (text, cur.moveTo rest)
  verbatim (cur : Cursor) : Option (Tag × Cursor) := do
    let (suffix, cur) ← uri cur
    guard (suffix ≠ [] ∧ cur.head? = some '>')
    return (⟨"", String.ofList suffix⟩, cur.skip)
  short (cur : Cursor) : Option (Tag × Cursor) := do
    let (handle, cur) ← cur.takeHandle?
    let (suffix, cur) ← uri cur
    if 2 ≤ handle.length ∧ handle.getLast? = some '!' then
      guard (suffix ≠ [])
      return (⟨String.ofList handle, String.ofList suffix⟩, cur)
    else
      let suffix := handle.drop 1 ++ suffix
      if suffix = [] then return (⟨"", "!"⟩, cur)
      else return (⟨"!", String.ofList suffix⟩, cur)

/-- The number of a version has at most nine digits. -/
def skipVersionNumber? (cur : Cursor) : Option Cursor := do
  let digits := cur.takeWhile Char.isDigit
  guard (0 < digits.length ∧ digits.length ≤ 9)
  return cur.skipN digits.length

def skipVersion? (cur : Cursor) : Option Cursor := do
  let cur ← cur.skipGaps.skipVersionNumber?
  guard (cur.head? = some '.')
  cur.skip.skipVersionNumber?

def skipTagMeaning? (cur : Cursor) : Option Cursor := do
  let (handle, cur) ← cur.skipGaps.takeHandle?
  guard (handle = ['!'] ∨ (2 ≤ handle.length ∧ handle.getLast? = some '!'))
  let cur := cur.skipGaps
  let (text, rest) ← takeUri? (cur.rest.length + 1) cur.rest
  guard (text ≠ [])
  let cur := cur.moveTo rest
  guard (cur.endsWordAt 0)
  return cur

/-- Skips a directive with its line. One of an unknown name may hold anything. -/
def skipDirective? (cur : Cursor) : Option Cursor := do
  let name := cur.skip.takeWhile isLabelChar
  let cur := cur.skip.skipWhile isLabelChar
  guard (name ≠ [] ∧ cur.endsWordAt 0)
  let cur ←
    if name = "YAML".toList then cur.skipVersion?
    else if name = "TAG".toList then cur.skipTagMeaning?
    else some cur.skipLine
  cur.finishLine?

end Cursor

end AvroCompiler.Yaml

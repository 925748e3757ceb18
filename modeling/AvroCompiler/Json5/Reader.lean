import AvroCompiler.Json.Token
import AvroCompiler.Settings.Layer
import AvroCompiler.Text.Blank
import AvroCompiler.Text.WordCharacter

namespace AvroCompiler.Json5

def isLineEnd (c : Char) : Bool :=
  c = '\n' || c = '\r' || c = '\u2028' || c = '\u2029'

def isSpace (c : Char) : Bool :=
  (isBlank c && c ≠ '\u0085') || c = '\uFEFF'

inductive Gap where
  | blank
  | lineComment
  | blockComment

/-- Skips blanks and comments. A comment that is opened has to be closed. -/
def skip? : Gap → List Char → Option (List Char)
  | .blank, '/' :: '/' :: cs => skip? .lineComment cs
  | .blank, '/' :: '*' :: cs => skip? .blockComment cs
  | .blank, c :: cs => if isSpace c then skip? .blank cs else some (c :: cs)
  | .blank, [] => some []
  | .lineComment, c :: cs => if isLineEnd c then skip? .blank cs else skip? .lineComment cs
  | .lineComment, [] => some []
  | .blockComment, '*' :: '/' :: cs => skip? .blank cs
  | .blockComment, _ :: cs => skip? .blockComment cs
  | .blockComment, [] => none

def hexNumber? (digits : List Char) : Option Nat := do
  let values ← digits.mapM Json.hexValue?
  return values.foldl (fun n digit => n * 16 + digit) 0

/-- The character of an escaped code, which may be the first half of a pair. -/
inductive Unit16 where
  | whole (c : Char)
  | lead (code : Nat)
  | trail (code : Nat)

def Unit16.ofCode (code : Nat) : Unit16 :=
  if 0xD800 ≤ code ∧ code < 0xDC00 then .lead code
  else if 0xDC00 ≤ code ∧ code < 0xE000 then .trail code
  else .whole (Char.ofNat code)

def joinPair (lead trail : Nat) : Char :=
  Char.ofNat (0x10000 + (lead - 0xD800) * 0x400 + (trail - 0xDC00))

def escapeMeaning? (c : Char) : Option Char :=
  match c with
  | 'b' => some '\x08'
  | 'f' => some '\x0c'
  | 'n' => some '\n'
  | 'r' => some '\r'
  | 't' => some '\t'
  | 'v' => some '\x0b'
  | '0' => some '\x00'
  | _ => if c.isDigit || c = 'x' || c = 'u' then none else some c

/-- Adds a character, which may not come between the halves of a pair. -/
def addChar (lead : Option Nat) (c : Char) (read : Option (List Char × List Char)) :
    Option (List Char × List Char) :=
  match lead with
  | some _ => none
  | none => read.map fun (text, rest) => (c :: text, rest)

/-- The text before the closing mark, and what follows the mark. `lead` is the first half of a pair
that waits for the second. -/
def takeText (mark : Char) (lead : Option Nat) : List Char → Option (List Char × List Char)
  | '\\' :: 'u' :: a :: b :: c :: d :: cs => do
    match Unit16.ofCode (← hexNumber? [a, b, c, d]), lead with
    | .whole c, none => addChar none c (takeText mark none cs)
    | .lead code, none => takeText mark (some code) cs
    | .trail code, some high => addChar none (joinPair high code) (takeText mark none cs)
    | _, _ => none
  | '\\' :: 'x' :: a :: b :: cs => do
    addChar lead (Char.ofNat (← hexNumber? [a, b])) (takeText mark none cs)
  | '\\' :: '\r' :: '\n' :: cs => takeText mark lead cs
  | '\\' :: c :: cs =>
    if isLineEnd c then takeText mark lead cs
    else
      match escapeMeaning? c with
      | some meant => addChar lead meant (takeText mark none cs)
      | none => none
  | c :: cs =>
    if c = mark then if lead.isNone then some ([], cs) else none
    else if c = '\\' || isLineEnd c then none
    else addChar lead c (takeText mark none cs)
  | [] => none

def isNameStart (c : Char) : Bool :=
  c = '$' || isWordStart c

def isNameRest (c : Char) : Bool :=
  c = '$' || isWordRest c

def takeName : List Char → List Char × List Char
  | '\\' :: 'u' :: a :: b :: c :: d :: cs =>
    match hexNumber? [a, b, c, d] with
    | some code =>
      let (name, rest) := takeName cs
      (Char.ofNat code :: name, rest)
    | none => ([], '\\' :: 'u' :: a :: b :: c :: d :: cs)
  | c :: cs =>
    if isNameRest c then
      let (name, rest) := takeName cs
      (c :: name, rest)
    else ([], c :: cs)
  | [] => ([], [])

def takeKey (cs : List Char) : Option (String × List Char) :=
  match cs with
  | '"' :: rest => (takeText '"' none rest).map fun (text, rest) => (String.ofList text, rest)
  | '\'' :: rest => (takeText '\'' none rest).map fun (text, rest) => (String.ofList text, rest)
  | c :: _ =>
    if isNameStart c || c = '\\' then
      match takeName cs with
      | ([], _) => none
      | (name, rest) => some (String.ofList name, rest)
    else none
  | [] => none

def afterWord? (word : String) (cs : List Char) : Option (List Char) :=
  if word.toList.isPrefixOf cs then some (cs.drop word.length) else none

def takeHex (cs : List Char) : Option (Setting × List Char) := do
  let isHex (c : Char) : Bool := (Json.hexValue? c).isSome
  let value ← hexNumber? (cs.takeWhile isHex)
  guard (cs.takeWhile isHex ≠ [] ∧ value < 0x100000000)
  return (.integer value, cs.dropWhile isHex)

/-- The exponent at the start of a text; without digits there is none. -/
def takePower (cs : List Char) : List Char × List Char :=
  match cs with
  | mark :: rest =>
    let (sign, digits) := match rest with
      | '+' :: ds => (['+'], ds)
      | '-' :: ds => (['-'], ds)
      | ds => ([], ds)
    let run := digits.takeWhile Char.isDigit
    if (mark = 'e' ∨ mark = 'E') ∧ run ≠ [] then
      (mark :: sign ++ run, digits.dropWhile Char.isDigit)
    else ([], cs)
  | [] => ([], [])

/-- The whole part of a number. Only zero itself starts with a zero. -/
def takeWhole : List Char → List Char × List Char
  | '0' :: cs => (['0'], cs)
  | cs => (cs.takeWhile Char.isDigit, cs.dropWhile Char.isDigit)

/-- A number after its sign: an integer of 64 bits, or a finite real number. -/
def takeDecimal (negative : Bool) (cs : List Char) : Option (Setting × List Char) := do
  let (whole, rest) := takeWhole cs
  let (fraction, rest) := match rest with
    | '.' :: ds => ('.' :: ds.takeWhile Char.isDigit, ds.dropWhile Char.isDigit)
    | _ => ([], rest)
  guard (whole ≠ [] ∨ 1 < fraction.length)
  let (power, rest) := takePower rest
  if fraction = [] ∧ power = [] then
    let value : Int := if negative then -(digitsValue whole : Int) else digitsValue whole
    guard (fitsWord value)
    return (.integer value, rest)
  else
    let bits ← readUnsignedDecimal? negative (whole ++ fraction ++ power)
    guard (bits ≠ signedInfinity negative)
    return (.real bits, rest)

/-- A number. Base sixteen takes no sign, and the words of special numbers take no plus sign. -/
def takeNumber (cs : List Char) : Option (Setting × List Char) :=
  match cs with
  | '0' :: 'x' :: rest => takeHex rest
  | '0' :: 'X' :: rest => takeHex rest
  | '+' :: rest => takeDecimal false rest
  | '-' :: rest => (special true rest).or (takeDecimal true rest)
  | _ => (special false cs).or (takeDecimal false cs)
where
  special (negative : Bool) (cs : List Char) : Option (Setting × List Char) :=
    ((afterWord? "Infinity" cs).map fun rest => (.real (signedInfinity negative), rest)).or
      ((afterWord? "NaN" cs).map fun rest => (.real notANumberBits, rest))

def takeScalar (cs : List Char) : Option (Setting × List Char) :=
  match cs with
  | '"' :: rest => (takeText '"' none rest).map fun (text, rest) => (.text (String.ofList text), rest)
  | '\'' :: rest =>
    (takeText '\'' none rest).map fun (text, rest) => (.text (String.ofList text), rest)
  | _ =>
    (((afterWord? "null" cs).map fun rest => (Setting.nothing, rest)).or
      ((afterWord? "true" cs).map fun rest => (Setting.flag true, rest))).or
      (((afterWord? "false" cs).map fun rest => (Setting.flag false, rest)).or (takeNumber cs))

mutual

/-- A value after the blanks before it. Fuel bounds the depth and the number of items. -/
def takeSetting : Nat → List Char → Option (Setting × List Char)
  | 0, _ => none
  | fuel + 1, cs => do
    match ← skip? .blank cs with
    | '[' :: rest => takeItems fuel [] rest
    | '\x7b' :: rest => takeMembers fuel [] rest
    | rest => takeScalar rest

def takeItems : Nat → List Setting → List Char → Option (Setting × List Char)
  | 0, _, _ => none
  | fuel + 1, items, cs => do
    match ← skip? .blank cs with
    | ']' :: rest => return (.list items, rest)
    | rest =>
      let (item, rest) ← takeSetting fuel rest
      match ← skip? .blank rest with
      | ',' :: rest => takeItems fuel (items ++ [item]) rest
      | ']' :: rest => return (.list (items ++ [item]), rest)
      | _ => none

/-- The members of an object after its brace or a comma. The last of two equal keys counts. -/
def takeMembers : Nat → List (String × Setting) → List Char → Option (Setting × List Char)
  | 0, _, _ => none
  | fuel + 1, members, cs => do
    match ← skip? .blank cs with
    | '\x7d' :: rest => return (.table members, rest)
    | rest =>
      let (key, rest) ← takeKey rest
      let ':' :: rest ← skip? .blank rest | none
      let (value, rest) ← takeSetting fuel rest
      match ← skip? .blank rest with
      | ',' :: rest => takeMembers fuel (putSetting key value members) rest
      | '\x7d' :: rest => return (.table (putSetting key value members), rest)
      | _ => none

end

def read? (text : String) : Option Layer := do
  let (value, rest) ← takeSetting (2 * text.length + 2) text.toList
  match value, ← skip? .blank rest with
  | .table members, [] => some members
  | _, _ => none

end AvroCompiler.Json5

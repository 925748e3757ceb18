import AvroCompiler.Json.Token
import AvroCompiler.Text.WordCharacter

namespace AvroCompiler.Code

inductive Literal where
  /-- A text of characters; the only kind that can name an interface. -/
  | text
  | whole (value : Nat) (suffixed : Bool)
  | real (digits : String)
  | other
  deriving DecidableEq, Repr

def takeWord? (cs : List Char) : Option (List Char × List Char) :=
  match cs with
  | c :: rest =>
    if isWordStart c then some (c :: rest.takeWhile isWordRest, rest.dropWhile isWordRest) else none
  | [] => none

def dropSuffix (cs : List Char) : List Char :=
  match takeWord? cs with
  | some (_, rest) => rest
  | none => cs

inductive TextKind where
  | chars
  | bytes
  | nonZero
  deriving DecidableEq

def TextKind.allows (kind : TextKind) (c : Char) : Bool :=
  match kind with
  | .chars => true
  | .bytes => c.toNat < 0x80
  | .nonZero => c ≠ '\x00'

/-- Two digits after a backslash and an `x`. Characters go up to 127 that way. -/
def TextKind.allowsCode (kind : TextKind) (a b : Char) : Bool :=
  match Json.hexValue? a, Json.hexValue? b with
  | some high, some low =>
    match kind with
    | .chars => high < 8
    | .bytes => true
    | .nonZero => high + low ≠ 0
  | _, _ => false

def TextKind.allowsEscape (kind : TextKind) (c : Char) : Bool :=
  ['n', 'r', 't', '\\', '\'', '"'].contains c || (c = '0' && kind ≠ .nonZero)

/-- The code of a character in braces: up to six digits, with underscores after the first. -/
def takeBracedCode? (count value : Nat) : List Char → Option (Nat × List Char)
  | [] => none
  | c :: cs =>
    if c = '\x7d' then if 0 < count && value.isValidChar then some (value, cs) else none
    else if c = '_' then if 0 < count then takeBracedCode? count value cs else none
    else
      match Json.hexValue? c with
      | some digit =>
        if count = 6 then none else takeBracedCode? (count + 1) (value * 16 + digit) cs
      | none => none

/-- Skips the line end after a backslash and the blanks of the next lines. A CR belongs to a LF. -/
def skipJoint? : Bool → List Char → Option (List Char)
  | true, '\n' :: cs => skipJoint? false cs
  | true, _ => none
  | false, c :: cs =>
    if c = ' ' || c = '\t' || c = '\n' then skipJoint? false cs
    else if c = '\r' then skipJoint? true cs
    else some (c :: cs)
  | false, [] => none

/-- What follows a text after its opening mark. Each step takes a character, so the characters
themselves count the steps. -/
def afterText? (kind : TextKind) : List Char → List Char → Option (List Char)
  | [], _ => none
  | _ :: fuel, cs =>
    match cs with
    | '"' :: rest => some (dropSuffix rest)
    | '\r' :: '\n' :: rest => afterText? kind fuel rest
    | '\\' :: 'x' :: a :: b :: rest =>
      if kind.allowsCode a b then afterText? kind fuel rest else none
    | '\\' :: 'u' :: '\x7b' :: rest =>
      match takeBracedCode? 0 0 rest with
      | some (code, rest) =>
        if kind = .bytes || (kind = .nonZero && code = 0) then none else afterText? kind fuel rest
      | none => none
    | '\\' :: c :: rest =>
      if c = '\n' || c = '\r' then
        match skipJoint? (c = '\r') rest with
        | some rest => afterText? kind fuel rest
        | none => none
      else if kind.allowsEscape c then afterText? kind fuel rest
      else none
    | c :: rest =>
      if c = '\r' || c = '\\' || !kind.allows c then none else afterText? kind fuel rest
    | [] => none

/-- What follows a raw text after its opening mark. It ends at a mark and as many number signs as
stand before it. -/
def afterRaw? (kind : TextKind) (signs : List Char) : List Char → Option (List Char)
  | '\r' :: '\n' :: rest => afterRaw? kind signs rest
  | c :: rest =>
    if c = '"' && signs.isPrefixOf rest then some (dropSuffix (rest.drop signs.length))
    else if c = '\r' || !kind.allows c then none
    else afterRaw? kind signs rest
  | [] => none

def takeRaw? (kind : TextKind) (cs : List Char) : Option (List Char) :=
  let signs := cs.takeWhile (· = '#')
  match cs.dropWhile (· = '#') with
  | '"' :: rest => if signs.length ≤ 255 then afterRaw? kind signs rest else none
  | _ => none

def afterCharacter? (kind : TextKind) (cs : List Char) : Option (List Char) :=
  match body with
  | some ('\'' :: rest) => some (dropSuffix rest)
  | _ => none
where
  body : Option (List Char) :=
    match cs with
    | '\\' :: 'x' :: a :: b :: rest => if kind.allowsCode a b then some rest else none
    | '\\' :: 'u' :: '\x7b' :: rest =>
      if kind = .bytes then none else (takeBracedCode? 0 0 rest).map Prod.snd
    | '\\' :: c :: rest => if kind.allowsEscape c then some rest else none
    | c :: rest => if kind.allows c then some rest else none
    | [] => none

def takeQuoted? (cs : List Char) : Option (Literal × List Char) :=
  match cs with
  | '"' :: rest => (afterText? .chars rest rest).map (.text, ·)
  | 'r' :: rest => (takeRaw? .chars rest).map (.text, ·)
  | 'b' :: '"' :: rest => (afterText? .bytes rest rest).map (.other, ·)
  | 'b' :: 'r' :: rest => (takeRaw? .bytes rest).map (.other, ·)
  | 'c' :: '"' :: rest => (afterText? .nonZero rest rest).map (.other, ·)
  | 'c' :: 'r' :: rest => (takeRaw? .nonZero rest).map (.other, ·)
  | 'b' :: '\'' :: rest => (afterCharacter? .bytes rest).map (.other, ·)
  | '\'' :: rest => (afterCharacter? .chars rest).map (.other, ·)
  | _ => none

def afterPower? (signed valued : Bool) : List Char → Option (List Char)
  | [] => if valued then some [] else none
  | c :: cs =>
    if c.isDigit then afterPower? signed true cs
    else if c = '_' then afterPower? signed valued cs
    else if (c = '+' || c = '-') && !valued then if signed then none else afterPower? true false cs
    else if valued then some (c :: cs)
    else none

/-- What follows the digits of a real number, which has a point or an exponent. A point is not taken
before another one or a name; an exponent without digits is left to the suffix. -/
def afterReal? (dotted : Bool) : List Char → Option (List Char)
  | [] => if dotted then some [] else none
  | c :: cs =>
    if c.isDigit || c = '_' then afterReal? dotted cs
    else if c = '.' && !dotted then
      if cs.head?.any fun d => d = '.' || isWordStart d then none else afterReal? true cs
    else if c = 'e' || c = 'E' then
      match afterPower? false false cs with
      | some rest => some rest
      | none => if dotted then some (c :: cs) else none
    else if dotted then some (c :: cs)
    else none

def splitBase : List Char → Nat × List Char
  | '0' :: 'x' :: cs => (16, cs)
  | '0' :: 'o' :: cs => (8, cs)
  | '0' :: 'b' :: cs => (2, cs)
  | cs => (10, cs)

/-- What follows the digits of an integer. A decimal digit has to be one of the base; a letter that
is none begins the suffix. -/
def afterWhole? (base : Nat) (empty : Bool) : List Char → Option (List Char)
  | [] => if empty then none else some []
  | c :: cs =>
    if c = '_' then if empty && base = 10 then none else afterWhole? base empty cs
    else
      match Json.hexValue? c with
      | some digit =>
        if digit < base then afterWhole? base false cs
        else if c.isDigit || empty then none
        else some (c :: cs)
      | none => if empty then none else some (c :: cs)

/-- No word may go on after a number and its suffix. -/
def endNumber? (cs : List Char) : Option (List Char) :=
  let rest := dropSuffix cs
  if rest.head?.any isWordRest then none else some rest

def isPower (cs : List Char) : Bool :=
  let rest := cs.dropWhile fun c => c.isDigit || c = '_'
  (cs.takeWhile fun c => c.isDigit || c = '_').any Char.isDigit || rest.head?.any fun c =>
    c = '+' || c = '-'

/-- The value of an integer and whether it has a suffix. A point or an exponent makes a number
real. -/
def wholeValue? (base value : Nat) : List Char → Option (Nat × Bool)
  | [] => some (value, false)
  | c :: cs =>
    if c = '_' then wholeValue? base value cs
    else if base = 10 && c = '.' then none
    else if base = 10 && (c = 'e' || c = 'E') && isPower cs then none
    else
      match Json.hexValue? c with
      | some digit =>
        if digit < base then wholeValue? base (value * base + digit) cs else some (value, true)
      | none => some (value, true)

def Literal.ofNumber (cs : List Char) : Literal :=
  let (base, digits) := splitBase cs
  match wholeValue? base 0 digits with
  | some (value, suffixed) => .whole value suffixed
  | none => .real (String.ofList cs)

def isNumberPart (c : Char) : Bool :=
  isWordRest c || c = '.' || c = '+' || c = '-'

def takeNumber? (cs : List Char) : Option (Literal × List Char) := do
  guard (cs.head?.any Char.isDigit)
  let body := cs.takeWhile isNumberPart
  let real := (afterReal? false body).bind endNumber?
  let (base, digits) := splitBase body
  let rest ← real.or ((afterWhole? base true digits).bind endNumber?)
  return (.ofNumber (body.take (body.length - rest.length)), rest ++ cs.dropWhile isNumberPart)

def takeLiteral? (cs : List Char) : Option (Literal × List Char) :=
  (takeQuoted? cs).or (takeNumber? cs)

end AvroCompiler.Code

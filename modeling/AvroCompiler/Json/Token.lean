import AvroCompiler.Json.Number

namespace AvroCompiler.Json

inductive Token where
  | openArray
  | closeArray
  | openObject
  | closeObject
  | comma
  | colon
  | scalar (value : Scalar)
  | string (value : String)
  | broken (isString : Bool) (fault : Fault)
  deriving DecidableEq, Repr

/-- Where the pass stands. Characters of an unfinished token are held in reverse. -/
inductive Scan where
  | between
  | word (seen : List Char)
  | number (seen : List Char)
  | text (seen : List Char)
  | escape (seen : List Char)
  /-- Inside the hexadecimal digits of an escape, perhaps after a leading surrogate. -/
  | hex (seen : List Char) (lead : Option Nat) (value : Nat) (missing : Nat)
  /-- After a leading surrogate, before the backslash or the letter of the next escape. -/
  | pair (seen : List Char) (lead : Nat) (backslash : Bool)

def hexValue? (c : Char) : Option Nat :=
  if c.isDigit then some (c.toNat - '0'.toNat)
  else if 'a' ≤ c ∧ c ≤ 'f' then some (c.toNat - 'a'.toNat + 10)
  else if 'A' ≤ c ∧ c ≤ 'F' then some (c.toNat - 'A'.toNat + 10)
  else none

def escapeOf? (c : Char) : Option Char :=
  match c with
  | '"' => some '"'
  | '\\' => some '\\'
  | '/' => some '/'
  | 'b' => some '\x08'
  | 'f' => some '\x0c'
  | 'n' => some '\n'
  | 'r' => some '\r'
  | 't' => some '\t'
  | _ => none

def isNumberChar (c : Char) : Bool :=
  c.isDigit || c = '-' || c = '+' || c = '.' || c = 'e' || c = 'E'

/-- A literal word. At the end of the text the start of one is unfinished. -/
def wordToken (atEnd : Bool) (word : String) : Token :=
  if word = "null" then .scalar .null
  else if word = "true" then .scalar (.bool true)
  else if word = "false" then .scalar (.bool false)
  else if atEnd && ["null", "true", "false"].any fun w => word.toList.isPrefixOf w.toList then
    .broken false .ended
  else .broken false .malformed

def numberToken (atEnd : Bool) (run : List Char) : Token :=
  match readNumber run with
  | .ok value => .scalar value
  | .error .ended => .broken false (if atEnd then .ended else .malformed)
  | .error .malformed => .broken false .malformed

def utf8Width (cs : List Char) : Nat :=
  cs.foldl (fun width c => width + c.utf8Size) 0

def beginToken (c : Char) : List Token × Option Scan :=
  if c = ' ' ∨ c = '\t' ∨ c = '\n' ∨ c = '\r' then ([], some .between)
  else if c = '[' then ([.openArray], some .between)
  else if c = ']' then ([.closeArray], some .between)
  else if c = '\x7b' then ([.openObject], some .between)
  else if c = '\x7d' then ([.closeObject], some .between)
  else if c = ',' then ([.comma], some .between)
  else if c = ':' then ([.colon], some .between)
  else if c = '"' then ([], some (.text []))
  else if c = '-' ∨ c.isDigit then ([], some (.number [c]))
  else if c.isAlpha then ([], some (.word [c]))
  else ([.broken false .malformed], none)

def brokenString (fault : Fault) : List Token :=
  [.broken true fault]

def endHex (seen : List Char) (lead : Option Nat) (value : Nat) : Except Fault Scan :=
  match lead with
  | some high =>
    if 0xDC00 ≤ value ∧ value ≤ 0xDFFF then
      .ok (.text (Char.ofNat (0x10000 + (high - 0xD800) * 0x400 + (value - 0xDC00)) :: seen))
    else .error .malformed
  | none =>
    if 0xDC00 ≤ value ∧ value ≤ 0xDFFF then .error .malformed
    else if 0xD800 ≤ value ∧ value ≤ 0xDBFF then .ok (.pair seen value false)
    else .ok (.text (Char.ofNat value :: seen))

def tokens : Scan → List Char → List Token
  | .between, [] => []
  | .word seen, [] => [wordToken true (String.ofList seen.reverse)]
  | .number seen, [] => [numberToken true seen.reverse]
  | .text _, [] => brokenString .ended
  | .escape _, [] => brokenString .ended
  | .hex _ _ _ _, [] => brokenString .ended
  | .pair _ _ _, [] => brokenString .ended
  | .between, c :: cs =>
    match beginToken c with
    | (made, some scan) => made ++ tokens scan cs
    | (made, none) => made
  | .word seen, c :: cs =>
    if c.isAlpha then tokens (.word (c :: seen)) cs
    else
      match wordToken false (String.ofList seen.reverse), beginToken c with
      | .broken s f, _ => [.broken s f]
      | token, (made, some scan) => token :: made ++ tokens scan cs
      | token, (made, none) => token :: made
  | .number seen, c :: cs =>
    if isNumberChar c then tokens (.number (c :: seen)) cs
    else
      match numberToken false seen.reverse, beginToken c with
      | .broken s f, _ => [.broken s f]
      | token, (made, some scan) => token :: made ++ tokens scan cs
      | token, (made, none) => token :: made
  | .text seen, c :: cs =>
    if c = '"' then .string (String.ofList seen.reverse) :: tokens .between cs
    else if c = '\\' then tokens (.escape seen) cs
    else if c.toNat < 0x20 then brokenString .malformed
    else tokens (.text (c :: seen)) cs
  | .escape seen, c :: cs =>
    if c = 'u' then
      if utf8Width (cs.take 4) < 4 then brokenString .ended else tokens (.hex seen none 0 4) cs
    else
      match escapeOf? c with
      | some d => tokens (.text (d :: seen)) cs
      | none => brokenString .malformed
  | .hex seen lead value missing, c :: cs =>
    match hexValue? c with
    | none => brokenString .malformed
    | some digit =>
      if 1 < missing then tokens (.hex seen lead (value * 16 + digit) (missing - 1)) cs
      else
        match endHex seen lead (value * 16 + digit) with
        | .ok scan => tokens scan cs
        | .error fault => brokenString fault
  | .pair seen lead false, c :: cs =>
    if c = '\\' then tokens (.pair seen lead true) cs else brokenString .malformed
  | .pair seen lead true, c :: cs =>
    if c = 'u' then
      if utf8Width (cs.take 4) < 4 then brokenString .ended
      else tokens (.hex seen (some lead) 0 4) cs
    else brokenString .malformed

end AvroCompiler.Json

import AvroCompiler.Json.Token

namespace AvroCompiler.Ron

def isSpace (c : Char) : Bool :=
  c = ' ' || c = '\t' || c = '\n' || c = '\r'

def isNameChar (c : Char) : Bool :=
  c.isAlphanum || c = '_'

/-- The characters of a name that is marked as taken literally. -/
def isRawNameChar (c : Char) : Bool :=
  isNameChar c || c = '.' || c = '+' || c = '-'

/-- What lies between two tokens. Block comments nest. -/
inductive Gap where
  | blank
  | lineComment
  | blockComment (depth : Nat)

def skip? : Gap → List Char → Option (List Char)
  | .blank, '/' :: '/' :: cs => skip? .lineComment cs
  | .blank, '/' :: '*' :: cs => skip? (.blockComment 0) cs
  | .blank, c :: cs =>
    if isSpace c then skip? .blank cs else if c = '/' then none else some (c :: cs)
  | .blank, [] => some []
  | .lineComment, c :: cs => if c = '\n' then skip? .blank cs else skip? .lineComment cs
  | .lineComment, [] => some []
  | .blockComment depth, '/' :: '*' :: cs => skip? (.blockComment (depth + 1)) cs
  | .blockComment 0, '*' :: '/' :: cs => skip? .blank cs
  | .blockComment (depth + 1), '*' :: '/' :: cs => skip? (.blockComment depth) cs
  | .blockComment depth, _ :: cs => skip? (.blockComment depth) cs
  | .blockComment _, [] => none

/-- A word at the start of a text that goes on no further, and what follows it. -/
def afterWord? (word : String) (cs : List Char) : Option (List Char) :=
  let rest := cs.drop word.length
  if word.toList.isPrefixOf cs && !(rest.head?.any isNameChar) then some rest else none

def takeName? (cs : List Char) : Option (String × List Char) :=
  match cs with
  | 'r' :: '"' :: _ => none
  | 'r' :: '#' :: rest =>
    let name := rest.takeWhile isRawNameChar
    if name = [] then none else some (String.ofList name, rest.dropWhile isRawNameChar)
  | ['r'] => none
  | c :: _ =>
    let name := cs.takeWhile isNameChar
    if (c.isAlpha || c = '_') && (c = 'r' || (cs.takeWhile isRawNameChar).length = name.length) then
      some (String.ofList name, cs.dropWhile isNameChar)
    else none
  | [] => none

def hexNumber? (digits : List Char) : Option Nat := do
  let values ← digits.mapM Json.hexValue?
  return values.foldl (fun n digit => n * 16 + digit) 0

def escapeMeaning? (c : Char) : Option Char :=
  match c with
  | '\'' => some '\''
  | '"' => some '"'
  | '\\' => some '\\'
  | 'n' => some '\n'
  | 'r' => some '\r'
  | 't' => some '\t'
  | '0' => some '\x00'
  | _ => none

/-- The character of a code in braces: one to six digits. -/
def bracedChar? (cs : List Char) : Option (Char × List Char) := do
  let digits := cs.takeWhile (· ≠ '\x7d')
  let code ← hexNumber? digits
  guard (0 < digits.length ∧ digits.length ≤ 6 ∧ code.isValidChar)
  match cs.dropWhile (· ≠ '\x7d') with
  | _ :: rest => some (Char.ofNat code, rest)
  | [] => none

def unescape? : List Char → Option (Char × List Char)
  | 'x' :: a :: b :: cs => do return (Char.ofNat (← hexNumber? [a, b]), cs)
  | 'u' :: '\x7b' :: cs => bracedChar? cs
  | c :: cs => (escapeMeaning? c).map (·, cs)
  | [] => none

def takeText : Nat → List Char → Option (List Char × List Char)
  | 0, _ => none
  | _, [] => none
  | fuel + 1, c :: cs =>
    if c = '"' then some ([], cs)
    else do
      let (c, cs) ← if c = '\\' then unescape? cs else some (c, cs)
      (takeText fuel cs).map fun (text, rest) => (c :: text, rest)

/-- The text before a quotation mark and so many number signs. -/
def takeRaw (close : List Char) : List Char → Option (List Char × List Char)
  | [] => none
  | c :: cs =>
    if close.isPrefixOf (c :: cs) then some ([], (c :: cs).drop close.length)
    else (takeRaw close cs).map fun (text, rest) => (c :: text, rest)

def takeString? (cs : List Char) : Option (String × List Char) :=
  match cs with
  | '"' :: rest =>
    (takeText (rest.length + 1) rest).map fun (text, rest) => (String.ofList text, rest)
  | 'r' :: rest =>
    let signs := rest.takeWhile (· = '#')
    match rest.dropWhile (· = '#') with
    | '"' :: rest => (takeRaw ('"' :: signs) rest).map fun (text, rest) => (String.ofList text, rest)
    | _ => none
  | _ => none

def takeChar? (cs : List Char) : Option (Char × List Char) :=
  match cs with
  | '\'' :: '\\' :: rest => do
    let (c, '\'' :: rest) ← unescape? rest | none
    return (c, rest)
  | '\'' :: c :: '\'' :: rest => some (c, rest)
  | _ => none

end AvroCompiler.Ron

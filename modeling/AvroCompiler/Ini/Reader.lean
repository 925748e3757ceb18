import AvroCompiler.Json.Token
import AvroCompiler.Settings.Layer
import AvroCompiler.Text.Blank

namespace AvroCompiler.Ini

/-- The character of four hexadecimal digits. The first may be a plus sign. -/
def codeOf? (digits : List Char) : Option Char := do
  let digits := match digits with
    | '+' :: rest => rest
    | _ => digits
  let values ← digits.mapM Json.hexValue?
  let code := values.foldl (fun n digit => n * 16 + digit) 0
  if code.isValidChar then some (Char.ofNat code) else none

/-- What a letter after a backslash stands for. A line end stands for nothing. -/
def escapeMeaning (c : Char) : List Char :=
  match c with
  | '0' => ['\x00']
  | 'a' => ['\x07']
  | 'b' => ['\x08']
  | 't' => ['\t']
  | 'r' => ['\r']
  | 'n' => ['\n']
  | '\n' => []
  | _ => [c]

def takeUntil (ends : Char → Bool) : List Char → Option (List Char × List Char)
  | [] => some ([], [])
  | '\\' :: 'x' :: a :: b :: c :: d :: cs => do
    let code ← codeOf? [a, b, c, d]
    (takeUntil ends cs).map fun (text, rest) => (code :: text, rest)
  | '\\' :: c :: cs =>
    if c = 'x' then none
    else (takeUntil ends cs).map fun (text, rest) => (escapeMeaning c ++ text, rest)
  | c :: cs =>
    if ends c then some ([], c :: cs)
    else if c = '\\' then none
    else (takeUntil ends cs).map fun (text, rest) => (c :: text, rest)

/-- The text up to a closing character, which has to be there and is left out of the rest. -/
def takeClosed (close : Char) (cs : List Char) : Option (List Char × List Char) :=
  match takeUntil (· = close) cs with
  | some (text, _ :: rest) => some (text, rest)
  | _ => none

def isLineEnd (c : Char) : Bool :=
  c = '\n' || c = '\r'

def takeLine (cs : List Char) : Option (List Char × List Char) :=
  (takeUntil isLineEnd cs).map fun (text, rest) => (trimChars text, rest)

/-- A value. After one in quotation marks the rest of its line is added to it. -/
def takeValue (cs : List Char) : Option (List Char × List Char) :=
  match cs.dropWhile fun c => isBlank c && !isLineEnd c with
  | '"' :: rest => quoted '"' rest
  | '\'' :: rest => quoted '\'' rest
  | rest => takeLine rest
where
  quoted (mark : Char) (cs : List Char) : Option (List Char × List Char) := do
    let (text, rest) ← takeClosed mark cs
    let (more, rest) ← takeLine rest
    return (text ++ more, rest)

def skipBlanks : Bool → List Char → Bool × List Char
  | fresh, [] => (fresh, [])
  | fresh, c :: cs => if isBlank c then skipBlanks (c = '\n') cs else (fresh, c :: cs)

/-- Puts a value under a key of the section, or at the top before the first section. -/
def putValue (part : Option String) (key value : String) (layer : Layer) : Layer :=
  match part with
  | none => putSetting key (.text value) layer
  | some name =>
    let entries := ((layer.lookup name).getD .nothing).entries
    putSetting name (.table (putSetting key (.text value) entries)) layer

/-- Reads on. Each round takes at least one character, so the length of the text is fuel enough. -/
def readOn (part : Option String) (key : List Char) (layer : Layer) :
    Nat → Bool → List Char → Option Layer
  | 0, _, _ => some layer
  | fuel + 1, fresh, cs =>
    match skipBlanks fresh cs with
    | (_, []) => some layer
    | (fresh, c :: rest) =>
      if c = ';' ∨ c = '#' then
        if fresh then
          readOn part key layer fuel true ((rest.dropWhile (· ≠ '\n')).drop 1)
        else none
      else if c = '[' then do
        let (name, rest) ← takeClosed ']' rest
        let name := String.ofList (trimChars name)
        readOn (some name) key (putSetting name (.table []) layer) fuel false rest
      else if c = '=' ∨ c = ':' then
        if key = [] then none
        else do
          let (value, rest) ← takeValue rest
          readOn part [] (putValue part (String.ofList key) (String.ofList value) layer) fuel false
            rest
      else do
        let (key, rest) ← takeUntil (fun c => c = '=' || c = ':') (c :: rest)
        if rest = [] then none
        else readOn part (trimChars key) layer fuel false rest

def read? (text : String) : Option Layer :=
  readOn none [] [] (text.length + 1) true text.toList

end AvroCompiler.Ini

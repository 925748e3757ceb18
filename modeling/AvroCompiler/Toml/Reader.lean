import AvroCompiler.Toml.Token
import AvroCompiler.Toml.Scalar
import AvroCompiler.Toml.Document

namespace AvroCompiler.Toml

/-- What waits for a value: a key of the current table, an array, or a key of an inline table. -/
inductive Frame where
  | entry (key : List String)
  | array (items : List Setting)
  | inline (entries : Entries) (key : List String)

/-- What may follow. Tokens of an unfinished key are held in reverse. -/
inductive Expect where
  | line
  | bracket
  | header (item : Bool) (seen : List Token)
  /-- After the first of two closing brackets. -/
  | headerEnd (path : List String)
  | key (seen : List Token)
  | value
  | item
  | firstKey
  | after

structure State where
  doc : Document := {}
  frames : List Frame := []
  expect : Expect := .line

inductive KeyPart where
  | name (value : String)
  | dot
  deriving DecidableEq

def isBareKey (c : Char) : Bool :=
  c.isAlphanum || c = '_' || c = '-'

def wordParts : List Char → Option (List KeyPart)
  | [] => some []
  | '.' :: cs => do return .dot :: (← wordParts cs)
  | c :: cs => do
    guard (isBareKey c)
    match ← wordParts cs with
    | .name rest :: parts => return .name (String.singleton c ++ rest) :: parts
    | parts => return .name (String.singleton c) :: parts

def tokenParts : Token → Option (List KeyPart)
  | .word value => wordParts value.toList
  | .text value => some [.name value]
  | _ => none

def namesOf : List KeyPart → Option (List String)
  | [.name value] => some [value]
  | .name value :: .dot :: rest => (namesOf rest).map (value :: ·)
  | _ => none

/-- At most this many names make a key, and fewer arrays and inline tables are open at a time. -/
def depthLimit : Nat := 79

/-- The key that tokens spell, held in reverse. -/
def keyOf? (seen : List Token) : Option (List String) := do
  let names ← namesOf (← seen.reverse.mapM tokenParts).flatten
  guard (names.length ≤ depthLimit)
  return names

def isKeyToken : Token → Bool
  | .word _ => true
  | .text _ => true
  | _ => false

namespace State

def settle (state : State) (setting : Setting) : Option State :=
  match state.frames with
  | [] => none
  | .entry key :: _ => do return ⟨← state.doc.add key setting, [], .after⟩
  | .array items :: frames =>
    some { state with frames := .array (items ++ [setting]) :: frames, expect := .after }
  | .inline entries key :: frames => do
    let entries ← addValue key setting .header entries
    return { state with frames := .inline entries [] :: frames, expect := .after }

def close (state : State) : Option State :=
  match state.frames with
  | .array items :: frames => { state with frames }.settle (.list items)
  | .inline entries _ :: frames => { state with frames }.settle (.table (settings entries))
  | _ => none

def openFrame (state : State) (frame : Frame) (expect : Expect) : Option State :=
  if state.frames.length ≤ depthLimit then
    some { state with frames := frame :: state.frames, expect }
  else none

def takeValue (state : State) : Token → Option State
  | .blank => some state
  | .word value => do state.settle (← scalar? value)
  | .text value => state.settle (.text value)
  | .lines value => state.settle (.text value)
  | .openBracket => state.openFrame (.array []) .item
  | .openBrace => state.openFrame (.inline [] []) .firstKey
  | _ => none

def endKey (state : State) (seen : List Token) : Option State := do
  let key ← keyOf? seen
  match state.frames with
  | [] => return { state with frames := [.entry key], expect := .value }
  | .inline entries _ :: frames =>
    return { state with frames := .inline entries key :: frames, expect := .value }
  | _ => none

def takeKey (state : State) (seen : List Token) (token : Token) : Option State :=
  if token = .blank then some state
  else if isKeyToken token then some { state with expect := .key (token :: seen) }
  else if token = .equals then state.endKey seen
  else none

def takeHeader (state : State) (item : Bool) (seen : List Token) (token : Token) :
    Option State :=
  if token = .blank then some { state with expect := .header item seen }
  else if isKeyToken token then some { state with expect := .header item (token :: seen) }
  else if token = .closeBracket then do
    let path ← keyOf? seen
    if item then return { state with expect := .headerEnd path }
    else return { state with doc := ← state.doc.header false path, expect := .after }
  else none

def takeAfter (state : State) (token : Token) : Option State :=
  match token, state.frames with
  | .blank, _ => some state
  | .newline, [] => some { state with expect := .line }
  | .newline, .array _ :: _ => some state
  | .comma, .array _ :: _ => some { state with expect := .item }
  | .closeBracket, .array _ :: _ => state.close
  | .comma, .inline _ _ :: _ => some { state with expect := .key [] }
  | .closeBrace, .inline _ _ :: _ => state.close
  | _, _ => none

def take (state : State) (token : Token) : Option State :=
  match state.expect with
  | .line =>
    if token = .newline then some state
    else if token = .openBracket then some { state with expect := .bracket }
    else state.takeKey [] token
  | .bracket =>
    if token = .openBracket then some { state with expect := .header true [] }
    else state.takeHeader false [] token
  | .header item seen => state.takeHeader item seen token
  | .headerEnd path =>
    if token = .closeBracket then do
      return { state with doc := ← state.doc.header true path, expect := .after }
    else none
  | .key seen => state.takeKey seen token
  | .value => state.takeValue token
  | .item =>
    if token = .newline then some state
    else if token = .closeBracket then state.close
    else state.takeValue token
  | .firstKey => if token = .closeBrace then state.close else state.takeKey [] token
  | .after => state.takeAfter token

def result (state : State) : Option (List (String × Setting)) :=
  match state.frames, state.expect with
  | [], .line => some (settings state.doc.root)
  | [], .after => some (settings state.doc.root)
  | _, _ => none

end State

def joinLineEnds : List Char → List Char
  | '\r' :: '\n' :: cs => '\n' :: joinLineEnds cs
  | c :: cs => c :: joinLineEnds cs
  | [] => []

/-- The settings of a TOML text, if it is one. A byte order mark at its start is skipped. -/
def read? (text : String) : Option (List (String × Setting)) := do
  let cs := match text.toList with
    | '\uFEFF' :: cs => cs
    | cs => cs
  let state ← (← tokens? .between (joinLineEnds cs)).foldlM State.take {}
  state.result

end AvroCompiler.Toml

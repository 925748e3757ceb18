import AvroCompiler.Code.Tree

namespace AvroCompiler.Code

abbrev Look := List Tree → Bool

abbrev TreeParser := StateT (List Tree) Option

def reservedWords : List String :=
  ["_", "abstract", "as", "async", "await", "become", "box", "break", "const", "continue", "crate",
   "do", "dyn", "else", "enum", "extern", "false", "final", "fn", "for", "if", "impl", "in", "let",
   "loop", "macro", "match", "mod", "move", "mut", "override", "priv", "pub", "ref", "return",
   "Self", "self", "static", "struct", "super", "trait", "true", "try", "type", "typeof", "unsafe",
   "unsized", "use", "virtual", "where", "while", "yield"]

namespace Look

def keyword (name : String) : Look
  | .word w :: _ => w = name
  | _ => false

def name : Look
  | .word w :: _ => !reservedWords.contains w
  | _ => false

def anyWord : Look
  | .word _ :: _ => true
  | _ => false

def signChars : List Char → Look
  | [], _ => false
  | [c], .sign d _ :: _ => c = d
  | c :: cs, .sign d joint :: trees => c = d && joint && signChars cs trees
  | _, _ => false

/-- A sign of one or more characters. More characters may follow it. -/
def sign (text : String) : Look :=
  signChars text.toList

def lifetime : Look
  | .sign '\'' _ :: .word _ :: _ => true
  | _ => false

def group (delimiter : Delimiter) : Look
  | .group d _ :: _ => d = delimiter
  | _ => false

def literal : Look
  | .literal _ :: _ => true
  | .word w :: _ => w = "true" || w = "false"
  | .sign '-' _ :: .literal (.whole ..) :: _ => true
  | .sign '-' _ :: .literal (.real _) :: _ => true
  | _ => false

def text : Look
  | .literal .text :: _ => true
  | _ => false

def ended : Look :=
  List.isEmpty

/-- The trees after the first one. A lifetime counts as one. -/
def skip : List Tree → List Tree
  | .sign '\'' _ :: .word _ :: trees => trees
  | trees => trees.tail

def second (look : Look) : Look :=
  fun trees => look (skip trees)

def third (look : Look) : Look :=
  fun trees => look (skip (skip trees))

def anySign (texts : List String) : Look :=
  fun trees => texts.any (sign · trees)

def anyKeyword (names : List String) : Look :=
  fun trees => names.any (keyword · trees)

def signBut (text : String) (others : List String) : Look :=
  fun trees => sign text trees && !anySign others trees

end Look

namespace TreeParser

def peek (look : Look) : TreeParser Bool := do
  return look (← get)

def word (name : String) : TreeParser Unit := do
  match ← get with
  | .word w :: trees => if w = name then set trees else failure
  | _ => failure

def anyWord : TreeParser String := do
  match ← get with
  | .word w :: trees => set trees; return w
  | _ => failure

def name : TreeParser Unit := do
  guard (← peek Look.name)
  discard anyWord

def nameOr (keywords : List String) : TreeParser Unit := do
  guard ((← peek Look.name) || (← peek (Look.anyKeyword keywords)))
  discard anyWord

def sign (text : String) : TreeParser Unit := do
  guard (← peek (Look.sign text))
  modify (·.drop text.length)

def trySign (text : String) : TreeParser Bool := do
  if ← peek (Look.sign text) then sign text; return true else return false

def tryWord (name : String) : TreeParser Bool := do
  if ← peek (Look.keyword name) then word name; return true else return false

def lifetime : TreeParser Unit := do
  guard (← peek Look.lifetime)
  modify Look.skip

def tryLifetime : TreeParser Bool := do
  if ← peek Look.lifetime then lifetime; return true else return false

def literal : TreeParser Unit := do
  guard (← peek Look.literal)
  if ← peek (Look.sign "-") then modify (·.drop 2) else modify List.tail

def inside {α : Type} (delimiter : Delimiter) (inner : TreeParser α) : TreeParser α := do
  match ← get with
  | .group d contents :: trees =>
    guard (d = delimiter)
    match inner.run contents with
    | some (a, []) => set trees; return a
    | _ => failure
  | _ => failure

def anyGroup : TreeParser Delimiter := do
  match ← get with
  | .group d _ :: trees => set trees; return d
  | _ => failure

/-- Takes steps until one says that it was the last, at most one more than there are trees. -/
def loop (step : TreeParser Bool) : List Tree → TreeParser Unit
  | [] => do guard !(← step)
  | _ :: trees => do
    if ← step then loop step trees

/-- Takes steps until one says that it was the last. Each of the others takes a tree. -/
def repeatWhile (step : TreeParser Bool) : TreeParser Unit := do
  loop step (← get)

def toEnd (item : TreeParser Unit) : TreeParser Unit :=
  repeatWhile do
    if ← peek Look.ended then return false
    item
    return true

/-- Items with a separator between them, and perhaps after the last one, up to what `stop` sees. -/
def separated (separator : String) (stop : Look) (item : TreeParser Unit) : TreeParser Unit :=
  repeatWhile do
    if ← peek stop then return false
    item
    if ← peek stop then return false
    sign separator
    return true

def list (item : TreeParser Unit) : TreeParser Unit :=
  separated "," Look.ended item

/-- Items with plus signs between them. They end at what `stop` sees or without a plus sign. -/
def summed (stop : Look) (item : TreeParser Unit) : TreeParser Unit :=
  repeatWhile do
    if ← peek stop then return false
    item
    trySign "+"

end TreeParser

end AvroCompiler.Code

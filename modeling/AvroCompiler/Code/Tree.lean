import AvroCompiler.Code.Literal
import AvroCompiler.Text.Blank

namespace AvroCompiler.Code

inductive Delimiter where
  | paren
  | bracket
  | brace
  deriving DecidableEq, Repr

inductive Tree where
  /-- A name or a keyword. A raw name keeps its mark. -/
  | word (name : String)
  /-- A sign of one character; it is joint if another one follows directly. -/
  | sign (c : Char) (joint : Bool)
  | literal (value : Literal)
  | group (delimiter : Delimiter) (inner : List Tree)

inductive Token where
  | opening (delimiter : Delimiter)
  | closing (delimiter : Delimiter)
  | leaf (tree : Tree)

def takeLine : List Char → List Char × List Char
  | [] => ([], [])
  | '\r' :: '\n' :: cs => ([], '\n' :: cs)
  | c :: cs =>
    if c = '\n' then ([], c :: cs)
    else
      let (line, rest) := takeLine cs
      (c :: line, rest)

/-- The text of a block comment, after its opening, and what follows it. Comments nest; `depth` is
the number of those that stay open behind this one. -/
def takeComment? (depth : Nat) : List Char → Option (List Char × List Char)
  | '/' :: '*' :: cs =>
    (takeComment? (depth + 1) cs).map fun (text, rest) => ('/' :: '*' :: text, rest)
  | '*' :: '/' :: cs =>
    match depth with
    | 0 => some ([], cs)
    | depth + 1 => (takeComment? depth cs).map fun (text, rest) => ('*' :: '/' :: text, rest)
  | c :: cs => (takeComment? depth cs).map fun (text, rest) => (c :: text, rest)
  | [] => none

/-- Blanks of code include the two marks of the direction of writing. -/
def isGap (c : Char) : Bool :=
  isBlank c || c = '\u200e' || c = '\u200f'

def dropComment? (cs : List Char) : Option (List Char) :=
  match cs with
  | '/' :: '/' :: '/' :: '/' :: rest => some (takeLine rest).2
  | '/' :: '/' :: '/' :: _ => none
  | '/' :: '/' :: '!' :: _ => none
  | '/' :: '/' :: rest => some (takeLine rest).2
  | '/' :: '*' :: '*' :: '/' :: rest => some rest
  | '/' :: '*' :: '*' :: '*' :: rest => (takeComment? 0 ('*' :: '*' :: rest)).map Prod.snd
  | '/' :: '*' :: '*' :: _ => none
  | '/' :: '*' :: '!' :: _ => none
  | '/' :: '*' :: rest => (takeComment? 0 rest).map Prod.snd
  | _ => none

def dropGaps : Nat → List Char → List Char
  | 0, cs => cs
  | fuel + 1, cs =>
    match dropComment? cs with
    | some rest => dropGaps fuel rest
    | none =>
      match cs with
      | c :: rest => if isGap c then dropGaps fuel rest else c :: rest
      | [] => []

def hasLoneReturn : List Char → Bool
  | '\r' :: '\n' :: cs => hasLoneReturn cs
  | c :: cs => c = '\r' || hasLoneReturn cs
  | [] => false

/-- A comment that documents something: whether it is the enclosing thing, the text of the comment
and what follows it. -/
def takeDoc? (cs : List Char) : Option (Bool × List Char × List Char) :=
  match cs with
  | '/' :: '/' :: '!' :: rest => some (true, takeLine rest)
  | '/' :: '*' :: '!' :: rest => (takeComment? 0 rest).map (true, ·)
  | '/' :: '/' :: '/' :: rest => some (false, takeLine rest)
  | '/' :: '*' :: '*' :: rest => (takeComment? 0 rest).map (false, ·)
  | _ => none

def docTokens (enclosing : Bool) : List Token :=
  [.leaf (.sign '#' false)] ++ (if enclosing then [.leaf (.sign '!' false)] else []) ++
  [.opening .bracket, .leaf (.word "doc"), .leaf (.sign '=' false), .leaf (.literal .text),
    .closing .bracket]

def signCharacters : List Char :=
  "~!@#$%^&*-=+|;:,<.>/?'".toList

/-- A sign at the start of the characters. A slash that begins a comment is none. -/
def takeSign? (cs : List Char) : Option (Char × List Char) :=
  match cs with
  | '/' :: '/' :: _ => none
  | '/' :: '*' :: _ => none
  | c :: rest => if signCharacters.contains c then some (c, rest) else none
  | [] => none

def neverRaw : List String :=
  ["_", "super", "self", "Self", "crate"]

def takeName? (cs : List Char) : Option (String × List Char) :=
  match cs with
  | 'r' :: '#' :: rest => do
    let (name, rest) ← takeWord? rest
    if neverRaw.contains (String.ofList name) then none
    else some (String.ofList ('r' :: '#' :: name), rest)
  | _ => (takeWord? cs).map fun (name, rest) => (String.ofList name, rest)

/-- Beginnings of texts and bytes; where they begin no literal they begin no word either. -/
def quotedStarts : List (List Char) :=
  ["r\"", "r#\"", "r##", "b\"", "b'", "br\"", "br#", "c\"", "cr\"", "cr#"].map String.toList

/-- An apostrophe before a name. It is no sign where the name ends like a character or begins like a
raw text. -/
def beginsLifetime (cs : List Char) : Bool :=
  match takeName? cs with
  | some (_, rest) =>
    !(rest.head? = some '\'' || (rest.head? = some '#' && !(['r', '#'].isPrefixOf cs)))
  | none => false

def takeLeaf? (cs : List Char) : Option (Tree × List Char) :=
  match takeLiteral? cs with
  | some (value, rest) => some (.literal value, rest)
  | none =>
    match takeSign? cs with
    | some (c, rest) =>
      if c ≠ '\'' then some (.sign c (takeSign? rest).isSome, rest)
      else if beginsLifetime rest then some (.sign c true, rest)
      else none
    | none =>
      if quotedStarts.any (·.isPrefixOf cs) then none
      else (takeName? cs).map fun (name, rest) => (.word name, rest)

/-- The comment in parentheses that holds the place of a literal. -/
def placeholder : List Char :=
  "(/*ERROR*/)".toList

def takeTokens? (cs : List Char) : Option (List Token × List Char) :=
  match takeDoc? cs with
  | some (enclosing, text, rest) =>
    if hasLoneReturn text then none else some (docTokens enclosing, rest)
  | none =>
    if placeholder.isPrefixOf cs then
      some ([.leaf (.literal .other)], cs.drop placeholder.length)
    else
      match cs with
      | '(' :: rest => some ([.opening .paren], rest)
      | '[' :: rest => some ([.opening .bracket], rest)
      | '\x7b' :: rest => some ([.opening .brace], rest)
      | ')' :: rest => some ([.closing .paren], rest)
      | ']' :: rest => some ([.closing .bracket], rest)
      | '\x7d' :: rest => some ([.closing .brace], rest)
      | _ => (takeLeaf? cs).map fun (tree, rest) => ([.leaf tree], rest)

/-- All tokens of a text, after those in `done`, which are in reverse. The fuel is above the number
of characters. -/
def cutTokens? : Nat → List Token → List Char → Option (List Token)
  | 0, _, _ => none
  | fuel + 1, done, cs =>
    match dropGaps fuel cs with
    | [] => some done.reverse
    | c :: rest =>
      match takeTokens? (c :: rest) with
      | some (tokens, rest) => cutTokens? fuel (tokens.reverse ++ done) rest
      | none => none

/-- Matches the brackets. The open groups are given innermost first, each with the trees before it,
and the trees of the innermost one in `done`, all in reverse. -/
def nest? : List (Delimiter × List Tree) → List Tree → List Token → Option (List Tree)
  | [], done, [] => some done.reverse
  | _ :: _, _, [] => none
  | outer, done, .leaf tree :: tokens => nest? outer (tree :: done) tokens
  | outer, done, .opening delimiter :: tokens => nest? ((delimiter, done) :: outer) [] tokens
  | (delimiter, before) :: outer, done, .closing closing :: tokens =>
    if delimiter = closing then nest? outer (.group delimiter done.reverse :: before) tokens
    else none
  | [], _, .closing _ :: _ => none

def trees? (text : String) : Option (List Tree) := do
  let cs := text.toList
  nest? [] [] (← cutTokens? (cs.length + 1) [] cs)

end AvroCompiler.Code

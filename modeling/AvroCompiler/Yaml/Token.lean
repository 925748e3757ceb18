import AvroCompiler.Yaml.Tag

namespace AvroCompiler.Yaml

inductive Token where
  | directive
  | documentStart
  | documentEnd
  | sequenceStart
  | mappingStart
  | blockEnd
  | openBracket
  | closeBracket
  | openBrace
  | closeBrace
  | dash
  | comma
  | key
  | value
  | alias (name : String)
  | anchor (name : String)
  | tag (tag : Tag)
  | scalar (plain : Bool) (text : String)
  deriving DecidableEq, Repr

/-- A place where a key may have begun. -/
structure KeyStart where
  possible : Bool := false
  required : Bool := false
  /-- How many tokens come before the key. -/
  place : Nat := 0
  index : Nat := 0
  line : Nat := 0
  column : Nat := 0

structure Scan where
  cur : Cursor
  tokens : List Token := []
  keyAllowed : Bool := true
  /-- Where a key may have begun, for each bracket or brace that is open and for the block. -/
  keys : List KeyStart := [{}]
  indent : Int := -1
  indents : List Int := []
  /-- After a quoted text at this place a colon may follow directly. -/
  adjacent : Nat := 0

namespace Scan

def inFlow (s : Scan) : Bool :=
  1 < s.keys.length

def push (s : Scan) (token : Token) : Scan :=
  { s with tokens := s.tokens ++ [token] }

def insert (s : Scan) (place : Nat) (token : Token) : Scan :=
  { s with tokens := s.tokens.take place ++ token :: s.tokens.drop place }

def allowKey (s : Scan) (allowed : Bool) : Scan :=
  { s with keyAllowed := allowed }

def openBlock (s : Scan) (column place : Nat) (token : Token) : Scan :=
  if !s.inFlow && s.indent < column then
    { s with indents := s.indent :: s.indents, indent := column }.insert place token
  else s

def closeBlocks (column : Int) : Nat → Scan → Scan
  | 0, s => s
  | fuel + 1, s =>
    if !s.inFlow && column < s.indent then
      closeBlocks column fuel
        { s.push .blockEnd with indent := s.indents.head?.getD (-1), indents := s.indents.tail }
    else s

def unroll (s : Scan) (column : Int) : Scan :=
  closeBlocks column (s.indents.length + 1) s

def dropKey? (s : Scan) : Option Scan :=
  match s.keys with
  | [] => some s
  | start :: rest =>
    if start.possible && start.required then none
    else some { s with keys := { start with possible := false } :: rest }

def noteKey? (s : Scan) : Option Scan :=
  if s.keyAllowed then do
    let s ← s.dropKey?
    let start : KeyStart :=
      ⟨true, s.inFlow && s.indent = s.cur.column, s.tokens.length, s.cur.index, s.cur.line,
        s.cur.column⟩
    return { s with keys := start :: s.keys.tail }
  else some s

/-- A key ends on the line where it begins, and within 1024 characters. -/
def isStale (s : Scan) (start : KeyStart) : Bool :=
  start.possible && (start.line < s.cur.line || start.index + 1024 < s.cur.index)

def dropStaleKeys? (s : Scan) : Option Scan :=
  if s.keys.any fun start => s.isStale start && start.required then none
  else
    some { s with
      keys := s.keys.map fun start =>
        if s.isStale start then { start with possible := false } else start }

def skipBetween : Nat → Scan → Scan
  | 0, s => s
  | fuel + 1, s =>
    match s.cur.head? with
    | none => s
    | some c =>
      if c = ' ' || (c = '\t' && (s.inFlow || !s.keyAllowed)) then
        skipBetween fuel { s with cur := s.cur.skip }
      else if isBreak c then
        skipBetween fuel { s with cur := s.cur.skipBreak, keyAllowed := s.keyAllowed || !s.inFlow }
      else if c = '#' then skipBetween fuel { s with cur := s.cur.skipLine }
      else s

def takeSign (s : Scan) (token : Token) : Scan :=
  { s.push token with cur := s.cur.skip }

def takeBound? (s : Scan) (token : Token) : Option Scan := do
  let s ← (s.unroll (-1)).dropKey?
  return { (s.allowKey false).push token with cur := s.cur.skipN 3 }

def takeDirective? (s : Scan) : Option Scan := do
  let s ← (s.unroll (-1)).dropKey?
  return { (s.allowKey false).push .directive with cur := ← s.cur.skipDirective? }

/-- Brackets and braces nest up to 255 deep. -/
def takeOpening? (s : Scan) (token : Token) : Option Scan := do
  let s ← s.noteKey?
  guard (s.keys.length < 256)
  return ({ s with keys := {} :: s.keys }.allowKey true).takeSign token

def takeClosing? (s : Scan) (token : Token) : Option Scan := do
  let s ← s.dropKey?
  let s := if s.inFlow then { s with keys := s.keys.tail } else s
  return (s.allowKey false).takeSign token

def takeComma? (s : Scan) : Option Scan := do
  return ((← s.dropKey?).allowKey true).takeSign .comma

def takeDash? (s : Scan) : Option Scan := do
  guard (!s.inFlow && s.keyAllowed)
  let s ← (s.openBlock s.cur.column s.tokens.length .sequenceStart).dropKey?
  return (s.allowKey true).takeSign .dash

def takeKey? (s : Scan) : Option Scan := do
  guard (s.inFlow || s.keyAllowed)
  let s ← (s.openBlock s.cur.column s.tokens.length .mappingStart).dropKey?
  return (s.allowKey !s.inFlow).takeSign .key

/-- A colon. It may tell that what came before it was a key. -/
def takeValue? (s : Scan) : Option Scan :=
  match s.keys with
  | [] => none
  | start :: rest =>
    if start.possible then
      let s := (s.insert start.place .key).openBlock start.column start.place .mappingStart
      let s := { s with keys := { start with possible := false } :: rest }
      some ((s.allowKey false).takeSign .value)
    else do
      guard (s.inFlow || s.keyAllowed)
      let s := s.openBlock s.cur.column s.tokens.length .mappingStart
      return (s.allowKey !s.inFlow).takeSign .value

def takeAnchor? (s : Scan) (token : String → Token) : Option Scan := do
  let s ← s.noteKey?
  let name := s.cur.skip.takeWhile isLabelChar
  let cur := s.cur.skip.skipWhile isLabelChar
  guard (name ≠ [])
  guard (cur.endsWordAt 0 || cur.head?.any fun c => "?:,]\x7d%@`".toList.contains c)
  return { (s.allowKey false).push (token (String.ofList name)) with cur }

def takeTag? (s : Scan) : Option Scan := do
  let s ← s.noteKey?
  let (tag, cur) ← s.cur.takeTag?
  return { (s.allowKey false).push (.tag tag) with cur }

def takeBlock? (s : Scan) (literal : Bool) : Option Scan := do
  let s ← s.noteKey?
  let (text, cur) ← takeBlock literal s.indent s.cur.skip
  return { (s.allowKey true).push (.scalar false (String.ofList text)) with cur }

def takeQuoted? (s : Scan) (mark : Char) : Option Scan := do
  let s ← s.noteKey?
  let (text, cur) ← takeQuoted mark (s.cur.rest.length + 1) {} s.cur.skip
  return { (s.allowKey false).push (.scalar false (String.ofList text)) with
    cur, adjacent := cur.index }

def takePlain? (s : Scan) : Option Scan := do
  let s ← s.noteKey?
  let (run, cur) ← takePlain s.inFlow (s.indent + 1) (s.cur.rest.length + 1) {} s.cur
  return { (s.allowKey run.broken).push (.scalar true (String.ofList run.text)) with cur }

def takeToken? (s : Scan) (c : Char) : Option Scan :=
  let wordEnds := s.cur.endsWordAt 1
  if s.cur.column = 0 && c = '%' then s.takeDirective?
  else if s.cur.isAtMark '-' then s.takeBound? .documentStart
  else if s.cur.isAtMark '.' then s.takeBound? .documentEnd
  else if c = '[' then s.takeOpening? .openBracket
  else if c = '\x7b' then s.takeOpening? .openBrace
  else if c = ']' then s.takeClosing? .closeBracket
  else if c = '\x7d' then s.takeClosing? .closeBrace
  else if c = ',' then s.takeComma?
  else if c = '-' && wordEnds then s.takeDash?
  else if c = '?' && wordEnds then s.takeKey?
  else if c = ':' && (wordEnds ||
      (s.inFlow && ((s.cur.at? 1).any isFlowSign || s.cur.index = s.adjacent))) then s.takeValue?
  else if c = '*' then s.takeAnchor? .alias
  else if c = '&' then s.takeAnchor? .anchor
  else if c = '!' then s.takeTag?
  else if c = '|' && !s.inFlow then s.takeBlock? true
  else if c = '>' && !s.inFlow then s.takeBlock? false
  else if c = '\'' || c = '"' then s.takeQuoted? c
  else if c = '%' || c = '@' || c = '`' then none
  else s.takePlain?

/-- Takes tokens up to the end of the text. Each takes at least one character. -/
def takeTokens? : Nat → Scan → Option (List Token)
  | 0, _ => none
  | fuel + 1, s => do
    let s ← (skipBetween (s.cur.rest.length + 1) s).dropStaleKeys?
    let s := s.unroll s.cur.column
    match s.cur.head? with
    | none => return (← (s.unroll (-1)).dropKey?).tokens
    | some c => takeTokens? fuel (← s.takeToken? c)

end Scan

/-- The tokens of a text. A zero character ends the text. -/
def tokens? (text : String) : Option (List Token) :=
  let cs := text.toList.takeWhile (· ≠ '\x00')
  Scan.takeTokens? (cs.length + 1) { cur := ⟨cs, 0, 0, 0⟩ }

end AvroCompiler.Yaml

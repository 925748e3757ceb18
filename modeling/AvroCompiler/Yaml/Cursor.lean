namespace AvroCompiler.Yaml

def isBreak (c : Char) : Bool :=
  c = '\n' || c = '\r'

def isGap (c : Char) : Bool :=
  c = ' ' || c = '\t'

/-- The characters of anchors and of the names of directives and tags. -/
def isLabelChar (c : Char) : Bool :=
  c.isAlphanum || c = '_' || c = '-'

/-- The characters that end a plain text inside brackets and braces. -/
def isFlowSign (c : Char) : Bool :=
  c = ',' || c = '[' || c = ']' || c = '\x7b' || c = '\x7d'

structure Cursor where
  rest : List Char
  index : Nat := 0
  line : Nat := 0
  column : Nat := 0

namespace Cursor

def head? (cur : Cursor) : Option Char :=
  cur.rest.head?

def at? (cur : Cursor) (n : Nat) : Option Char :=
  cur.rest[n]?

def endsWordAt (cur : Cursor) (n : Nat) : Bool :=
  (cur.at? n).all fun c => isGap c || isBreak c

def isAtBreak (cur : Cursor) : Bool :=
  cur.head?.any isBreak

def isAtGap (cur : Cursor) : Bool :=
  cur.head?.any isGap

def isAtLineEnd (cur : Cursor) : Bool :=
  cur.head?.all isBreak

def skip (cur : Cursor) : Cursor :=
  match cur.rest with
  | [] => cur
  | '\n' :: cs => ⟨cs, cur.index + 1, cur.line + 1, 0⟩
  | _ :: cs => ⟨cs, cur.index + 1, cur.line, cur.column + 1⟩

def skipN : Nat → Cursor → Cursor
  | 0, cur => cur
  | n + 1, cur => skipN n cur.skip

def takeWhile (cur : Cursor) (p : Char → Bool) : List Char :=
  cur.rest.takeWhile p

def skipWhile (cur : Cursor) (p : Char → Bool) : Cursor :=
  skipN (cur.takeWhile p).length cur

def skipGaps (cur : Cursor) : Cursor :=
  cur.skipWhile isGap

def skipBreak (cur : Cursor) : Cursor :=
  match cur.rest with
  | '\r' :: '\n' :: _ => cur.skip.skip
  | c :: _ => if isBreak c then cur.skip else cur
  | [] => cur

def skipLine (cur : Cursor) : Cursor :=
  cur.skipWhile fun c => !isBreak c

/-- Skips gaps and a comment up to the end of the line, where the cursor has to be then. -/
def finishLine? (cur : Cursor) : Option Cursor :=
  let cur := cur.skipGaps
  let cur := if cur.head? = some '#' then cur.skipLine else cur
  if cur.isAtLineEnd then some cur.skipBreak else none

/-- Three equal characters at the start of a line mark the bounds of a document. -/
def isAtMark (cur : Cursor) (c : Char) : Bool :=
  cur.column = 0 && [c, c, c].isPrefixOf cur.rest && cur.endsWordAt 3

def isAtBound (cur : Cursor) : Bool :=
  cur.isAtMark '-' || cur.isAtMark '.'

end Cursor

end AvroCompiler.Yaml

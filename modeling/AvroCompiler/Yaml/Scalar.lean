import AvroCompiler.Json.Token
import AvroCompiler.Yaml.Cursor

namespace AvroCompiler.Yaml

/-- A text in the making. What stands between two words waits until the next word comes. -/
structure Run where
  text : List Char := []
  firstBreak : List Char := []
  moreBreaks : List Char := []
  gaps : List Char := []
  broken : Bool := false

namespace Run

/-- Adds what stands between two words: gaps as they are, one line end as a space, and of several
line ends all but the first. -/
def join (run : Run) : Run :=
  if run.broken then
    let between :=
      if run.firstBreak = [] then run.moreBreaks
      else if run.moreBreaks = [] then [' ']
      else run.moreBreaks
    { run with text := run.text ++ between, firstBreak := [], moreBreaks := [], broken := false }
  else { run with text := run.text ++ run.gaps, gaps := [] }

def addBreak (run : Run) : Run :=
  if run.broken then { run with moreBreaks := run.moreBreaks ++ ['\n'] }
  else { run with gaps := [], firstBreak := run.firstBreak ++ ['\n'], broken := true }

def addGap (run : Run) (c : Char) : Run :=
  if run.broken then run else { run with gaps := run.gaps ++ [c] }

end Run

/-- Takes gaps and line ends. `isBad` tells of a gap that may not stand where it does. -/
def takeGaps (isBad : Run → Cursor → Bool) : Nat → Run → Cursor → Option (Run × Cursor)
  | 0, run, cur => some (run, cur)
  | fuel + 1, run, cur =>
    match cur.head? with
    | none => some (run, cur)
    | some c =>
      if isBreak c then takeGaps isBad fuel run.addBreak cur.skipBreak
      else if isGap c then
        if isBad run cur then none else takeGaps isBad fuel (run.addGap c) cur.skip
      else some (run, cur)

def plainWord (flow : Bool) : List Char → List Char
  | [] => []
  | c :: cs =>
    if isGap c || isBreak c || (flow && isFlowSign c) then []
    else if c = ':' && cs.head?.all (fun d => isGap d || isBreak d || (flow && isFlowSign d)) then []
    else c :: plainWord flow cs

/-- A plain text. It goes on over lines that are indented more than what it stands in. -/
def takePlain (flow : Bool) (indent : Int) : Nat → Run → Cursor → Option (Run × Cursor)
  | 0, run, cur => some (run, cur)
  | fuel + 1, run, cur =>
    if cur.isAtBound || cur.head? = some '#' then some (run, cur)
    else
      let word := plainWord flow cur.rest
      let run := if word = [] then run else { run.join with text := run.join.text ++ word }
      let cur := cur.skipN word.length
      if !(cur.isAtGap || cur.isAtBreak) then some (run, cur)
      else do
        let isBad (run : Run) (cur : Cursor) : Bool :=
          run.broken && (cur.column : Int) < indent && cur.head? = some '\t'
        let (run, cur) ← takeGaps isBad (cur.rest.length + 1) run cur
        if !flow && (cur.column : Int) < indent then some (run, cur)
        else takePlain flow indent fuel run cur

def escapeMeaning? (c : Char) : Option Char :=
  match c with
  | '0' => some '\x00'
  | 'a' => some '\x07'
  | 'b' => some '\x08'
  | 't' => some '\t'
  | '\t' => some '\t'
  | 'n' => some '\n'
  | 'v' => some '\x0b'
  | 'f' => some '\x0c'
  | 'r' => some '\r'
  | 'e' => some '\x1b'
  | ' ' => some ' '
  | '"' => some '"'
  | '\'' => some '\''
  | '\\' => some '\\'
  | 'N' => some '\u0085'
  | '_' => some '\u00A0'
  | 'L' => some '\u2028'
  | 'P' => some '\u2029'
  | _ => none

def hexNumber? (digits : List Char) : Option Nat := do
  let values ← digits.mapM Json.hexValue?
  return values.foldl (fun n digit => n * 16 + digit) 0

def codeChar? (length : Nat) (cs : List Char) : Option Char := do
  guard (length ≤ cs.length)
  let code ← hexNumber? (cs.take length)
  if code.isValidChar then some (Char.ofNat code) else none

def codeLength? (c : Char) : Option Nat :=
  match c with
  | 'x' => some 2
  | 'u' => some 4
  | 'U' => some 8
  | _ => none

def quotedWord (mark : Char) : Nat → Run → Cursor → Option (Run × Cursor)
  | 0, run, cur => some (run, cur)
  | fuel + 1, run, cur =>
    let add (c : Char) : Run := { run with text := run.text ++ [c] }
    match cur.rest with
    | [] => some (run, cur)
    | c :: cs =>
      if isGap c || isBreak c then some (run, cur)
      else if mark = '\'' then
        if c = '\'' then
          if cs.head? = some '\'' then quotedWord mark fuel (add '\'') cur.skip.skip
          else some (run, cur)
        else quotedWord mark fuel (add c) cur.skip
      else if c = '"' then some (run, cur)
      else if c = '\\' then
        match cs with
        | [] => none
        | d :: ds =>
          if isBreak d then some ({ run with broken := true }, cur.skip.skipBreak)
          else
            match codeLength? d, escapeMeaning? d with
            | some length, _ => do
              quotedWord mark fuel (add (← codeChar? length ds)) (cur.skipN (2 + length))
            | none, some meant => quotedWord mark fuel (add meant) cur.skip.skip
            | none, none => none
      else quotedWord mark fuel (add c) cur.skip

def takeQuoted (mark : Char) : Nat → Run → Cursor → Option (List Char × Cursor)
  | 0, _, _ => none
  | fuel + 1, run, cur =>
    if cur.isAtBound || cur.rest = [] then none
    else do
      let (run, cur) ← quotedWord mark (cur.rest.length + 1) { run with broken := false } cur
      if cur.head? = some mark then return (run.text, cur.skip)
      let (run, cur) ← takeGaps (fun _ _ => false) (cur.rest.length + 1) run cur
      takeQuoted mark fuel run.join cur

inductive Chomping where
  | strip
  | clip
  | keep
  deriving DecidableEq

def chomping? (c : Char) : Option Chomping :=
  if c = '+' then some .keep else if c = '-' then some .strip else none

def indentDigit? (c : Char) : Option Nat :=
  if c.isDigit then some (c.toNat - '0'.toNat) else none

/-- The marks after the sign of a block: what is done with its end, and by how much it is indented;
without a mark the lines tell. -/
def blockHeader? (cur : Cursor) : Option (Chomping × Nat × Cursor) := do
  let first := cur.head?.bind chomping?
  let cur := if first.isSome then cur.skip else cur
  let digit := cur.head?.bind indentDigit?
  guard (digit ≠ some 0)
  let cur := if digit.isSome then cur.skip else cur
  let second := if first.isSome || digit.isNone then none else cur.head?.bind chomping?
  let cur := if second.isSome then cur.skip else cur
  return ((first.or second).getD .clip, digit.getD 0, cur)

/-- Skips indentation and empty lines of a block, and counts the line ends. `widest` is the widest
indentation so far. A tab may not stand in the indentation. -/
def blockBreaks (indent : Nat) : Nat → Nat → Nat → Cursor → Option (Nat × Nat × Cursor)
  | 0, widest, breaks, cur => some (widest, breaks, cur)
  | fuel + 1, widest, breaks, cur =>
    let spaces := (cur.takeWhile (· = ' ')).length
    let cur := cur.skipN (if indent = 0 then spaces else min spaces (indent - cur.column))
    let widest := max widest cur.column
    if (indent = 0 || cur.column < indent) && cur.head? = some '\t' then none
    else if cur.isAtBreak then blockBreaks indent fuel widest (breaks + 1) cur.skipBreak
    else some (widest, breaks, cur)

/-- The lines of a block. `lastBreak` is the end of the line before, `breaks` counts the empty lines
after it, and `gapBefore` tells whether that line began with a gap. -/
def blockLines (literal : Bool) (indent : Nat) :
    Nat → List Char → List Char → Nat → Bool → Cursor → Option (List Char × List Char × Nat × Cursor)
  | 0, text, lastBreak, breaks, _, cur => some (text, lastBreak, breaks, cur)
  | fuel + 1, text, lastBreak, breaks, gapBefore, cur =>
    if cur.column ≠ indent || cur.rest = [] then some (text, lastBreak, breaks, cur)
    else
      let gapHere := cur.isAtGap
      let folded := !literal && lastBreak ≠ [] && !gapBefore && !gapHere
      let between := if folded then (if breaks = 0 then [' '] else []) else lastBreak
      let line := cur.takeWhile fun c => !isBreak c
      let text := text ++ between ++ List.replicate breaks '\n' ++ line
      let cur := cur.skipLine
      if cur.rest = [] then some (text, [], 0, cur)
      else
        match blockBreaks indent (cur.rest.length + 1) 0 0 cur.skipBreak with
        | none => none
        | some (_, breaks, cur) => blockLines literal indent fuel text ['\n'] breaks gapHere cur

def takeBlock (literal : Bool) (parent : Int) (cur : Cursor) : Option (List Char × Cursor) := do
  let (chomping, digit, cur) ← blockHeader? cur
  let cur ← cur.finishLine?
  let given := if digit = 0 then 0 else (max parent 0).toNat + digit
  let (widest, breaks, cur) ← blockBreaks given (cur.rest.length + 1) 0 0 cur
  let indent := if given = 0 then max (max widest (parent + 1).toNat) 1 else given
  let (text, lastBreak, breaks, cur) ←
    blockLines literal indent (cur.rest.length + 1) [] [] breaks false cur
  let tail := match chomping with
    | .strip => []
    | .clip => lastBreak
    | .keep => lastBreak ++ List.replicate breaks '\n'
  return (text ++ tail, cur)

end AvroCompiler.Yaml

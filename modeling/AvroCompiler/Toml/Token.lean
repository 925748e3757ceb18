import AvroCompiler.Json.Token

namespace AvroCompiler.Toml

inductive Token where
  | equals
  | comma
  | openBracket
  | closeBracket
  | openBrace
  | closeBrace
  | blank
  | newline
  /-- A run of the characters of bare keys, numbers and dates. -/
  | word (value : String)
  | text (value : String)
  | lines (value : String)
  deriving DecidableEq, Repr

inductive Quoting where
  | basic
  | literal
  deriving DecidableEq

def Quoting.mark : Quoting → Char
  | .basic => '"'
  | .literal => '\''

/-- Where the pass stands. Characters of an unfinished token are held in reverse. -/
inductive Scan where
  | between
  | comment
  | word (seen : List Char)
  /-- After a date and one space: a time may follow. -/
  | date (seen : List Char)
  | opening (quoting : Quoting) (two : Bool)
  | text (quoting : Quoting) (seen : List Char)
  /-- Inside a text of many lines, after some quotation marks. -/
  | lines (quoting : Quoting) (seen : List Char) (marks : Nat)
  | firstLine (quoting : Quoting)
  | escape (many : Bool) (seen : List Char)
  | hex (many : Bool) (seen : List Char) (value : Nat) (missing : Nat)
  /-- After a backslash at the end of a line, perhaps past that end. -/
  | joined (seen : List Char) (past : Bool)

def isWordChar (c : Char) : Bool :=
  c.isAlphanum || c = '_' || c = '-' || c = '+' || c = '.' || c = ':'

def isPlain (c : Char) : Bool :=
  c = '\t' || (0x20 ≤ c.toNat && c.toNat ≠ 0x7F)

def isDate (cs : List Char) : Bool :=
  cs.length == 10 && cs.zipIdx.all fun (c, i) => if i = 4 ∨ i = 7 then c == '-' else c.isDigit

def wordToken (seen : List Char) : Token :=
  .word (String.ofList seen.reverse)

abbrev Step := Option (List Token × Scan)

def beginToken (c : Char) : Step :=
  if c = ' ' ∨ c = '\t' then some ([.blank], .between)
  else if c = '\n' then some ([.newline], .between)
  else if c = '#' then some ([], .comment)
  else if c = '=' then some ([.equals], .between)
  else if c = ',' then some ([.comma], .between)
  else if c = '[' then some ([.openBracket], .between)
  else if c = ']' then some ([.closeBracket], .between)
  else if c = '\x7b' then some ([.openBrace], .between)
  else if c = '\x7d' then some ([.closeBrace], .between)
  else if c = '"' then some ([], .opening .basic false)
  else if c = '\'' then some ([], .opening .literal false)
  else if isWordChar c then some ([], .word [c])
  else none

def endToken (token : Token) (c : Char) : Step :=
  (beginToken c).map fun (made, scan) => (token :: made, scan)

def textChar (quoting : Quoting) (seen : List Char) (c : Char) : Step :=
  if c = quoting.mark then some ([.text (String.ofList seen.reverse)], .between)
  else if quoting = .basic ∧ c = '\\' then some ([], .escape false seen)
  else if isPlain c then some ([], .text quoting (c :: seen))
  else none

/-- Three quotation marks end a text of many lines; up to two more before them belong to it. -/
def linesToken (quoting : Quoting) (seen : List Char) (marks : Nat) : Token :=
  .lines (String.ofList (List.replicate (marks - 3) quoting.mark ++ seen).reverse)

def linesChar (quoting : Quoting) (seen : List Char) (marks : Nat) (c : Char) : Step :=
  let held := List.replicate marks quoting.mark ++ seen
  if c = quoting.mark then
    if marks = 4 then some ([linesToken quoting seen 5], .between)
    else some ([], .lines quoting seen (marks + 1))
  else if 3 ≤ marks then endToken (linesToken quoting seen marks) c
  else if quoting = .basic ∧ c = '\\' then some ([], .escape true held)
  else if c = '\n' ∨ isPlain c then some ([], .lines quoting (c :: held) 0)
  else none

def resume (many : Bool) (seen : List Char) : Scan :=
  if many then .lines .basic seen 0 else .text .basic seen

def escapeChar (many : Bool) (seen : List Char) (c : Char) : Step :=
  if c = 'u' then some ([], .hex many seen 0 4)
  else if c = 'U' then some ([], .hex many seen 0 8)
  else if many ∧ (c = ' ' ∨ c = '\t') then some ([], .joined seen false)
  else if many ∧ c = '\n' then some ([], .joined seen true)
  else if c = '/' then none
  else (Json.escapeOf? c).map fun d => ([], resume many (d :: seen))

def hexChar (many : Bool) (seen : List Char) (value missing : Nat) (c : Char) : Step := do
  let value := value * 16 + (← Json.hexValue? c)
  if 1 < missing then return ([], .hex many seen value (missing - 1))
  else if value.isValidChar then return ([], resume many (Char.ofNat value :: seen))
  else none

def step : Scan → Char → Step
  | .between, c => beginToken c
  | .comment, c =>
    if c = '\n' then beginToken c else if isPlain c then some ([], .comment) else none
  | .word seen, c =>
    if isWordChar c then some ([], .word (c :: seen))
    else if c = ' ' ∧ isDate seen.reverse then some ([], .date seen)
    else endToken (wordToken seen) c
  | .date seen, c =>
    if c.isDigit then some ([], .word (c :: ' ' :: seen))
    else (endToken .blank c).map fun (made, scan) => (wordToken seen :: made, scan)
  | .opening quoting false, c =>
    if c = quoting.mark then some ([], .opening quoting true) else textChar quoting [] c
  | .opening quoting true, c =>
    if c = quoting.mark then some ([], .firstLine quoting) else endToken (.text "") c
  | .text quoting seen, c => textChar quoting seen c
  | .firstLine quoting, c =>
    if c = '\n' then some ([], .lines quoting [] 0) else linesChar quoting [] 0 c
  | .lines quoting seen marks, c => linesChar quoting seen marks c
  | .escape many seen, c => escapeChar many seen c
  | .hex many seen value missing, c => hexChar many seen value missing c
  | .joined seen past, c =>
    if c = ' ' ∨ c = '\t' then some ([], .joined seen past)
    else if c = '\n' then some ([], .joined seen true)
    else if past then linesChar .basic seen 0 c
    else none

def finish : Scan → Option (List Token)
  | .between => some []
  | .comment => some []
  | .word seen => some [wordToken seen]
  | .date seen => some [wordToken seen, .blank]
  | .opening _ true => some [.text ""]
  | .lines quoting seen marks => if 3 ≤ marks then some [linesToken quoting seen marks] else none
  | _ => none

def tokens? : Scan → List Char → Option (List Token)
  | scan, [] => finish scan
  | scan, c :: cs => do
    let (made, scan) ← step scan c
    return made ++ (← tokens? scan cs)

end AvroCompiler.Toml

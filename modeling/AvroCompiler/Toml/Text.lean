import AvroCompiler.Text.Quoted

namespace AvroCompiler.Toml

def isControl (c : Char) : Bool :=
  c ≠ '\t' && c ≠ '\n' && (c.toNat < 0x20 || c.toNat = 0x7F)

def longestRun (mark : Char) (cs : List Char) : Nat :=
  (cs.foldl (fun (run, best) c => if c = mark then (run + 1, max best (run + 1)) else (0, best))
    (0, 0)).2

def upperHex (n : Nat) : String :=
  let ds := (Nat.toDigits 16 n).map Char.toUpper
  String.ofList (List.replicate (4 - ds.length) '0' ++ ds)

def escaped (c : Char) : String :=
  if c = '\x08' then "\\b"
  else if c = '\t' then "\\t"
  else if c = '\n' then "\\n"
  else if c = '\x0c' then "\\f"
  else if c = '\r' then "\\r"
  else if c = '"' then "\\\""
  else if c = '\\' then "\\\\"
  else if isControl c then "\\u" ++ upperHex c.toNat
  else c.toString

def basicText (cs : List Char) : String :=
  "\"" ++ String.join (cs.map escaped) ++ "\""

def literalText (cs : List Char) : String :=
  "'" ++ String.ofList cs ++ "'"

/-- The characters of a basic text of many lines. Every third quotation mark of a run is escaped. -/
def basicLine (marks : Nat) : List Char → String
  | [] => ""
  | '"' :: cs => if marks = 2 then "\\\"" ++ basicLine 0 cs else "\"" ++ basicLine (marks + 1) cs
  | '\n' :: cs => "\n" ++ basicLine 0 cs
  | c :: cs => escaped c ++ basicLine 0 cs

/-- The line end right after the opening marks of a text that has line ends itself. -/
def lead (cs : List Char) : String :=
  if cs.contains '\n' then "\n" else ""

def basicLines (cs : List Char) : String :=
  "\"\"\"" ++ lead cs ++ basicLine 0 cs ++ "\"\"\""

def literalLines (cs : List Char) : String :=
  "'''" ++ lead cs ++ String.ofList cs ++ "'''"

/-- The first of four forms that needs no escape, or else a form with escapes. -/
def quoteText (text : String) : String :=
  let cs := text.toList
  let controls := cs.any isControl
  let backslash := cs.contains '\\'
  let several := cs.contains '\n'
  if ¬controls ∧ ¬backslash ∧ ¬several ∧ ¬cs.contains '"' then basicText cs
  else if ¬controls ∧ ¬several ∧ ¬cs.contains '\'' then literalText cs
  else if ¬controls ∧ ¬backslash ∧ longestRun '"' cs ≤ 2 then basicLines cs
  else if ¬controls ∧ longestRun '\'' cs ≤ 2 then literalLines cs
  else if several then basicLines cs
  else basicText cs

end AvroCompiler.Toml

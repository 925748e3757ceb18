import AvroCompiler.Ron.Text
import AvroCompiler.Settings.Layer

namespace AvroCompiler.Ron

def isFloatChar (c : Char) : Bool :=
  c.isDigit || c = 'e' || c = 'E' || c = '.' || c = '+' || c = '-'

def isIntegerChar (c : Char) : Bool :=
  (Json.hexValue? c).isSome || c = '_'

def splitBase : List Char → Nat × List Char
  | '0' :: 'x' :: cs => (16, cs)
  | '0' :: 'b' :: cs => (2, cs)
  | '0' :: 'o' :: cs => (8, cs)
  | cs => (10, cs)

/-- An integer without its sign. Underscores may stand anywhere but at the start. -/
def takeInteger? (cs : List Char) : Option (Nat × List Char) := do
  let (base, cs) := splitBase cs
  let digits := cs.takeWhile isIntegerChar
  guard (digits ≠ [] ∧ digits.head? ≠ some '_')
  let values ← (digits.filter (· ≠ '_')).mapM Json.hexValue?
  guard (values.all (· < base))
  return (values.foldl (fun n digit => n * base + digit) 0, cs.dropWhile isIntegerChar)

def takeReal? (cs : List Char) : Option (Setting × List Char) := do
  let run := cs.takeWhile isFloatChar
  let (negative, digits) := splitSign run
  return (.real (← readUnsignedDecimal? negative digits), cs.dropWhile isFloatChar)

/-- An integer of 64 bits with its sign. Without a sign it may be larger and is then real. -/
def takeWord? (cs : List Char) : Option (Setting × List Char) :=
  match cs with
  | '+' :: rest => signed false rest
  | '-' :: rest => signed true rest
  | _ => do
    let (value, rest) ← takeInteger? cs
    guard (value < 0x10000000000000000)
    return (if fitsWord value then .integer value else .real (decimalBits false value 0), rest)
where
  signed (negative : Bool) (cs : List Char) : Option (Setting × List Char) := do
    let (size, rest) ← takeInteger? cs
    let value : Int := if negative then -(size : Int) else size
    guard (fitsWord value)
    return (.integer value, rest)

/-- A number is an integer where no character of a real number goes further. -/
def takeNumber? (cs : List Char) : Option (Setting × List Char) :=
  let (_, digits) := splitSign cs
  if (digits.takeWhile isIntegerChar).length < (digits.takeWhile isFloatChar).length then
    takeReal? cs
  else (takeWord? cs).or (takeReal? cs)

def takeWordValue? (cs : List Char) : Option (Setting × List Char) :=
  [("true", Setting.flag true), ("false", .flag false), ("None", .nothing),
   ("inf", .real (signedInfinity false)), ("-inf", .real (signedInfinity true)),
   ("+inf", .real (signedInfinity false)), ("NaN", .real notANumberBits),
   ("-NaN", .real notANumberBits), ("+NaN", .real notANumberBits)].findSome? fun (word, value) =>
    (afterWord? word cs).map fun rest => (value, rest)

def takeScalar? (cs : List Char) : Option (Setting × List Char) :=
  match cs with
  | [] => none
  | c :: _ =>
    if c = '"' || c = 'r' then
      (takeString? cs).map fun (text, rest) => (.text text, rest)
    else if c = '\'' then
      (takeChar? cs).map fun (c, rest) => (.text (String.singleton c), rest)
    else if c.isDigit || c = '+' || c = '-' || c = '.' then takeNumber? cs
    else none

/-- Parentheses hold named fields when they begin with a name and a colon. -/
def beginsField (cs : List Char) : Bool :=
  match (skip? .blank cs).bind takeName? with
  | none => false
  | some (_, rest) => ((skip? .blank rest).getD []).head? = some ':'

def maxDepth : Nat := 128

/-- The key of an entry: a name in parentheses, a text or character in braces. -/
def takeKey? (close : Char) (cs : List Char) : Option (String × List Char) :=
  if close = ')' then takeName? cs
  else
    match takeScalar? cs with
    | some (.text key, rest) => some (key, rest)
    | _ => none

mutual

/-- A value after the blanks before it. Fuel bounds the number of steps, `depth` the nesting. -/
def takeSetting : Nat → Nat → List Char → Option (Setting × List Char)
  | 0, _, _ => none
  | fuel + 1, depth, cs =>
    match takeWordValue? cs, afterWord? "Some" cs, takeName? cs with
    | some found, _, _ => some found
    | none, some rest, _ => do
      let '(' :: rest ← skip? .blank rest | none
      guard (0 < depth)
      let (value, rest) ← takeSetting fuel (depth - 1) (← skip? .blank rest)
      match ← skip? .blank rest with
      | ')' :: rest => return (value, rest)
      | ',' :: rest =>
        let ')' :: rest ← skip? .blank rest | none
        return (value, rest)
      | _ => none
    | none, none, some (_, rest) => do
      match ← skip? .blank rest with
      | '(' :: rest => takeParens fuel depth rest
      | rest => return (.nothing, rest)
    | none, none, none =>
      match cs with
      | '(' :: ')' :: rest => some (.nothing, rest)
      | '(' :: rest => takeParens fuel depth rest
      | '[' :: rest => if depth = 0 then none else takeItems fuel (depth - 1) ']' [] rest
      | '\x7b' :: rest => if depth = 0 then none else takeEntries fuel (depth - 1) '\x7d' [] rest
      | _ => takeScalar? cs
termination_by structural fuel => fuel

def takeParens : Nat → Nat → List Char → Option (Setting × List Char)
  | 0, _, _ => none
  | fuel + 1, depth, cs =>
    if depth = 0 then none
    else if beginsField cs then takeEntries fuel (depth - 1) ')' [] cs
    else takeItems fuel (depth - 1) ')' [] cs
termination_by structural fuel => fuel

def takeItems : Nat → Nat → Char → List Setting → List Char → Option (Setting × List Char)
  | 0, _, _, _, _ => none
  | fuel + 1, depth, close, items, cs => do
    let cs ← skip? .blank cs
    if cs.head? = some close then return (.list items, cs.drop 1)
    let (item, rest) ← takeSetting fuel depth cs
    match ← skip? .blank rest with
    | ',' :: rest => takeItems fuel depth close (items ++ [item]) rest
    | c :: rest => if c = close then return (.list (items ++ [item]), rest) else none
    | [] => none
termination_by structural fuel => fuel

/-- The entries of a map or struct. The last of two equal keys counts. -/
def takeEntries :
    Nat → Nat → Char → List (String × Setting) → List Char → Option (Setting × List Char)
  | 0, _, _, _, _ => none
  | fuel + 1, depth, close, entries, cs => do
    let cs ← skip? .blank cs
    if cs.head? = some close then return (.table entries, cs.drop 1)
    let (key, rest) ← takeKey? close cs
    let ':' :: rest ← skip? .blank rest | none
    let (value, rest) ← takeSetting fuel depth (← skip? .blank rest)
    match ← skip? .blank rest with
    | ',' :: rest => takeEntries fuel depth close (putSetting key value entries) rest
    | c :: rest =>
      if c = close then return (.table (putSetting key value entries), rest) else none
    | [] => none
termination_by structural fuel => fuel

end

def extensions : List String :=
  ["unwrap_newtypes", "implicit_some", "unwrap_variant_newtypes", "explicit_struct_names"]

def skipExtensions? : Nat → List Char → Option (List Char)
  | 0, _ => none
  | fuel + 1, cs => do
    let (name, rest) ← takeName? (← skip? .blank cs)
    guard (extensions.contains name)
    match ← skip? .blank rest with
    | ')' :: rest => some rest
    | ',' :: rest =>
      match ← skip? .blank rest with
      | ')' :: rest => some rest
      | rest => skipExtensions? fuel rest
    | _ => none

def afterSign? (word : String) (cs : List Char) : Option (List Char) := do
  let cs ← skip? .blank cs
  if word.toList.isPrefixOf cs then some (cs.drop word.length) else none

def skipAttributes? : Nat → List Char → Option (List Char)
  | 0, _ => none
  | fuel + 1, cs => do
    match ← skip? .blank cs with
    | '#' :: rest =>
      let rest ← afterSign? "!" rest
      let rest ← afterSign? "[" rest
      let rest ← afterSign? "enable" rest
      let rest ← afterSign? "(" rest
      let rest ← skipExtensions? (fuel + 1) rest
      skipAttributes? fuel (← afterSign? "]" rest)
    | rest => some rest

def read? (text : String) : Option Layer := do
  let start ← skipAttributes? (text.length + 1) text.toList
  let (value, rest) ← takeSetting (3 * text.length + 3) maxDepth start
  match value, ← skip? .blank rest with
  | .table entries, [] => some entries
  | _, _ => none

end AvroCompiler.Ron

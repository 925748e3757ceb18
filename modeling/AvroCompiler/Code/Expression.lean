import AvroCompiler.Code.Operator

namespace AvroCompiler.Code

open TreeParser

def beginsGenerics : Look := fun trees =>
  Look.sign "<" trees &&
    (Look.second (Look.anySign [">", "#"]) trees || Look.second (Look.keyword "const") trees ||
      ((Look.second Look.lifetime trees || Look.second Look.name trees) &&
        (Look.third (Look.anySign [">", ",", "="]) trees ||
          Look.third (Look.signBut ":" ["::"]) trees)))

def beginsExpression : Look := fun trees =>
  (Look.anyWord trees && !Look.keyword "as" trees) || Look.group .paren trees ||
    Look.group .bracket trees || Look.group .brace trees || Look.literal trees ||
    Look.signBut "!" ["!="] trees || Look.signBut "-" ["-=", "->"] trees ||
    Look.signBut "*" ["*="] trees || Look.signBut "|" ["|="] trees ||
    Look.signBut "&" ["&="] trees || Look.signBut "<" ["<=", "<<="] trees ||
    Look.anySign ["..", "::", "#"] trees || Look.lifetime trees

/-- The places of fields in what was read as a real number. -/
def arePlaces (digits : String) : Bool :=
  let cs := digits.toList
  let body := if cs.getLast? = some '.' then cs.dropLast else cs
  (body.splitOn '.').all fun part =>
    match takeNumber? part with
    | some (.whole value suffixed, []) => !suffixed && value < 4294967296
    | _ => false

namespace Grammar

variable (g : Grammar)

def expressions : TreeParser Unit :=
  list (discard (g.expression true))

def access : TreeParser Unit := do
  match ← get with
  | .literal (.real digits) :: trees =>
    guard (arePlaces digits)
    set trees
    if !digits.toList.getLast?.any (· = '.') then return
  | _ => pure ()
  if ← tryWord "await" then return
  let named ← member
  if named then
    let argued ← peek (Look.sign "::")
    if argued then
      sign "::"
      g.arguments
    if argued || (← peek (Look.group .paren)) then inside .paren g.expressions

def accesses : Nat → Form → TreeParser Form
  | 0, _ => failure
  | fuel + 1, form => do
    let trees ← get
    if Look.group .paren trees then
      inside .paren g.expressions
      accesses fuel .other
    else if Look.signBut "." [".."] trees && form ≠ .range then
      sign "."
      g.access
      accesses fuel .other
    else if Look.group .bracket trees then
      inside .bracket (discard (g.expression true))
      accesses fuel .other
    else if Look.sign "?" trees && form ≠ .range then
      sign "?"
      accesses fuel .other
    else return form

def afterValue (form : Form) : TreeParser Form :=
  g.accesses g.fuel form

def fieldValues : TreeParser Unit :=
  repeatWhile do
    if ← peek Look.ended then return false
    if ← trySign ".." then
      if !(← peek Look.ended) then discard (g.expression true)
      return false
    g.attributes
    let named ← member
    if !named || (← peek (Look.sign ":")) then
      sign ":"
      discard (g.expression true)
    if ← peek Look.ended then return false
    sign ","
    return true

def pathExpression (structs : Bool) : TreeParser Form := do
  let form ← g.path true
  let trees ← get
  if !form.qualified && form.plain && Look.signBut "!" ["!="] trees then
    sign "!"
    return if (← anyGroup) = .brace then .bracedCall else .other
  if structs && Look.group .brace trees then inside .brace g.fieldValues
  return .other

def arrayItems : TreeParser Unit := do
  if ← peek Look.ended then return
  discard (g.expression true)
  if ← trySign ";" then discard (g.expression true)
  else if !(← peek Look.ended) then
    sign ","
    g.expressions

def closureArgument : TreeParser Unit := do
  g.attributes
  discard (g.parse .pattern)
  if ← trySign ":" then discard (g.type true)

def closure (structs : Bool) : TreeParser Unit := do
  discard g.binder
  discard (tryWord "const")
  discard (tryWord "static")
  discard (tryWord "async")
  discard (tryWord "move")
  sign "|"
  separated "," (Look.sign "|") g.closureArgument
  sign "|"
  if ← trySign "->" then
    discard (g.type true)
    g.block
  else discard (g.expression structs)

def patternTest (structs : Bool) : TreeParser Unit := do
  word "let"
  discard g.alternatives
  sign "="
  let form ← g.parse (.operand structs)
  discard (g.afterOperand structs .compare form)

def choices : TreeParser Unit :=
  repeatWhile do
    word "if"
    discard (g.expression false)
    g.block
    if ← tryWord "else" then
      if ← peek (Look.keyword "if") then return true
      g.block
    return false

/-- A case of a match. A comma follows it unless its value is a block or it is the last one. -/
def arm : TreeParser Unit := do
  g.attributes
  discard g.alternatives
  if ← tryWord "if" then discard (g.expression true)
  sign "=>"
  let form ← g.parse .leading
  if form = .block || (← peek Look.ended) then discard (trySign ",") else sign ","

def cases : TreeParser Unit := do
  word "match"
  discard (g.expression false)
  inside .brace do
    g.innerAttributes
    toEnd g.arm

def repetition : TreeParser Unit := do
  if ← tryWord "while" then discard (g.expression false)
  else if ← tryWord "for" then
    discard g.alternatives
    word "in"
    discard (g.expression false)
  else word "loop"
  g.attributedBlock

def labelled : TreeParser Unit := do
  lifetime
  sign ":"
  if ← peek (Look.group .brace) then g.attributedBlock else g.repetition

/-- Takes an expression that ends with a block and may stand as a statement. Says whether there is
one. -/
def tryBlock : TreeParser Bool := do
  let trees ← get
  if Look.keyword "if" trees then g.choices
  else if Look.keyword "match" trees then g.cases
  else if Look.anyKeyword ["while", "loop"] trees ||
      (Look.keyword "for" trees && !Look.second beginsGenerics trees) then g.repetition
  else if Look.keyword "try" trees && Look.second (Look.group .brace) trees then
    word "try"
    g.block
  else if Look.keyword "unsafe" trees ||
      (Look.keyword "const" trees && Look.second (Look.group .brace) trees) then
    discard anyWord
    g.attributedBlock
  else if Look.group .brace trees then g.attributedBlock
  else if Look.lifetime trees then g.labelled
  else return false
  return true

def jump (structs : Bool) : TreeParser Unit := do
  if ← tryWord "continue" then discard tryLifetime
  else if ← tryWord "become" then discard (g.expression true)
  else if ← tryWord "break" then
    if ← tryLifetime then guard !(← peek (Look.sign ":"))
    if (← peek beginsExpression) && (structs || !(← peek (Look.group .brace))) then
      discard (g.expression true)
  else
    guard (← peek (Look.anyKeyword ["return", "yield"]))
    discard anyWord
    if ← peek beginsExpression then discard (g.expression true)

def value (structs : Bool) : TreeParser Form := do
  if ← g.tryBlock then return .block
  let trees ← get
  if Look.literal trees then TreeParser.literal
  else if Look.keyword "async" trees && (Look.second (Look.group .brace) trees ||
      (Look.second (Look.keyword "move") trees && Look.third (Look.group .brace) trees)) then
    word "async"
    discard (tryWord "move")
    g.block
  else if Look.sign "|" trees || Look.anyKeyword ["move", "for", "const", "static"] trees ||
      (Look.keyword "async" trees &&
        (Look.second (Look.sign "|") trees || Look.second (Look.keyword "move") trees)) then
    g.closure structs
  else if Look.keyword "builtin" trees && Look.second (Look.sign "#") trees then
    word "builtin"
    sign "#"
    name
    guard ((← anyGroup) = .paren)
  else if Look.name trees || Look.anySign ["::", "<"] trees ||
      Look.anyKeyword ["self", "Self", "super", "crate"] trees ||
      (Look.keyword "try" trees && Look.second (Look.anySign ["!", "::"]) trees) then
    return ← g.pathExpression structs
  else if Look.group .paren trees then inside .paren g.expressions
  else if Look.group .bracket trees then inside .bracket g.arrayItems
  else if Look.keyword "let" trees then g.patternTest structs
  else if Look.sign ".." trees then
    g.restOfOpenRange structs g.fuel
    return .range
  else if !(← tryWord "_") then g.jump structs
  return .other

/-- The rule of an operand. A range at its start may not have attributes. -/
def operandRule (structs : Bool) : TreeParser Form := do
  let attributed ← peek (Look.sign "#")
  g.attributes
  let trees ← get
  if ← trySign "&" then
    let trees ← get
    if Look.keyword "raw" trees && Look.second (Look.anyKeyword ["mut", "const"]) trees then
      word "raw"
      discard anyWord
    else discard (tryWord "mut")
    discard (g.parse (.operand structs))
    return .other
  if Look.anySign ["*", "!", "-"] trees then
    modify List.tail
    discard (g.parse (.operand structs))
    return .other
  let form ← g.afterValue (← g.value structs)
  guard !(attributed && form = .range)
  return form

/-- The rule of an expression that ends after a block at its start. -/
def leadingRule : TreeParser Form := do
  g.attributes
  if ← g.tryBlock then
    let trees ← get
    if Look.signBut "." [".."] trees || Look.sign "?" trees then
      g.afterOperand true .least (← g.afterValue .block)
    else return .block
  else g.afterOperand true .least (← g.parse (.operand true))

end Grammar

end AvroCompiler.Code

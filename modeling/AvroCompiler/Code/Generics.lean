import AvroCompiler.Code.Path

namespace AvroCompiler.Code

open TreeParser

namespace Grammar

variable (g : Grammar)

def lifetimeParameter : TreeParser Unit := do
  lifetime
  if ← trySign ":" then
    summed (fun trees => Look.ended trees || Look.anySign [",", ">"] trees) lifetime

/-- A name with bounds and a type that it stands for by default. -/
def typeParameter : TreeParser Unit := do
  name
  if ← trySign ":" then
    summed (fun trees => Look.ended trees || Look.anySign [",", ">", "="] trees)
      (discard (g.bound false true))
  if ← trySign "=" then discard (g.type true)

def constantParameter : TreeParser Unit := do
  word "const"
  name
  sign ":"
  discard (g.type true)
  if ← trySign "=" then g.constant

def parameter : TreeParser Unit := do
  g.attributes
  let trees ← get
  if Look.lifetime trees then lifetimeParameter
  else if Look.keyword "const" trees then g.constantParameter
  else g.typeParameter

/-- The parameters of an item, in angle brackets. A type parameter may have no name. -/
def generics : TreeParser Unit := do
  if ← trySign "<" then
    separated "," (Look.sign ">") do
      g.attributes
      if ← peek (Look.keyword "_") then word "_" else g.parameter
    sign ">"

/-- The parameters that a type or bound brings with it. Says whether there are any. -/
def binder : TreeParser Bool := do
  if ← tryWord "for" then
    sign "<"
    separated "," (Look.sign ">") g.parameter
    sign ">"
    return true
  else return false

def endsCondition : Look := fun trees =>
  Look.ended trees || Look.group .brace trees || Look.anySign [",", ";", "="] trees ||
    Look.signBut ":" ["::"] trees

def condition : TreeParser Unit := do
  let trees ← get
  if Look.lifetime trees && Look.second (Look.sign ":") trees then
    lifetime
    sign ":"
    summed (fun trees => endsCondition trees || Look.sign ":" trees) lifetime
  else
    discard g.binder
    discard (g.type true)
    sign ":"
    summed endsCondition (discard (g.bound false true))

def conditions : TreeParser Unit := do
  if ← tryWord "where" then
    repeatWhile do
      if ← peek endsCondition then return false
      g.condition
      trySign ","

def captures : TreeParser Unit := do
  word "use"
  sign "<"
  separated "," (Look.sign ">") do
    if !(← tryLifetime) then nameOr ["Self"]
  sign ">"

/-- A trait with its own parameters, or one that a type may lack, but not both at once. -/
def traitBound (constant : Bool) : TreeParser Unit := do
  let bound ← g.binder
  let trees ← get
  if Look.group .bracket trees then
    guard constant
    inside .bracket (word "const")
  else if Look.keyword "const" trees then
    guard constant
    word "const"
  if ← trySign "?" then guard !bound
  let form ← g.simplePath false
  if form.bare && (← peek Look.callParens) then discard g.callArguments

def boundRule (capturing constant : Bool) : TreeParser Form := do
  let trees ← get
  if Look.lifetime trees then
    lifetime
    return .other
  if Look.keyword "use" trees then
    guard capturing
    captures
    return .other
  if Look.group .paren trees then inside .paren (g.traitBound constant) else g.traitBound constant
  return .bound

def beginsBound (constant : Bool) : Look := fun trees =>
  Look.anyWord trees || Look.anySign ["::", "?"] trees || Look.lifetime trees ||
    Look.group .paren trees || (constant && Look.group .bracket trees)

def moreBounds (capturing constant : Bool) : Nat → Bool → TreeParser Bool
  | 0, _ => failure
  | fuel + 1, named => do
    if (← trySign "+") && (← peek (beginsBound constant)) then
      moreBounds capturing constant fuel ((← g.bound capturing constant) || named)
    else return named

/-- Bounds with plus signs between them; one of them has to be a trait. -/
def bounds (plus capturing constant : Bool) : TreeParser Unit := do
  let named ← g.bound capturing constant
  guard (← if plus then g.moreBounds capturing constant g.fuel named else pure named)

end Grammar

end AvroCompiler.Code

import AvroCompiler.Code.Generics

namespace AvroCompiler.Code

open TreeParser

inductive ParensForm where
  | tuple
  /-- Bounds of which the first one is a lifetime. -/
  | object
  | optional
  | one (form : Form)

def interface : TreeParser Unit := do
  if ← tryWord "extern" then
    if ← peek Look.text then TreeParser.literal

namespace Grammar

variable (g : Grammar)

def addedBounds : TreeParser Bool := do
  let more ← peek (Look.sign "+")
  repeatWhile do
    if ← trySign "+" then
      discard (g.bound false false)
      return true
    else return false
  return more

def parensForm : TreeParser ParensForm := do
  let trees ← get
  if Look.ended trees then return .tuple
  if Look.lifetime trees then
    g.bounds true false false
    return .object
  if Look.sign "?" trees then
    g.traitBound false
    return .optional
  let form ← g.type true
  if ← trySign "," then
    list (discard (g.type true))
    return .tuple
  return .one form

def parensType (plus : Bool) : TreeParser Form := do
  match ← inside .paren g.parensForm with
  | .tuple => return .other
  | .object => return .parens
  | .optional => return if ← g.addedBounds then .other else .bound
  | .one form =>
    if plus && (← peek (Look.sign "+")) && [Form.name, .path, .bound].contains form then
      discard g.addedBounds
      return .other
    else return .parens

/-- The end of the parameters of a function type that takes any number of arguments. -/
def variadic : Look := fun trees =>
  Look.sign "..." trees ||
    ((Look.name trees || Look.keyword "_" trees) && Look.second (Look.sign ":") trees &&
      Look.third (Look.sign "...") trees)

def functionTypeArgument (first : Bool) : TreeParser Unit := do
  let trees ← get
  if first && Look.keyword "mut" trees && Look.second (Look.keyword "self") trees then word "mut"
  let trees ← get
  if (Look.name trees || Look.keyword "_" trees || (first && Look.keyword "self" trees)) &&
      Look.second (Look.signBut ":" ["::"]) trees then
    discard anyWord
    sign ":"
  discard (g.type true)

def functionTypeArguments : Bool → Nat → TreeParser Unit
  | _, 0 => failure
  | first, fuel + 1 => do
    if ← peek Look.ended then return
    g.attributes
    if ← peek variadic then
      if !(← peek (Look.sign "...")) then
        discard anyWord
        sign ":"
      sign "..."
      discard (trySign ",")
    else
      g.functionTypeArgument first
      if ← peek Look.ended then return
      sign ","
      functionTypeArguments false fuel

def functionType : TreeParser Unit := do
  discard (tryWord "unsafe")
  interface
  word "fn"
  inside .paren (g.functionTypeArguments true g.fuel)
  discard (g.returnType false)

/-- Arguments in parentheses, as often as names follow them. They do after a call without a result
or with one in parentheses. -/
def calledPath : Nat → PathForm → TreeParser PathForm
  | 0, _ => failure
  | fuel + 1, form => do
    if form.bare && (← peek Look.callParens) then
      match ← g.callArguments with
      | none | some .parens => calledPath fuel (← g.restOfPath false form.call)
      | _ => return form.call
    else return form

def typePath : TreeParser PathForm := do
  let form ← g.path false
  g.calledPath g.fuel form

def pathType (plus bound : Bool) : TreeParser Form := do
  let form ← g.typePath
  let trees ← get
  if form.qualified then return .other
  if form.plain && Look.signBut "!" ["!="] trees then
    sign "!"
    discard anyGroup
    return .other
  if plus && Look.sign "+" trees then
    discard (g.moreBounds false false g.fuel true)
    return .other
  if bound then return .bound
  return if form.single && !form.called then .name else .path

def arrayType : TreeParser Unit := do
  discard (g.type true)
  if ← trySign ";" then discard (g.expression true)

def typeRule (plus : Bool) : TreeParser Form := do
  let bound ← g.binder
  let trees ← get
  if Look.anyKeyword ["fn", "unsafe", "extern"] trees then
    g.functionType
    return .other
  if Look.name trees || Look.anyKeyword ["super", "self", "Self", "crate"] trees then
    return ← g.pathType plus bound
  guard !bound
  if Look.anySign ["::", "<"] trees then return ← g.pathType plus false
  if Look.group .paren trees then return ← g.parensType plus
  if ← tryWord "dyn" then
    discard (trySign "*")
    g.bounds plus false false
  else if Look.group .bracket trees then inside .bracket g.arrayType
  else if ← trySign "*" then
    if !(← tryWord "const") then word "mut"
    discard (g.type false)
  else if ← trySign "&" then
    discard tryLifetime
    discard (tryWord "mut")
    discard (g.type false)
  else if ← tryWord "impl" then g.bounds plus true true
  else if Look.lifetime trees then g.bounds true false false
  else if !(← trySign "!") then word "_"
  return .other

end Grammar

end AvroCompiler.Code

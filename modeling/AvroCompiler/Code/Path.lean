import AvroCompiler.Code.Attribute

namespace AvroCompiler.Code

open TreeParser

structure PathForm where
  /-- It begins with a type in angle brackets. -/
  qualified : Bool
  /-- It is one name, without colons before it. -/
  single : Bool
  /-- None of its names has arguments. -/
  plain : Bool
  /-- The last name has no arguments. -/
  bare : Bool
  /-- The last name has arguments in parentheses. -/
  called : Bool
  deriving DecidableEq, Repr

namespace PathForm

def extend (form : PathForm) (argued : Bool) : PathForm :=
  { form with single := false, plain := form.plain && !argued, bare := !argued, called := false }

def call (form : PathForm) : PathForm :=
  { form with plain := false, bare := false, called := true }

end PathForm

/-- The parentheses of a call, perhaps with colons before them. -/
def Look.callParens : Look := fun trees =>
  Look.group .paren trees || (Look.sign "::" trees && Look.third (Look.group .paren) trees)

namespace Grammar

variable (g : Grammar)

def constant : TreeParser Unit := do
  let trees ← get
  if Look.literal trees then TreeParser.literal
  else if Look.name trees then TreeParser.name
  else g.attributedBlock

/-- A lifetime, a constant, a type, or a name with its value or its bounds. -/
def argument : TreeParser Unit := do
  let trees ← get
  if Look.lifetime trees && !Look.second (Look.sign "+") trees then lifetime
  else if Look.literal trees || Look.group .brace trees then g.constant
  else if (← g.type true) = .name then
    if ← trySign "=" then
      if (← peek Look.literal) || (← peek (Look.group .brace)) then g.constant
      else discard (g.type true)
    else if ← trySign ":" then
      summed (Look.anySign [",", ">"]) (discard (g.bound false true))

def arguments : TreeParser Unit := do
  sign "<"
  separated "," (Look.sign ">") g.argument
  sign ">"

/-- A name of a path. Says whether it has arguments. -/
def segment (inExpression : Bool) : TreeParser Bool := do
  if ← peek (Look.anyKeyword ["super", "self", "crate", "try"]) then
    discard anyWord
    return false
  nameOr ["Self"]
  let trees ← get
  if (!inExpression && Look.signBut "<" ["<=", "<<="] trees) ||
      (Look.sign "::" trees && Look.third (Look.sign "<") trees) then
    discard (trySign "::")
    g.arguments
    return true
  return false

def moreSegments (inExpression : Bool) : Nat → PathForm → TreeParser PathForm
  | 0, _ => failure
  | fuel + 1, form => do
    let trees ← get
    if Look.sign "::" trees && !Look.third (Look.group .paren) trees then
      sign "::"
      moreSegments inExpression fuel (form.extend (← g.segment inExpression))
    else return form

/-- The names that follow those of the path. Colons before parentheses do not. -/
def restOfPath (inExpression : Bool) (form : PathForm) : TreeParser PathForm :=
  g.moreSegments inExpression g.fuel form

def simplePath (inExpression : Bool) : TreeParser PathForm := do
  let rooted ← trySign "::"
  let argued ← g.segment inExpression
  g.restOfPath inExpression ⟨false, !rooted, !argued, !argued, false⟩

def selfType : TreeParser Unit := do
  sign "<"
  discard (g.type true)
  if ← tryWord "as" then discard (g.simplePath false)
  sign ">"

def qualifiedSegments (inExpression : Bool) : Nat → PathForm → TreeParser PathForm
  | 0, _ => failure
  | fuel + 1, form => do
    if ← trySign "::" then
      qualifiedSegments inExpression fuel (form.extend (← g.segment inExpression))
    else return form

def path (inExpression : Bool) : TreeParser PathForm := do
  if ← peek (Look.sign "<") then
    g.selfType
    guard (← peek (Look.sign "::"))
    g.qualifiedSegments inExpression g.fuel ⟨true, false, true, true, false⟩
  else g.simplePath inExpression

def returnType (plus : Bool) : TreeParser (Option Form) := do
  if ← trySign "->" then return some (← g.type plus) else return none

def callArguments : TreeParser (Option Form) := do
  discard (trySign "::")
  inside .paren (list (discard (g.type true)))
  g.returnType false

end Grammar

end AvroCompiler.Code

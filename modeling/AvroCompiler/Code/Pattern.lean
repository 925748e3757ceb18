import AvroCompiler.Code.Type

namespace AvroCompiler.Code

open TreeParser

/-- The dots of a range. Says whether its end belongs to it. Three dots close a range only in an
older style. -/
def rangeLimits (older : Bool) : TreeParser Bool := do
  if ← trySign "..=" then return true
  if ← peek (Look.sign "...") then
    guard older
    sign "..."
    return true
  sign ".."
  return false

/-- A field, by its name or its place. Says whether it has a name. -/
def member : TreeParser Bool := do
  match ← get with
  | .literal (.whole value suffixed) :: trees =>
    guard (!suffixed && value < 4294967296)
    set trees
    return false
  | _ =>
    name
    return true

namespace Grammar

variable (g : Grammar)

/-- One of several patterns, perhaps with a bar before the first one. -/
def alternatives : TreeParser Form := do
  let barred ← trySign "|"
  let form ← g.parse .pattern
  let more := Look.signBut "|" ["||", "|="]
  let several := barred || (← peek more)
  repeatWhile do
    if ← peek more then
      sign "|"
      discard (g.parse .pattern)
      return true
    else return false
  return if several then .other else form

def endsRangePattern : Look := fun trees =>
  Look.ended trees || Look.anySign ["|", "=", ",", ";"] trees || Look.signBut ":" ["::"] trees ||
    Look.keyword "if" trees

def rangeBound : TreeParser Bool := do
  let trees ← get
  if endsRangePattern trees then return false
  if Look.literal trees then TreeParser.literal
  else if Look.keyword "const" trees then
    word "const"
    g.attributedBlock
  else
    guard (Look.name trees || Look.anySign ["::", "<"] trees ||
      Look.anyKeyword ["self", "Self", "super", "crate"] trees)
    discard (g.path true)
  return true

def restOfRange : TreeParser Form := do
  let closed ← rangeLimits true
  let ended ← g.rangeBound
  guard (ended || !closed)
  return if ended then .other else .openRange

def fieldPattern : TreeParser Unit := do
  let boxed ← tryWord "box"
  let byReference ← tryWord "ref"
  let mutable ← tryWord "mut"
  if boxed || byReference || mutable then name
  else
    let named ← member
    if !named || (← peek (Look.sign ":")) then
      sign ":"
      discard g.alternatives

def fieldPatterns : TreeParser Unit :=
  repeatWhile do
    if ← peek Look.ended then return false
    g.attributes
    if ← trySign ".." then return false
    g.fieldPattern
    if ← peek Look.ended then return false
    sign ","
    return true

def pathPattern : TreeParser Form := do
  let form ← g.path true
  let trees ← get
  if !form.qualified && form.plain && Look.signBut "!" ["!="] trees then
    sign "!"
    discard anyGroup
  else if Look.group .brace trees then inside .brace g.fieldPatterns
  else if Look.group .paren trees then inside .paren (list (discard g.alternatives))
  else if Look.sign ".." trees then return ← g.restOfRange
  return .other

def namePattern : TreeParser Unit := do
  discard (tryWord "ref")
  discard (tryWord "mut")
  nameOr ["self"]
  if ← trySign "@" then discard (g.parse .pattern)

/-- The items of a slice. A range without one of its ends needs parentheses there. -/
def slicePattern : TreeParser Unit :=
  list do guard ((← g.alternatives) ≠ .openRange)

def beginsPathPattern : Look := fun trees =>
  (Look.name trees && (Look.second (Look.anySign ["::", "!", ".."]) trees ||
    Look.second (Look.group .brace) trees || Look.second (Look.group .paren) trees)) ||
  (Look.keyword "self" trees && Look.second (Look.sign "::") trees) ||
  Look.anySign ["::", "<"] trees || Look.anyKeyword ["Self", "super", "crate"] trees

def patternRule : TreeParser Form := do
  let trees ← get
  if beginsPathPattern trees then return ← g.pathPattern
  if ← tryWord "_" then return .other
  if ← tryWord "box" then
    discard (g.parse .pattern)
    return .other
  if Look.sign "-" trees || Look.literal trees || Look.keyword "const" trees then
    guard (← g.rangeBound)
    if ← peek (Look.sign "..") then return ← g.restOfRange
    return .other
  if Look.anyKeyword ["ref", "mut", "self"] trees || Look.name trees then g.namePattern
  else if ← trySign "&" then
    discard (tryWord "mut")
    discard (g.parse .pattern)
  else if Look.group .paren trees then inside .paren (list (discard g.alternatives))
  else if Look.group .bracket trees then inside .bracket g.slicePattern
  else
    let closed ← rangeLimits false
    let ended ← g.rangeBound
    guard (ended || !closed)
    return if ended then .openRange else .other
  return .other

end Grammar

end AvroCompiler.Code

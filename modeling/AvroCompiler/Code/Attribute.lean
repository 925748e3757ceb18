import AvroCompiler.Code.Grammar

namespace AvroCompiler.Code

open TreeParser

/-- Names with colons between them, without arguments. -/
def plainPath : TreeParser Unit := do
  discard (trySign "::")
  repeatWhile do
    nameOr ["super", "self", "Self", "crate"]
    trySign "::"

namespace Grammar

variable (g : Grammar)

def attributeValue : TreeParser Unit := do
  let trees ← get
  guard (!(Look.sign "#" trees && Look.second (Look.group .bracket) trees))
  discard (g.expression true)

def attributeBody : TreeParser Unit := do
  if ← peek (Look.keyword "unsafe") then word "unsafe" else plainPath
  let trees ← get
  if Look.group .paren trees || Look.group .bracket trees || Look.group .brace trees then
    discard anyGroup
  else if Look.signBut "=" ["==", "=>"] trees then
    sign "="
    g.attributeValue

def attributes : TreeParser Unit :=
  repeatWhile do
    if ← trySign "#" then inside .bracket g.attributeBody; return true else return false

def innerAttributes : TreeParser Unit :=
  repeatWhile do
    let trees ← get
    if Look.sign "#" trees && Look.second (Look.sign "!") trees then
      sign "#"
      sign "!"
      inside .bracket g.attributeBody
      return true
    else return false

def block : TreeParser Unit :=
  inside .brace g.statements

def attributedBlock : TreeParser Unit :=
  inside .brace do
    g.innerAttributes
    g.statements

end Grammar

/-- The place in parentheses to which something is visible. -/
def visibilityPlace : TreeParser Unit := do
  if ← tryWord "in" then plainPath
  else
    guard (← peek (Look.anyKeyword ["crate", "self", "super"]))
    discard anyWord

/-- Takes the visibility and says whether there is one. Parentheses with something else in them
belong to what follows, but a path after `in` has to be one. -/
def visibility : TreeParser Bool := do
  if ← tryWord "pub" then
    match ← get with
    | .group .paren inner :: trees =>
      if Look.keyword "in" inner then inside .paren visibilityPlace
      else if ((visibilityPlace.run inner).map Prod.snd).any List.isEmpty then set trees
    | _ => pure ()
    return true
  else return false

end AvroCompiler.Code

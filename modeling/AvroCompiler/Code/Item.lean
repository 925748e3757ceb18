import AvroCompiler.Code.Function

namespace AvroCompiler.Code

open TreeParser

/-- Another package that the code uses, perhaps under a name of its own. -/
def crateItem : TreeParser Unit := do
  word "extern"
  word "crate"
  nameOr ["self"]
  if ← tryWord "as" then nameOr ["_"]
  sign ";"

def templateItem : TreeParser Unit := do
  word "macro"
  name
  if ← peek (Look.group .paren) then discard anyGroup
  guard ((← anyGroup) = .brace)

namespace Grammar

variable (g : Grammar)

def useTreeRule (rooted : Bool) : TreeParser Form := do
  let trees ← get
  if Look.name trees || Look.anyKeyword ["self", "super", "crate", "try"] trees then
    discard anyWord
    if ← trySign "::" then discard (g.parse (.useTree false))
    else if ← tryWord "as" then nameOr ["_"]
  else if !(← trySign "*") then
    inside .brace <| list do
      let colons ← if rooted then trySign "::" else pure false
      discard (g.parse (.useTree (rooted && !colons)))
  return .other

def useItem : TreeParser Unit := do
  word "use"
  let colons ← trySign "::"
  discard (g.parse (.useTree !colons))
  sign ";"

def staticItem : TreeParser Unit := do
  word "static"
  discard (tryWord "mut")
  name
  let typed ← trySign ":"
  if typed then discard (g.type true)
  if !typed || !(← peek (Look.sign ";")) then
    sign "="
    discard (g.expression true)
  sign ";"

def itemsToEnd : TreeParser Unit := do
  g.innerAttributes
  toEnd do
    g.attributes
    discard (g.parse .item)

def moduleItem : TreeParser Unit := do
  discard (tryWord "unsafe")
  word "mod"
  nameOr ["try"]
  if !(← trySign ";") then inside .brace g.itemsToEnd

/-- A declaration of what another language defines. -/
def foreignItem : TreeParser Unit := do
  g.attributes
  let seen ← visibility
  let trees ← get
  if beginsFunction true trees then g.functionItem true
  else if Look.keyword "static" trees || (Look.anyKeyword ["unsafe", "safe"] trees &&
      Look.second (Look.keyword "static") trees) then
    if !Look.keyword "static" trees then discard anyWord
    word "static"
    discard (tryWord "mut")
    name
    sign ":"
    discard (g.type true)
    if ← trySign "=" then discard (g.expression true)
    sign ";"
  else if Look.keyword "type" trees then g.aliasItem .either
  else
    guard (!seen && beginsCall trees)
    callItem false

def foreignItems : TreeParser Unit := do
  discard (tryWord "unsafe")
  guard (← peek (Look.keyword "extern"))
  interface
  inside .brace do
    g.innerAttributes
    toEnd g.foreignItem

def traitMember : TreeParser Unit := do
  g.attributes
  let seen ← visibility
  let standard ← tryWord "default"
  let trees ← get
  if beginsFunction false trees then g.functionItem false
  else if Look.keyword "const" trees then g.constantItem
  else if Look.keyword "type" trees then g.aliasItem .after
  else
    guard (!seen && !standard && beginsCall trees)
    callItem false

def endsTraits : Look := fun trees =>
  Look.keyword "where" trees || Look.group .brace trees

def traitBody : TreeParser Unit := do
  if ← trySign ":" then separated "+" endsTraits (discard (g.bound false true))
  g.conditions
  inside .brace do
    g.innerAttributes
    toEnd g.traitMember

/-- A trait, or a name for some bounds. -/
def traitItem : TreeParser Unit := do
  let plain ← peek (Look.keyword "trait")
  discard (tryWord "unsafe")
  discard (tryWord "auto")
  word "trait"
  name
  g.generics
  if plain && (← peek (Look.sign "=")) then
    sign "="
    separated "+" (fun trees => Look.keyword "where" trees || Look.sign ";" trees)
      (discard (g.bound false false))
    g.conditions
    sign ";"
  else g.traitBody

def implementationMember : TreeParser Unit := do
  g.attributes
  let seen ← visibility
  let trees ← get
  let standard := Look.keyword "default" trees && !Look.second (Look.sign "!") trees
  if standard then word "default"
  let trees ← get
  if beginsFunction false trees then g.functionItem false
  else if Look.keyword "const" trees then g.constantItem
  else if Look.keyword "type" trees then g.aliasItem .after
  else
    guard (!seen && !standard && beginsCall trees)
    callItem false

/-- An implementation of a trait for a type, which may be negative, or of a type. -/
def implementation : TreeParser Unit := do
  discard (tryWord "default")
  discard (tryWord "unsafe")
  word "impl"
  if ← peek beginsGenerics then g.generics
  let trees ← get
  if Look.keyword "const" trees ||
      (Look.sign "?" trees && Look.second (Look.keyword "const") trees) then
    discard (trySign "?")
    word "const"
  let trees ← get
  let negative := Look.sign "!" trees && !Look.second (Look.group .brace) trees
  if negative then sign "!"
  discard (g.type true)
  if ← tryWord "for" then discard (g.type true) else guard !negative
  g.conditions
  inside .brace do
    g.innerAttributes
    toEnd g.implementationMember

/-- An item that begins with `unsafe` and is no function. -/
def unsafeItem (seen : Bool) : TreeParser Unit := do
  let trees ← get
  if Look.second (Look.keyword "trait") trees || (Look.second (Look.keyword "auto") trees &&
      Look.third (Look.keyword "trait") trees) then g.traitItem
  else if Look.second (Look.keyword "impl") trees then g.implementation
  else if Look.second (Look.keyword "extern") trees then
    guard !seen
    g.foreignItems
  else g.moduleItem

def itemRule : TreeParser Form := do
  let seen ← visibility
  let trees ← get
  if beginsFunction false trees then g.functionItem false
  else if Look.keyword "extern" trees then
    if Look.second (Look.keyword "crate") trees then crateItem
    else
      guard !seen
      g.foreignItems
  else if Look.keyword "use" trees then g.useItem
  else if Look.keyword "static" trees then g.staticItem
  else if Look.keyword "const" trees then g.constantItem
  else if Look.keyword "unsafe" trees then g.unsafeItem seen
  else if Look.keyword "mod" trees then g.moduleItem
  else if Look.keyword "type" trees then g.aliasItem .before
  else if Look.keyword "struct" trees then g.structItem
  else if Look.keyword "enum" trees then g.enumItem
  else if Look.keyword "union" trees && Look.second Look.name trees then g.unionItem
  else if Look.keyword "trait" trees ||
      (Look.keyword "auto" trees && Look.second (Look.keyword "trait") trees) then g.traitItem
  else if Look.keyword "impl" trees ||
      (Look.keyword "default" trees && !Look.second (Look.sign "!") trees) then g.implementation
  else if Look.keyword "macro" trees then templateItem
  else
    guard (!seen && beginsCall trees)
    callItem true
  return .other

end Grammar

end AvroCompiler.Code

import AvroCompiler.Code.Item

namespace AvroCompiler.Code

open TreeParser

/-- A call of a code template after a path: one that defines something, or one with braces that is a
statement of its own. -/
inductive CallForm where
  | item
  | statement (ahead : List Tree)
  | none

def callForm (trees : List Tree) : CallForm :=
  match plainPath.run trees with
  | some (_, ahead) =>
    if !Look.sign "!" ahead then .none
    else if Look.second Look.name ahead || Look.second (Look.keyword "try") ahead then .item
    else if Look.second (Look.group .brace) ahead &&
        !Look.third (Look.signBut "." [".."]) ahead && !Look.third (Look.sign "?") ahead then
      .statement ahead
    else .none
  | none => .none

def beginsItem : Look := fun trees =>
  let second := fun name => Look.second (Look.keyword name) trees
  let third := fun name => Look.third (Look.keyword name) trees
  Look.anyKeyword ["pub", "extern", "use", "fn", "mod", "type", "struct", "enum", "trait", "impl",
    "macro"] trees ||
  (Look.keyword "crate" trees && !Look.second (Look.sign "::") trees) ||
  (Look.keyword "static" trees && (second "mut" || Look.second Look.name trees)) ||
  (Look.keyword "const" trees &&
    !(Look.second (Look.group .brace) trees || second "static" ||
      (second "async" && !(third "unsafe" || third "extern" || third "fn")) || second "move" ||
      Look.second (Look.sign "|") trees)) ||
  (Look.keyword "unsafe" trees && !Look.second (Look.group .brace) trees) ||
  (Look.keyword "async" trees && (second "unsafe" || second "extern" || second "fn")) ||
  (Look.keyword "union" trees && Look.second Look.name trees) ||
  (Look.keyword "auto" trees && second "trait") ||
  (Look.keyword "default" trees && (second "unsafe" || second "impl"))

def endsInBrace (trees : List Tree) : Bool :=
  match trees.getLast? with
  | some (.group .brace _) => true
  | _ => false

namespace Grammar

variable (g : Grammar)

/-- A new variable. What follows `else` runs if the pattern does not fit; the value before it does
not end with a brace. -/
def binding : TreeParser Unit := do
  word "let"
  discard (g.parse .pattern)
  if ← trySign ":" then discard (g.type true)
  if ← trySign "=" then
    let before ← get
    discard (g.expression true)
    let after ← get
    if Look.keyword "else" after && !endsInBrace (before.take (before.length - after.length)) then
      word "else"
      g.block
  sign ";"

/-- Reads a statement and says whether another one may follow it. -/
def statement : TreeParser Bool := do
  g.attributes
  let trees ← get
  match callForm trees with
  | .statement ahead =>
    set ahead
    sign "!"
    discard anyGroup
    discard (trySign ";")
    return true
  | .item =>
    discard (g.parse .item)
    return true
  | .none =>
    if Look.keyword "let" trees then
      g.binding
      return true
    if beginsItem trees then
      discard (g.parse .item)
      return true
    let form ← g.parse .leading
    return (← trySign ";") || form = .block || form = .bracedCall

def statementsRule : TreeParser Form := do
  repeatWhile do
    repeatWhile (trySign ";")
    if ← peek Look.ended then return false
    let complete ← g.statement
    if ← peek Look.ended then return false
    guard complete
    return true
  return .other

end Grammar

end AvroCompiler.Code

import AvroCompiler.Code.Field

namespace AvroCompiler.Code

open TreeParser

def functionWords (safe : Bool) : TreeParser Unit := do
  discard (tryWord "const")
  discard (tryWord "async")
  if safe && (← peek (Look.keyword "safe")) then word "safe" else discard (tryWord "unsafe")
  interface

def beginsFunction (safe : Bool) : Look := fun trees =>
  ((functionWords safe).run trees).any fun (_, ahead) => Look.keyword "fn" ahead

def beginsCall : Look := fun trees =>
  Look.name trees || Look.anyKeyword ["self", "super", "crate"] trees || Look.sign "::" trees

/-- A call of a code template. It ends with a semicolon unless it has braces. -/
def callItem (naming : Bool) : TreeParser Unit := do
  plainPath
  sign "!"
  if naming && ((← peek Look.name) || (← peek (Look.keyword "try"))) then discard anyWord
  if (← anyGroup) ≠ .brace then sign ";"

inductive ArgumentForm where
  | receiver
  | typed
  | variadic
  deriving DecidableEq

namespace Grammar

variable (g : Grammar)

def receiver : TreeParser Unit := do
  let byReference ← trySign "&"
  if byReference then discard tryLifetime
  discard (tryWord "mut")
  word "self"
  if !byReference && (← peek (Look.sign ":")) then
    sign ":"
    discard (g.type true)

/-- A pattern with its type. A type alone is taken only if it has arguments. -/
def typedArgument : TreeParser ArgumentForm := do
  let trees ← get
  if Look.name trees && Look.second (Look.sign "<") trees then
    discard (g.type true)
    return .typed
  discard (g.parse .pattern)
  sign ":"
  if ← trySign "..." then return .variadic
  discard (g.type true)
  return .typed

def functionArgument : TreeParser ArgumentForm := do
  g.attributes
  if ← trySign "..." then return .variadic
  match g.receiver.run (← get) with
  | some (_, trees) =>
    set trees
    return .receiver
  | none => g.typedArgument

/-- The parameters of a function. Only the first one may be a receiver. -/
def functionArguments : Bool → Nat → TreeParser Unit
  | _, 0 => failure
  | first, fuel + 1 => do
    if ← peek Look.ended then return
    let form ← g.functionArgument
    guard (first || form ≠ .receiver)
    if ← peek Look.ended then return
    sign ","
    if form ≠ .variadic then functionArguments false fuel

def signature (safe : Bool) : TreeParser Unit := do
  functionWords safe
  word "fn"
  name
  g.generics
  inside .paren (g.functionArguments true g.fuel)
  discard (g.returnType true)
  g.conditions

def functionItem (safe : Bool) : TreeParser Unit := do
  g.signature safe
  if !(← trySign ";") then g.attributedBlock

def constantItem : TreeParser Unit := do
  word "const"
  nameOr ["_"]
  g.generics
  sign ":"
  discard (g.type true)
  if ← trySign "=" then discard (g.expression true)
  g.conditions
  sign ";"

inductive ConditionPlace where
  | before
  | after
  | either
  deriving DecidableEq

/-- A type alias with bounds, conditions and a type, each of which may be missing. -/
def aliasItem (place : ConditionPlace) : TreeParser Unit := do
  word "type"
  name
  g.generics
  if ← trySign ":" then
    separated "+" (fun trees => Look.keyword "where" trees || Look.anySign ["=", ";"] trees)
      (discard (g.bound false true))
  let conditioned := place ≠ .after && (← peek (Look.keyword "where"))
  if conditioned then g.conditions
  if ← trySign "=" then discard (g.type true)
  if place ≠ .before && !conditioned then g.conditions
  sign ";"

end Grammar

end AvroCompiler.Code

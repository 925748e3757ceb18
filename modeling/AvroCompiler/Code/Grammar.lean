import AvroCompiler.Code.TreeParser

namespace AvroCompiler.Code

inductive Form where
  /-- A type that is one name, perhaps with arguments in angle brackets. -/
  | name
  /-- A type that is another path, without a type at its start. -/
  | path
  | bound
  | parens
  | range
  | comparison
  /-- An expression that ends with a block and may stand as a statement. -/
  | block
  | bracedCall
  /-- A pattern that is a range without a start or an end. -/
  | openRange
  | other
  deriving DecidableEq, Repr

inductive Goal where
  | type (plus : Bool)
  | bound (capturing constant : Bool)
  | pattern
  /-- An expression, in which a brace after a path may begin the fields of a struct. -/
  | expression (structs : Bool)
  | operand (structs : Bool)
  /-- An expression that ends after a block at its start, unless something is taken from it. -/
  | leading
  | statements
  | item
  /-- What a `use` item names. A name in braces may begin with colons if `rooted`. -/
  | useTree (rooted : Bool)
  | fields

structure Grammar where
  fuel : Nat
  parse : Goal → TreeParser Form

namespace Grammar

variable (g : Grammar)

def type (plus : Bool) : TreeParser Form :=
  g.parse (.type plus)

def bound (capturing constant : Bool) : TreeParser Bool := do
  return (← g.parse (.bound capturing constant)) = .bound

def expression (structs : Bool) : TreeParser Form :=
  g.parse (.expression structs)

def statements : TreeParser Unit :=
  discard (g.parse .statements)

end Grammar

end AvroCompiler.Code

import AvroCompiler.Code.Pattern

namespace AvroCompiler.Code

open TreeParser

inductive Precedence where
  | least
  | assign
  | range
  | either
  | both
  | compare
  | bitOr
  | bitXor
  | bitAnd
  | shift
  | sum
  | product
  | cast
  deriving DecidableEq, Repr

namespace Precedence

def rank : Precedence → Nat
  | least => 0
  | assign => 1
  | range => 2
  | either => 3
  | both => 4
  | compare => 5
  | bitOr => 6
  | bitXor => 7
  | bitAnd => 8
  | shift => 9
  | sum => 10
  | product => 11
  | cast => 12

end Precedence

/-- The operators. One that begins like another stands after it. -/
def binaryOperators : List (String × Precedence) :=
  [("+=", .assign), ("-=", .assign), ("*=", .assign), ("/=", .assign), ("%=", .assign),
   ("^=", .assign), ("&=", .assign), ("|=", .assign), ("<<=", .assign), (">>=", .assign),
   ("&&", .both), ("||", .either), ("<<", .shift), (">>", .shift), ("==", .compare),
   ("<=", .compare), ("!=", .compare), (">=", .compare), ("+", .sum), ("-", .sum), ("*", .product),
   ("/", .product), ("%", .product), ("^", .bitXor), ("&", .bitAnd), ("|", .bitOr), ("<", .compare),
   (">", .compare)]

def binaryOperator? (trees : List Tree) : Option (String × Precedence) :=
  binaryOperators.find? fun (text, _) => Look.sign text trees

def nextPrecedence (trees : List Tree) : Precedence :=
  match binaryOperator? trees with
  | some (_, precedence) => precedence
  | none =>
    if Look.signBut "=" ["=>"] trees then .assign
    else if Look.sign ".." trees then .range
    else if Look.keyword "as" trees then .cast
    else .least

/-- What takes something from a value; it may not follow a cast. -/
def beginsAccess : Look := fun trees =>
  Look.signBut "." [".."] trees || Look.sign "?" trees || Look.group .bracket trees ||
    Look.group .paren trees

def endsOpenRange (structs : Bool) : Look := fun trees =>
  Look.ended trees || Look.signBut "." [".."] trees || (!structs && Look.group .brace trees) ||
    Look.anySign [",", ";", "?", "=", "+", "/", "%", "^", ">", "<=", "!=", "-=", "*=", "&=", "|=",
      "<<="] trees ||
    Look.keyword "as" trees

namespace Grammar

variable (g : Grammar) (structs : Bool)

mutual

/-- Goes on after an operand with the operators that bind at least as tightly as `base`. -/
def operators : Nat → Precedence → Form → TreeParser Form
  | 0, _, _ => failure
  | fuel + 1, base, form => do
    if form = .range then return form
    let trees ← get
    match binaryOperator? trees with
    | some (text, precedence) =>
      if precedence.rank < base.rank then return form
      guard !(precedence = .compare && form = .comparison)
      sign text
      rightSide fuel precedence
      operators fuel base (if precedence = .compare then .comparison else .other)
    | none =>
      if base.rank ≤ Precedence.assign.rank && Look.signBut "=" ["=>"] trees then
        sign "="
        rightSide fuel .assign
        operators fuel base .other
      else if base.rank ≤ Precedence.range.rank && Look.sign ".." trees then
        restOfOpenRange fuel
        return .range
      else if base.rank ≤ Precedence.cast.rank && Look.keyword "as" trees then
        word "as"
        discard (g.type false)
        guard !(← peek beginsAccess)
        operators fuel base .other
      else return form

def rightSide : Nat → Precedence → TreeParser Unit
  | 0, _ => failure
  | fuel + 1, precedence => do
    tighter fuel precedence (← g.parse (.operand structs))

/-- Goes on after an operand as long as what follows binds tighter. -/
def tighter : Nat → Precedence → Form → TreeParser Unit
  | 0, _, _ => failure
  | fuel + 1, precedence, form => do
    let next := nextPrecedence (← get)
    if form ≠ .range &&
        (precedence.rank < next.rank || (next = .assign && precedence = .assign)) then
      tighter fuel precedence (← operators fuel next form)

def restOfOpenRange : Nat → TreeParser Unit
  | 0 => failure
  | fuel + 1 => do
    let closed ← rangeLimits false
    if closed || !(← peek (endsOpenRange structs)) then rightSide fuel .range

end

def afterOperand (base : Precedence) (form : Form) : TreeParser Form :=
  g.operators structs g.fuel base form

def expressionRule : TreeParser Form := do
  let form ← g.parse (.operand structs)
  g.afterOperand structs .least form

end Grammar

end AvroCompiler.Code

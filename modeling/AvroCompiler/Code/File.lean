import AvroCompiler.Code.Statement

namespace AvroCompiler.Code

namespace Grammar

def rule (g : Grammar) : Goal → TreeParser Form
  | .type plus => g.typeRule plus
  | .bound capturing constant => g.boundRule capturing constant
  | .pattern => g.patternRule
  | .expression structs => g.expressionRule structs
  | .operand structs => g.operandRule structs
  | .leading => g.leadingRule
  | .statements => g.statementsRule
  | .item => g.itemRule
  | .useTree rooted => g.useTreeRule rooted
  | .fields => g.fieldsRule

/-- Reads a goal whose parts are nested at most as deep as the fuel says. -/
def parseWith : Nat → Goal → TreeParser Form
  | 0, _ => failure
  | fuel + 1, goal => rule ⟨fuel, parseWith fuel⟩ goal

/-- The grammar of texts up to a length. A text nests fewer than four goals for each of its
characters, and a loop takes fewer than four steps for each, so half of the fuel is left for the
loops. -/
def upTo (length : Nat) : Grammar :=
  ⟨8 * length + 8, parseWith (8 * length + 8)⟩

end Grammar

def isFile (text : String) : Bool :=
  match trees? text with
  | some trees =>
    ((Grammar.upTo text.length).itemsToEnd.run trees).any fun (_, rest) => rest.isEmpty
  | none => false

end AvroCompiler.Code

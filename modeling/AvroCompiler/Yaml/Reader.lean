import AvroCompiler.Settings.Layer
import AvroCompiler.Yaml.Node

namespace AvroCompiler.Yaml

def Node.key? : Node → Option String
  | .text key => some key
  | .integer value => some (toString value)
  | _ => none

mutual

def Node.setting? : Node → Option Setting
  | .invalid => some .nothing
  | .null => some .nothing
  | .flag value => some (.flag value)
  | .integer value => some (.integer value)
  | .real text => (Setting.readReal? text.toList).map .real
  | .text value => some (.text value)
  | .list items => (settings? items).map .list
  | .map entries => (entrySettings? [] entries).map .table

def settings? : List Node → Option (List Setting)
  | [] => some []
  | node :: rest => do return (← node.setting?) :: (← settings? rest)

def entrySettings? (seen : Layer) : List (Node × Node) → Option Layer
  | [] => some seen
  | (key, node) :: rest => do
    let setting ← node.setting?
    entrySettings? (putSetting (← key.key?) setting seen) rest

end

/-- The tokens from the first node of the document on. Directives need the mark of a document. -/
def documentTokens? (tokens : List Token) : Option (List Token) :=
  match tokens.dropWhile (· = .directive) with
  | .documentStart :: rest => some rest
  | rest => if tokens.head? = some .directive then none else some rest

def isEmptyDocument (rest : List Token) : Bool :=
  rest.head?.all fun token =>
    token = .directive || token = .documentStart || token = .documentEnd

/-- The node of the one document. Its end may be marked, more than once. -/
def document? (tokens : List Token) : Option Node := do
  let start ← documentTokens? tokens
  let parsed ←
    if tokens ≠ start && isEmptyDocument start then some ⟨.null, start, {}⟩
    else takeNode (3 * tokens.length + 3) .block {} start
  if parsed.rest.all (· = .documentEnd) then some parsed.value else none

def read? (text : String) : Option Layer := do
  match ← tokens? text with
  | [] => some []
  | tokens =>
    match ← (← document? tokens).setting? with
    | .table entries => some entries
    | _ => none

end AvroCompiler.Yaml

import AvroCompiler.Settings.Value
import AvroCompiler.Yaml.Token

namespace AvroCompiler.Yaml

inductive Node where
  /-- A value that does not fit its tag, or a reference to an anchor that has no value yet. -/
  | invalid
  | null
  | flag (value : Bool)
  | integer (value : Int)
  | real (text : String)
  | text (value : String)
  | list (items : List Node)
  | map (entries : List (Node × Node))
  deriving Inhabited

namespace Node

def isInvalid : Node → Bool
  | .invalid => true
  | _ => false

def readBased? (base : Nat) (cs : List Char) : Option Int := do
  let (negative, digits) := splitSign cs
  let values ← digits.mapM Json.hexValue?
  guard (values ≠ [] ∧ values.all (· < base))
  let size := values.foldl (fun n digit => n * base + digit) 0
  let value : Int := if negative then -(size : Int) else size
  if fitsWord value then some value else none

def infinityWords : List String :=
  [".inf", ".Inf", ".INF", "+.inf", "+.Inf", "+.INF", "-.inf", "-.Inf", "-.INF"]

def isReal (word : String) : Bool :=
  infinityWords.contains word || [".nan", "NaN", ".NAN"].contains word ||
  (Setting.readReal? word.toList).isSome

def plainInteger? (cs : List Char) : Option Int :=
  match cs with
  | '0' :: 'x' :: rest => (readBased? 16 rest).or (Setting.readInteger? cs)
  | '0' :: 'o' :: rest => (readBased? 8 rest).or (Setting.readInteger? cs)
  | '+' :: rest => (Setting.readInteger? rest).or (Setting.readInteger? cs)
  | _ => Setting.readInteger? cs

def ofPlain (word : String) : Node :=
  match plainInteger? word.toList with
  | some value => .integer value
  | none =>
    if word = "~" ∨ word = "null" then .null
    else if word = "true" then .flag true
    else if word = "false" then .flag false
    else if isReal word then .real word
    else .text word

/-- A plain text with a tag. Only the tags of the core types change how it is read. -/
def ofTagged (tag : Tag) (word : String) : Node :=
  if tag.handle ≠ "!!" then .text word
  else if tag.suffix = "bool" then
    if word = "true" then .flag true else if word = "false" then .flag false else .invalid
  else if tag.suffix = "int" then
    match Setting.readInteger? word.toList with
    | some value => .integer value
    | none => .invalid
  else if tag.suffix = "float" then if isReal word then .real word else .invalid
  else if tag.suffix = "null" then if word = "~" ∨ word = "null" then .null else .invalid
  else .text word

def ofScalar (tag : Option Tag) (plain : Bool) (word : String) : Node :=
  if !plain then .text word
  else
    match tag with
    | some tag => ofTagged tag word
    | none => ofPlain word

/-- Keys and values in turn. An invalid node is no key, so the next one takes its place. -/
def pairUp (key : Option Node) : List Node → List (Node × Node)
  | [] => []
  | node :: rest =>
    match key with
    | none => pairUp (if node.isInvalid then none else some node) rest
    | some k => (k, node) :: pairUp none rest

end Node

/-- The anchors seen so far, by number, and the nodes of those that are finished. -/
structure Anchors where
  names : List (String × Nat) := []
  nodes : List (Nat × Node) := []

namespace Anchors

def define (anchors : Anchors) (name : String) : Nat × Anchors :=
  let number := anchors.names.length
  (number, { anchors with names := (name, number) :: anchors.names })

def finish (anchors : Anchors) (number : Option Nat) (node : Node) : Anchors :=
  match number with
  | some n => { anchors with nodes := (n, node) :: anchors.nodes }
  | none => anchors

/-- The node of a name; an anchor that is not finished has an invalid one. -/
def find? (anchors : Anchors) (name : String) : Option Node :=
  (anchors.names.lookup name).map fun number => (anchors.nodes.lookup number).getD .invalid

end Anchors

structure Parsed (α : Type) where
  value : α
  rest : List Token
  anchors : Anchors

def takeProperties (anchors : Anchors) : List Token → Option Nat × Option Tag × Parsed Unit
  | .anchor name :: .tag tag :: rest =>
    let (number, anchors) := anchors.define name
    (some number, some tag, ⟨(), rest, anchors⟩)
  | .tag tag :: .anchor name :: rest =>
    let (number, anchors) := anchors.define name
    (some number, some tag, ⟨(), rest, anchors⟩)
  | .anchor name :: rest =>
    let (number, anchors) := anchors.define name
    (some number, none, ⟨(), rest, anchors⟩)
  | .tag tag :: rest => (none, some tag, ⟨(), rest, anchors⟩)
  | rest => (none, none, ⟨(), rest, anchors⟩)

/-- Blocks may open here, and so may a sequence that is not indented. -/
inductive Context where
  | flow
  | block
  | blockOrDashes
  deriving DecidableEq

def endsBlockPart (rest : List Token) : Bool :=
  rest.head?.any fun token => token = .key || token = .value || token = .blockEnd

def endsDash (rest : List Token) : Bool :=
  rest.head?.any fun token => token = .dash || token = .blockEnd

def endsBracePart (rest : List Token) : Bool :=
  rest.head?.any fun token => token = .comma || token = .closeBrace

def endsBracketPart (rest : List Token) : Bool :=
  rest.head?.any fun token => token = .comma || token = .closeBracket

mutual

/-- A node. Fuel bounds the number of steps. -/
def takeNode : Nat → Context → Anchors → List Token → Option (Parsed Node)
  | 0, _, _, _ => none
  | fuel + 1, context, anchors, tokens =>
    match tokens with
    | .alias name :: rest => do return ⟨← anchors.find? name, rest, anchors⟩
    | _ =>
      let (number, tag, ⟨_, rest, anchors⟩) := takeProperties anchors tokens
      let finish (parsed : Parsed (List Node)) (node : Node) : Parsed Node :=
        ⟨node, parsed.rest, parsed.anchors.finish number node⟩
      match rest with
      | .scalar plain word :: rest =>
        let node := Node.ofScalar tag plain word
        some ⟨node, rest, anchors.finish number node⟩
      | .openBracket :: rest => do
        let parsed ← takeBracketed fuel true [] anchors rest
        return finish parsed (.list parsed.value)
      | .openBrace :: rest => do
        let parsed ← takeBraced fuel true [] anchors rest
        return finish parsed (.map (Node.pairUp none parsed.value))
      | _ =>
        match rest, context with
        | .dash :: _, .blockOrDashes => do
          let parsed ← takeDashes fuel [] anchors rest
          return finish parsed (.list parsed.value)
        | .sequenceStart :: rest, .block => do
          let parsed ← takeSequence fuel [] anchors rest
          return finish parsed (.list parsed.value)
        | .sequenceStart :: rest, .blockOrDashes => do
          let parsed ← takeSequence fuel [] anchors rest
          return finish parsed (.list parsed.value)
        | .mappingStart :: rest, .block => do
          let parsed ← takeMapping fuel [] anchors rest
          return finish parsed (.map (Node.pairUp none parsed.value))
        | .mappingStart :: rest, .blockOrDashes => do
          let parsed ← takeMapping fuel [] anchors rest
          return finish parsed (.map (Node.pairUp none parsed.value))
        | _, _ =>
          if number.isSome || tag.isSome then
            let node := Node.ofScalar tag true ""
            some ⟨node, rest, anchors.finish number node⟩
          else none

def takeMapping : Nat → List Node → Anchors → List Token → Option (Parsed (List Node))
  | 0, _, _, _ => none
  | fuel + 1, nodes, anchors, tokens =>
    match tokens with
    | .blockEnd :: rest => some ⟨nodes, rest, anchors⟩
    | .key :: rest => do
      let key ← if endsBlockPart rest then some ⟨.null, rest, anchors⟩
        else takeNode fuel .blockOrDashes anchors rest
      let value ← takeMappingValue fuel key.anchors key.rest
      takeMapping fuel (nodes ++ [key.value, value.value]) value.anchors value.rest
    | .value :: _ => do
      let value ← takeMappingValue fuel anchors tokens
      takeMapping fuel (nodes ++ [.null, value.value]) value.anchors value.rest
    | _ => none

def takeMappingValue : Nat → Anchors → List Token → Option (Parsed Node)
  | 0, _, _ => none
  | fuel + 1, anchors, tokens =>
    match tokens with
    | .value :: rest =>
      if endsBlockPart rest then some ⟨.null, rest, anchors⟩
      else takeNode fuel .blockOrDashes anchors rest
    | _ => some ⟨.null, tokens, anchors⟩

def takeSequence : Nat → List Node → Anchors → List Token → Option (Parsed (List Node))
  | 0, _, _, _ => none
  | fuel + 1, nodes, anchors, tokens =>
    match tokens with
    | .blockEnd :: rest => some ⟨nodes, rest, anchors⟩
    | .dash :: rest => do
      let item ← if endsDash rest then some ⟨.null, rest, anchors⟩
        else takeNode fuel .block anchors rest
      takeSequence fuel (nodes ++ [item.value]) item.anchors item.rest
    | _ => none

def takeDashes : Nat → List Node → Anchors → List Token → Option (Parsed (List Node))
  | 0, _, _, _ => none
  | fuel + 1, nodes, anchors, tokens =>
    match tokens with
    | .dash :: rest => do
      let item ← if endsDash rest || endsBlockPart rest then some ⟨.null, rest, anchors⟩
        else takeNode fuel .block anchors rest
      takeDashes fuel (nodes ++ [item.value]) item.anchors item.rest
    | _ => some ⟨nodes, tokens, anchors⟩

/-- The items between brackets. An item that is marked as a key is a mapping of one entry. -/
def takeBracketed : Nat → Bool → List Node → Anchors → List Token → Option (Parsed (List Node))
  | 0, _, _, _, _ => none
  | fuel + 1, first, nodes, anchors, tokens =>
    match tokens, first with
    | .closeBracket :: rest, _ => some ⟨nodes, rest, anchors⟩
    | .comma :: rest, false => takeItem fuel nodes anchors rest
    | _, false => none
    | _, true => takeItem fuel nodes anchors tokens

def takeItem : Nat → List Node → Anchors → List Token → Option (Parsed (List Node))
  | 0, _, _, _ => none
  | fuel + 1, nodes, anchors, tokens =>
    match tokens with
    | .closeBracket :: rest => some ⟨nodes, rest, anchors⟩
    | .key :: rest => do
      let key ← if endsBracketPart rest || rest.head? = some .value then
          some ⟨.null, rest.tail, anchors⟩
        else takeNode fuel .flow anchors rest
      let value ← match key.rest with
        | .value :: rest =>
          if endsBracketPart rest then some ⟨.null, rest, key.anchors⟩
          else takeNode fuel .flow key.anchors rest
        | rest => some ⟨.null, rest, key.anchors⟩
      let entry := Node.map (Node.pairUp none [key.value, value.value])
      takeBracketed fuel false (nodes ++ [entry]) value.anchors value.rest
    | _ => do
      let item ← takeNode fuel .flow anchors tokens
      takeBracketed fuel false (nodes ++ [item.value]) item.anchors item.rest

def takeBraced : Nat → Bool → List Node → Anchors → List Token → Option (Parsed (List Node))
  | 0, _, _, _, _ => none
  | fuel + 1, first, nodes, anchors, tokens =>
    match tokens, first with
    | .closeBrace :: rest, _ => some ⟨nodes, rest, anchors⟩
    | .comma :: rest, false => takeEntry fuel nodes anchors rest
    | _, false => none
    | _, true => takeEntry fuel nodes anchors tokens

def takeEntry : Nat → List Node → Anchors → List Token → Option (Parsed (List Node))
  | 0, _, _, _ => none
  | fuel + 1, nodes, anchors, tokens =>
    match tokens with
    | .closeBrace :: rest => some ⟨nodes, rest, anchors⟩
    | .key :: rest => do
      let key ← if endsBracePart rest || rest.head? = some .value then some ⟨.null, rest, anchors⟩
        else takeNode fuel .flow anchors rest
      let value ← takeBraceValue fuel key.anchors key.rest
      takeBraced fuel false (nodes ++ [key.value, value.value]) value.anchors value.rest
    | .value :: _ => do
      let value ← takeBraceValue fuel anchors tokens
      takeBraced fuel false (nodes ++ [.null, value.value]) value.anchors value.rest
    | _ => do
      let key ← takeNode fuel .flow anchors tokens
      takeBraced fuel false (nodes ++ [key.value, .null]) key.anchors key.rest

def takeBraceValue : Nat → Anchors → List Token → Option (Parsed Node)
  | 0, _, _ => none
  | fuel + 1, anchors, tokens =>
    match tokens with
    | .value :: rest =>
      if endsBracePart rest then some ⟨.null, rest, anchors⟩ else takeNode fuel .flow anchors rest
    | _ => some ⟨.null, tokens, anchors⟩

end

end AvroCompiler.Yaml

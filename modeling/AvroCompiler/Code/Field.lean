import AvroCompiler.Code.Expression

namespace AvroCompiler.Code

open TreeParser

namespace Grammar

variable (g : Grammar)

def fields : TreeParser Unit :=
  discard (g.parse .fields)

/-- A field with its name. One without a name may have the fields of another struct as its type. -/
def namedField : TreeParser Unit := do
  g.attributes
  discard visibility
  let unnamed ← tryWord "_"
  if !unnamed then name
  sign ":"
  let trees ← get
  if unnamed && (Look.keyword "struct" trees ||
      (Look.keyword "union" trees && Look.second (Look.group .brace) trees)) then
    discard anyWord
    inside .brace g.fields
  else discard (g.type true)

def fieldsRule : TreeParser Form := do
  list g.namedField
  return .other

def placedFields : TreeParser Unit :=
  list do
    g.attributes
    discard visibility
    discard (g.type true)

def variant : TreeParser Unit := do
  g.attributes
  discard visibility
  name
  let trees ← get
  if Look.group .brace trees then inside .brace g.fields
  else if Look.group .paren trees then inside .paren g.placedFields
  if ← trySign "=" then discard (g.expression true)

def structBody : TreeParser Unit := do
  let conditioned ← peek (Look.keyword "where")
  g.conditions
  let trees ← get
  if !conditioned && Look.group .paren trees then
    inside .paren g.placedFields
    g.conditions
    sign ";"
  else if Look.group .brace trees then inside .brace g.fields
  else sign ";"

def structItem : TreeParser Unit := do
  word "struct"
  name
  g.generics
  g.structBody

def enumItem : TreeParser Unit := do
  word "enum"
  name
  g.generics
  g.conditions
  inside .brace (list g.variant)

def unionItem : TreeParser Unit := do
  word "union"
  name
  g.generics
  g.conditions
  inside .brace g.fields

end Grammar

end AvroCompiler.Code

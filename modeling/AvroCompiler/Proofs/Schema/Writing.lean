import AvroCompiler.Proofs.Json.Writing
import AvroCompiler.Proofs.Schema.Naming
import AvroCompiler.Proofs.Schema.Run

namespace AvroCompiler

open Json (member? stringMember?)

def Primitive.schemaName : Primitive → String
  | .null => "null"
  | .boolean => "boolean"
  | .int => "int"
  | .long => "long"
  | .float => "float"
  | .double => "double"
  | .bytes => "bytes"
  | .string => "string"

def Fixed.members (type : Fixed) : Json.Members :=
  [("type", .string "fixed"), ("name", .string type.name),
   ("size", .scalar (.number (.integer type.size)))]

def Enumeration.members (type : Enumeration) : Json.Members :=
  [("type", .string "enum"), ("name", .string type.name),
   ("symbols", .array (type.symbols.map .string))]

def docMembers (doc : Option String) : Json.Members :=
  doc.toList.map fun text => ("doc", .string text)

mutual

/-- A schema as it is written. There is nothing to write where one is malformed. -/
def Schema.written : Schema → Json.Value
  | .invalid _ => .object []
  | .primitive kind => .string kind.schemaName
  | .reference name => .string name
  | .fixed type => .object type.members
  | .enumeration type => .object type.members
  | .array items => .object [("type", .string "array"), ("items", items.written)]
  | .map values => .object [("type", .string "map"), ("values", values.written)]
  | .union branches => .array (Schema.writtenAll branches)
  | .record name doc fields => .object
    (("type", .string "record") :: ("name", .string name) :: ("fields", .array fields.written) ::
      docMembers doc)

def Schema.writtenAll : List Schema → List Json.Value
  | [] => []
  | schema :: schemas => schema.written :: Schema.writtenAll schemas

def FieldSchemas.written : FieldSchemas → List Json.Value
  | .done | .invalid _ => []
  | .cons name doc schema rest =>
    .object (("name", .string name) :: ("type", schema.written) :: docMembers doc) :: rest.written

end

def Schema.text (schema : Schema) : String :=
  schema.written.text

mutual

/-- The names of a schema are spelled well, and its fixed types and enumerations can be made. -/
def Schema.isSpelled : Schema → Bool
  | .invalid _ => false
  | .primitive _ => true
  | .reference name => isName name && (Primitive.ofName? name).isNone
  | .fixed type => isName type.name && decide (Declarable type.name)
  | .enumeration type => isName type.name && decide (Declarable type.name) && !type.symbols.isEmpty &&
      type.symbols.all isName && (Enumeration.symbolFault? [] type.symbols).isNone
  | .array items => items.isSpelled
  | .map values => values.isSpelled
  | .union branches => Schema.areSpelled branches
  | .record name _ fields => isName name && fields.areSpelled

def Schema.areSpelled : List Schema → Bool
  | [] => true
  | schema :: schemas => schema.isSpelled && Schema.areSpelled schemas

def FieldSchemas.areSpelled : FieldSchemas → Bool
  | .done => true
  | .invalid _ => false
  | .cons name _ schema rest => isName name && schema.isSpelled && rest.areSpelled

end

theorem stringMember?_doc (doc : Option String) : stringMember? "doc" (docMembers doc) = doc := by
  cases doc <;> rfl

theorem readSymbols_of_isName {enumeration : String} {symbols : List String}
    (spelled : ∀ symbol ∈ symbols, isName symbol = true) :
    readSymbols enumeration (symbols.map .string) = .ok symbols := by
  induction symbols with
  | nil => rfl
  | cons symbol symbols ih =>
    obtain ⟨first, others⟩ := List.forall_mem_cons.mp spelled
    rw [List.map_cons, readSymbols, checkName_of_isName first, ih others]
    rfl

theorem readFixed_members {type : Fixed} (spelled : isName type.name = true)
    (declarable : Declarable type.name) : readFixed type.members = .ok type := by
  have named : requiredName type.members = .ok type.name := requiredName_of_isName rfl spelled
  rw [readFixed, named]
  exact if_pos declarable

theorem readEnumeration_members {type : Enumeration} (spelled : isName type.name = true)
    (symbols : ∀ symbol ∈ type.symbols, isName symbol = true)
    (made : Enumeration.make type.name type.symbols = .ok type) :
    readEnumeration type.members = .ok type := by
  have named : requiredName type.members = .ok type.name := requiredName_of_isName rfl spelled
  have listed : member? "symbols" type.members = some (.array (type.symbols.map .string)) := rfl
  rw [readEnumeration, named]
  dsimp only [bind, Except.bind]
  rw [listed]
  dsimp only
  rw [readSymbols_of_isName symbols]
  exact made

namespace Schema

theorem ofName_schemaName (kind : Primitive) : ofName kind.schemaName = .primitive kind := by
  cases kind <;> rfl

theorem ofName_of_isName {name : String} (spelled : isName name = true)
    (free : Primitive.ofName? name = none) : ofName name = .reference name := by
  rw [ofName, free]
  dsimp only
  rw [shortName_of_isName spelled, checkName_of_isName spelled]
  rfl

section Object

variable {members : Json.Members}

theorem ofJson_record {name : String} {items : List Json.Value}
    (typed : member? "type" members = some (.string "record"))
    (named : requiredName members = .ok name) (listed : member? "fields" members = some (.array items)) :
    ofJson (.object members) = .record name (stringMember? "doc" members) (ofFields name items) := by
  rw [ofJson.eq_def]
  grind

theorem ofJson_enumeration (typed : member? "type" members = some (.string "enum")) :
    ofJson (.object members) = ofExcept .enumeration (readEnumeration members) := by
  rw [ofJson.eq_def]
  dsimp only
  grind

theorem ofJson_fixed (typed : member? "type" members = some (.string "fixed")) :
    ofJson (.object members) = ofExcept .fixed (readFixed members) := by
  rw [ofJson.eq_def]
  dsimp only
  grind

theorem ofJson_array {items : Json.Value} (typed : member? "type" members = some (.string "array"))
    (held : member? "items" members = some items) :
    ofJson (.object members) = .array (ofJson items) := by
  rw [ofJson.eq_def]
  dsimp only
  grind

theorem ofJson_map {values : Json.Value} (typed : member? "type" members = some (.string "map"))
    (held : member? "values" members = some values) :
    ofJson (.object members) = .map (ofJson values) := by
  rw [ofJson.eq_def]
  dsimp only
  grind

theorem ofFields_cons {name : String} {value : Json.Value}
    (named : stringMember? "name" members = some name) (spelled : isName name = true)
    (typed : member? "type" members = some value) (record : String) (rest : List Json.Value) :
    ofFields record (.object members :: rest) =
      .cons name (stringMember? "doc" members) (ofJson value) (ofFields record rest) := by
  rw [ofFields, named]
  dsimp only
  rw [checkName_of_isName spelled]
  dsimp only
  grind

end Object

mutual

/-- A schema is read back from what is written for it. -/
theorem ofJson_written (schema : Schema) (spelled : schema.isSpelled = true) :
    ofJson schema.written = schema := by
  cases schema with
  | invalid error => cases spelled
  | primitive kind =>
    rw [written, ofJson]
    exact ofName_schemaName kind
  | reference name =>
    rw [isSpelled, Bool.and_eq_true, Option.isNone_iff_eq_none] at spelled
    rw [written, ofJson]
    exact ofName_of_isName spelled.1 spelled.2
  | fixed type =>
    rw [isSpelled, Bool.and_eq_true, decide_eq_true_eq] at spelled
    rw [written, ofJson_fixed rfl, readFixed_members spelled.1 spelled.2]
    rfl
  | enumeration type =>
    simp only [isSpelled, Bool.and_eq_true, decide_eq_true_eq, List.all_eq_true,
      Option.isNone_iff_eq_none] at spelled
    obtain ⟨⟨⟨⟨named, declarable⟩, some⟩, symbols⟩, faultless⟩ := spelled
    have made := Enumeration.make_of_declarable declarable (by simpa using some) faultless
    rw [written, ofJson_enumeration rfl, readEnumeration_members named symbols made]
    rfl
  | array items =>
    rw [written, ofJson_array rfl rfl, ofJson_written items spelled]
  | map values =>
    rw [written, ofJson_map rfl rfl, ofJson_written values spelled]
  | union branches =>
    rw [written, ofJson, ofItems_writtenAll branches spelled]
  | record name doc fields =>
    rw [isSpelled, Bool.and_eq_true] at spelled
    obtain ⟨named, fielded⟩ := spelled
    rw [written, ofJson_record rfl (requiredName_of_isName rfl named) rfl,
      ofFields_written fields fielded]
    exact congrArg (record name · fields) (stringMember?_doc doc)

theorem ofItems_writtenAll (schemas : List Schema) (spelled : areSpelled schemas = true) :
    ofItems (writtenAll schemas) = schemas := by
  cases schemas with
  | nil => rw [writtenAll, ofItems]
  | cons schema schemas =>
    rw [areSpelled, Bool.and_eq_true] at spelled
    rw [writtenAll, ofItems, ofJson_written schema spelled.1, ofItems_writtenAll schemas spelled.2]

theorem ofFields_written {record : String} (fields : FieldSchemas) (spelled : fields.areSpelled = true) :
    ofFields record fields.written = fields := by
  cases fields with
  | done => rw [FieldSchemas.written, ofFields]
  | invalid error => cases spelled
  | cons name doc schema rest =>
    rw [FieldSchemas.areSpelled, Bool.and_eq_true, Bool.and_eq_true] at spelled
    obtain ⟨⟨named, first⟩, others⟩ := spelled
    rw [FieldSchemas.written, ofFields_cons rfl named rfl, ofJson_written schema first,
      ofFields_written rest others]
    exact congrArg (FieldSchemas.cons name · schema rest) (stringMember?_doc doc)

end

end Schema

theorem Schema.read_text {schema : Schema} (spelled : schema.isSpelled = true)
    (plain : schema.written.isPlain Json.depthLimit = true) :
    ∃ value, Json.read schema.text = .ok value ∧ ofJson value = schema :=
  ⟨schema.written, Json.read_text plain, ofJson_written schema spelled⟩

theorem Schema.exists_run_shapes {branches : List Schema} {shape : Shape} {ns ns' : Namespace}
    (runs : (union branches).shape.runFrom ns = (.ok shape, ns')) :
    ∃ shapes, (Schema.shapes branches).runFrom ns = (.ok shapes, ns') := by
  unfold Schema.shape at runs
  rw [Reading.runFrom_bind] at runs
  split at runs
  · rename_i shapes middle inner
    obtain rfl : middle = ns' := congrArg Prod.snd runs
    exact ⟨shapes, inner⟩
  · cases runs

/-- A document of one schema adds what the schema defines, also where it is a list and the schema a
union. -/
theorem readDocument_text {schema : Schema} (spelled : schema.isSpelled = true)
    (plain : schema.written.isPlain Json.depthLimit = true) {shape : Shape} {ns ns' : Namespace}
    (runs : schema.shape.runFrom ns = (.ok shape, ns')) :
    (readDocument schema.text).runFrom ns = (.ok (), ns') := by
  obtain ⟨value, parses, rfl⟩ := Schema.read_text spelled plain
  have loaded : ∃ shapes, (Schema.shapes (Document.ofJson value)).runFrom ns = (.ok shapes, ns') := by
    cases value with
    | array items =>
      rw [Schema.ofJson] at runs
      exact Schema.exists_run_shapes runs
    | scalar | string | object => exact ⟨[shape], Schema.run_shapes_cons runs rfl⟩
  obtain ⟨shapes, loaded⟩ := loaded
  rw [readDocument, parses]
  dsimp only
  rw [Document.load, Reading.run_bind loaded]
  rfl

theorem readDocuments_text {schema : Schema} (spelled : schema.isSpelled = true)
    (plain : schema.written.isPlain Json.depthLimit = true) {shape : Shape} {ns : Namespace}
    (runs : schema.shape.runFrom .empty = (.ok shape, ns)) :
    (readDocuments [schema.text]).runFrom .empty = (.ok (), ns) :=
  readDocuments_cons (readDocument_text spelled plain runs) rfl

end AvroCompiler

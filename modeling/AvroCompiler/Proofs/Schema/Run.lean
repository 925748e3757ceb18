import AvroCompiler.Schema.Reader

namespace AvroCompiler

namespace Reading

theorem runFrom_bind {α β : Type} (first : Reading α) (rest : α → Reading β) (ns : Namespace) :
    (first >>= rest).runFrom ns =
      match first.runFrom ns with
      | (.ok a, middle) => (rest a).runFrom middle
      | (.error error, middle) => (.error error, middle) := by
  have run : (first >>= rest).runFrom ns =
      (ExceptT.bindCont rest (first.runFrom ns).1 : StateM Namespace _) (first.runFrom ns).2 := rfl
  rw [run]
  generalize first.runFrom ns = outcome
  obtain ⟨error | a, middle⟩ := outcome <;> rfl

theorem run_bind {α β : Type} {first : Reading α} {rest : α → Reading β} {ns middle : Namespace}
    {a : α} (h : first.runFrom ns = (.ok a, middle)) :
    (first >>= rest).runFrom ns = (rest a).runFrom middle := by
  rw [runFrom_bind, h]

theorem run_change {update : Namespace → Except Error Namespace} {ns ns' : Namespace}
    (h : update ns = .ok ns') : (change update).runFrom ns = (.ok (), ns') := by
  unfold runFrom change
  rw [h]

theorem run_lift {α : Type} {result : Except Error α} {a : α} (h : result = .ok a) (ns : Namespace) :
    (lift result).runFrom ns = (.ok a, ns) := by
  subst h
  rfl

end Reading

/-- A declarable name is declared unless it is stored as a type that is no record. -/
theorem declare_of_declarable {ns ns' : Namespace} {name : String} (declarable : Declarable name)
    (record : ∀ type, ns.get? name = some type → type.isRecord = true)
    (opened : ns' = if name ∈ ns.declared then ns else { ns with declared := name :: ns.declared }) :
    ns.declare name = .ok ns' := by
  unfold Namespace.declare
  rw [if_neg (not_not_intro declarable)]
  split
  · rename_i stored
    cases record _ stored
  · rename_i stored
    cases record _ stored
  · rw [opened]
    split <;> rfl

theorem Record.make_of_declarable {name : String} {doc : Option String} {fields : List Field}
    (declarable : Declarable name) (apart : repeatedMember? [] fields = none) :
    make name doc fields = .ok ⟨name, doc, fields⟩ := by
  unfold make
  rw [if_neg (not_not_intro declarable), apart]

theorem Enumeration.make_of_declarable {name : String} {symbols : List String}
    (declarable : Declarable name) (some : symbols ≠ []) (faultless : symbolFault? [] symbols = none) :
    make name symbols = .ok ⟨name, symbols⟩ := by
  unfold make
  rw [if_neg (not_not_intro declarable), if_neg some, faultless]

namespace Schema

variable {ns middle ns' : Namespace}

theorem run_array {items : Schema} {inner : Shape} (h : items.shape.runFrom ns = (.ok inner, ns')) :
    (array items).shape.runFrom ns = (.ok (.array inner), ns') := by
  unfold shape
  rw [Reading.run_bind h]
  rfl

theorem run_shapes_cons {schema : Schema} {schemas : List Schema} {first : Shape} {others : List Shape}
    (h : schema.shape.runFrom ns = (.ok first, middle))
    (rest : (shapes schemas).runFrom middle = (.ok others, ns')) :
    (shapes (schema :: schemas)).runFrom ns = (.ok (first :: others), ns') := by
  unfold shapes
  rw [Reading.run_bind h, Reading.run_bind rest]
  rfl

theorem run_union {schemas : List Schema} {branches : List Shape} {shape : Shape}
    (h : (shapes schemas).runFrom ns = (.ok branches, ns'))
    (makes : Shape.makeUnion branches = .ok shape) :
    (union schemas).shape.runFrom ns = (.ok shape, ns') := by
  unfold Schema.shape
  rw [Reading.run_bind h]
  exact Reading.run_lift makes ns'

theorem run_fixed {type : Fixed} (defines : ns.define (.fixed type) = .ok ns') :
    (Schema.fixed type).shape.runFrom ns = (.ok (.fixed type), ns') := by
  unfold shape
  rw [Reading.run_bind (Reading.run_change defines)]
  rfl

theorem run_enumeration {type : Enumeration} (defines : ns.define (.enumeration type) = .ok ns') :
    (Schema.enumeration type).shape.runFrom ns = (.ok (.enumeration type), ns') := by
  unfold shape
  rw [Reading.run_bind (Reading.run_change defines)]
  rfl

theorem run_record {name : String} {doc : Option String} {fields : FieldSchemas} {inner : List Field}
    {record : Record} {declared : Namespace} (declares : ns.declare name = .ok declared)
    (reads : fields.fields.runFrom declared = (.ok inner, middle))
    (makes : Record.make name doc inner = .ok record)
    (defines : middle.define (.record record) = .ok ns') :
    (Schema.record name doc fields).shape.runFrom ns = (.ok (.record name), ns') := by
  unfold shape
  rw [Reading.run_bind (Reading.run_change declares), Reading.run_bind reads,
    Reading.run_bind (Reading.run_lift makes middle), Reading.run_bind (Reading.run_change defines)]
  rfl

theorem run_record_of_declarable {name : String} {doc : Option String} {fields : FieldSchemas}
    {inner : List Field} {opened : Namespace} (declarable : Declarable name)
    (record : ∀ type, ns.get? name = some type → type.isRecord = true)
    (opens : opened = if name ∈ ns.declared then ns else { ns with declared := name :: ns.declared })
    (reads : fields.fields.runFrom opened = (.ok inner, middle))
    (apart : Record.repeatedMember? [] inner = none)
    (defines : middle.define (.record ⟨name, doc, inner⟩) = .ok ns') :
    (Schema.record name doc fields).shape.runFrom ns = (.ok (.record name), ns') :=
  run_record (declare_of_declarable declarable record opens) reads
    (Record.make_of_declarable declarable apart) defines

theorem run_fields_cons {name : String} {doc : Option String} {schema : Schema} {rest : FieldSchemas}
    {shape : Shape} {others : List Field} (h : schema.shape.runFrom ns = (.ok shape, middle))
    (following : rest.fields.runFrom middle = (.ok others, ns')) :
    (FieldSchemas.cons name doc schema rest).fields.runFrom ns =
      (.ok (⟨name, shape, doc⟩ :: others), ns') := by
  unfold FieldSchemas.fields
  rw [Reading.run_bind h, Reading.run_bind following]
  rfl

end Schema

theorem readDocuments_cons {text : String} {texts : List String} {ns middle ns' : Namespace}
    (first : (readDocument text).runFrom ns = (.ok (), middle))
    (rest : (readDocuments texts).runFrom middle = (.ok (), ns')) :
    (readDocuments (text :: texts)).runFrom ns = (.ok (), ns') := by
  rw [readDocuments, Reading.run_bind first, rest]

end AvroCompiler

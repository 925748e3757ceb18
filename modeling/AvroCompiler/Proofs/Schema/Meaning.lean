import AvroCompiler.Proofs.Schema.Closure

namespace AvroCompiler

/-- The shape that a name refers to. A name that is not stored stands for a record. -/
def Namespace.referent (ns : Namespace) (name : String) : Shape :=
  match ns.get? name with
  | some type => type.shape
  | none => .record name

mutual

/-- The shape that a schema means where its references mean these shapes. A malformed schema is never
read to its end, so that its meaning does not matter. -/
def Schema.meaning (refer : String → Shape) : Schema → Shape
  | .invalid _ => .null
  | .primitive kind => .primitive kind
  | .reference name => refer name
  | .fixed type => .fixed type
  | .enumeration type => .enumeration type
  | .array items => .array (items.meaning refer)
  | .map values => .map (values.meaning refer)
  | .union branches => .union (Schema.meanings refer branches)
  | .record name _ _ => .record name

def Schema.meanings (refer : String → Shape) : List Schema → List Shape
  | [] => []
  | schema :: schemas => schema.meaning refer :: Schema.meanings refer schemas

def FieldSchemas.meaning (refer : String → Shape) : FieldSchemas → List Field
  | .done | .invalid _ => []
  | .cons name doc schema rest => ⟨name, schema.meaning refer, doc⟩ :: rest.meaning refer

end

mutual

def Schema.definitions (refer : String → Shape) : Schema → List NamedType
  | .invalid _ | .primitive _ | .reference _ => []
  | .fixed type => [.fixed type]
  | .enumeration type => [.enumeration type]
  | .array items => items.definitions refer
  | .map values => values.definitions refer
  | .union branches => Schema.allDefinitions refer branches
  | .record name doc fields =>
    fields.definitions refer ++ [.record ⟨name, doc, fields.meaning refer⟩]

def Schema.allDefinitions (refer : String → Shape) : List Schema → List NamedType
  | [] => []
  | schema :: schemas => schema.definitions refer ++ Schema.allDefinitions refer schemas

def FieldSchemas.definitions (refer : String → Shape) : FieldSchemas → List NamedType
  | .done | .invalid _ => []
  | .cons _ _ schema rest => schema.definitions refer ++ rest.definitions refer

end

mutual

/-- Which names a schema defines, and as what kind of type, does not hang on its references. -/
theorem Schema.definitions_outline (refer refer' : String → Shape) (schema : Schema) :
    (schema.definitions refer).map NamedType.shape = (schema.definitions refer').map NamedType.shape := by
  cases schema with
  | invalid | primitive | reference | fixed | enumeration => rfl
  | array items => exact Schema.definitions_outline refer refer' items
  | map values => exact Schema.definitions_outline refer refer' values
  | union branches => exact Schema.allDefinitions_outline refer refer' branches
  | record name doc fields =>
    have inner := FieldSchemas.definitions_outline refer refer' fields
    simp only [Schema.definitions, List.map_append, inner]
    rfl

theorem Schema.allDefinitions_outline (refer refer' : String → Shape) (schemas : List Schema) :
    (Schema.allDefinitions refer schemas).map NamedType.shape =
      (Schema.allDefinitions refer' schemas).map NamedType.shape := by
  cases schemas with
  | nil => rfl
  | cons schema schemas =>
    have first := Schema.definitions_outline refer refer' schema
    have others := Schema.allDefinitions_outline refer refer' schemas
    simp only [Schema.allDefinitions, List.map_append, first, others]

theorem FieldSchemas.definitions_outline (refer refer' : String → Shape) (schemas : FieldSchemas) :
    (schemas.definitions refer).map NamedType.shape = (schemas.definitions refer').map NamedType.shape := by
  cases schemas with
  | done | invalid => rfl
  | cons name doc schema rest =>
    have first := Schema.definitions_outline refer refer' schema
    have others := FieldSchemas.definitions_outline refer refer' rest
    simp only [FieldSchemas.definitions, List.map_append, first, others]

end

namespace Namespace

/-- The later namespace stores what the earlier one stores, and these types. -/
def Gains (ns ns' : Namespace) (types : List NamedType) : Prop :=
  ∀ name type, ns'.get? name = some type ↔ ns.get? name = some type ∨ type ∈ types ∧ type.name = name

variable {ns ns' ns'' : Namespace} {types types' : List NamedType}

theorem Gains.refl (ns : Namespace) : ns.Gains ns [] := by
  intro name type
  simp

theorem Gains.trans (first : ns.Gains ns' types) (second : ns'.Gains ns'' types') :
    ns.Gains ns'' (types ++ types') := by
  intro name type
  rw [second, first, List.mem_append, or_and_right, or_assoc]

theorem gains_of_declare {name : String} (h : ns.declare name = .ok ns') : ns.Gains ns' [] := by
  unfold declare at h
  split at h
  · cases h
  · split at h
    · cases h
    · cases h
    · split at h
      · cases h
        exact .refl ns
      · cases h
        exact fun other type => (Gains.refl ns) other type

theorem gains_of_define {type : NamedType} (h : ns.define type = .ok ns') : ns.Gains ns' [type] := by
  intro name other
  rw [List.mem_singleton]
  unfold define at h
  split at h
  · rename_i existing found
    split at h
    · rename_i same
      subst same
      cases h
      constructor
      · exact Or.inl
      · rintro (stored | ⟨rfl, rfl⟩)
        · exact stored
        · exact found
    · cases h
  · rename_i free
    split at h
    · cases h
    · cases h
      have after : get? ⟨ns.types.insert type.name type, ns.declared.filter (· ≠ type.name)⟩ name =
          if name = type.name then some type else ns.get? name :=
        Keyed.get?_insert ns.types type.name name type
      rw [after]
      split
      · rename_i same
        rw [same, free]
        constructor
        · intro eq
          cases eq
          exact Or.inr ⟨rfl, rfl⟩
        · rintro (eq | ⟨rfl, _⟩)
          · cases eq
          · rfl
      · rename_i apart
        constructor
        · exact Or.inl
        · rintro (stored | ⟨rfl, rfl⟩)
          · exact stored
          · exact absurd rfl apart

theorem referent_of_resolve {final : Namespace} {name : String} {shape : Shape}
    (found : ns.resolve name = .ok shape) (grows : ns.Grows final) (complete : final.Consistent []) :
    shape = final.referent name := by
  unfold resolve at found
  unfold referent
  split at found
  · rename_i type stored
    cases found
    rw [grows.kept stored]
  · split at found
    · rename_i declared
      cases found
      have defined : ∃ record, final.get? name = some (.record record) := by
        rcases grows.declared name declared with declared | defined
        · exact complete.defined_of_declared declared
        · exact defined
      obtain ⟨record, stored⟩ := defined
      obtain ⟨rfl, _⟩ := complete.named stored
      rw [stored]
      rfl
    · cases found

end Namespace

open Namespace (declare_ok define_ok gains_of_declare gains_of_define referent_of_resolve)

mutual

/-- A schema that is read adds the types that it defines, and is read as what it means in any complete
namespace that the reading leads to. -/
theorem Schema.shape_means {ns ns' final : Namespace} {pending : List String} {shape : Shape}
    (schema : Schema) (proper : schema.Proper) (consistent : ns.Consistent pending)
    (run : schema.shape.runFrom ns = (.ok shape, ns')) (grows : ns'.Grows final)
    (complete : final.Consistent []) :
    shape = schema.meaning final.referent ∧ ns.Gains ns' (schema.definitions final.referent) := by
  cases schema with
  | invalid error => cases run
  | primitive kind =>
    obtain ⟨rfl, rfl⟩ := Reading.pure_ok run
    exact ⟨rfl, .refl ns⟩
  | reference name =>
    obtain ⟨found, rfl⟩ := Reading.look_ok run
    exact ⟨referent_of_resolve found grows complete, .refl ns⟩
  | fixed type =>
    obtain ⟨_, middle, changed, done⟩ := Reading.bind_ok run
    obtain ⟨rfl, rfl⟩ := Reading.pure_ok done
    exact ⟨rfl, gains_of_define (Reading.change_ok changed)⟩
  | enumeration type =>
    obtain ⟨_, middle, changed, done⟩ := Reading.bind_ok run
    obtain ⟨rfl, rfl⟩ := Reading.pure_ok done
    exact ⟨rfl, gains_of_define (Reading.change_ok changed)⟩
  | array items =>
    obtain ⟨inner, middle, ran, done⟩ := Reading.bind_ok run
    obtain ⟨rfl, rfl⟩ := Reading.pure_ok done
    obtain ⟨rfl, gains⟩ := Schema.shape_means items proper consistent ran grows complete
    exact ⟨rfl, gains⟩
  | map values =>
    obtain ⟨inner, middle, ran, done⟩ := Reading.bind_ok run
    obtain ⟨rfl, rfl⟩ := Reading.pure_ok done
    obtain ⟨rfl, gains⟩ := Schema.shape_means values proper consistent ran grows complete
    exact ⟨rfl, gains⟩
  | union branches =>
    obtain ⟨inner, middle, ran, lifted⟩ := Reading.bind_ok run
    obtain ⟨made, rfl⟩ := Reading.lift_ok lifted
    obtain ⟨rfl, gains⟩ := Schema.shapes_mean branches proper consistent ran grows complete
    exact ⟨Shape.eq_union_of_makeUnion made, gains⟩
  | record name doc fields =>
    obtain ⟨_, started, changed, run⟩ := Reading.bind_ok run
    obtain ⟨inner, middle, ran, run⟩ := Reading.bind_ok run
    obtain ⟨record, _, lifted, run⟩ := Reading.bind_ok run
    obtain ⟨made, rfl⟩ := Reading.lift_ok lifted
    obtain ⟨_, _, changed', done⟩ := Reading.bind_ok run
    obtain ⟨rfl, rfl⟩ := Reading.pure_ok done
    obtain ⟨rfl, declarable⟩ := Record.of_make made
    have opened := (declare_ok consistent (Reading.change_ok changed)).1
    obtain ⟨filled, _, known⟩ := FieldSchemas.fields_ok fields proper.2 opened ran
    obtain ⟨_, closing, _⟩ := define_ok (.record ⟨name, doc, inner⟩) filled ⟨proper.1, declarable⟩
      (fun _ eq => NamedType.record.inj eq ▸ known) (Reading.change_ok changed')
    obtain ⟨rfl, gains⟩ :=
      FieldSchemas.fields_mean fields proper.2 opened ran (closing.trans grows) complete
    have declares := gains_of_declare (Reading.change_ok changed)
    have defines := gains_of_define (Reading.change_ok changed')
    exact ⟨rfl, declares.trans (gains.trans defines)⟩

theorem Schema.shapes_mean {ns ns' final : Namespace} {pending : List String} {shapes : List Shape}
    (schemas : List Schema) (proper : Schema.ProperAll schemas) (consistent : ns.Consistent pending)
    (run : (Schema.shapes schemas).runFrom ns = (.ok shapes, ns')) (grows : ns'.Grows final)
    (complete : final.Consistent []) :
    shapes = Schema.meanings final.referent schemas ∧
      ns.Gains ns' (Schema.allDefinitions final.referent schemas) := by
  cases schemas with
  | nil =>
    obtain ⟨rfl, rfl⟩ := Reading.pure_ok run
    exact ⟨rfl, .refl ns⟩
  | cons schema schemas =>
    obtain ⟨shape, middle, ran, run⟩ := Reading.bind_ok run
    obtain ⟨rest, _, ran', done⟩ := Reading.bind_ok run
    obtain ⟨rfl, rfl⟩ := Reading.pure_ok done
    have between := (Schema.shape_ok schema proper.1 consistent ran).1
    have grows' := (Schema.shapes_ok schemas proper.2 between ran').2.1
    obtain ⟨rfl, gains⟩ :=
      Schema.shape_means schema proper.1 consistent ran (grows'.trans grows) complete
    obtain ⟨rfl, gains'⟩ := Schema.shapes_mean schemas proper.2 between ran' grows complete
    exact ⟨rfl, gains.trans gains'⟩

theorem FieldSchemas.fields_mean {ns ns' final : Namespace} {pending : List String}
    {fields : List Field} (schemas : FieldSchemas) (proper : schemas.Proper)
    (consistent : ns.Consistent pending) (run : schemas.fields.runFrom ns = (.ok fields, ns'))
    (grows : ns'.Grows final) (complete : final.Consistent []) :
    fields = schemas.meaning final.referent ∧ ns.Gains ns' (schemas.definitions final.referent) := by
  cases schemas with
  | done =>
    obtain ⟨rfl, rfl⟩ := Reading.pure_ok run
    exact ⟨rfl, .refl ns⟩
  | invalid error => cases run
  | cons name doc schema rest =>
    obtain ⟨shape, middle, ran, run⟩ := Reading.bind_ok run
    obtain ⟨others, _, ran', done⟩ := Reading.bind_ok run
    obtain ⟨rfl, rfl⟩ := Reading.pure_ok done
    have between := (Schema.shape_ok schema proper.1 consistent ran).1
    have grows' := (FieldSchemas.fields_ok rest proper.2 between ran').2.1
    obtain ⟨rfl, gains⟩ :=
      Schema.shape_means schema proper.1 consistent ran (grows'.trans grows) complete
    obtain ⟨rfl, gains'⟩ := FieldSchemas.fields_mean rest proper.2 between ran' grows complete
    exact ⟨rfl, gains.trans gains'⟩

end

def textDefinitions (refer : String → Shape) (text : String) : List NamedType :=
  match Json.read text with
  | .ok value => Schema.allDefinitions refer (Document.ofJson value)
  | .error _ => []

theorem textDefinitions_outline (refer refer' : String → Shape) (text : String) :
    (textDefinitions refer text).map NamedType.shape =
      (textDefinitions refer' text).map NamedType.shape := by
  unfold textDefinitions
  split
  · exact Schema.allDefinitions_outline refer refer' _
  · rfl

theorem readDocument_gains {ns ns' : Namespace} {text : String} (consistent : ns.Consistent [])
    (run : (readDocument text).runFrom ns = (.ok (), ns')) :
    ns'.Consistent [] ∧ ns.Grows ns' ∧ ∀ final : Namespace, ns'.Grows final → final.Consistent [] →
      ns.Gains ns' (textDefinitions final.referent text) := by
  unfold readDocument at run
  split at run
  · cases run
  · rename_i value parsed
    obtain ⟨shapes, _, read, done⟩ := Reading.bind_ok run
    obtain ⟨_, rfl⟩ := Reading.pure_ok done
    have proper := Document.proper_ofJson value
    obtain ⟨consistent', grows, _⟩ := Schema.shapes_ok _ proper consistent read
    refine ⟨consistent', grows, fun final grows' complete => ?_⟩
    rw [textDefinitions, parsed]
    exact (Schema.shapes_mean _ proper consistent read grows' complete).2

theorem readDocuments_gains {ns ns' : Namespace} {texts : List String} (consistent : ns.Consistent [])
    (run : (readDocuments texts).runFrom ns = (.ok (), ns')) :
    ns.Grows ns' ∧ ∀ final : Namespace, ns'.Grows final → final.Consistent [] →
      ns.Gains ns' (texts.flatMap (textDefinitions final.referent)) := by
  induction texts generalizing ns with
  | nil =>
    obtain ⟨_, rfl⟩ := Reading.pure_ok run
    exact ⟨.refl ns, fun _ _ _ => .refl ns⟩
  | cons text texts ih =>
    obtain ⟨_, middle, ran, run⟩ := Reading.bind_ok run
    obtain ⟨between, grows, gains⟩ := readDocument_gains consistent ran
    obtain ⟨grows', gains'⟩ := ih between run
    refine ⟨grows.trans grows', fun final later complete => ?_⟩
    rw [List.flatMap_cons]
    exact (gains final (grows'.trans later) complete).trans (gains' final later complete)

/-- Documents leave behind exactly the types that they define, read in the namespace that they leave
behind. -/
theorem get?_eq_some_iff_of_readDocuments {ns : Namespace} {texts : List String}
    (read : (readDocuments texts).runFrom .empty = (.ok (), ns)) (name : String) (type : NamedType) :
    ns.get? name = some type ↔
      type ∈ texts.flatMap (textDefinitions ns.referent) ∧ type.name = name := by
  have complete := readDocuments_ok Namespace.consistent_empty read
  have gains := (readDocuments_gains Namespace.consistent_empty read).2 ns (.refl ns) complete
  rw [gains]
  constructor
  · rintro (stored | defined)
    · cases stored
    · exact defined
  · exact Or.inr

end AvroCompiler

import AvroCompiler.Proofs.Registration.Content

namespace AvroCompiler

mutual

/-- Every type that the schema names, at any depth, is stored: a fixed type or an enumeration as it is
written, and what is declared as a record as some record. -/
def Schema.DefinedIn (ns : Namespace) : Schema → Prop
  | .fixed type => ns.get? type.name = some (.fixed type)
  | .enumeration type => ns.get? type.name = some (.enumeration type)
  | .array items => items.DefinedIn ns
  | .map values => values.DefinedIn ns
  | .union branches => Schema.AllDefinedIn ns branches
  | .record name _ fields => (∃ record, ns.get? name = some (.record record)) ∧ fields.DefinedIn ns
  | .invalid _ | .primitive _ | .reference _ => True

def Schema.AllDefinedIn (ns : Namespace) : List Schema → Prop
  | [] => True
  | schema :: schemas => schema.DefinedIn ns ∧ Schema.AllDefinedIn ns schemas

def FieldSchemas.DefinedIn (ns : Namespace) : FieldSchemas → Prop
  | .done | .invalid _ => True
  | .cons _ _ schema rest => schema.DefinedIn ns ∧ rest.DefinedIn ns

end

variable {ns ns' : Namespace}

mutual

theorem Schema.definedIn_grow (grows : ns.Grows ns') (schema : Schema) (h : schema.DefinedIn ns) :
    schema.DefinedIn ns' := by
  cases schema with
  | invalid | primitive | reference => trivial
  | fixed type => exact grows.kept h
  | enumeration type => exact grows.kept h
  | array items => exact Schema.definedIn_grow grows items h
  | map values => exact Schema.definedIn_grow grows values h
  | union branches => exact Schema.allDefinedIn_grow grows branches h
  | record name doc fields =>
    obtain ⟨⟨record, found⟩, inner⟩ := h
    exact ⟨⟨record, grows.kept found⟩, FieldSchemas.definedIn_grow grows fields inner⟩

theorem Schema.allDefinedIn_grow (grows : ns.Grows ns') (schemas : List Schema)
    (h : Schema.AllDefinedIn ns schemas) : Schema.AllDefinedIn ns' schemas := by
  cases schemas with
  | nil => trivial
  | cons schema schemas =>
    exact ⟨Schema.definedIn_grow grows schema h.1, Schema.allDefinedIn_grow grows schemas h.2⟩

theorem FieldSchemas.definedIn_grow (grows : ns.Grows ns') (schemas : FieldSchemas)
    (h : schemas.DefinedIn ns) : schemas.DefinedIn ns' := by
  cases schemas with
  | done | invalid => trivial
  | cons name doc schema rest =>
    exact ⟨Schema.definedIn_grow grows schema h.1, FieldSchemas.definedIn_grow grows rest h.2⟩

end

open Namespace (declare_ok define_ok)

mutual

/-- What a schema names is stored once the schema is read. A name that was only declared on the way is
defined when its own record ends, and nothing stored is lost later. -/
theorem Schema.definedIn_of_shape {pending : List String} {shape : Shape} {ns ns' : Namespace}
    (schema : Schema) (proper : schema.Proper) (consistent : ns.Consistent pending)
    (run : schema.shape.runFrom ns = (.ok shape, ns')) : schema.DefinedIn ns' := by
  cases schema with
  | invalid | primitive | reference => trivial
  | fixed type =>
    obtain ⟨_, middle, changed, done⟩ := Reading.bind_ok run
    obtain ⟨rfl, rfl⟩ := Reading.pure_ok done
    have weaker := consistent.weaken fun _ => List.mem_cons_of_mem type.name
    exact (define_ok (.fixed type) weaker proper (fun _ eq => by cases eq)
      (Reading.change_ok changed)).2.2
  | enumeration type =>
    obtain ⟨_, middle, changed, done⟩ := Reading.bind_ok run
    obtain ⟨rfl, rfl⟩ := Reading.pure_ok done
    have weaker := consistent.weaken fun _ => List.mem_cons_of_mem type.name
    exact (define_ok (.enumeration type) weaker proper (fun _ eq => by cases eq)
      (Reading.change_ok changed)).2.2
  | array items =>
    obtain ⟨inner, middle, ran, done⟩ := Reading.bind_ok run
    obtain ⟨rfl, rfl⟩ := Reading.pure_ok done
    exact Schema.definedIn_of_shape items proper consistent ran
  | map values =>
    obtain ⟨inner, middle, ran, done⟩ := Reading.bind_ok run
    obtain ⟨rfl, rfl⟩ := Reading.pure_ok done
    exact Schema.definedIn_of_shape values proper consistent ran
  | union branches =>
    obtain ⟨inner, middle, ran, lifted⟩ := Reading.bind_ok run
    obtain ⟨made, rfl⟩ := Reading.lift_ok lifted
    exact Schema.allDefinedIn_of_shapes branches proper consistent ran
  | record name doc fields =>
    obtain ⟨_, started, changed, run⟩ := Reading.bind_ok run
    obtain ⟨inner, middle, ran, run⟩ := Reading.bind_ok run
    obtain ⟨record, _, lifted, run⟩ := Reading.bind_ok run
    obtain ⟨made, rfl⟩ := Reading.lift_ok lifted
    obtain ⟨_, _, changed', done⟩ := Reading.bind_ok run
    obtain ⟨rfl, rfl⟩ := Reading.pure_ok done
    obtain ⟨rfl, declarable⟩ := Record.of_make made
    have started := (declare_ok consistent (Reading.change_ok changed)).1
    have inside := FieldSchemas.definedIn_of_fields fields proper.2 started ran
    obtain ⟨filled, _, known⟩ := FieldSchemas.fields_ok fields proper.2 started ran
    obtain ⟨_, grows, stored⟩ := define_ok (.record ⟨name, doc, inner⟩) filled
      ⟨proper.1, declarable⟩ (fun _ eq => NamedType.record.inj eq ▸ known) (Reading.change_ok changed')
    exact ⟨⟨_, stored⟩, FieldSchemas.definedIn_grow grows fields inside⟩

theorem Schema.allDefinedIn_of_shapes {pending : List String} {shapes : List Shape}
    {ns ns' : Namespace} (schemas : List Schema) (proper : Schema.ProperAll schemas)
    (consistent : ns.Consistent pending)
    (run : (Schema.shapes schemas).runFrom ns = (.ok shapes, ns')) :
    Schema.AllDefinedIn ns' schemas := by
  cases schemas with
  | nil => trivial
  | cons schema schemas =>
    obtain ⟨shape, middle, ran, run⟩ := Reading.bind_ok run
    obtain ⟨rest, _, ran', done⟩ := Reading.bind_ok run
    obtain ⟨rfl, rfl⟩ := Reading.pure_ok done
    have first := Schema.definedIn_of_shape schema proper.1 consistent ran
    have between := (Schema.shape_ok schema proper.1 consistent ran).1
    have grows := (Schema.shapes_ok schemas proper.2 between ran').2.1
    exact ⟨Schema.definedIn_grow grows schema first,
      Schema.allDefinedIn_of_shapes schemas proper.2 between ran'⟩

theorem FieldSchemas.definedIn_of_fields {pending : List String} {fields : List Field}
    {ns ns' : Namespace} (schemas : FieldSchemas) (proper : schemas.Proper)
    (consistent : ns.Consistent pending) (run : schemas.fields.runFrom ns = (.ok fields, ns')) :
    schemas.DefinedIn ns' := by
  cases schemas with
  | done | invalid => trivial
  | cons name doc schema rest =>
    obtain ⟨shape, middle, ran, run⟩ := Reading.bind_ok run
    obtain ⟨others, _, ran', done⟩ := Reading.bind_ok run
    obtain ⟨rfl, rfl⟩ := Reading.pure_ok done
    have first := Schema.definedIn_of_shape schema proper.1 consistent ran
    have between := (Schema.shape_ok schema proper.1 consistent ran).1
    have grows := (FieldSchemas.fields_ok rest proper.2 between ran').2.1
    exact ⟨Schema.definedIn_grow grows schema first,
      FieldSchemas.definedIn_of_fields rest proper.2 between ran'⟩

end

theorem readDocument_defines {text : String} (consistent : ns.Consistent [])
    (run : (readDocument text).runFrom ns = (.ok (), ns')) :
    ns'.Consistent [] ∧ ns.Grows ns' ∧
      ∃ value, Json.read text = .ok value ∧ Schema.AllDefinedIn ns' (Document.ofJson value) := by
  unfold readDocument at run
  split at run
  · cases run
  · rename_i value parsed
    obtain ⟨shapes, _, read, done⟩ := Reading.bind_ok run
    obtain ⟨_, rfl⟩ := Reading.pure_ok done
    have proper := Document.proper_ofJson value
    obtain ⟨consistent', grows, _⟩ := Schema.shapes_ok _ proper consistent read
    exact ⟨consistent', grows, value, parsed,
      Schema.allDefinedIn_of_shapes _ proper consistent read⟩

theorem readDocuments_defines {texts : List String} (consistent : ns.Consistent [])
    (run : (readDocuments texts).runFrom ns = (.ok (), ns')) :
    ns.Grows ns' ∧ ∀ text ∈ texts,
      ∃ value, Json.read text = .ok value ∧ Schema.AllDefinedIn ns' (Document.ofJson value) := by
  induction texts generalizing ns with
  | nil =>
    obtain ⟨_, rfl⟩ := Reading.pure_ok run
    exact ⟨.refl ns, by simp⟩
  | cons text texts ih =>
    obtain ⟨_, middle, ran, run⟩ := Reading.bind_ok run
    obtain ⟨between, grows, value, parsed, defined⟩ := readDocument_defines consistent ran
    obtain ⟨grows', others⟩ := ih between run
    have kept := Schema.allDefinedIn_grow grows' _ defined
    exact ⟨grows.trans grows', List.forall_mem_cons.mpr ⟨⟨value, parsed, kept⟩, others⟩⟩

theorem generate_ok_or_conflict (closed : ns.Closed) (package : String) :
    (∃ pkg, generate ns package = .ok pkg) ∨
      ∃ file label, generate ns package = .error (.conflict file label) := by
  cases outcome : generate ns package with
  | ok pkg => exact Or.inl ⟨pkg, rfl⟩
  | error error =>
    obtain ⟨item, _, _, _, _, _, _, _, _, rfl⟩ := conflict_of_generate closed outcome
    exact Or.inr ⟨_, _, rfl⟩

/-- Documents that are read without an error leave a closed namespace in which all that was ever
declared is defined, and generation from it gives a package or a conflict. -/
theorem read_namespace_is_closed {texts : List String}
    (read : (readDocuments texts).runFrom .empty = (.ok (), ns)) :
    ns.Closed ∧
      (∀ name ∈ ns.declared, ∃ record, ns.get? name = some (.record record)) ∧
      (∀ text ∈ texts,
        ∃ value, Json.read text = .ok value ∧ Schema.AllDefinedIn ns (Document.ofJson value)) ∧
      ∀ package, (∃ pkg, generate ns package = .ok pkg) ∨
        ∃ file label, generate ns package = .error (.conflict file label) := by
  have consistent := readDocuments_ok Namespace.consistent_empty read
  refine ⟨consistent.closed, fun name => consistent.defined_of_declared, ?_, ?_⟩
  · exact (readDocuments_defines Namespace.consistent_empty read).2
  · exact generate_ok_or_conflict consistent.closed

def nodeAgain : Namespace where
  types := nodeNamespace.types
  declared := ["Node"]

theorem node_read_twice : (readDocuments [nodeText, nodeText]).runFrom .empty = (.ok (), nodeAgain) := by
  have stored (type : NamedType) (found : nodeNamespace.get? "Node" = some type) :
      type.isRecord = true := by
    cases node_stored found
    rfl
  have first : (readDocument nodeText).runFrom .empty = (.ok (), nodeNamespace) :=
    nodeText_runs (Schema.run_record_of_declarable node_declarable nofun rfl rfl rfl rfl)
  have second : (readDocument nodeText).runFrom nodeNamespace = (.ok (), nodeAgain) :=
    nodeText_runs (Schema.run_record_of_declarable node_declarable stored rfl rfl rfl rfl)
  exact readDocuments_cons first (readDocuments_cons second rfl)

theorem node_read_twice_is_closed :
    "Node" ∈ nodeAgain.declared ∧ nodeAgain.Closed ∧
      (∃ record, nodeAgain.get? "Node" = some (.record record)) ∧
      ((∃ pkg, generate nodeAgain "avro" = .ok pkg) ∨
        ∃ file label, generate nodeAgain "avro" = .error (.conflict file label)) := by
  have declared : "Node" ∈ nodeAgain.declared := List.mem_singleton_self _
  obtain ⟨closed, defined, _, outcome⟩ := read_namespace_is_closed node_read_twice
  exact ⟨declared, closed, defined "Node" declared, outcome "avro"⟩

end AvroCompiler

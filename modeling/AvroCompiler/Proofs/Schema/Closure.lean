import AvroCompiler.Proofs.Schema.Naming
import AvroCompiler.Proofs.Schema.Run
import AvroCompiler.Proofs.Shape

namespace AvroCompiler

namespace Reading

variable {α β : Type} {ns ns' : Namespace}

theorem bind_ok {first : Reading α} {rest : α → Reading β} {b : β}
    (h : (first >>= rest).runFrom ns = (.ok b, ns')) :
    ∃ a middle, first.runFrom ns = (.ok a, middle) ∧ (rest a).runFrom middle = (.ok b, ns') := by
  rw [runFrom_bind] at h
  generalize first.runFrom ns = outcome at h ⊢
  obtain ⟨result, middle⟩ := outcome
  cases result with
  | error error => cases h
  | ok a => exact ⟨a, middle, rfl, h⟩

theorem change_ok {update : Namespace → Except Error Namespace} {done : Unit}
    (h : (change update).runFrom ns = (.ok done, ns')) : update ns = .ok ns' := by
  unfold runFrom change at h
  split at h
  · rename_i changed
    cases h
    exact changed
  · cases h

theorem lift_ok {result : Except Error α} {a : α} (h : (lift result).runFrom ns = (.ok a, ns')) :
    result = .ok a ∧ ns = ns' :=
  Prod.mk.inj h

theorem look_ok {view : Namespace → Except Error α} {a : α}
    (h : (look view).runFrom ns = (.ok a, ns')) : view ns = .ok a ∧ ns = ns' :=
  Prod.mk.inj h

theorem pure_ok {a b : α} (h : (pure a : Reading α).runFrom ns = (.ok b, ns')) :
    a = b ∧ ns = ns' := by
  cases h
  exact ⟨rfl, rfl⟩

end Reading

theorem Shape.eq_union_of_makeUnion {branches : List Shape} {shape : Shape}
    (h : makeUnion branches = .ok shape) : shape = .union branches := by
  unfold makeUnion at h
  split at h
  · cases h
  · split at h
    · cases h
    · cases h
      rfl

namespace Namespace

/-- What the shape refers to by name is stored under that name. -/
def Defines (ns : Namespace) : Shape → Prop
  | .fixed type => ns.get? type.name = some (.fixed type)
  | .enumeration type => ns.get? type.name = some (.enumeration type)
  | .record name => ∃ record, ns.get? name = some (.record record)
  | .primitive _ | .array _ | .map _ | .union _ => True

/-- The shape and everything inside it refer to what is stored, or to a record that is declared. -/
def Knows (ns : Namespace) (shape : Shape) : Prop :=
  ∀ part, part.Within shape → ns.Defines part ∨ ∃ name ∈ ns.declared, part = .record name

/-- The types are stored under their names, and all that is not defined yet is pending. -/
structure Consistent (ns : Namespace) (pending : List String) : Prop where
  named : ∀ {name type}, ns.get? name = some type → type.name = name ∧ TypeName name
  known : ∀ {name record}, ns.get? name = some (.record record) →
    ∀ shape ∈ record.shapes, ns.Knows shape
  open_pending : ∀ name ∈ ns.declared, ns.get? name = none → name ∈ pending
  declared_record : ∀ name ∈ ns.declared, ∀ type, ns.get? name = some type → type.isRecord = true

/-- What was stored is kept, and what was declared is declared still or defined as a record. -/
structure Grows (ns ns' : Namespace) : Prop where
  kept : ∀ {name type}, ns.get? name = some type → ns'.get? name = some type
  declared : ∀ name ∈ ns.declared,
    name ∈ ns'.declared ∨ ∃ record, ns'.get? name = some (.record record)

variable {ns ns' ns'' : Namespace} {pending : List String}

theorem Grows.refl (ns : Namespace) : ns.Grows ns :=
  ⟨id, fun _ => Or.inl⟩

theorem Grows.trans (first : ns.Grows ns') (second : ns'.Grows ns'') : ns.Grows ns'' := by
  refine ⟨fun found => second.kept (first.kept found), ?_⟩
  intro name mem
  rcases first.declared name mem with mem | ⟨record, found⟩
  · exact second.declared name mem
  · exact Or.inr ⟨record, second.kept found⟩

theorem Grows.defines (grows : ns.Grows ns') {shape : Shape} (h : ns.Defines shape) :
    ns'.Defines shape := by
  cases shape with
  | primitive | array | map | union => trivial
  | fixed type => exact grows.kept h
  | enumeration type => exact grows.kept h
  | record name =>
    obtain ⟨record, found⟩ := h
    exact ⟨record, grows.kept found⟩

theorem Grows.knows (grows : ns.Grows ns') {shape : Shape} (h : ns.Knows shape) : ns'.Knows shape := by
  intro part within
  rcases h part within with defined | ⟨name, mem, rfl⟩
  · exact Or.inl (grows.defines defined)
  · rcases grows.declared name mem with mem | defined
    · exact Or.inr ⟨name, mem, rfl⟩
    · exact Or.inl defined

theorem knows_of_components {shape : Shape}
    (self : ns.Defines shape ∨ ∃ name ∈ ns.declared, shape = .record name)
    (inner : ∀ component ∈ shape.components, ns.Knows component) : ns.Knows shape := by
  intro part within
  cases within with
  | self => exact self
  | inside mem within => exact inner _ mem part within

theorem knows_of_leaf {shape : Shape}
    (self : ns.Defines shape ∨ ∃ name ∈ ns.declared, shape = .record name)
    (leaf : shape.components = []) : ns.Knows shape :=
  knows_of_components self (by simp [leaf])

theorem Consistent.weaken {pending' : List String} (h : ns.Consistent pending)
    (sub : ∀ name ∈ pending, name ∈ pending') : ns.Consistent pending' :=
  ⟨h.named, h.known, fun name mem free => sub name (h.open_pending name mem free),
    h.declared_record⟩

theorem declare_ok {name : String} (consistent : ns.Consistent pending)
    (h : ns.declare name = .ok ns') :
    ns'.Consistent (name :: pending) ∧ ns.Grows ns' ∧ name ∈ ns'.declared := by
  have weaker := consistent.weaken fun _ => List.mem_cons_of_mem name
  unfold declare at h
  split at h
  · cases h
  · split at h
    · cases h
    · cases h
    · rename_i notFixed notEnumeration
      split at h
      · rename_i mem
        cases h
        exact ⟨weaker, .refl ns, mem⟩
      · cases h
        have grows : ns.Grows { ns with declared := name :: ns.declared } :=
          ⟨id, fun _ mem => Or.inl (List.mem_cons_of_mem name mem)⟩
        refine ⟨⟨consistent.named, ?_, ?_, ?_⟩, grows, List.mem_cons_self⟩
        · intro owner record found shape mem
          exact grows.knows (consistent.known found shape mem)
        · intro other mem free
          rcases List.mem_cons.mp mem with rfl | mem
          · exact List.mem_cons_self
          · exact weaker.open_pending other mem free
        · intro other mem type found
          rcases List.mem_cons.mp mem with rfl | mem
          · cases type with
            | fixed type => exact absurd found (notFixed type)
            | enumeration type => exact absurd found (notEnumeration type)
            | record type => rfl
          · exact consistent.declared_record other mem type found

theorem define_ok (type : NamedType) (consistent : ns.Consistent (type.name :: pending))
    (proper : TypeName type.name)
    (known : ∀ record, type = .record record → ∀ shape ∈ record.shapes, ns.Knows shape)
    (h : ns.define type = .ok ns') :
    ns'.Consistent pending ∧ ns.Grows ns' ∧ ns'.get? type.name = some type := by
  unfold define at h
  split at h
  · rename_i existing found
    split at h
    · rename_i eq
      subst eq
      cases h
      refine ⟨⟨consistent.named, consistent.known, ?_, consistent.declared_record⟩, .refl ns, found⟩
      intro name mem free
      rcases List.mem_cons.mp (consistent.open_pending name mem free) with rfl | mem
      · rw [found] at free
        cases free
      · exact mem
    · cases h
  · rename_i free
    split at h
    · cases h
    · rename_i allowed
      cases h
      have get? (name : String) : get? ⟨ns.types.insert type.name type,
          ns.declared.filter (· ≠ type.name)⟩ name =
            if name = type.name then some type else ns.get? name :=
        Keyed.get?_insert ns.types type.name name type
      generalize eq : Namespace.mk (ns.types.insert type.name type)
        (ns.declared.filter (· ≠ type.name)) = ns' at get?
      have declared (name : String) : name ∈ ns'.declared ↔ name ∈ ns.declared ∧ name ≠ type.name := by
        simp [← eq]
      have self : ns'.get? type.name = some type := by rw [get?, if_pos rfl]
      have grows : ns.Grows ns' := by
        constructor
        · intro name old found
          rw [get?, if_neg]
          · exact found
          · rintro rfl
            rw [free] at found
            cases found
        · intro name mem
          by_cases same : name = type.name
          · subst same
            refine Or.inr ?_
            cases type with
            | fixed | enumeration => exact absurd ⟨mem, by simp [NamedType.isRecord]⟩ allowed
            | record record => exact ⟨record, self⟩
          · exact Or.inl ((declared name).mpr ⟨mem, same⟩)
      refine ⟨⟨?_, ?_, ?_, ?_⟩, grows, self⟩
      · intro name stored found
        rw [get?] at found
        split at found
        · rename_i same
          subst same
          cases found
          exact ⟨rfl, proper⟩
        · exact consistent.named found
      · intro name record found shape mem
        rw [get?] at found
        split at found
        · exact grows.knows (known record (Option.some.inj found) shape mem)
        · exact grows.knows (consistent.known found shape mem)
      · intro name mem unset
        obtain ⟨mem, ne⟩ := (declared name).mp mem
        rw [get?, if_neg ne] at unset
        exact List.mem_of_ne_of_mem ne (consistent.open_pending name mem unset)
      · intro name mem stored found
        obtain ⟨mem, ne⟩ := (declared name).mp mem
        rw [get?, if_neg ne] at found
        exact consistent.declared_record name mem stored found

end Namespace

open Namespace (knows_of_components knows_of_leaf declare_ok define_ok Consistent Grows Knows)

mutual

/-- Reading a schema keeps a namespace consistent, and the namespace then knows the shape. -/
theorem Schema.shape_ok {ns ns' : Namespace} {pending : List String} {shape : Shape} (schema : Schema)
    (proper : schema.Proper) (consistent : ns.Consistent pending)
    (run : schema.shape.runFrom ns = (.ok shape, ns')) :
    ns'.Consistent pending ∧ ns.Grows ns' ∧ ns'.Knows shape := by
  cases schema with
  | invalid error => cases run
  | primitive kind =>
    obtain ⟨rfl, rfl⟩ := Reading.pure_ok run
    exact ⟨consistent, .refl ns, knows_of_leaf (Or.inl trivial) rfl⟩
  | reference name =>
    obtain ⟨found, rfl⟩ := Reading.look_ok run
    refine ⟨consistent, .refl ns, ?_⟩
    unfold Namespace.resolve at found
    split at found
    · rename_i type stored
      cases found
      obtain ⟨rfl, _⟩ := consistent.named stored
      cases type with
      | fixed type => exact knows_of_leaf (Or.inl stored) rfl
      | enumeration type =>
        exact knows_of_leaf (Or.inl stored) rfl
      | record record =>
        exact knows_of_leaf (Or.inl ⟨record, stored⟩) rfl
    · split at found
      · rename_i mem
        cases found
        exact knows_of_leaf (Or.inr ⟨name, mem, rfl⟩) rfl
      · cases found
  | fixed type =>
    obtain ⟨_, middle, changed, done⟩ := Reading.bind_ok run
    obtain ⟨rfl, rfl⟩ := Reading.pure_ok done
    have weaker := consistent.weaken fun _ => List.mem_cons_of_mem type.name
    obtain ⟨consistent', grows, stored⟩ := define_ok (.fixed type) weaker proper
      (fun _ eq => by cases eq) (Reading.change_ok changed)
    exact ⟨consistent', grows, knows_of_leaf (Or.inl stored) rfl⟩
  | enumeration type =>
    obtain ⟨_, middle, changed, done⟩ := Reading.bind_ok run
    obtain ⟨rfl, rfl⟩ := Reading.pure_ok done
    have weaker := consistent.weaken fun _ => List.mem_cons_of_mem type.name
    obtain ⟨consistent', grows, stored⟩ := define_ok (.enumeration type) weaker proper
      (fun _ eq => by cases eq) (Reading.change_ok changed)
    exact ⟨consistent', grows, knows_of_leaf (Or.inl stored) rfl⟩
  | array items =>
    obtain ⟨inner, middle, ran, done⟩ := Reading.bind_ok run
    obtain ⟨rfl, rfl⟩ := Reading.pure_ok done
    obtain ⟨consistent', grows, known⟩ := Schema.shape_ok items proper consistent ran
    exact ⟨consistent', grows,
      knows_of_components (Or.inl trivial) (List.forall_mem_singleton.mpr known)⟩
  | map values =>
    obtain ⟨inner, middle, ran, done⟩ := Reading.bind_ok run
    obtain ⟨rfl, rfl⟩ := Reading.pure_ok done
    obtain ⟨consistent', grows, known⟩ := Schema.shape_ok values proper consistent ran
    exact ⟨consistent', grows,
      knows_of_components (Or.inl trivial) (List.forall_mem_singleton.mpr known)⟩
  | union branches =>
    obtain ⟨inner, middle, ran, lifted⟩ := Reading.bind_ok run
    obtain ⟨made, rfl⟩ := Reading.lift_ok lifted
    obtain ⟨consistent', grows, known⟩ := Schema.shapes_ok branches proper consistent ran
    rw [Shape.eq_union_of_makeUnion made]
    exact ⟨consistent', grows, knows_of_components (Or.inl trivial) known⟩
  | record name doc fields =>
    obtain ⟨_, started, changed, run⟩ := Reading.bind_ok run
    obtain ⟨inner, middle, ran, run⟩ := Reading.bind_ok run
    obtain ⟨record, _, lifted, run⟩ := Reading.bind_ok run
    obtain ⟨made, rfl⟩ := Reading.lift_ok lifted
    obtain ⟨_, _, changed', done⟩ := Reading.bind_ok run
    obtain ⟨rfl, rfl⟩ := Reading.pure_ok done
    obtain ⟨rfl, declarable⟩ := Record.of_make made
    obtain ⟨consistent, grows, _⟩ := declare_ok consistent (Reading.change_ok changed)
    obtain ⟨consistent, grows', known⟩ := FieldSchemas.fields_ok fields proper.2 consistent ran
    obtain ⟨consistent, grows'', stored⟩ := define_ok (.record ⟨name, doc, inner⟩) consistent
      ⟨proper.1, declarable⟩ (fun _ eq => NamedType.record.inj eq ▸ known) (Reading.change_ok changed')
    exact ⟨consistent, (grows.trans grows').trans grows'',
      knows_of_leaf (Or.inl ⟨_, stored⟩) rfl⟩

theorem Schema.shapes_ok {ns ns' : Namespace} {pending : List String} {shapes : List Shape}
    (schemas : List Schema) (proper : Schema.ProperAll schemas) (consistent : ns.Consistent pending)
    (run : (Schema.shapes schemas).runFrom ns = (.ok shapes, ns')) :
    ns'.Consistent pending ∧ ns.Grows ns' ∧ ∀ shape ∈ shapes, ns'.Knows shape := by
  cases schemas with
  | nil =>
    obtain ⟨rfl, rfl⟩ := Reading.pure_ok run
    exact ⟨consistent, .refl ns, by simp⟩
  | cons schema schemas =>
    obtain ⟨shape, middle, ran, run⟩ := Reading.bind_ok run
    obtain ⟨rest, _, ran', done⟩ := Reading.bind_ok run
    obtain ⟨rfl, rfl⟩ := Reading.pure_ok done
    obtain ⟨consistent, grows, known⟩ := Schema.shape_ok schema proper.1 consistent ran
    obtain ⟨consistent, grows', known'⟩ := Schema.shapes_ok schemas proper.2 consistent ran'
    exact ⟨consistent, grows.trans grows', List.forall_mem_cons.mpr ⟨grows'.knows known, known'⟩⟩

theorem FieldSchemas.fields_ok {ns ns' : Namespace} {pending : List String} {fields : List Field}
    (schemas : FieldSchemas) (proper : schemas.Proper) (consistent : ns.Consistent pending)
    (run : schemas.fields.runFrom ns = (.ok fields, ns')) :
    ns'.Consistent pending ∧ ns.Grows ns' ∧ ∀ shape ∈ fields.map Field.shape, ns'.Knows shape := by
  cases schemas with
  | done =>
    obtain ⟨rfl, rfl⟩ := Reading.pure_ok run
    exact ⟨consistent, .refl ns, by simp⟩
  | invalid error => cases run
  | cons name doc schema rest =>
    obtain ⟨shape, middle, ran, run⟩ := Reading.bind_ok run
    obtain ⟨others, _, ran', done⟩ := Reading.bind_ok run
    obtain ⟨rfl, rfl⟩ := Reading.pure_ok done
    obtain ⟨consistent, grows, known⟩ := Schema.shape_ok schema proper.1 consistent ran
    obtain ⟨consistent, grows', known'⟩ := FieldSchemas.fields_ok rest proper.2 consistent ran'
    exact ⟨consistent, grows.trans grows', List.forall_mem_cons.mpr ⟨grows'.knows known, known'⟩⟩

end

namespace Namespace

/-- Every type is stored under its own proper name, and whatever the fields of a record refer to, at
any depth, is stored. -/
structure Closed (ns : Namespace) : Prop where
  named : ∀ {name type}, ns.get? name = some type → type.name = name ∧ TypeName name
  defined : ∀ {name record}, ns.get? name = some (.record record) →
    ∀ shape ∈ record.shapes, ∀ part, part.Within shape → ns.Defines part

theorem Consistent.defined_of_declared {ns : Namespace} (h : ns.Consistent []) {name : String}
    (declared : name ∈ ns.declared) : ∃ record, ns.get? name = some (.record record) := by
  cases stored : ns.get? name with
  | none => cases h.open_pending name declared stored
  | some type =>
    have isRecord := h.declared_record name declared type stored
    cases type with
    | fixed | enumeration => cases isRecord
    | record record => exact ⟨record, rfl⟩

theorem Consistent.closed {ns : Namespace} (h : ns.Consistent []) : ns.Closed := by
  refine ⟨h.named, ?_⟩
  intro owner record found shape mem part within
  rcases h.known found shape mem part within with defined | ⟨name, declared, rfl⟩
  · exact defined
  · exact h.defined_of_declared declared

theorem consistent_empty : Namespace.empty.Consistent [] := by
  refine ⟨?_, ?_, ?_, ?_⟩
  · intro name type found
    cases found
  · intro name record found
    cases found
  · intro name mem
    cases mem
  · intro name mem
    cases mem

end Namespace

theorem readDocuments_ok {ns ns' : Namespace} {texts : List String} (consistent : ns.Consistent [])
    (run : (readDocuments texts).runFrom ns = (.ok (), ns')) : ns'.Consistent [] := by
  induction texts generalizing ns with
  | nil =>
    obtain ⟨_, rfl⟩ := Reading.pure_ok run
    exact consistent
  | cons text texts ih =>
    obtain ⟨_, middle, ran, run⟩ := Reading.bind_ok run
    refine ih ?_ run
    unfold readDocument at ran
    split at ran
    · cases ran
    · rename_i value _
      obtain ⟨shapes, _, read, done⟩ := Reading.bind_ok ran
      obtain ⟨_, rfl⟩ := Reading.pure_ok done
      exact (Schema.shapes_ok _ (Document.proper_ofJson value) consistent read).1

theorem closed_of_readDocuments {ns : Namespace} {texts : List String}
    (run : (readDocuments texts).runFrom .empty = (.ok (), ns)) : ns.Closed :=
  (readDocuments_ok Namespace.consistent_empty run).closed

end AvroCompiler

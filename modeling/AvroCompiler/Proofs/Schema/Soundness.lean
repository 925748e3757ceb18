import AvroCompiler.Proofs.Schema.Meaning
import AvroCompiler.Proofs.Schema.Writing

namespace AvroCompiler

/-- An enumeration has a symbol, and its symbols name different variants. -/
structure Enumeration.Formed (type : Enumeration) : Prop where
  inhabited : type.symbols ≠ []
  apart : type.variants.Nodup

/-- A union has a branch, holds no union directly, and its branches have different names. -/
structure Shape.UnionFormed (branches : List Shape) : Prop where
  inhabited : branches ≠ []
  flat : ∀ branch ∈ branches, branch.isUnion = false
  apart : (branches.map Shape.canonicalName).Nodup

/-- Every enumeration and every union in the shape, at any depth, is well formed. -/
structure Shape.Formed (shape : Shape) : Prop where
  enumeration : ∀ type, Within (.enumeration type) shape → type.Formed
  union : ∀ branches, Within (.union branches) shape → UnionFormed branches

structure Record.Formed (record : Record) : Prop where
  apart : (record.fields.map Field.member).Nodup
  inner : ∀ shape ∈ record.shapes, shape.Formed

def NamedType.Formed : NamedType → Prop
  | .fixed _ => True
  | .enumeration type => type.Formed
  | .record type => type.Formed

namespace Enumeration

theorem variants_nodup {seen symbols : List String} (fresh : seen.Nodup)
    (h : symbolFault? seen symbols = none) : (symbols.map variantName ++ seen).Nodup := by
  induction symbols generalizing seen with
  | nil => exact fresh
  | cons symbol symbols ih =>
    rw [symbolFault?] at h
    split at h
    · cases h
    · split at h
      · cases h
      · rename_i unseen
        exact List.perm_middle.nodup_iff.mp (ih (List.nodup_cons.mpr ⟨unseen, fresh⟩) h)

theorem formed_of_make {name : String} {symbols : List String} {type : Enumeration}
    (h : make name symbols = .ok type) : type.Formed := by
  unfold make at h
  split at h
  · cases h
  · split at h
    · cases h
    · rename_i inhabited
      split at h
      · cases h
      · rename_i faultless
        cases h
        have apart := variants_nodup .nil faultless
        rw [List.append_nil] at apart
        exact ⟨inhabited, apart⟩

end Enumeration

namespace Shape

theorem branches_nodup {seen : List String} {branches : List Shape} (fresh : seen.Nodup)
    (h : branchFault? seen branches = none) :
    (∀ branch ∈ branches, branch.isUnion = false) ∧ (branches.map canonicalName ++ seen).Nodup := by
  induction branches generalizing seen with
  | nil => exact ⟨List.forall_mem_nil _, fresh⟩
  | cons branch branches ih =>
    rw [branchFault?] at h
    split at h
    · cases h
    · rename_i flat
      split at h
      · cases h
      · rename_i unseen
        obtain ⟨others, apart⟩ := ih (List.nodup_cons.mpr ⟨unseen, fresh⟩) h
        exact ⟨List.forall_mem_cons.mpr ⟨Bool.eq_false_iff.mpr flat, others⟩,
          List.perm_middle.nodup_iff.mp apart⟩

theorem unionFormed_of_makeUnion {branches : List Shape} {shape : Shape}
    (h : makeUnion branches = .ok shape) : UnionFormed branches := by
  unfold makeUnion at h
  split at h
  · cases h
  · rename_i inhabited
    split at h
    · cases h
    · rename_i faultless
      obtain ⟨flat, apart⟩ := branches_nodup .nil faultless
      rw [List.append_nil] at apart
      exact ⟨inhabited, flat, apart⟩

theorem formed_of_components {shape : Shape} (enumeration : ∀ type, shape = .enumeration type → type.Formed)
    (union : ∀ branches, shape = .union branches → UnionFormed branches)
    (inner : ∀ component ∈ shape.components, component.Formed) : shape.Formed := by
  constructor
  · intro type within
    cases within with
    | self => exact enumeration type rfl
    | inside mem within => exact (inner _ mem).enumeration type within
  · intro branches within
    cases within with
    | self => exact union branches rfl
    | inside mem within => exact (inner _ mem).union branches within

end Shape

theorem Record.members_nodup {seen : List String} {fields : List Field} (fresh : seen.Nodup)
    (h : repeatedMember? seen fields = none) : (fields.map Field.member ++ seen).Nodup := by
  induction fields generalizing seen with
  | nil => exact fresh
  | cons field fields ih =>
    rw [repeatedMember?] at h
    split at h
    · cases h
    · rename_i unseen
      exact List.perm_middle.nodup_iff.mp (ih (List.nodup_cons.mpr ⟨unseen, fresh⟩) h)

theorem Record.members_nodup_of_make {name : String} {doc : Option String} {fields : List Field}
    {record : Record} (h : make name doc fields = .ok record) :
    (record.fields.map Field.member).Nodup := by
  unfold make at h
  split at h
  · cases h
  · split at h
    · cases h
    · rename_i faultless
      cases h
      have apart := members_nodup .nil faultless
      rwa [List.append_nil] at apart

namespace Namespace

/-- The invariant of the reader. A record whose reading was cut short is still declared, and a stored
record may refer to it. -/
structure Sound (ns : Namespace) : Prop where
  named : ∀ {name type}, ns.get? name = some type →
    type.name = name ∧ isName name = true ∧ checkTypeName name = .ok ()
  declared_record : ∀ name ∈ ns.declared, ∀ type, ns.get? name = some type → type.isRecord = true
  formed : ∀ {name type}, ns.get? name = some type → type.Formed
  known : ∀ {name record}, ns.get? name = some (.record record) →
    ∀ shape ∈ record.shapes, ns.Knows shape

variable {ns ns' : Namespace}

theorem Sound.consistent (h : ns.Sound) : ns.Consistent ns.declared := by
  refine ⟨fun stored => ?_, h.known, fun _ mem _ => mem, h.declared_record⟩
  obtain ⟨named, spelled, checked⟩ := h.named stored
  exact ⟨named, spelled, (checkTypeName_eq_ok_iff _).mp checked⟩

theorem Consistent.sound {pending : List String} (h : ns.Consistent pending)
    (formed : ∀ {name type}, ns.get? name = some type → type.Formed) : ns.Sound := by
  refine ⟨fun stored => ?_, h.declared_record, formed, h.known⟩
  obtain ⟨named, proper⟩ := h.named stored
  exact ⟨named, proper.spelled, (checkTypeName_eq_ok_iff _).mpr proper.declarable⟩

theorem sound_empty : empty.Sound :=
  consistent_empty.sound fun stored => nomatch stored

theorem sound_of_declare {name : String} (sound : ns.Sound) (h : ns.declare name = .ok ns') :
    ns'.Sound ∧ ns.Grows ns' := by
  obtain ⟨consistent, grows, _⟩ := declare_ok sound.consistent h
  refine ⟨consistent.sound fun stored => ?_, grows⟩
  rcases (gains_of_declare h _ _).mp stored with stored | ⟨mem, _⟩
  · exact sound.formed stored
  · cases mem

theorem sound_of_define (type : NamedType) (sound : ns.Sound) (proper : TypeName type.name)
    (formed : type.Formed)
    (known : ∀ record, type = .record record → ∀ shape ∈ record.shapes, ns.Knows shape)
    (h : ns.define type = .ok ns') :
    ns'.Sound ∧ ns.Grows ns' ∧ ns'.get? type.name = some type := by
  have weaker := sound.consistent.weaken fun _ => List.mem_cons_of_mem type.name
  obtain ⟨consistent, grows, self⟩ := define_ok type weaker proper known h
  refine ⟨consistent.sound fun stored => ?_, grows, self⟩
  rcases (gains_of_define h _ _).mp stored with stored | ⟨mem, _⟩
  · exact sound.formed stored
  · rw [List.mem_singleton.mp mem]
    exact formed

end Namespace

namespace Reading

variable {α β : Type} {ns ns' : Namespace}

/-- From the namespace the computation leads to a sound one that keeps what is there, also where it
fails; where it succeeds its result is good. -/
structure Leads (ns : Namespace) (reading : Reading α) (good : Namespace → α → Prop) : Prop where
  sound : (reading.runFrom ns).2.Sound
  grows : ns.Grows (reading.runFrom ns).2
  good : ∀ a, (reading.runFrom ns).1 = .ok a → good (reading.runFrom ns).2 a

variable {good : Namespace → α → Prop} {good' : Namespace → β → Prop}

theorem leads_of_look {view : Namespace → Except Error α} (sound : ns.Sound)
    (h : ∀ a, view ns = .ok a → good ns a) : Leads ns (look view) good :=
  ⟨sound, .refl ns, h⟩

theorem leads_of_lift {result : Except Error α} (sound : ns.Sound)
    (h : ∀ a, result = .ok a → good ns a) : Leads ns (lift result) good :=
  ⟨sound, .refl ns, h⟩

theorem leads_of_throw (sound : ns.Sound) (error : Error) : Leads ns (throw error : Reading α) good :=
  ⟨sound, .refl ns, fun _ h => nomatch h⟩

theorem leads_of_pure {a : α} (sound : ns.Sound) (h : good ns a) : Leads ns (pure a) good := by
  refine ⟨sound, .refl ns, fun b eq => ?_⟩
  cases eq
  exact h

theorem leads_of_change {update : Namespace → Except Error Namespace}
    {good : Namespace → Unit → Prop} (sound : ns.Sound)
    (h : ∀ ns', update ns = .ok ns' → ns'.Sound ∧ ns.Grows ns' ∧ good ns' ()) :
    Leads ns (change update) good := by
  cases changed : update ns with
  | error error =>
    have run : (change update).runFrom ns = (.error error, ns) := by
      unfold runFrom change
      rw [changed]
    refine ⟨?_, ?_, ?_⟩ <;> rw [run]
    · exact sound
    · exact .refl ns
    · exact fun _ eq => nomatch eq
  | ok ns' =>
    obtain ⟨sound', grows, good'⟩ := h ns' changed
    have run : (change update).runFrom ns = (.ok (), ns') := by
      unfold runFrom change
      rw [changed]
    refine ⟨?_, ?_, ?_⟩ <;> rw [run]
    · exact sound'
    · exact grows
    · exact fun _ _ => good'

theorem Leads.bind {first : Reading α} {rest : α → Reading β} (h : Leads ns first good)
    (next : ∀ a ns', ns'.Sound → ns.Grows ns' → good ns' a → Leads ns' (rest a) good') :
    Leads ns (first >>= rest) good' := by
  have run := runFrom_bind first rest ns
  obtain ⟨sound, grows, result⟩ := h
  generalize first.runFrom ns = outcome at run sound grows result
  obtain ⟨failed | a, middle⟩ := outcome
  · have stopped : (first >>= rest).runFrom ns = (.error failed, middle) := run
    refine ⟨?_, ?_, ?_⟩ <;> rw [stopped]
    · exact sound
    · exact grows
    · exact fun _ eq => nomatch eq
  · obtain ⟨sound', grows', result'⟩ := next a middle sound grows (result a rfl)
    have continued : (first >>= rest).runFrom ns = (rest a).runFrom middle := run
    refine ⟨?_, ?_, ?_⟩ <;> rw [continued]
    · exact sound'
    · exact grows.trans grows'
    · exact result'

end Reading

structure Namespace.Accepts (ns : Namespace) (shape : Shape) : Prop where
  known : ns.Knows shape
  formed : shape.Formed

namespace Namespace

variable {ns ns' : Namespace}

theorem Grows.accepts (grows : ns.Grows ns') {shape : Shape} (h : ns.Accepts shape) :
    ns'.Accepts shape :=
  ⟨grows.knows h.known, h.formed⟩

theorem accepts_of_stored {type : NamedType} (stored : ns.get? type.name = some type)
    (formed : type.Formed) : ns.Accepts type.shape := by
  cases type with
  | fixed type =>
    exact ⟨knows_of_leaf (Or.inl stored) rfl, Shape.formed_of_components nofun nofun nofun⟩
  | enumeration type =>
    refine ⟨knows_of_leaf (Or.inl stored) rfl, Shape.formed_of_components ?_ nofun nofun⟩
    intro other same
    cases same
    exact formed
  | record type =>
    exact ⟨knows_of_leaf (Or.inl ⟨type, stored⟩) rfl, Shape.formed_of_components nofun nofun nofun⟩

theorem accepts_of_declared {name : String} (declared : name ∈ ns.declared) :
    ns.Accepts (.record name) :=
  ⟨knows_of_leaf (Or.inr ⟨name, declared, rfl⟩) rfl, Shape.formed_of_components nofun nofun nofun⟩

theorem accepts_of_resolve {name : String} {shape : Shape} (sound : ns.Sound)
    (h : ns.resolve name = .ok shape) : ns.Accepts shape := by
  unfold resolve at h
  split at h
  · rename_i type stored
    cases h
    have formed := sound.formed stored
    obtain ⟨rfl, _⟩ := sound.named stored
    exact accepts_of_stored stored formed
  · split at h
    · rename_i declared
      cases h
      exact accepts_of_declared declared
    · cases h

theorem accepts_array {items : Shape} (h : ns.Accepts items) : ns.Accepts (.array items) :=
  ⟨knows_of_components (Or.inl trivial) (List.forall_mem_singleton.mpr h.known),
    Shape.formed_of_components nofun nofun (List.forall_mem_singleton.mpr h.formed)⟩

theorem accepts_map {values : Shape} (h : ns.Accepts values) : ns.Accepts (.map values) :=
  ⟨knows_of_components (Or.inl trivial) (List.forall_mem_singleton.mpr h.known),
    Shape.formed_of_components nofun nofun (List.forall_mem_singleton.mpr h.formed)⟩

theorem accepts_union {branches : List Shape} {shape : Shape}
    (h : ∀ branch ∈ branches, ns.Accepts branch) (made : Shape.makeUnion branches = .ok shape) :
    ns.Accepts shape := by
  have formed := Shape.unionFormed_of_makeUnion made
  rw [Shape.eq_union_of_makeUnion made]
  constructor
  · exact knows_of_components (Or.inl trivial) fun branch mem => (h branch mem).known
  · refine Shape.formed_of_components nofun ?_ fun branch mem => (h branch mem).formed
    intro others same
    cases same
    exact formed

end Namespace

open Namespace (accepts_of_stored accepts_of_resolve accepts_array accepts_map accepts_union
  knows_of_leaf sound_of_declare sound_of_define)

/-- Reading the schema keeps a namespace sound, and leads to a shape that it accepts. -/
def Schema.Safe (schema : Schema) : Prop :=
  ∀ ns : Namespace, ns.Sound → Reading.Leads ns schema.shape Namespace.Accepts

def FieldSchemas.Safe (schemas : FieldSchemas) : Prop :=
  ∀ ns : Namespace, ns.Sound →
    Reading.Leads ns schemas.fields fun ns' fields => ∀ shape ∈ fields.map Field.shape, ns'.Accepts shape

theorem Reading.leads_of_define {ns : Namespace} {type : NamedType} (sound : ns.Sound)
    (proper : TypeName type.name) (formed : type.Formed) (notRecord : type.isRecord = false) :
    Leads ns (do change (·.define type); return type.shape) Namespace.Accepts := by
  have noFields (record : Record) (eq : type = .record record) :
      ∀ shape ∈ record.shapes, ns.Knows shape := by
    subst eq
    cases notRecord
  have defined : Leads ns (change (·.define type)) fun ns' _ => ns'.get? type.name = some type :=
    leads_of_change sound fun ns' => sound_of_define type sound proper formed noFields
  exact defined.bind fun _ ns' sound' _ stored =>
    leads_of_pure sound' (accepts_of_stored stored formed)

theorem Schema.shapes_lead {schemas : List Schema} (safe : ∀ schema ∈ schemas, schema.Safe)
    {ns : Namespace} (sound : ns.Sound) :
    Reading.Leads ns (Schema.shapes schemas) fun ns' shapes => ∀ shape ∈ shapes, ns'.Accepts shape := by
  induction schemas generalizing ns with
  | nil =>
    unfold Schema.shapes
    exact Reading.leads_of_pure sound (List.forall_mem_nil _)
  | cons schema schemas ih =>
    obtain ⟨first, others⟩ := List.forall_mem_cons.mp safe
    unfold Schema.shapes
    refine (first ns sound).bind fun shape ns' sound' _ accepts => ?_
    refine (ih others sound').bind fun shapes ns'' sound'' grows accepts' => ?_
    exact Reading.leads_of_pure sound'' (List.forall_mem_cons.mpr ⟨grows.accepts accepts, accepts'⟩)

theorem Schema.record_safe {name : String} {doc : Option String} {fields : FieldSchemas}
    (spelled : isName name = true) (safe : fields.Safe) : (Schema.record name doc fields).Safe := by
  intro ns sound
  unfold Schema.shape
  have declared : Reading.Leads ns (.change (·.declare name)) fun _ _ => True :=
    Reading.leads_of_change sound fun ns' declares =>
      (sound_of_declare sound declares).imp_right fun grows => ⟨grows, trivial⟩
  refine declared.bind fun _ opened soundOpened _ _ => ?_
  refine (safe opened soundOpened).bind fun inner filled soundFilled _ accepts => ?_
  have made : Reading.Leads filled (.lift (Record.make name doc inner)) fun ns' record =>
      Record.make name doc inner = .ok record ∧ ∀ shape ∈ inner.map Field.shape, ns'.Accepts shape :=
    Reading.leads_of_lift soundFilled fun _ makes => ⟨makes, accepts⟩
  refine made.bind fun record ns' sound' _ made => ?_
  obtain ⟨makes, accepts⟩ := made
  obtain ⟨rfl, declarable⟩ := Record.of_make makes
  let type : NamedType := .record ⟨name, doc, inner⟩
  have formed : type.Formed :=
    ⟨Record.members_nodup_of_make makes, fun shape mem => (accepts shape mem).formed⟩
  have known (record : Record) (eq : type = .record record) :
      ∀ shape ∈ record.shapes, ns'.Knows shape := by
    have same : ⟨name, doc, inner⟩ = record := NamedType.record.inj eq
    subst same
    exact fun shape mem => (accepts shape mem).known
  have defined : Reading.Leads ns' (.change (·.define type)) fun ns'' _ =>
      ns''.get? name = some type :=
    Reading.leads_of_change sound' fun ns'' =>
      sound_of_define type sound' ⟨spelled, declarable⟩ formed known
  exact defined.bind fun _ ns'' sound'' _ stored =>
    Reading.leads_of_pure sound'' (accepts_of_stored (show ns''.get? type.name = some type from stored) formed)

theorem Enumeration.formed_of_read {members : Json.Members} {type : Enumeration}
    (h : readEnumeration members = .ok type) : type.Formed := by
  obtain ⟨name, _, h⟩ := exists_ok_of_bind h
  split at h
  · obtain ⟨symbols, _, made⟩ := exists_ok_of_bind h
    exact formed_of_make made
  · cases h

theorem Schema.safe_kept : Schema.KeptByReading Schema.Safe FieldSchemas.Safe where
  invalid error := fun _ sound => Reading.leads_of_throw sound error
  primitive kind := by
    intro ns sound
    refine Reading.leads_of_pure sound ⟨knows_of_leaf (Or.inl trivial) rfl, ?_⟩
    exact Shape.formed_of_components nofun nofun nofun
  reference name := fun _ sound =>
    Reading.leads_of_look sound fun _ => accepts_of_resolve sound
  fixed read := fun _ sound =>
    Reading.leads_of_define sound (typeName_of_readFixed read) trivial rfl
  enumeration read := fun _ sound =>
    Reading.leads_of_define sound (typeName_of_readEnumeration read) (Enumeration.formed_of_read read) rfl
  array safe := fun ns sound =>
    (safe ns sound).bind fun _ _ sound' _ accepts =>
      Reading.leads_of_pure sound' (accepts_array accepts)
  map safe := fun ns sound =>
    (safe ns sound).bind fun _ _ sound' _ accepts =>
      Reading.leads_of_pure sound' (accepts_map accepts)
  union safe := fun ns sound =>
    (Schema.shapes_lead safe sound).bind fun _ _ sound' _ accepts =>
      Reading.leads_of_lift sound' fun _ => accepts_union accepts
  record _ _ named safe := Schema.record_safe (isName_of_requiredName named) safe
  done := fun _ sound => Reading.leads_of_pure sound (List.forall_mem_nil _)
  malformed error := fun _ sound => Reading.leads_of_throw sound error
  cons _ _ _ _ safe safe' := fun ns sound =>
    (safe ns sound).bind fun _ _ sound' _ accepts =>
      (safe' _ sound').bind fun _ _ sound'' grows accepts' =>
        Reading.leads_of_pure sound'' (List.forall_mem_cons.mpr ⟨grows.accepts accepts, accepts'⟩)

inductive ReaderCall where
  | document (text : String)
  | schema (value : Json.Value)

/-- The namespace after a call, whether or not the call succeeds. -/
def ReaderCall.after (ns : Namespace) : ReaderCall → Namespace
  | .document text => ((readDocument text).runFrom ns).2
  | .schema value => ((Schema.ofJson value).shape.runFrom ns).2

def Namespace.afterCalls (ns : Namespace) (calls : List ReaderCall) : Namespace :=
  calls.foldl ReaderCall.after ns

theorem readDocument_leads (text : String) {ns : Namespace} (sound : ns.Sound) :
    Reading.Leads ns (readDocument text) fun _ _ => True := by
  unfold readDocument
  split
  · exact Reading.leads_of_throw sound _
  · rename_i value _
    have safe := Document.holds_ofJson Schema.safe_kept value
    exact (Schema.shapes_lead safe sound).bind fun _ _ sound' _ _ =>
      Reading.leads_of_pure sound' trivial

theorem ReaderCall.after_sound (call : ReaderCall) {ns : Namespace} (sound : ns.Sound) :
    (call.after ns).Sound ∧ ns.Grows (call.after ns) := by
  cases call with
  | document text =>
    have leads := readDocument_leads text sound
    exact ⟨leads.sound, leads.grows⟩
  | schema value =>
    have leads := Schema.holds_ofJson Schema.safe_kept value ns sound
    exact ⟨leads.sound, leads.grows⟩

theorem Namespace.afterCalls_sound {ns : Namespace} (calls : List ReaderCall) (sound : ns.Sound) :
    (ns.afterCalls calls).Sound ∧ ns.Grows (ns.afterCalls calls) := by
  induction calls generalizing ns with
  | nil => exact ⟨sound, .refl ns⟩
  | cons call calls ih =>
    obtain ⟨sound', grows⟩ := call.after_sound sound
    obtain ⟨sound'', grows'⟩ := ih sound'
    exact ⟨sound'', grows.trans grows'⟩

/-- After any calls the namespace is sound, and later calls keep what it stores. -/
theorem reader_keeps_sound (earlier later : List ReaderCall) :
    (Namespace.empty.afterCalls earlier).Sound ∧
      ((Namespace.empty.afterCalls earlier).afterCalls later).Sound ∧
      ∀ name type, (Namespace.empty.afterCalls earlier).get? name = some type →
        ((Namespace.empty.afterCalls earlier).afterCalls later).get? name = some type := by
  obtain ⟨sound, _⟩ := Namespace.afterCalls_sound earlier Namespace.sound_empty
  obtain ⟨sound', grows⟩ := Namespace.afterCalls_sound later sound
  exact ⟨sound, sound', fun _ _ => grows.kept⟩

def holderValue (name type : String) : Json.Value :=
  .object [("type", .string "record"), ("name", .string name),
    ("fields", .array [.object [("name", .string "held"), ("type", .string type)]])]

def holderSchema (name type : String) : Schema :=
  .record name none (.cons "held" none (.reference type) .done)

def holder (name type : String) : Record where
  name := name
  fields := [⟨"held", .record type, none⟩]

def orphanNamespace : Namespace where
  declared := ["Orphan"]

def adopterNamespace : Namespace where
  types := (∅ : Keyed String NamedType).insert "Adopter" (.record (holder "Adopter" "Orphan"))
  declared := ["Orphan"]

theorem orphan_declared : ReaderCall.after .empty (.schema (holderValue "Orphan" "Missing")) =
    orphanNamespace := by
  have denotes : Schema.ofJson (holderValue "Orphan" "Missing") = holderSchema "Orphan" "Missing" :=
    Schema.ofJson_written (holderSchema "Orphan" "Missing") (by decide)
  have declarable : Declarable "Orphan" := by decide
  have declares : Namespace.empty.declare "Orphan" = .ok orphanNamespace :=
    declare_of_declarable declarable (fun _ stored => by cases stored) rfl
  have opens : (Reading.change (·.declare "Orphan")).runFrom .empty = (.ok (), orphanNamespace) :=
    Reading.run_change declares
  rw [ReaderCall.after, denotes, holderSchema, Schema.shape, Reading.run_bind opens]
  rfl

theorem adopter_stored : ReaderCall.after orphanNamespace (.schema (holderValue "Adopter" "Orphan")) =
    adopterNamespace := by
  have denotes : Schema.ofJson (holderValue "Adopter" "Orphan") = holderSchema "Adopter" "Orphan" :=
    Schema.ofJson_written (holderSchema "Adopter" "Orphan") (by decide)
  have declarable : Declarable "Adopter" := by decide
  have run : (holderSchema "Adopter" "Orphan").shape.runFrom orphanNamespace =
      (.ok (.record "Adopter"), adopterNamespace) :=
    Schema.run_record_of_declarable declarable (fun _ stored => by cases stored) rfl rfl rfl rfl
  rw [ReaderCall.after, denotes, run]

/-- A stored record may refer to a record whose reading was cut short. -/
theorem adopter_is_sound :
    ∃ calls : List ReaderCall, (Namespace.empty.afterCalls calls).Sound ∧
      (Namespace.empty.afterCalls calls).get? "Adopter" = some (.record (holder "Adopter" "Orphan")) ∧
      "Orphan" ∈ (Namespace.empty.afterCalls calls).declared := by
  have reached : Namespace.empty.afterCalls [.schema (holderValue "Orphan" "Missing"),
      .schema (holderValue "Adopter" "Orphan")] = adopterNamespace := by
    rw [Namespace.afterCalls, List.foldl_cons, orphan_declared, List.foldl_cons, adopter_stored,
      List.foldl_nil]
  refine ⟨[.schema (holderValue "Orphan" "Missing"), .schema (holderValue "Adopter" "Orphan")],
    (reader_keeps_sound _ []).1, ?_, ?_⟩ <;> rw [reached]
  · rfl
  · exact List.mem_singleton_self _

end AvroCompiler

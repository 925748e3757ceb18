import AvroCompiler.Proofs.Registration.Origin
import AvroCompiler.Proofs.Emit.ValueType
import AvroCompiler.Proofs.Schema.Writing

namespace AvroCompiler

namespace Namespace

/-- Two different shapes that occur have one canonical name. -/
def Clashes (ns : Namespace) : Prop :=
  ∃ a b, ns.Occurs a ∧ ns.Occurs b ∧ a.canonicalName = b.canonicalName ∧ a ≠ b

/-- Two different unions that occur are declared by one text. -/
def Masks (ns : Namespace) : Prop :=
  ∃ name as bs, ns.Occurs (.union as) ∧ ns.Occurs (.union bs) ∧
    (Shape.union as).canonicalName = name ∧ (Shape.union bs).canonicalName = name ∧
    Shape.unionDeclaration name as = Shape.unionDeclaration name bs ∧ as ≠ bs

theorem Masks.clashes {ns : Namespace} (h : ns.Masks) : ns.Clashes := by
  obtain ⟨name, as, bs, occursA, occursB, nameA, nameB, _, ne⟩ := h
  exact ⟨_, _, occursA, occursB, nameA.trans nameB.symm, fun eq => ne (Shape.union.inj eq)⟩

end Namespace

theorem Primitive.eq_of_canonicalName {a b : Primitive} (h : a.canonicalName = b.canonicalName) :
    a = b := by
  cases a <;> cases b <;> simp [canonicalName] at h ⊢

theorem Shape.canonicalName_ne_primitive {ns : Namespace} (closed : ns.Closed) {shape : Shape}
    (compound : shape.Compound) (codes : ns.Codes shape) (kind : Primitive) :
    shape.canonicalName ≠ kind.canonicalName := by
  have proper := closed.proper codes
  have reserved : kind.canonicalName ∈ reservedNames := by
    cases kind <;> simp [Primitive.canonicalName, reservedNames]
  intro eq
  rw [← eq] at reserved
  cases shape with
  | primitive kind => exact compound kind rfl
  | fixed | enumeration | record => exact (proper.typeName rfl).declarable.1 reserved
  | array items =>
    have chars := congrArg String.toList eq
    rw [canonicalName_array] at chars
    cases kind <;> simp [Primitive.canonicalName] at chars
  | map values =>
    have chars := congrArg String.toList eq
    rw [canonicalName_map] at chars
    cases kind <;> simp [Primitive.canonicalName] at chars
  | union branches =>
    have chars := congrArg String.toList eq
    rw [canonicalName_union] at chars
    cases kind <;> simp [Primitive.canonicalName] at chars

section Unmasked

variable {ns : Namespace} {pkg : Package} {package : String} (closed : ns.Closed)
  (generated : generate ns package = .ok pkg) (unmasked : ¬ns.Masks)

include closed generated

theorem settled_declare_field {record : Record} (stored : ns.get? record.name = some (.record record))
    {shape : Shape} (mem : shape ∈ record.shapes) : pkg.Settled ns (.declare shape) := by
  have held := holds_declaration closed generated (.record record) stored
  exact settled_of_declared closed generated (.record record) stored held _
    (List.mem_append_right _ (List.mem_map.mpr ⟨shape, mem, rfl⟩))

theorem settled_write_field {record : Record} (stored : ns.get? record.name = some (.record record))
    {shape : Shape} (mem : shape ∈ record.shapes) : pkg.Settled ns (.write shape) := by
  have held := holds_items closed generated (.record record) stored (.tail _ (.head _))
  exact settled_of_serialize closed generated stored held shape mem

include unmasked

theorem settled_declare_component {whole component : Shape} (occurs : ns.Occurs whole)
    (settled : pkg.Settled ns (.declare whole)) (mem : component ∈ whole.components) :
    pkg.Settled ns (.declare component) := by
  cases whole with
  | primitive | fixed | enumeration | record => cases mem
  | array items | map values => exact settled.next rfl _ (by simpa [Shape.components] using mem)
  | union branches =>
    have held := settled.holds (Task.declare_union_enters ns branches)
    obtain ⟨others, occurs', named, text, follow⟩ :=
      settled_of_declared_union closed generated rfl held
    have same : others = branches := Decidable.byContradiction fun ne =>
      unmasked ⟨_, others, branches, occurs', occurs, named, rfl, text, ne⟩
    subst same
    exact follow _ (List.mem_append_right _ (List.mem_map.mpr ⟨component, mem, rfl⟩))

theorem settled_declare_of_occurs {shape : Shape} (occurs : ns.Occurs shape) :
    pkg.Settled ns (.declare shape) :=
  occurs.induct closed (fun stored _ mem => settled_declare_field closed generated stored mem)
    fun occurs => settled_declare_component closed generated unmasked occurs

theorem holds_unionDeclaration {name : String} {branches : List Shape}
    (named : (Shape.union branches).canonicalName = name) (occurs : ns.Occurs (.union branches)) :
    pkg.Holds ⟨fileName name, .type name (Shape.unionDeclaration name branches)⟩ := by
  subst named
  exact (settled_declare_of_occurs closed generated unmasked occurs).holds
    (Task.declare_union_enters ns branches)

theorem eq_of_union_name {branches : List Shape} {other : Shape} (occurs : ns.Occurs (.union branches))
    (occurs' : ns.Occurs other) (name : (Shape.union branches).canonicalName = other.canonicalName)
    (form : other.Bare ∨ ∃ owner, other = .record owner) : Shape.union branches = other := by
  have held := holds_unionDeclaration closed generated unmasked rfl occurs
  have noType (type : NamedType) (eq : other = type.shape) (stored : ns.get? type.name = some type) :
      Shape.union branches = other := by
    subst eq
    rw [type.shape_canonicalName] at name
    rw [name] at held
    have text := held.type_eq (holds_declaration closed generated type stored)
    exact absurd text (type.declaration_ne_union _ _)
  have defined := closed.defines (Or.inl occurs')
  cases other with
  | primitive | array | map =>
    rcases form with bare | ⟨_, eq⟩
    · cases bare
    · cases eq
  | fixed type => exact noType (.fixed type) rfl defined
  | enumeration type => exact noType (.enumeration type) rfl defined
  | record owner =>
    obtain ⟨record, found⟩ := defined
    cases closed.record_name found
    exact noType (.record record) rfl found
  | union others =>
    have held' := holds_unionDeclaration closed generated unmasked name.symm occurs'
    have text := held.type_eq held'
    have equal : branches = others := Decidable.byContradiction fun ne =>
      unmasked ⟨_, branches, others, occurs, occurs', rfl, name.symm, text, ne⟩
    exact congrArg Shape.union equal

theorem eq_of_bare_name {a b : Shape} (occurs : ns.Occurs a) (occurs' : ns.Occurs b) (bare : a.Bare)
    (bare' : b.Bare) (name : a.canonicalName = b.canonicalName) : a = b := by
  have defined := closed.defines (Or.inl occurs)
  have defined' := closed.defines (Or.inl occurs')
  have stored {x y : NamedType} (hx : ns.get? a.canonicalName = some x)
      (hy : ns.get? b.canonicalName = some y) : x = y := by
    rw [name, hy] at hx
    exact (Option.some.inj hx).symm
  cases a with
  | primitive | array | map | record => cases bare
  | union branches =>
    exact eq_of_union_name closed generated unmasked occurs occurs' name (Or.inl bare')
  | fixed type =>
    cases b with
    | primitive | array | map | record => cases bare'
    | union branches =>
      exact (eq_of_union_name closed generated unmasked occurs' occurs name.symm (Or.inl bare)).symm
    | fixed other => cases stored defined defined'; rfl
    | enumeration other => cases stored defined defined'
  | enumeration type =>
    cases b with
    | primitive | array | map | record => cases bare'
    | union branches =>
      exact (eq_of_union_name closed generated unmasked occurs' occurs name.symm (Or.inl bare)).symm
    | fixed other => cases stored defined defined'
    | enumeration other => cases stored defined defined'; rfl

theorem eq_of_valueType {a b : Shape} (occurs : ns.Occurs a) (occurs' : ns.Occurs b)
    (type : a.valueType = b.valueType) : a = b := by
  induction a using Shape.induction_components generalizing b with
  | step a ih =>
    have proper {shape : Shape} (h : ns.Occurs shape) : shape.Proper := closed.proper (Or.inl h)
    cases Shape.sameValue_of_valueType (proper occurs) (proper occurs') type with
    | primitive | record => rfl
    | bare bare bare' name =>
      exact eq_of_bare_name closed generated unmasked occurs occurs' bare bare' name
    | @array items others inner =>
      have mem := List.mem_singleton_self items
      exact congrArg Shape.array (ih items mem (occurs.component mem)
        (occurs'.component (List.mem_singleton_self others)) inner)
    | @map values others inner =>
      have mem := List.mem_singleton_self values
      exact congrArg Shape.map (ih values mem (occurs.component mem)
        (occurs'.component (List.mem_singleton_self others)) inner)

theorem settled_write_component {whole component : Shape} (occurs : ns.Occurs whole)
    (settled : pkg.Settled ns (.write whole)) (mem : component ∈ whole.components) :
    pkg.Settled ns (.write component) := by
  have compound : whole.Compound := by
    rintro kind rfl
    cases mem
  have held := settled.holds (Shape.write_enters compound)
  obtain ⟨other, codes, form, follow⟩ :=
    settled_of_written closed generated (Or.inl occurs) compound held
  have occursOther (unnamed : other.typeName? = none) : ns.Occurs other := by
    rcases codes with occurs | ⟨type, _, plain, rfl⟩
    · exact occurs
    · cases type with
      | fixed | enumeration => cases unnamed
      | record => cases plain
  -- The routine may stem from another shape of the same form; here that shape is the same.
  have same : other = whole := by
    cases form with
    | fixed | enumeration | record => cases mem
    | @array items others type =>
      have occurs' := (occursOther rfl).component (List.mem_singleton_self items)
      have inner := occurs.component (List.mem_singleton_self others)
      exact congrArg Shape.array (eq_of_valueType closed generated unmasked occurs' inner type)
    | @map values others type =>
      have occurs' := (occursOther rfl).component (List.mem_singleton_self values)
      have inner := occurs.component (List.mem_singleton_self others)
      exact congrArg Shape.map (eq_of_valueType closed generated unmasked occurs' inner type)
    | union name =>
      exact eq_of_union_name closed generated unmasked (occursOther rfl) occurs name (Or.inl trivial)
  subst same
  exact follow _ (Shape.write_component mem)

theorem settled_write_of_occurs {shape : Shape} (occurs : ns.Occurs shape) :
    pkg.Settled ns (.write shape) :=
  occurs.induct closed (fun stored _ mem => settled_write_field closed generated stored mem)
    fun occurs => settled_write_component closed generated unmasked occurs

/-- Where no union hides another, canonical names tell all shapes apart that occur. -/
theorem eq_of_canonicalName {a b : Shape} (occurs : ns.Occurs a) (occurs' : ns.Occurs b)
    (name : a.canonicalName = b.canonicalName) : a = b := by
  induction a using Shape.induction_components generalizing b with
  | step a ih =>
    rcases a.primitive_or_compound with ⟨kind, rfl⟩ | compound
    · rcases b.primitive_or_compound with ⟨other, rfl⟩ | compound'
      · exact congrArg Shape.primitive (Primitive.eq_of_canonicalName name)
      · exact absurd name.symm (Shape.canonicalName_ne_primitive closed compound' (Or.inl occurs') kind)
    · rcases b.primitive_or_compound with ⟨other, rfl⟩ | compound'
      · exact absurd name (Shape.canonicalName_ne_primitive closed compound (Or.inl occurs) other)
      · have writer : a.writer = b.writer := congrArg writerName name
        have held := (settled_write_of_occurs closed generated unmasked occurs).holds
          (Shape.write_enters compound)
        have held' := (settled_write_of_occurs closed generated unmasked occurs').holds
          (Shape.write_enters compound')
        rw [← writer] at held'
        have text := held.routine_eq held'
        have proper {shape : Shape} (h : ns.Occurs shape) : shape.Proper := closed.proper (Or.inl h)
        cases Shape.sameForm_of_writeRoutine (proper occurs) (proper occurs') compound compound'
          writer text with
        | fixed | enumeration =>
          exact eq_of_bare_name closed generated unmasked occurs occurs' trivial trivial name
        | record => rfl
        | union =>
          exact eq_of_union_name closed generated unmasked occurs occurs' name (Or.inl trivial)
        | @array items others =>
          have mem := List.mem_singleton_self items
          rw [Shape.canonicalName_array, Shape.canonicalName_array, String.append_right_inj] at name
          exact congrArg Shape.array (ih items mem (occurs.component mem)
            (occurs'.component (List.mem_singleton_self others)) name)
        | @map values others =>
          have mem := List.mem_singleton_self values
          rw [Shape.canonicalName_map, Shape.canonicalName_map, String.append_right_inj] at name
          exact congrArg Shape.map (ih values mem (occurs.component mem)
            (occurs'.component (List.mem_singleton_self others)) name)

end Unmasked

/-- Names that clash are reported as a conflict, except where two different unions are declared by
one text: a package comes of such names only if there are such unions. -/
theorem clash_is_conflict_unless_masked {texts : List String} {ns : Namespace}
    (read : (readDocuments texts).runFrom .empty = (.ok (), ns)) (package : String) :
    (∀ pkg, generate ns package = .ok pkg → (ns.Clashes ↔ ns.Masks)) ∧
      (ns.Clashes → ¬ns.Masks →
        ∃ file label, generate ns package = .error (.conflict file label)) := by
  have closed := closed_of_readDocuments read
  have masked (pkg : Package) (generated : generate ns package = .ok pkg) (clashes : ns.Clashes) :
      ns.Masks := by
    obtain ⟨a, b, occurs, occurs', name, ne⟩ := clashes
    exact Classical.byContradiction fun unmasked =>
      ne (eq_of_canonicalName closed generated unmasked occurs occurs' name)
  refine ⟨fun pkg generated => ⟨masked pkg generated, Namespace.Masks.clashes⟩, ?_⟩
  intro clashes unmasked
  cases outcome : generate ns package with
  | ok pkg => exact absurd (masked pkg outcome clashes) unmasked
  | error error =>
    obtain ⟨item, _, _, _, _, _, _, _, _, rfl⟩ := conflict_of_generate closed outcome
    exact ⟨_, _, rfl⟩

/-- A text with two unions of one name, each alone inside another union. -/
def maskedText : String :=
  "\x7b\"type\":\"record\",\"name\":\"Pair\",\"fields\":[" ++
    "\x7b\"name\":\"f\",\"type\":[\x7b\"type\":\"array\",\"items\":[\"int\"," ++
      "\x7b\"type\":\"record\",\"name\":\"IntInt\",\"fields\":[]\x7d]\x7d]\x7d," ++
    "\x7b\"name\":\"g\",\"type\":[\x7b\"type\":\"array\",\"items\":[\"IntInt\",\"int\"]\x7d]\x7d]\x7d"

def maskedFields : FieldSchemas :=
  .cons "f" none (.union [.array (.union [.primitive .int, .record "IntInt" none .done])])
    (.cons "g" none (.union [.array (.union [.reference "IntInt", .primitive .int])]) .done)

def plainUnion : Shape := .union [.primitive .int, .record "IntInt"]

def maskedUnion : Shape := .union [.record "IntInt", .primitive .int]

def intInt : Record where
  name := "IntInt"
  fields := []

def maskedPair : Record where
  name := "Pair"
  fields :=
    [⟨"f", .union [.array plainUnion], none⟩, ⟨"g", .union [.array maskedUnion], none⟩]

def innerNamespace : Namespace where
  types := (∅ : Keyed String NamedType).insert "IntInt" (.record intInt)
  declared := ["Pair"]

def maskedNamespace : Namespace where
  types := innerNamespace.types.insert "Pair" (.record maskedPair)

theorem maskedText_eq : maskedText = (Schema.record "Pair" none maskedFields).text := by
  decide +kernel

theorem intInt_runs : (Schema.record "IntInt" none .done).shape.runFrom { declared := ["Pair"] } =
    (.ok (.record "IntInt"), innerNamespace) := by
  have declarable : Declarable "IntInt" := by decide
  exact Schema.run_record_of_declarable declarable nofun rfl rfl rfl rfl

theorem maskedFields_run : maskedFields.fields.runFrom { declared := ["Pair"] } =
    (.ok maskedPair.fields, innerNamespace) := by
  have plain : (Schema.union [.primitive .int, .record "IntInt" none .done]).shape.runFrom
      { declared := ["Pair"] } = (.ok plainUnion, innerNamespace) :=
    Schema.run_union (Schema.run_shapes_cons rfl (Schema.run_shapes_cons intInt_runs rfl)) rfl
  refine Schema.run_fields_cons
    (Schema.run_union (Schema.run_shapes_cons (Schema.run_array plain) rfl) rfl) ?_
  rfl

theorem maskedText_reads : (readDocuments [maskedText]).runFrom .empty = (.ok (), maskedNamespace) := by
  have declarable : Declarable "Pair" := by decide
  rw [maskedText_eq]
  exact readDocuments_text (by decide +kernel) (by decide +kernel)
    (Schema.run_record_of_declarable declarable nofun rfl maskedFields_run rfl rfl)

/-- The second union is never looked at: what holds it has the declaration and the routines of what
holds the first. -/
theorem maskedNamespace_generates : ∃ pkg, generate maskedNamespace "avro" = .ok pkg := by
  have ends : (Package.rehearse maskedNamespace 200 [] ⟨"avro", ∅⟩ maskedNamespace.tasks).isSome =
      true := by
    decide +kernel
  obtain ⟨pkg, rehearsed⟩ := Option.isSome_iff_exists.mp ends
  exact ⟨pkg, generate_of_rehearse rehearsed⟩

theorem occurs_plainUnion : maskedNamespace.Occurs plainUnion :=
  ⟨"Pair", maskedPair, rfl, .union [.array plainUnion], .head _,
    .inside (.head _) (.inside (.head _) .self)⟩

theorem occurs_maskedUnion : maskedNamespace.Occurs maskedUnion :=
  ⟨"Pair", maskedPair, rfl, .union [.array maskedUnion], .tail _ (.head _),
    .inside (.head _) (.inside (.head _) .self)⟩

/-- A package in which two different shapes share a name. -/
theorem masked_clash_generates :
    (readDocuments [maskedText]).runFrom .empty = (.ok (), maskedNamespace) ∧
      (∃ pkg, generate maskedNamespace "avro" = .ok pkg) ∧ maskedNamespace.Occurs plainUnion ∧
      maskedNamespace.Occurs maskedUnion ∧ plainUnion.canonicalName = maskedUnion.canonicalName ∧
      plainUnion ≠ maskedUnion :=
  ⟨maskedText_reads, maskedNamespace_generates, occurs_plainUnion, occurs_maskedUnion, rfl,
    by decide⟩

theorem masked_namespace_masks : maskedNamespace.Masks := by
  obtain ⟨pkg, generated⟩ := maskedNamespace_generates
  have clashes : maskedNamespace.Clashes :=
    ⟨plainUnion, maskedUnion, occurs_plainUnion, occurs_maskedUnion, rfl, by decide⟩
  exact ((clash_is_conflict_unless_masked maskedText_reads "avro").1 pkg generated).mp clashes

end AvroCompiler

import AvroCompiler.Proofs.Registration.Reach
import AvroCompiler.Proofs.Emit.Distinction

namespace AvroCompiler

namespace NamedType

def declaration : NamedType → String
  | .fixed type => type.declaration
  | .enumeration type => type.declaration
  | .record type => type.declaration

def plan : NamedType → Plan
  | .fixed type => type.plan
  | .enumeration type => type.plan
  | .record type => type.declarePlan

def methods : NamedType → List (String × String)
  | .fixed type => [("try_from", type.conversion)]
  | .enumeration type => [("from_ordinal", type.ordinalRoutine), ("symbol", type.symbolRoutine)]
  | .record type => [("serialize", type.serializeRoutine)]

def methodTasks : NamedType → List Task
  | .fixed _ | .enumeration _ => []
  | .record type => type.serializePlan.next

/-- What belongs to a stored type: its declaration and its routines, and the size of a fixed type. -/
def items : NamedType → List Placed
  | .fixed type =>
    [⟨fileName type.name, .type type.name type.declaration⟩,
     ⟨fileName type.name, .constant (sizeConstant type.name) type.size⟩,
     ⟨fileName type.name, .routine ⟨type.name, "try_from"⟩ type.conversion⟩]
  | .enumeration type =>
    [⟨fileName type.name, .type type.name type.declaration⟩,
     ⟨fileName type.name, .routine ⟨type.name, "from_ordinal"⟩ type.ordinalRoutine⟩,
     ⟨fileName type.name, .routine ⟨type.name, "symbol"⟩ type.symbolRoutine⟩]
  | .record type =>
    [⟨fileName type.name, .type type.name type.declaration⟩,
     ⟨fileName type.name, .routine ⟨type.name, "serialize"⟩ type.serializeRoutine⟩,
     ⟨fileName type.name, .routine (.free (deserializerName type.name)) type.deserializeRoutine⟩]

end NamedType

/-- What belongs to a union. -/
def unionItems (name : String) (branches : List Shape) : List Placed :=
  [⟨fileName name, .type name (Shape.unionDeclaration name branches)⟩,
   ⟨fileName name, .routine ⟨name, "branch"⟩ (Shape.branchRoutine name branches)⟩]

namespace Namespace

variable {ns : Namespace} {file name text : String} {next : List Task}

theorem Closed.proper (closed : ns.Closed) {shape : Shape} (codes : ns.Codes shape) : shape.Proper := by
  intro part within name named
  have inner : ns.Codes part := by
    induction within with
    | self => exact codes
    | inside mem _ ih => exact ih (codes.component mem)
  have defined := closed.defines inner
  cases part with
  | primitive | array | map | union => cases named
  | fixed type =>
    cases named
    exact (closed.named defined).2
  | enumeration type =>
    cases named
    exact (closed.named defined).2
  | record owner =>
    cases named
    obtain ⟨record, found⟩ := defined
    exact (closed.named found).2

theorem stored_unique {a b : NamedType} (ha : ns.get? a.name = some a) (hb : ns.get? b.name = some b)
    (name : a.name = b.name) : a = b := by
  rw [name, hb] at ha
  exact (Option.some.inj ha).symm

theorem Emits.use_cases {path : String} (h : ns.Emits ⟨file, .use path⟩ next) : next = [] := by
  generalize eq : (⟨file, .use path⟩ : Placed) = item at h
  cases h with
  | use => rfl
  | @snippet snippet needs =>
    have entry := (Placed.mk.inj eq).2
    unfold Snippet.entry at entry
    split at entry <;> cases entry
  | fixed | size | conversion | enumeration | ordinal | symbol | union | branch | record | serialize
  | deserialize | write | read => cases (Placed.mk.inj eq).2

theorem Emits.constant_cases {value : Nat} (h : ns.Emits ⟨file, .constant name value⟩ next) :
    ∃ type : Fixed, ns.get? type.name = some (.fixed type) ∧ file = fileName type.name ∧
      sizeConstant type.name = name ∧ type.size = value ∧ next = [] := by
  generalize eq : (⟨file, .constant name value⟩ : Placed) = item at h
  cases h with
  | @size type stored =>
    obtain ⟨rfl, entry⟩ := Placed.mk.inj eq
    obtain ⟨rfl, rfl⟩ := Entry.constant.inj entry
    exact ⟨type, stored, rfl, rfl, rfl, rfl⟩
  | @snippet snippet needs =>
    have entry := (Placed.mk.inj eq).2
    unfold Snippet.entry at entry
    split at entry <;> cases entry
  | use | fixed | conversion | enumeration | ordinal | symbol | union | branch | record | serialize
  | deserialize | write | read => cases (Placed.mk.inj eq).2

theorem Emits.type_cases (h : ns.Emits ⟨file, .type name text⟩ next) :
    (∃ snippet : Snippet, snippet.isType = true ∧ file = codecFile ∧ snippet.name = name ∧
      snippet.text = text ∧ next = snippet.plan.next) ∨
    (∃ type : NamedType, ns.get? type.name = some type ∧ file = fileName name ∧ type.name = name ∧
      type.declaration = text ∧ next = type.plan.next) ∨
    ∃ branches, ns.Occurs (.union branches) ∧ file = fileName name ∧
      (Shape.union branches).canonicalName = name ∧ Shape.unionDeclaration name branches = text ∧
      next = (unionPlan name branches).next := by
  generalize eq : (⟨file, .type name text⟩ : Placed) = item at h
  cases h with
  | @snippet snippet needs =>
    obtain ⟨rfl, eq⟩ := Placed.mk.inj eq
    unfold Snippet.entry at eq
    split at eq
    · rename_i isType
      cases eq
      exact Or.inl ⟨snippet, isType, rfl, rfl, rfl, rfl⟩
    · cases eq
  | @fixed type stored =>
    obtain ⟨rfl, entry⟩ := Placed.mk.inj eq
    obtain ⟨rfl, rfl⟩ := Entry.type.inj entry
    exact Or.inr (Or.inl ⟨.fixed type, stored, rfl, rfl, rfl, rfl⟩)
  | @enumeration type stored =>
    obtain ⟨rfl, entry⟩ := Placed.mk.inj eq
    obtain ⟨rfl, rfl⟩ := Entry.type.inj entry
    exact Or.inr (Or.inl ⟨.enumeration type, stored, rfl, rfl, rfl, rfl⟩)
  | @record record stored =>
    obtain ⟨rfl, entry⟩ := Placed.mk.inj eq
    obtain ⟨rfl, rfl⟩ := Entry.type.inj entry
    exact Or.inr (Or.inl ⟨.record record, stored, rfl, rfl, rfl, rfl⟩)
  | union occurs named =>
    obtain ⟨rfl, entry⟩ := Placed.mk.inj eq
    obtain ⟨rfl, rfl⟩ := Entry.type.inj entry
    exact Or.inr (Or.inr ⟨_, occurs, rfl, named, rfl, rfl⟩)
  | use | size | conversion | ordinal | symbol | branch | serialize | deserialize | write | read =>
    cases (Placed.mk.inj eq).2

theorem Emits.free_cases (closed : ns.Closed) {word : String}
    (h : ns.Emits ⟨file, .routine (.free word) text⟩ next) :
    (∃ snippet : Snippet, snippet.isType = false ∧ file = codecFile ∧ snippet.name = word ∧
      snippet.text = text ∧ next = snippet.plan.next) ∨
    (∃ record : Record, ns.get? record.name = some (.record record) ∧ file = fileName record.name ∧
      deserializerName record.name = word ∧ record.deserializeRoutine = text ∧
      next = record.deserializePlan.next) ∨
    (∃ shape : Shape, ns.Codes shape ∧ shape.Compound ∧ file = codecFile ∧ shape.writer = word ∧
      shape.writeRoutine = text ∧ next = shape.writePlan.next) ∨
    ∃ shape : Shape, ns.Codes shape ∧ shape.Compound ∧ file = codecFile ∧ shape.reader = word ∧
      shape.readRoutine = text ∧ next = shape.readPlan.next := by
  have attached {target : String} (typed : TypeName target) (method : String) :
      RoutineKey.free word ≠ ⟨target, method⟩ := by
    intro eq
    exact typed.ne_empty (RoutineKey.mk.inj eq).1.symm
  generalize eq : (⟨file, .routine (.free word) text⟩ : Placed) = item at h
  cases h with
  | @snippet snippet needs =>
    obtain ⟨rfl, eq⟩ := Placed.mk.inj eq
    unfold Snippet.entry at eq
    split at eq
    · cases eq
    · rename_i isType
      cases eq
      exact Or.inl ⟨snippet, by simpa using isType, rfl, rfl, rfl, rfl⟩
  | conversion stored =>
    exact absurd (Entry.routine.inj (Placed.mk.inj eq).2).1 (attached (closed.named stored).2 _)
  | ordinal stored =>
    exact absurd (Entry.routine.inj (Placed.mk.inj eq).2).1 (attached (closed.named stored).2 _)
  | symbol stored =>
    exact absurd (Entry.routine.inj (Placed.mk.inj eq).2).1 (attached (closed.named stored).2 _)
  | serialize stored =>
    exact absurd (Entry.routine.inj (Placed.mk.inj eq).2).1 (attached (closed.named stored).2 _)
  | branch occurs named =>
    have target := (RoutineKey.mk.inj (Entry.routine.inj (Placed.mk.inj eq).2).1).1
    rw [← named, Shape.canonicalName_union] at target
    have chars := congrArg String.toList target
    simp at chars
  | deserialize stored =>
    obtain ⟨rfl, entry⟩ := Placed.mk.inj eq
    obtain ⟨key, rfl⟩ := Entry.routine.inj entry
    obtain ⟨-, rfl⟩ := RoutineKey.mk.inj key
    exact Or.inr (Or.inl ⟨_, stored, rfl, rfl, rfl, rfl⟩)
  | write codes compound =>
    obtain ⟨rfl, entry⟩ := Placed.mk.inj eq
    obtain ⟨key, rfl⟩ := Entry.routine.inj entry
    obtain ⟨-, rfl⟩ := RoutineKey.mk.inj key
    exact Or.inr (Or.inr (Or.inl ⟨_, codes, compound, rfl, rfl, rfl, rfl⟩))
  | read codes compound =>
    obtain ⟨rfl, entry⟩ := Placed.mk.inj eq
    obtain ⟨key, rfl⟩ := Entry.routine.inj entry
    obtain ⟨-, rfl⟩ := RoutineKey.mk.inj key
    exact Or.inr (Or.inr (Or.inr ⟨_, codes, compound, rfl, rfl, rfl, rfl⟩))
  | use | size | fixed | enumeration | union | record => cases (Placed.mk.inj eq).2

theorem Emits.attached_cases {target method : String} (free : target ≠ "")
    (h : ns.Emits ⟨file, .routine ⟨target, method⟩ text⟩ next) :
    file = fileName target ∧
    ((∃ type : NamedType, ns.get? type.name = some type ∧ type.name = target ∧
      (method, text) ∈ type.methods ∧ next = type.methodTasks) ∨
    ∃ branches, ns.Occurs (.union branches) ∧ (Shape.union branches).canonicalName = target ∧
      method = "branch" ∧ Shape.branchRoutine target branches = text ∧ next = []) := by
  generalize eq : (⟨file, .routine ⟨target, method⟩ text⟩ : Placed) = item at h
  cases h with
  | @snippet snippet needs =>
    have entry := (Placed.mk.inj eq).2
    unfold Snippet.entry at entry
    split at entry
    · cases entry
    · exact absurd (RoutineKey.mk.inj (Entry.routine.inj entry).1).1 free
  | @conversion type stored =>
    obtain ⟨rfl, entry⟩ := Placed.mk.inj eq
    obtain ⟨key, rfl⟩ := Entry.routine.inj entry
    obtain ⟨rfl, rfl⟩ := RoutineKey.mk.inj key
    exact ⟨rfl, Or.inl ⟨.fixed type, stored, rfl, .head _, rfl⟩⟩
  | @ordinal type stored =>
    obtain ⟨rfl, entry⟩ := Placed.mk.inj eq
    obtain ⟨key, rfl⟩ := Entry.routine.inj entry
    obtain ⟨rfl, rfl⟩ := RoutineKey.mk.inj key
    exact ⟨rfl, Or.inl ⟨.enumeration type, stored, rfl, .head _, rfl⟩⟩
  | @symbol type stored =>
    obtain ⟨rfl, entry⟩ := Placed.mk.inj eq
    obtain ⟨key, rfl⟩ := Entry.routine.inj entry
    obtain ⟨rfl, rfl⟩ := RoutineKey.mk.inj key
    exact ⟨rfl, Or.inl ⟨.enumeration type, stored, rfl, .tail _ (.head _), rfl⟩⟩
  | @serialize record stored =>
    obtain ⟨rfl, entry⟩ := Placed.mk.inj eq
    obtain ⟨key, rfl⟩ := Entry.routine.inj entry
    obtain ⟨rfl, rfl⟩ := RoutineKey.mk.inj key
    exact ⟨rfl, Or.inl ⟨.record record, stored, rfl, .head _, rfl⟩⟩
  | branch occurs named =>
    obtain ⟨rfl, entry⟩ := Placed.mk.inj eq
    obtain ⟨key, rfl⟩ := Entry.routine.inj entry
    obtain ⟨rfl, rfl⟩ := RoutineKey.mk.inj key
    exact ⟨rfl, Or.inr ⟨_, occurs, named, rfl, rfl, rfl⟩⟩
  | deserialize | write | read =>
    exact absurd (RoutineKey.mk.inj (Entry.routine.inj (Placed.mk.inj eq).2).1).1 free
  | use | size | fixed | enumeration | union | record => cases (Placed.mk.inj eq).2

end Namespace

namespace Shape

variable {ns : Namespace} {shape : Shape}

theorem write_enters (compound : shape.Compound) : (Task.write shape).Enters ns
    ⟨codecFile, .routine (.free shape.writer) shape.writeRoutine⟩ shape.writePlan.next := by
  cases shape with
  | primitive kind => exact absurd rfl (compound kind)
  | fixed | enumeration | array | map | union | record => rfl

theorem read_enters (compound : shape.Compound) : (Task.read shape).Enters ns
    ⟨codecFile, .routine (.free shape.reader) shape.readRoutine⟩ shape.readPlan.next := by
  cases shape with
  | primitive kind => exact absurd rfl (compound kind)
  | fixed | enumeration | array | map | union | record => rfl

theorem mem_writePlan {task : Task} (mem : task ∈ shape.writerTasks) : task ∈ shape.writePlan.next := by
  cases shape with
  | primitive => exact mem
  | fixed | enumeration | array | map | union | record => exact List.mem_append_right _ mem

theorem mem_readPlan {task : Task} (mem : task ∈ shape.readerTasks) : task ∈ shape.readPlan.next := by
  cases shape with
  | primitive => exact mem
  | fixed | enumeration | array | map | union | record => exact List.mem_append_right _ mem

/-- The snippets of a read routine are asked for, except that arrays, maps and records leave the error
type to the record they stand in. -/
theorem mem_readerTasks {snippet : Snippet} (mem : snippet ∈ shape.readerSnippets) :
    Task.snippet snippet ∈ shape.readerTasks ∨
      snippet = .decodeError ∧ ∀ type : NamedType, type.isRecord = false → shape ≠ type.shape := by
  cases shape <;> simp only [readerSnippets, List.mem_cons, List.not_mem_nil, or_false] at mem
  case primitive | fixed | enumeration | union => exact Or.inl (by simp_all [readerTasks])
  case array =>
    rcases mem with rfl | rfl
    · exact Or.inl (by simp [readerTasks])
    · exact Or.inr ⟨rfl, fun type _ eq => by cases type <;> cases eq⟩
  case map =>
    rcases mem with rfl | rfl | rfl
    · exact Or.inl (by simp [readerTasks])
    · exact Or.inl (by simp [readerTasks])
    · exact Or.inr ⟨rfl, fun type _ eq => by cases type <;> cases eq⟩
  case record =>
    refine Or.inr ⟨mem, fun type plain eq => ?_⟩
    cases type with
    | fixed | enumeration => cases eq
    | record => cases plain

theorem write_component {whole component : Shape} (mem : component ∈ whole.components) :
    Task.write component ∈ whole.writePlan.next := by
  refine mem_writePlan ?_
  cases whole with
  | primitive | fixed | enumeration | record => cases mem
  | array items =>
    cases List.mem_singleton.mp mem
    simp [writerTasks]
  | map values =>
    cases List.mem_singleton.mp mem
    simp [writerTasks]
  | union branches => exact .tail _ (.tail _ (List.mem_map.mpr ⟨component, mem, rfl⟩))

theorem read_component {whole component : Shape} (mem : component ∈ whole.components) :
    Task.read component ∈ whole.readPlan.next := by
  refine mem_readPlan ?_
  cases whole with
  | primitive | fixed | enumeration | record => cases mem
  | array items =>
    cases List.mem_singleton.mp mem
    simp [readerTasks]
  | map values =>
    cases List.mem_singleton.mp mem
    simp [readerTasks]
  | union branches => exact .tail _ (.tail _ (.tail _ (List.mem_map.mpr ⟨component, mem, rfl⟩)))

end Shape

namespace Task

variable (ns : Namespace)

theorem snippet_enters (snippet : Snippet) :
    (Task.snippet snippet).Enters ns ⟨codecFile, snippet.entry⟩ snippet.plan.next := rfl

theorem declareRecord_enters (record : Record) : (Task.declareRecord record).Enters ns
    ⟨fileName record.name, .type record.name record.declaration⟩ record.declarePlan.next := rfl

theorem serializeRecord_enters (record : Record) : (Task.serializeRecord record).Enters ns
    ⟨fileName record.name, .routine ⟨record.name, "serialize"⟩ record.serializeRoutine⟩
      record.serializePlan.next := rfl

theorem deserializeRecord_enters (record : Record) : (Task.deserializeRecord record).Enters ns
    ⟨fileName record.name, .routine (.free (deserializerName record.name)) record.deserializeRoutine⟩
      record.deserializePlan.next := rfl

theorem declare_union_enters (branches : List Shape) : (Task.declare (.union branches)).Enters ns
    ⟨fileName (Shape.union branches).canonicalName, .type (Shape.union branches).canonicalName
      (Shape.unionDeclaration (Shape.union branches).canonicalName branches)⟩
      (unionPlan (Shape.union branches).canonicalName branches).next := rfl

end Task

namespace NamedType

theorem shape_canonicalName (type : NamedType) : type.shape.canonicalName = type.name := by
  cases type <;> rfl

theorem declare_enters {ns : Namespace} {type : NamedType} (stored : ns.get? type.name = some type) :
    (Task.declare type.shape).Enters ns
      ⟨fileName type.name, .type type.name type.declaration⟩ type.plan.next := by
  cases type with
  | fixed | enumeration => rfl
  | record record =>
    have found : ns.record record.name = .ok record := Task.record_ok stored
    simp only [Task.Enters, Task.plan, shape, Shape.declarePlan, found, Except.map]
    rfl

theorem declaration_ne_union (type : NamedType) (name : String) (branches : List Shape) :
    Shape.unionDeclaration name branches ≠ type.declaration := by
  cases type with
  | fixed type => exact Shape.unionDeclaration_ne_fixed name branches type
  | enumeration type => exact Shape.unionDeclaration_ne_enumeration name branches type
  | record type => exact Shape.unionDeclaration_ne_record name branches type

end NamedType

theorem Namespace.eq_of_sameForm {ns : Namespace} (closed : ns.Closed) {shape : Shape}
    (codes : ns.Codes shape) {type : NamedType} (stored : ns.get? type.name = some type)
    (form : shape.SameForm type.shape) : shape = type.shape := by
  have defined := closed.defines codes
  cases type with
  | fixed type =>
    cases form with
    | @fixed other _ name =>
      have same : NamedType.fixed other = .fixed type := stored_unique defined stored name
      exact congrArg NamedType.shape same
  | enumeration type =>
    cases form with
    | @enumeration other _ name =>
      have same : NamedType.enumeration other = .enumeration type := stored_unique defined stored name
      exact congrArg NamedType.shape same
  | record type =>
    cases form
    rfl

theorem Snippet.reserved_name {snippet : Snippet} (isType : snippet.isType = true) :
    snippet.name ∈ reservedNames := by
  cases snippet with
  | byteWriter | stringWriter | byteReader | decodeError => simp [name, reservedNames]
  | _ => cases isType

theorem Snippet.name_ne_union (snippet : Snippet) (branches : List Shape) :
    snippet.name ≠ (Shape.union branches).canonicalName := by
  intro eq
  have chars := congrArg String.toList eq
  rw [Shape.canonicalName_union] at chars
  cases snippet <;> simp [name] at chars

theorem Snippet.name_ne_deserializer (snippet : Snippet) (record : String) :
    snippet.name ≠ deserializerName record := by
  intro eq
  have chars := congrArg String.toList eq
  cases snippet <;> simp [name, deserializerName] at chars

theorem Shape.writer_ne_reader (a b : Shape) : a.writer ≠ b.reader := by
  intro eq
  have chars := congrArg String.toList eq
  simp [writer, writerName, reader, readerName] at chars

theorem Shape.writer_ne_deserializer (shape : Shape) (record : String) :
    shape.writer ≠ deserializerName record := by
  intro eq
  have chars := congrArg String.toList eq
  simp [writer, writerName, deserializerName] at chars

theorem Shape.reader_ne_deserializer (shape : Shape) (record : String) :
    shape.reader ≠ deserializerName record := by
  intro eq
  have chars := congrArg String.toList eq
  simp [reader, readerName, deserializerName] at chars

section Generated

variable {ns : Namespace} {pkg : Package} {package : String} (closed : ns.Closed)
  (generated : generate ns package = .ok pkg)

include closed generated

theorem settled_of_declared (type : NamedType) (stored : ns.get? type.name = some type)
    (held : pkg.Holds ⟨fileName type.name, .type type.name type.declaration⟩) :
    ∀ other ∈ type.plan.next, pkg.Settled ns other := by
  obtain ⟨next, emits, settled⟩ := emits_of_generate closed generated held
  rcases emits.type_cases with ⟨snippet, isType, _, name, _, _⟩ | ⟨other, stored', _, name, _, rfl⟩ |
    ⟨branches, _, _, _, text, _⟩
  · exact absurd (name ▸ Snippet.reserved_name isType) (closed.named stored).2.declarable.1
  · rw [← Namespace.stored_unique stored' stored name]
    exact settled
  · exact absurd text (type.declaration_ne_union _ _)

/-- A union is declared by a union of its name and its text; what follows that one is carried out. -/
theorem settled_of_declared_union {name : String} {branches : List Shape}
    (named : (Shape.union branches).canonicalName = name)
    (held : pkg.Holds ⟨fileName name, .type name (Shape.unionDeclaration name branches)⟩) :
    ∃ others, ns.Occurs (.union others) ∧ (Shape.union others).canonicalName = name ∧
      Shape.unionDeclaration name others = Shape.unionDeclaration name branches ∧
      ∀ other ∈ (unionPlan name others).next, pkg.Settled ns other := by
  obtain ⟨next, emits, settled⟩ := emits_of_generate closed generated held
  rcases emits.type_cases with ⟨snippet, isType, _, name', _, _⟩ | ⟨type, _, _, _, text, _⟩ |
    ⟨others, occurs, _, name', text, rfl⟩
  · exact absurd (name'.trans named.symm) (snippet.name_ne_union branches)
  · exact absurd text.symm (type.declaration_ne_union _ _)
  · exact ⟨others, occurs, name', text, settled⟩

theorem settled_of_serialize {record : Record} (stored : ns.get? record.name = some (.record record))
    {file text : String} (held : pkg.Holds ⟨file, .routine ⟨record.name, "serialize"⟩ text⟩) :
    ∀ shape ∈ record.shapes, pkg.Settled ns (.write shape) := by
  obtain ⟨next, emits, settled⟩ := emits_of_generate closed generated held
  obtain ⟨_, origin⟩ := emits.attached_cases (closed.named stored).2.ne_empty
  rcases origin with ⟨type, stored', name, _, rfl⟩ | ⟨_, _, _, method, _⟩
  · have same : type = .record record := Namespace.stored_unique stored' stored name
    subst same
    exact fun shape mem => settled _ (List.mem_map.mpr ⟨shape, mem, rfl⟩)
  · exact absurd method (by decide)

/-- The write routine of a shape is there because of a shape of the same form, and what follows that
one is carried out. -/
theorem settled_of_written {shape : Shape} (codes : ns.Codes shape) (compound : shape.Compound)
    (held : pkg.Holds ⟨codecFile, .routine (.free shape.writer) shape.writeRoutine⟩) :
    ∃ other : Shape, ns.Codes other ∧ other.SameForm shape ∧
      ∀ task ∈ other.writePlan.next, pkg.Settled ns task := by
  have proper := closed.proper codes
  obtain ⟨next, emits, settled⟩ := emits_of_generate closed generated held
  rcases emits.free_cases closed with ⟨snippet, _, _, name, text, _⟩ | ⟨record, _, _, name, _⟩ |
    ⟨other, codes', compound', _, name, text, rfl⟩ | ⟨other, _, _, _, name, _⟩
  · cases named : shape.typeName? with
    | none => exact absurd name (Shape.snippet_name_ne compound named snippet).1
    | some type =>
      have borrowed : TypeName shape.borrowedType := by
        cases shape with
        | primitive | array | map | union => cases named
        | fixed | enumeration | record => exact proper.typeName rfl
      exact absurd text (Shape.snippet_text_ne proper borrowed name)
  · exact absurd name.symm (shape.writer_ne_deserializer _)
  · exact ⟨other, codes', Shape.sameForm_of_writeRoutine (closed.proper codes') proper compound' compound
      name text, settled⟩
  · exact absurd name.symm (shape.writer_ne_reader other)

theorem settled_of_read {shape : Shape} (codes : ns.Codes shape) (compound : shape.Compound)
    (unnamed : shape.typeName? = none)
    (held : pkg.Holds ⟨codecFile, .routine (.free shape.reader) shape.readRoutine⟩) :
    ∃ other : Shape, ns.Codes other ∧ other.SameForm shape ∧
      ∀ task ∈ other.readPlan.next, pkg.Settled ns task := by
  obtain ⟨next, emits, settled⟩ := emits_of_generate closed generated held
  rcases emits.free_cases closed with ⟨snippet, _, _, name, text, _⟩ | ⟨record, _, _, name, _⟩ |
    ⟨other, _, _, _, name, _⟩ | ⟨other, codes', compound', _, name, text, rfl⟩
  · exact absurd name (Shape.snippet_name_ne compound unnamed snippet).2
  · exact absurd name.symm (shape.reader_ne_deserializer _)
  · exact absurd name (other.writer_ne_reader shape)
  · exact ⟨other, codes', Shape.sameForm_of_readRoutine (closed.proper codes') (closed.proper codes)
      compound' compound name text, settled⟩

theorem holds_declaration (type : NamedType) (stored : ns.get? type.name = some type) :
    pkg.Holds ⟨fileName type.name, .type type.name type.declaration⟩ := by
  have start {task : Task} (mem : task ∈ type.tasks) : pkg.Settled ns task :=
    settled_of_generate generated (Namespace.mem_tasks stored mem)
  have compound : type.shape.Compound := by cases type <;> exact nofun
  have declares (plain : type.isRecord = false) (write : Task.write type.shape ∈ type.tasks)
      (mem : Task.declare type.shape ∈ type.shape.writePlan.next) :
      pkg.Settled ns (.declare type.shape) := by
    have codes : ns.Codes type.shape := Or.inr ⟨type, stored, plain, rfl⟩
    obtain ⟨other, codes', form, follow⟩ := settled_of_written closed generated codes compound
      ((start write).holds (Shape.write_enters compound))
    rw [Namespace.eq_of_sameForm closed codes' stored form] at follow
    exact follow _ mem
  cases type with
  | fixed type =>
    have declared := declares rfl (.head _) (Shape.mem_writePlan (.head _))
    exact declared.holds (NamedType.declare_enters stored)
  | enumeration type =>
    have declared := declares rfl (.head _) (Shape.mem_writePlan (.head _))
    exact declared.holds (NamedType.declare_enters stored)
  | record record => exact (start (.head _)).holds (Task.declareRecord_enters ns record)

theorem holds_items (type : NamedType) (stored : ns.get? type.name = some type) {item : Placed}
    (mem : item ∈ type.items) : pkg.Holds item := by
  have declared := holds_declaration closed generated type stored
  have follow := settled_of_declared closed generated type stored declared
  have start {task : Task} (mem : task ∈ type.tasks) : pkg.Settled ns task :=
    settled_of_generate generated (Namespace.mem_tasks stored mem)
  have entered {item : Placed} (mem : Task.enter item ∈ type.plan.next) : pkg.Holds item :=
    (follow _ mem).holds rfl
  cases type with
  | fixed type =>
    simp only [NamedType.items, List.mem_cons, List.not_mem_nil, or_false] at mem
    rcases mem with rfl | rfl | rfl
    · exact declared
    · exact entered (.head _)
    · exact entered (.tail _ (.head _))
  | enumeration type =>
    simp only [NamedType.items, List.mem_cons, List.not_mem_nil, or_false] at mem
    rcases mem with rfl | rfl | rfl
    · exact declared
    · exact entered (.head _)
    · exact entered (.tail _ (.head _))
  | record record =>
    simp only [NamedType.items, List.mem_cons, List.not_mem_nil, or_false] at mem
    rcases mem with rfl | rfl | rfl
    · exact declared
    · exact (start (.tail _ (.head _))).holds (Task.serializeRecord_enters ns record)
    · have last := start (.tail _ (.tail _ (.tail _ (.head _))))
      exact last.holds (Task.deserializeRecord_enters ns record)

end Generated

end AvroCompiler

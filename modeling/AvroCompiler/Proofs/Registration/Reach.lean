import AvroCompiler.Proofs.Registration.Run
import AvroCompiler.Proofs.Schema.Closure
import AvroCompiler.Proofs.Keyed

namespace AvroCompiler

namespace Shape

def writerSnippets : Shape → List Snippet
  | .primitive kind => [kind.writeSnippet]
  | .enumeration _ | .union _ => [.encodeInt]
  | .array _ => [.writeBlocks]
  | .map _ => [.writeBlocks, .writeString]
  | .fixed _ | .record _ => []

def readerSnippets : Shape → List Snippet
  | .primitive kind => [kind.readSnippet]
  | .fixed _ => [.byteReader, .decodeError]
  | .enumeration _ | .union _ => [.decodeInt, .decodeError]
  | .array _ => [.readBlocks, .decodeError]
  | .map _ => [.readBlocks, .readString, .decodeError]
  | .record _ => [.decodeError]

variable {shape : Shape} {task : Task}

/-- A write routine calls snippets and the routines of what its shape is made of, and mentions the type. -/
theorem writerTasks_cases (mem : task ∈ shape.writerTasks) : task = .declare shape ∨
    (∃ snippet ∈ shape.writerSnippets, task = .snippet snippet) ∨
    (∃ component ∈ shape.components, task = .write component) ∨
    ∃ name, shape = .record name ∧ task = .serializeNamed name := by
  cases shape <;> simp [writerTasks, writerSnippets, components] at mem ⊢ <;> grind

theorem readerTasks_cases (mem : task ∈ shape.readerTasks) : task = .declare shape ∨
    (∃ snippet ∈ shape.readerSnippets, task = .snippet snippet) ∨
    (∃ component ∈ shape.components, task = .read component) ∨
    ∃ name, shape = .record name ∧ task = .deserializeNamed name := by
  cases shape <;> simp [readerTasks, readerSnippets, components] at mem ⊢ <;> grind

end Shape

namespace Namespace

/-- The shape stands in a field of a stored record, at any depth. -/
def Occurs (ns : Namespace) (shape : Shape) : Prop :=
  ∃ name record, ns.get? name = some (.record record) ∧
    ∃ whole ∈ record.shapes, shape.Within whole

/-- The shape has routines in the codec file: it occurs, or is a stored type other than a record. -/
def Codes (ns : Namespace) (shape : Shape) : Prop :=
  ns.Occurs shape ∨
    ∃ type : NamedType, ns.get? type.name = some type ∧ type.isRecord = false ∧ shape = type.shape

/-- The snippets that the routines of a namespace call, and those that snippets refer to. -/
inductive Needs (ns : Namespace) : Snippet → Prop
  | write {shape : Shape} {snippet : Snippet} (codes : ns.Codes shape)
      (mem : snippet ∈ shape.writerSnippets) : Needs ns snippet
  | read {shape : Shape} {snippet : Snippet} (codes : ns.Codes shape)
      (mem : snippet ∈ shape.readerSnippets) : Needs ns snippet
  | deserialize {record : Record} (stored : ns.get? record.name = some (.record record)) :
      Needs ns .decodeError
  | dep {snippet dep : Snippet} (needs : Needs ns snippet) (mem : dep ∈ snippet.deps) : Needs ns dep

def tasks (ns : Namespace) : List Task :=
  ns.types.values.flatMap NamedType.tasks

/-- Generation may come to the task. -/
def Reaches (ns : Namespace) (task : Task) : Prop :=
  task.Spawned ns ns.tasks

/-- The entries that a namespace can give rise to, each with the tasks that follow it. -/
inductive Emits (ns : Namespace) : Placed → List Task → Prop
  | use (file path : String) : Emits ns ⟨file, .use path⟩ []
  | snippet {snippet : Snippet} (needs : ns.Needs snippet) :
      Emits ns ⟨codecFile, snippet.entry⟩ snippet.plan.next
  | fixed {type : Fixed} (stored : ns.get? type.name = some (.fixed type)) :
      Emits ns ⟨fileName type.name, .type type.name type.declaration⟩ type.plan.next
  | size {type : Fixed} (stored : ns.get? type.name = some (.fixed type)) :
      Emits ns ⟨fileName type.name, .constant (sizeConstant type.name) type.size⟩ []
  | conversion {type : Fixed} (stored : ns.get? type.name = some (.fixed type)) :
      Emits ns ⟨fileName type.name, .routine ⟨type.name, "try_from"⟩ type.conversion⟩ []
  | enumeration {type : Enumeration} (stored : ns.get? type.name = some (.enumeration type)) :
      Emits ns ⟨fileName type.name, .type type.name type.declaration⟩ type.plan.next
  | ordinal {type : Enumeration} (stored : ns.get? type.name = some (.enumeration type)) :
      Emits ns ⟨fileName type.name, .routine ⟨type.name, "from_ordinal"⟩ type.ordinalRoutine⟩ []
  | symbol {type : Enumeration} (stored : ns.get? type.name = some (.enumeration type)) :
      Emits ns ⟨fileName type.name, .routine ⟨type.name, "symbol"⟩ type.symbolRoutine⟩ []
  | union {name : String} {branches : List Shape} (occurs : ns.Occurs (.union branches))
      (named : (Shape.union branches).canonicalName = name) :
      Emits ns ⟨fileName name, .type name (Shape.unionDeclaration name branches)⟩
        (unionPlan name branches).next
  | branch {name : String} {branches : List Shape} (occurs : ns.Occurs (.union branches))
      (named : (Shape.union branches).canonicalName = name) :
      Emits ns ⟨fileName name, .routine ⟨name, "branch"⟩ (Shape.branchRoutine name branches)⟩ []
  | record {record : Record} (stored : ns.get? record.name = some (.record record)) :
      Emits ns ⟨fileName record.name, .type record.name record.declaration⟩ record.declarePlan.next
  | serialize {record : Record} (stored : ns.get? record.name = some (.record record)) :
      Emits ns ⟨fileName record.name, .routine ⟨record.name, "serialize"⟩ record.serializeRoutine⟩
        record.serializePlan.next
  | deserialize {record : Record} (stored : ns.get? record.name = some (.record record)) :
      Emits ns ⟨fileName record.name,
          .routine (.free (deserializerName record.name)) record.deserializeRoutine⟩
        record.deserializePlan.next
  | write {shape : Shape} (codes : ns.Codes shape) (compound : shape.Compound) :
      Emits ns ⟨codecFile, .routine (.free shape.writer) shape.writeRoutine⟩ shape.writePlan.next
  | read {shape : Shape} (codes : ns.Codes shape) (compound : shape.Compound) :
      Emits ns ⟨codecFile, .routine (.free shape.reader) shape.readRoutine⟩ shape.readPlan.next

variable {ns : Namespace}

theorem Occurs.component {whole component : Shape} (h : ns.Occurs whole)
    (mem : component ∈ whole.components) : ns.Occurs component := by
  obtain ⟨name, record, found, field, mem', within⟩ := h
  exact ⟨name, record, found, field, mem', (Shape.within_component mem).trans within⟩

theorem occurs_field {record : Record} (stored : ns.get? record.name = some (.record record))
    {shape : Shape} (mem : shape ∈ record.shapes) : ns.Occurs shape :=
  ⟨record.name, record, stored, shape, mem, .self⟩

theorem Codes.component {whole component : Shape} (h : ns.Codes whole)
    (mem : component ∈ whole.components) : ns.Codes component := by
  rcases h with occurs | ⟨type, _, _, rfl⟩
  · exact Or.inl (occurs.component mem)
  · cases type <;> cases mem

theorem Codes.occurs {shape : Shape} (h : ns.Codes shape)
    (other : ∀ type : NamedType, type.isRecord = false → shape ≠ type.shape) : ns.Occurs shape := by
  rcases h with occurs | ⟨type, _, plain, eq⟩
  · exact occurs
  · exact absurd eq (other type plain)

theorem Codes.occurs_union {branches : List Shape} (h : ns.Codes (.union branches)) :
    ns.Occurs (.union branches) :=
  h.occurs fun type _ eq => by cases type <;> cases eq

theorem Closed.defines (closed : ns.Closed) {shape : Shape} (codes : ns.Codes shape) :
    ns.Defines shape := by
  rcases codes with ⟨name, record, found, whole, mem, within⟩ | ⟨type, stored, plain, rfl⟩
  · exact closed.defined found whole mem shape within
  · cases type with
    | fixed type => exact stored
    | enumeration type => exact stored
    | record record => cases plain

theorem Closed.record_name (closed : ns.Closed) {name : String} {record : Record}
    (found : ns.get? name = some (.record record)) : record.name = name :=
  (closed.named found).1

/-- What holds of the fields of records, and passes from a shape to its components, holds of all
shapes that occur. -/
theorem Occurs.induct (closed : ns.Closed) {P : Shape → Prop}
    (field : ∀ {record : Record}, ns.get? record.name = some (.record record) →
      ∀ shape ∈ record.shapes, P shape)
    (inside : ∀ {whole component : Shape}, ns.Occurs whole → P whole →
      component ∈ whole.components → P component)
    {shape : Shape} (occurs : ns.Occurs shape) : P shape := by
  obtain ⟨name, record, found, whole, mem, within⟩ := occurs
  cases closed.record_name found
  have start := field found whole mem
  have occurs := occurs_field found mem
  clear mem
  induction within with
  | self => exact start
  | inside mem _ ih => exact ih (inside occurs start mem) (occurs.component mem)

theorem mem_values {type : NamedType} (mem : type ∈ ns.types.values) :
    ∃ name, ns.get? name = some type := by
  obtain ⟨⟨name, _⟩, entry, rfl⟩ := List.mem_map.mp mem
  exact ⟨name, Keyed.get?_eq_some_iff_mem.mpr entry⟩

theorem mem_values_of_get? {name : String} {type : NamedType} (found : ns.get? name = some type) :
    type ∈ ns.types.values :=
  List.mem_map.mpr ⟨_, Keyed.get?_eq_some_iff_mem.mp found, rfl⟩

theorem mem_tasks {type : NamedType} {name : String} (found : ns.get? name = some type) {task : Task}
    (mem : task ∈ type.tasks) : task ∈ ns.tasks :=
  List.mem_flatMap.mpr ⟨type, mem_values_of_get? found, mem⟩

end Namespace

namespace Task

def Grounded (ns : Namespace) : Task → Prop
  | .enter item => ns.Emits item []
  | .snippet item => ns.Needs item
  | .declare shape | .write shape | .read shape => ns.Codes shape
  | .declareRecord record | .serializeRecord record | .deserializeRecord record =>
    ns.get? record.name = some (.record record)
  | .serializeNamed name | .deserializeNamed name => ∃ record, ns.get? name = some (.record record)

variable {ns : Namespace}

theorem grounded_of_mem_useTasks {file : String} {paths : List String} {task : Task}
    (mem : task ∈ useTasks file paths) : task.Grounded ns := by
  obtain ⟨path, _, rfl⟩ := List.mem_map.mp mem
  exact Namespace.Emits.use file path

theorem grounded_snippet_next {snippet : Snippet} (needs : ns.Needs snippet) {task : Task}
    (mem : task ∈ snippet.plan.next) : task.Grounded ns := by
  rcases List.mem_append.mp mem with mem | mem
  · exact grounded_of_mem_useTasks mem
  · obtain ⟨dep, listed, rfl⟩ := List.mem_map.mp mem
    exact needs.dep listed

theorem grounded_declareRecord_next {record : Record}
    (stored : ns.get? record.name = some (.record record)) {task : Task}
    (mem : task ∈ record.declarePlan.next) : task.Grounded ns := by
  rcases List.mem_append.mp mem with mem | mem
  · exact grounded_of_mem_useTasks mem
  · obtain ⟨shape, listed, rfl⟩ := List.mem_map.mp mem
    exact Or.inl (Namespace.occurs_field stored listed)

theorem grounded_serializeRecord_next {record : Record}
    (stored : ns.get? record.name = some (.record record)) {task : Task}
    (mem : task ∈ record.serializePlan.next) : task.Grounded ns := by
  obtain ⟨shape, listed, rfl⟩ := List.mem_map.mp mem
  exact Or.inl (Namespace.occurs_field stored listed)

theorem grounded_deserializeRecord_next {record : Record}
    (stored : ns.get? record.name = some (.record record)) {task : Task}
    (mem : task ∈ record.deserializePlan.next) : task.Grounded ns := by
  rcases List.mem_cons.mp mem with rfl | mem
  · exact Namespace.Needs.deserialize stored
  · obtain ⟨shape, listed, rfl⟩ := List.mem_map.mp mem
    exact Or.inl (Namespace.occurs_field stored listed)

theorem grounded_union_next {branches : List Shape} (codes : ns.Codes (.union branches)) {task : Task}
    (mem : task ∈ (unionPlan (Shape.union branches).canonicalName branches).next) :
    task.Grounded ns := by
  rcases List.mem_append.mp mem with mem | mem
  · rcases List.mem_append.mp mem with mem | mem
    · exact grounded_of_mem_useTasks mem
    · cases List.mem_singleton.mp mem
      exact Namespace.Emits.branch codes.occurs_union rfl
  · obtain ⟨branch, listed, rfl⟩ := List.mem_map.mp mem
    exact codes.component listed

theorem grounded_writerTasks (closed : ns.Closed) {shape : Shape} (codes : ns.Codes shape) {task : Task}
    (mem : task ∈ shape.writerTasks) : task.Grounded ns := by
  rcases Shape.writerTasks_cases mem with rfl | ⟨snippet, called, rfl⟩ | ⟨part, inside, rfl⟩ | ⟨name, rfl, rfl⟩
  · exact codes
  · exact .write codes called
  · exact codes.component inside
  · exact closed.defines codes

theorem grounded_readerTasks (closed : ns.Closed) {shape : Shape} (codes : ns.Codes shape) {task : Task}
    (mem : task ∈ shape.readerTasks) : task.Grounded ns := by
  rcases Shape.readerTasks_cases mem with rfl | ⟨snippet, called, rfl⟩ | ⟨part, inside, rfl⟩ | ⟨name, rfl, rfl⟩
  · exact codes
  · exact .read codes called
  · exact codes.component inside
  · exact closed.defines codes

theorem grounded_glue_next {shape : Shape} {name text : String} {tasks : List Task}
    (h : ∀ task ∈ tasks, task.Grounded ns) {task : Task}
    (mem : task ∈ (shape.gluePlan name text tasks).next) : task.Grounded ns := by
  cases shape with
  | primitive => exact h task mem
  | fixed | enumeration | array | map | union | record =>
    rcases List.mem_append.mp mem with mem | mem
    · exact grounded_of_mem_useTasks mem
    · exact h task mem

theorem record_ok {name : String} {record : Record} (found : ns.get? name = some (.record record)) :
    ns.record name = .ok record := by
  simp only [Namespace.record, Namespace.record?, found]

theorem grounded_fixed_next {type : Fixed} (stored : ns.get? type.name = some (.fixed type))
    {task : Task} (mem : task ∈ type.plan.next) : task.Grounded ns := by
  simp only [Fixed.plan, List.mem_cons, List.not_mem_nil, or_false] at mem
  rcases mem with rfl | rfl
  · exact Namespace.Emits.size stored
  · exact Namespace.Emits.conversion stored

theorem grounded_enumeration_next {type : Enumeration}
    (stored : ns.get? type.name = some (.enumeration type)) {task : Task}
    (mem : task ∈ type.plan.next) : task.Grounded ns := by
  simp only [Enumeration.plan, List.mem_cons, List.not_mem_nil, or_false] at mem
  rcases mem with rfl | rfl
  · exact Namespace.Emits.ordinal stored
  · exact Namespace.Emits.symbol stored

end Task

/-- What the plan enters is an entry of the namespace, and the tasks that follow are tasks of it. -/
structure Plan.Grounded (ns : Namespace) (plan : Plan) : Prop where
  next : ∀ task ∈ plan.next, task.Grounded ns
  head : ∀ item, plan.head = some item → ns.Emits item plan.next

theorem Plan.grounded_of_emits {ns : Namespace} {item : Placed} {next : List Task}
    (emits : ns.Emits item next) (h : ∀ task ∈ next, task.Grounded ns) :
    (⟨some item, next⟩ : Plan).Grounded ns where
  next := h
  head _ eq := by
    obtain rfl := Option.some.inj eq
    exact emits

namespace Task

variable {ns : Namespace}

theorem grounded_declarePlan {record : Record} (stored : ns.get? record.name = some (.record record)) :
    record.declarePlan.Grounded ns :=
  Plan.grounded_of_emits (.record stored) fun _ => grounded_declareRecord_next stored

theorem grounded_serializePlan {record : Record} (stored : ns.get? record.name = some (.record record)) :
    record.serializePlan.Grounded ns :=
  Plan.grounded_of_emits (.serialize stored) fun _ => grounded_serializeRecord_next stored

theorem grounded_deserializePlan {record : Record}
    (stored : ns.get? record.name = some (.record record)) : record.deserializePlan.Grounded ns :=
  Plan.grounded_of_emits (.deserialize stored) fun _ => grounded_deserializeRecord_next stored

theorem grounded_writePlan (closed : ns.Closed) {shape : Shape} (codes : ns.Codes shape) :
    shape.writePlan.Grounded ns := by
  have next : ∀ task ∈ shape.writePlan.next, task.Grounded ns := fun _ =>
    grounded_glue_next fun _ => grounded_writerTasks closed codes
  cases shape with
  | primitive => exact ⟨next, nofun⟩
  | fixed | enumeration | array | map | union | record =>
    exact Plan.grounded_of_emits (.write codes nofun) next

theorem grounded_readPlan (closed : ns.Closed) {shape : Shape} (codes : ns.Codes shape) :
    shape.readPlan.Grounded ns := by
  have next : ∀ task ∈ shape.readPlan.next, task.Grounded ns := fun _ =>
    grounded_glue_next fun _ => grounded_readerTasks closed codes
  cases shape with
  | primitive => exact ⟨next, nofun⟩
  | fixed | enumeration | array | map | union | record =>
    exact Plan.grounded_of_emits (.read codes nofun) next

/-- Each task of a closed namespace has a plan, which stays within the namespace. -/
theorem Grounded.plan_ok (closed : ns.Closed) {task : Task} (h : task.Grounded ns) :
    ∃ plan, task.plan ns = .ok plan ∧ plan.Grounded ns := by
  cases task with
  | enter item => exact ⟨_, rfl, Plan.grounded_of_emits h (by simp)⟩
  | snippet snippet =>
    exact ⟨_, rfl, Plan.grounded_of_emits (.snippet h) fun _ => grounded_snippet_next h⟩
  | declare shape =>
    have defined := closed.defines h
    cases shape with
    | primitive kind => exact ⟨_, rfl, by simp, nofun⟩
    | fixed type =>
      exact ⟨_, rfl, Plan.grounded_of_emits (.fixed defined) fun _ => grounded_fixed_next defined⟩
    | enumeration type =>
      exact ⟨_, rfl,
        Plan.grounded_of_emits (.enumeration defined) fun _ => grounded_enumeration_next defined⟩
    | array items =>
      refine ⟨_, rfl, List.forall_mem_singleton.mpr ?_, nofun⟩
      exact Namespace.Codes.component h (List.mem_singleton_self items)
    | map values =>
      refine ⟨_, rfl, List.forall_mem_singleton.mpr ?_, nofun⟩
      exact Namespace.Codes.component h (List.mem_singleton_self values)
    | union branches =>
      exact ⟨_, rfl,
        Plan.grounded_of_emits (.union h.occurs_union rfl) fun _ => grounded_union_next h⟩
    | record name =>
      obtain ⟨record, stored⟩ := defined
      cases closed.record_name stored
      refine ⟨record.declarePlan, ?_, grounded_declarePlan stored⟩
      simp [plan, Shape.declarePlan, record_ok stored, Except.map]
  | write shape => exact ⟨_, rfl, grounded_writePlan closed h⟩
  | read shape => exact ⟨_, rfl, grounded_readPlan closed h⟩
  | declareRecord record => exact ⟨_, rfl, grounded_declarePlan h⟩
  | serializeRecord record => exact ⟨_, rfl, grounded_serializePlan h⟩
  | deserializeRecord record => exact ⟨_, rfl, grounded_deserializePlan h⟩
  | serializeNamed name =>
    obtain ⟨record, stored⟩ := h
    cases closed.record_name stored
    exact ⟨record.serializePlan, by simp [plan, record_ok stored, Except.map],
      grounded_serializePlan stored⟩
  | deserializeNamed name =>
    obtain ⟨record, stored⟩ := h
    cases closed.record_name stored
    exact ⟨record.deserializePlan, by simp [plan, record_ok stored, Except.map],
      grounded_deserializePlan stored⟩

theorem grounded_of_mem_tasks (closed : ns.Closed) {task : Task} (mem : task ∈ ns.tasks) :
    task.Grounded ns := by
  obtain ⟨type, stored, mem⟩ := List.mem_flatMap.mp mem
  obtain ⟨name, found⟩ := Namespace.mem_values stored
  obtain ⟨rfl, _⟩ := closed.named found
  cases type with
  | fixed type | enumeration type =>
    have codes : ns.Codes (NamedType.shape _) := Or.inr ⟨_, found, rfl, rfl⟩
    simp only [NamedType.tasks, List.mem_cons, List.not_mem_nil, or_false] at mem
    rcases mem with rfl | rfl
    · exact codes
    · exact codes
  | record record =>
    simp only [NamedType.tasks, Record.serializeTasks, Record.deserializeTasks, List.mem_append,
      List.mem_cons, List.not_mem_nil, or_false] at mem
    rcases mem with (rfl | rfl) | rfl | rfl
    · exact found
    · exact found
    · exact found
    · exact found

theorem grounded_of_reaches (closed : ns.Closed) {task : Task} (h : ns.Reaches task) :
    task.Grounded ns := by
  induction h with
  | start mem => exact grounded_of_mem_tasks closed mem
  | next _ planned mem ih =>
    obtain ⟨plan, planned', grounded⟩ := ih.plan_ok closed
    cases planned.symm.trans planned'
    exact grounded.next _ mem

theorem emits_of_enters (closed : ns.Closed) {task : Task} (reached : ns.Reaches task) {item : Placed}
    {next : List Task} (enters : task.Enters ns item next) : ns.Emits item next := by
  obtain ⟨plan, planned, grounded⟩ := (grounded_of_reaches closed reached).plan_ok closed
  cases enters.symm.trans planned
  exact grounded.head item rfl

end Task

variable {ns : Namespace} {pkg : Package} {name : String}

theorem carryOut_of_generate (h : generate ns name = .ok pkg) :
    (⟨name, ∅⟩ : Package).carryOut ns ns.tasks = (.ok (), pkg) := by
  unfold generate at h
  split at h
  · rename_i ran
    cases h
    exact ran
  · cases h

theorem generate_of_rehearse {n : Nat} (h : Package.rehearse ns n [] ⟨name, ∅⟩ ns.tasks = some pkg) :
    generate ns name = .ok pkg := by
  have ran := Package.carryOut_of_rehearse (by simp) h
  unfold generate
  rw [show Package.carryOut ns ⟨name, ∅⟩ (ns.types.values.flatMap NamedType.tasks) = _ from ran]

theorem settled_of_generate (h : generate ns name = .ok pkg) {task : Task} (mem : task ∈ ns.tasks) :
    pkg.Settled ns task :=
  (Package.carryOut_settles (fun _ => .start) (carryOut_of_generate h)).1 task mem

/-- Every entry of a generated package is an entry of the namespace, and what follows it is carried
out. -/
theorem emits_of_generate (closed : ns.Closed) (h : generate ns name = .ok pkg) {item : Placed}
    (held : pkg.Holds item) :
    ∃ next, ns.Emits item next ∧ ∀ other ∈ next, pkg.Settled ns other := by
  rcases (Package.carryOut_settles (fun _ => .start) (carryOut_of_generate h)).2 item held with
    old | ⟨task, next, reached, enters, settled⟩
  · exact absurd old (Package.not_holds_empty name item)
  · exact ⟨next, Task.emits_of_enters closed reached enters, settled⟩

/-- Generation from a closed namespace fails only where two different entries of the namespace belong
at one place. -/
theorem conflict_of_generate (closed : ns.Closed) {error : Error} (h : generate ns name = .error error) :
    ∃ (item other : Placed) (next next' : List Task), ns.Emits item next ∧ ns.Emits other next' ∧
      other.file = item.file ∧ other.entry.key = item.entry.key ∧ other ≠ item ∧
      error = .conflict item.file item.entry.key.label := by
  unfold generate at h
  split at h
  · cases h
  · rename_i error' partial' ran
    cases h
    rcases Package.carryOut_fails (fun _ => .start) ran with
      ⟨task, reached, failed⟩ | ⟨task, item, next, other, reached, enters, held, file, key, ne, rfl⟩
    · obtain ⟨plan, planned, _⟩ := (Task.grounded_of_reaches closed reached).plan_ok closed
      cases failed.symm.trans planned
    · have held' : (Package.carryOut ns ⟨name, ∅⟩ ns.tasks).2.Holds other := by
        rw [show Package.carryOut ns ⟨name, ∅⟩ ns.tasks = _ from ran]
        exact held
      rcases Package.carryOut_adds _ _ (fun _ => .start) held' with
        old | ⟨source, next', reached', enters'⟩
      · exact absurd old (Package.not_holds_empty name other)
      · exact ⟨item, other, next, next', Task.emits_of_enters closed reached enters,
          Task.emits_of_enters closed reached' enters', file, key, ne, rfl⟩

end AvroCompiler

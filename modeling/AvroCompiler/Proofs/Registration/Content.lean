import AvroCompiler.Proofs.Registration.Distinct
import AvroCompiler.Proofs.Schema.Writing

namespace AvroCompiler

namespace Namespace

/-- The constants, types and routines of a namespace. -/
inductive Content (ns : Namespace) : Placed → Prop
  | stored (type : NamedType) {item : Placed} (stored : ns.get? type.name = some type)
      (mem : item ∈ type.items) : Content ns item
  | union {branches : List Shape} {item : Placed} (occurs : ns.Occurs (.union branches))
      (mem : item ∈ unionItems (Shape.union branches).canonicalName branches) : Content ns item
  | write {shape : Shape} (codes : ns.Codes shape) (compound : shape.Compound) :
      Content ns ⟨codecFile, .routine (.free shape.writer) shape.writeRoutine⟩
  | read {shape : Shape} (codes : ns.Codes shape) (compound : shape.Compound) :
      Content ns ⟨codecFile, .routine (.free shape.reader) shape.readRoutine⟩
  | snippet {snippet : Snippet} (needs : ns.Needs snippet) :
      Content ns ⟨codecFile, snippet.entry⟩

variable {ns : Namespace}

theorem Emits.content {item : Placed} {next : List Task} (h : ns.Emits item next) (made : item.Made) :
    ns.Content item := by
  cases h with
  | use file path => exact absurd rfl (made path)
  | snippet needs => exact .snippet needs
  | @fixed type stored => exact .stored (.fixed type) stored (.head _)
  | size stored => exact .stored (.fixed _) stored (.tail _ (.head _))
  | conversion stored => exact .stored (.fixed _) stored (.tail _ (.tail _ (.head _)))
  | enumeration stored => exact .stored (.enumeration _) stored (.head _)
  | ordinal stored => exact .stored (.enumeration _) stored (.tail _ (.head _))
  | symbol stored => exact .stored (.enumeration _) stored (.tail _ (.tail _ (.head _)))
  | union occurs named =>
    subst named
    exact .union occurs (.head _)
  | branch occurs named =>
    subst named
    exact .union occurs (.tail _ (.head _))
  | record stored => exact .stored (.record _) stored (.head _)
  | serialize stored => exact .stored (.record _) stored (.tail _ (.head _))
  | deserialize stored => exact .stored (.record _) stored (.tail _ (.tail _ (.head _)))
  | write codes compound => exact .write codes compound
  | read codes compound => exact .read codes compound

theorem Reaches.next {task other : Task} {plan : Plan} (h : ns.Reaches task)
    (planned : task.plan ns = .ok plan) (mem : other ∈ plan.next) : ns.Reaches other :=
  Task.Spawned.next h planned mem

theorem Reaches.write_component {whole component : Shape} (h : ns.Reaches (.write whole))
    (mem : component ∈ whole.components) : ns.Reaches (.write component) :=
  h.next rfl (Shape.write_component mem)

theorem Reaches.read_component {whole component : Shape} (h : ns.Reaches (.read whole))
    (mem : component ∈ whole.components) : ns.Reaches (.read component) :=
  h.next rfl (Shape.read_component mem)

theorem Reaches.declare_component {whole component : Shape} (h : ns.Reaches (.declare whole))
    (mem : component ∈ whole.components) : ns.Reaches (.declare component) := by
  cases whole with
  | primitive | fixed | enumeration | record => cases mem
  | array items | map values =>
    cases List.mem_singleton.mp mem
    exact h.next rfl (.head _)
  | union branches =>
    exact h.next rfl (List.mem_append_right _ (List.mem_map.mpr ⟨component, mem, rfl⟩))

theorem Reaches.dep {snippet dep : Snippet} (h : ns.Reaches (.snippet snippet))
    (mem : dep ∈ snippet.deps) : ns.Reaches (.snippet dep) :=
  h.next rfl (List.mem_append_right _ (List.mem_map.mpr ⟨dep, mem, rfl⟩))

section Reached

variable (closed : ns.Closed)

theorem reaches_start (type : NamedType) (stored : ns.get? type.name = some type) {task : Task}
    (mem : task ∈ type.tasks) : ns.Reaches task :=
  .start (mem_tasks stored mem)

theorem reaches_serialize {record : Record} (stored : ns.get? record.name = some (.record record)) :
    ns.Reaches (.serializeRecord record) :=
  reaches_start (.record record) stored (.tail _ (.head _))

theorem reaches_deserialize {record : Record} (stored : ns.get? record.name = some (.record record)) :
    ns.Reaches (.deserializeRecord record) :=
  reaches_start (.record record) stored (.tail _ (.tail _ (.tail _ (.head _))))

include closed

theorem reaches_write {shape : Shape} (codes : ns.Codes shape) : ns.Reaches (.write shape) := by
  rcases codes with occurs | ⟨type, stored, plain, rfl⟩
  · refine occurs.induct closed ?_ fun _ => Reaches.write_component
    intro record stored shape mem
    exact (reaches_serialize stored).next rfl (List.mem_map.mpr ⟨shape, mem, rfl⟩)
  · cases type with
    | fixed | enumeration => exact reaches_start _ stored (.head _)
    | record => cases plain

theorem reaches_read {shape : Shape} (codes : ns.Codes shape) : ns.Reaches (.read shape) := by
  rcases codes with occurs | ⟨type, stored, plain, rfl⟩
  · refine occurs.induct closed ?_ fun _ => Reaches.read_component
    intro record stored shape mem
    exact (reaches_deserialize stored).next rfl (.tail _ (List.mem_map.mpr ⟨shape, mem, rfl⟩))
  · cases type with
    | fixed | enumeration => exact reaches_start _ stored (.tail _ (.head _))
    | record => cases plain

theorem reaches_declare {shape : Shape} (occurs : ns.Occurs shape) : ns.Reaches (.declare shape) := by
  refine occurs.induct closed ?_ fun _ => Reaches.declare_component
  intro record stored shape mem
  have start : ns.Reaches (.declareRecord record) :=
    reaches_start (.record record) stored (.head _)
  exact start.next rfl (List.mem_append_right _ (List.mem_map.mpr ⟨shape, mem, rfl⟩))

theorem reaches_writer_snippet {shape : Shape} (codes : ns.Codes shape) {snippet : Snippet}
    (mem : snippet ∈ shape.writerSnippets) : ns.Reaches (.snippet snippet) := by
  refine (reaches_write closed codes).next rfl (Shape.mem_writePlan ?_)
  cases shape <;> simp_all [Shape.writerSnippets, Shape.writerTasks]

theorem reaches_reader_snippet {shape : Shape} (codes : ns.Codes shape) {snippet : Snippet}
    (mem : snippet ∈ shape.readerSnippets) : ns.Reaches (.snippet snippet) := by
  rcases Shape.mem_readerTasks mem with listed | ⟨rfl, other⟩
  · exact (reaches_read closed codes).next rfl (Shape.mem_readPlan listed)
  · obtain ⟨name, record, found, _⟩ := codes.occurs other
    cases closed.record_name found
    exact (reaches_deserialize found).next rfl (.head _)

theorem reaches_snippet {snippet : Snippet} (needs : ns.Needs snippet) :
    ns.Reaches (.snippet snippet) := by
  induction needs with
  | write codes mem => exact reaches_writer_snippet closed codes mem
  | read codes mem => exact reaches_reader_snippet closed codes mem
  | deserialize stored => exact (reaches_deserialize stored).next rfl (.head _)
  | dep _ mem ih => exact ih.dep mem

end Reached

end Namespace

section Generated

variable {ns : Namespace} {package : String} (closed : ns.Closed) (distinct : ns.Distinct)

include closed distinct

theorem generate_of_distinct (package : String) : ∃ pkg, generate ns package = .ok pkg := by
  cases outcome : generate ns package with
  | ok pkg => exact ⟨pkg, rfl⟩
  | error error =>
    obtain ⟨item, other, next, next', emits, emits', file, key, ne, _⟩ :=
      conflict_of_generate closed outcome
    rcases Placed.eq_or_made file key with same | made
    · exact absurd same ne
    · exact absurd (emits.unique closed distinct emits' made key).1 ne

variable {pkg : Package} (generated : generate ns package = .ok pkg)

include generated

/-- Where the names differ, an entry is never there for another reason, so that all tasks are carried
out. -/
theorem settled_of_reaches {task : Task} (h : ns.Reaches task) : pkg.Settled ns task := by
  induction h with
  | start mem => exact settled_of_generate generated mem
  | @next task other plan reached planned mem ih =>
    obtain ⟨head, next⟩ := plan
    cases head with
    | none => exact ih.next planned other mem
    | some item =>
      obtain ⟨next', emits', settled⟩ := emits_of_generate closed generated (ih.holds planned)
      have emits := Task.emits_of_enters closed reached planned
      have same : next' = next := by
        by_cases made : item.Made
        · exact (emits.unique closed distinct emits' made rfl).2
        · obtain ⟨file, entry⟩ := item
          cases entry with
          | use => rw [emits.use_cases, emits'.use_cases]
          | constant | type | routine => exact absurd nofun made
      rw [same] at settled
      exact settled other mem

theorem holds_content {item : Placed} (h : ns.Content item) : pkg.Holds item := by
  have holds {task : Task} (reached : ns.Reaches task) {item : Placed} {next : List Task}
      (enters : task.Enters ns item next) : pkg.Holds item :=
    (settled_of_reaches closed distinct generated reached).holds enters
  cases h with
  | stored type stored mem => exact holds_items closed generated type stored mem
  | @union branches item occurs mem =>
    have declared := ns.reaches_declare closed occurs
    simp only [unionItems, List.mem_cons, List.not_mem_nil, or_false] at mem
    rcases mem with rfl | rfl
    · exact holds declared (Task.declare_union_enters ns branches)
    · have reached : ns.Reaches (.enter _) :=
        declared.next rfl (List.mem_append_left _ (List.mem_append_right _ (.head _)))
      exact holds reached rfl
  | write codes compound => exact holds (ns.reaches_write closed codes) (Shape.write_enters compound)
  | read codes compound => exact holds (ns.reaches_read closed codes) (Shape.read_enters compound)
  | snippet needs => exact holds (ns.reaches_snippet closed needs) (Task.snippet_enters ns _)

end Generated

/-- The package has just the constants, types and routines of the namespace, each of them once: no other
file has an entry of the same key, and different shapes have routines of different names. -/
structure Package.Exact (pkg : Package) (ns : Namespace) : Prop where
  content : ∀ {item : Placed}, item.Made → (pkg.Holds item ↔ ns.Content item)
  single : ∀ {item other : Placed}, item.Made → pkg.Holds item → pkg.Holds other →
    other.entry.key = item.entry.key → other = item
  routines : ∀ {a b : Shape}, ns.Codes a → ns.Codes b → a.writer = b.writer ∨ a.reader = b.reader →
    a = b

def nodeText : String :=
  "\x7b\"type\":\"record\",\"name\":\"Node\",\"fields\":[" ++
    "\x7b\"name\":\"next\",\"type\":[\"null\",\"Node\"]\x7d]\x7d"

def nodeUnion : Shape := .union [.null, .record "Node"]

def node : Record where
  name := "Node"
  fields := [⟨"next", nodeUnion, none⟩]

def nodeNamespace : Namespace where
  types := (∅ : Keyed String NamedType).insert "Node" (.record node)

def nodeSchema : Schema :=
  .record "Node" none (.cons "next" none (.union [.primitive .null, .reference "Node"]) .done)

theorem nodeText_eq : nodeText = nodeSchema.text := by
  decide

theorem node_declarable : Declarable "Node" := by
  decide

theorem node_made : Record.make "Node" none node.fields = .ok node :=
  Record.make_of_declarable node_declarable rfl

theorem nodeText_runs {shape : Shape} {ns ns' : Namespace}
    (runs : nodeSchema.shape.runFrom ns = (.ok shape, ns')) :
    (readDocument nodeText).runFrom ns = (.ok (), ns') := by
  rw [nodeText_eq]
  exact readDocument_text (by decide) (by decide) runs

theorem nodeText_reads : (readDocuments [nodeText]).runFrom .empty = (.ok (), nodeNamespace) :=
  readDocuments_cons
    (nodeText_runs (Schema.run_record_of_declarable node_declarable nofun rfl rfl rfl rfl)) rfl

def nodeShapes : List Shape :=
  [.null, .primitive .boolean, .primitive .int, .primitive .long, .primitive .float,
   .primitive .double, .primitive .bytes, .primitive .string, .record "Node", nodeUnion]

theorem node_stored {name : String} {type : NamedType} (found : nodeNamespace.get? name = some type) :
    type = .record node :=
  List.mem_singleton.mp (Namespace.mem_values_of_get? found)

theorem mem_nodeShapes {shape : Shape} (h : nodeNamespace.Lists shape) : shape ∈ nodeShapes := by
  have closed := closed_of_readDocuments nodeText_reads
  have inner : ∀ whole ∈ nodeShapes, ∀ component ∈ whole.components, component ∈ nodeShapes := by
    decide
  cases h with
  | primitive kind => cases kind <;> simp [nodeShapes]
  | stored found =>
    cases node_stored found
    simp [nodeShapes, NamedType.shape, node]
  | occurs occurs =>
    refine occurs.induct closed ?_ ?_
    · intro record found shape mem
      cases node_stored found
      cases List.mem_singleton.mp mem
      simp [nodeShapes]
    · exact fun _ listed mem => inner _ listed _ mem

theorem node_distinct : nodeNamespace.Distinct := by
  have shapes : ∀ a ∈ nodeShapes, ∀ b ∈ nodeShapes,
      snakeCase a.canonicalName = snakeCase b.canonicalName → a = b := by decide +kernel
  have blocks : ∀ a ∈ nodeShapes, snakeCase a.canonicalName ≠ "blocks" := by decide +kernel
  exact ⟨fun ha hb => shapes _ (mem_nodeShapes ha) _ (mem_nodeShapes hb),
    fun ha => blocks _ (mem_nodeShapes ha)⟩

end AvroCompiler

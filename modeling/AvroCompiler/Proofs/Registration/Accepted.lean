import AvroCompiler.Proofs.Identifier
import AvroCompiler.Proofs.Registration.Distinct

namespace AvroCompiler

/-- The file of an item has a module in snake case, and a type that the item declares is named otherwise. -/
def Placed.Apart (item : Placed) : Prop :=
  InSnakeCase (moduleOfFile item.file) ∧ ∀ name text, item.entry = .type name text → ¬InSnakeCase name

/-- The types of the namespace are stored under their names, and all their names are accepted. -/
structure Namespace.Accepted (ns : Namespace) : Prop where
  stored : ∀ {name type}, ns.get? name = some type → type.name = name ∧ checkTypeName name = .ok ()
  used : ∀ {type : NamedType}, ns.Occurs type.shape → type.isRecord = false → checkTypeName type.name = .ok ()

theorem Namespace.Closed.accepted {ns : Namespace} (closed : ns.Closed) : ns.Accepted where
  stored found := by
    obtain ⟨own, named⟩ := closed.named found
    exact ⟨own, if_pos named.declarable⟩
  used {type} occurs plain := by
    have defined := closed.defines (Or.inl occurs)
    cases type with
    | fixed | enumeration => exact if_pos (closed.named defined).2.declarable
    | record => cases plain

/-- The task is about types that were accepted. -/
def Task.Accepted (ns : Namespace) : Task → Prop
  | .enter item => item.Apart
  | .declare shape | .write shape | .read shape => ns.Codes shape
  | .declareRecord record | .serializeRecord record | .deserializeRecord record =>
    ∃ name, ns.get? name = some (.record record)
  | .snippet _ | .serializeNamed _ | .deserializeNamed _ => True

/-- The task may follow an entry of the file: what it enters goes there too, and is no type. -/
def Task.Follows (ns : Namespace) (file : String) : Task → Prop
  | .enter item => item.file = file ∧ ∀ name text, item.entry ≠ .type name text
  | task => task.Accepted ns

/-- The head of the plan is apart and no import, and what else the plan enters goes to the file of the head.
The tasks that follow are about accepted types. -/
structure Plan.Apart (ns : Namespace) (plan : Plan) : Prop where
  head : ∀ item, plan.head = some item → item.Made ∧ item.Apart
  next : ∀ task ∈ plan.next, task.Accepted ns
  place : ∀ item, Task.enter item ∈ plan.next → ∃ head, plan.head = some head ∧ item.file = head.file

variable {ns : Namespace}

theorem Task.follows_of_call {task : Task} (call : ∀ item, task ≠ .enter item) (accepted : task.Accepted ns)
    (file : String) : task.Follows ns file := by
  cases task with
  | enter item => exact absurd rfl (call item)
  | _ => exact accepted

theorem Plan.apart_of_follows {head : Placed} {next : List Task} (made : head.Made) (apart : head.Apart)
    (follows : ∀ task ∈ next, task.Follows ns head.file) : (⟨some head, next⟩ : Plan).Apart ns where
  head item eq := by
    cases eq
    exact ⟨made, apart⟩
  next task mem := by
    have follow := follows task mem
    cases task with
    | enter item =>
      obtain ⟨place, plain⟩ := follow
      exact ⟨place ▸ apart.1, fun name text eq => absurd eq (plain name text)⟩
    | _ => exact follow
  place item mem := ⟨head, rfl, (follows _ mem).1⟩

theorem Plan.apart_of_calls {next : List Task} (calls : ∀ task ∈ next, (∀ item, task ≠ .enter item) ∧
    task.Accepted ns) : (⟨none, next⟩ : Plan).Apart ns where
  head _ eq := by cases eq
  next task mem := (calls task mem).2
  place item mem := absurd rfl ((calls _ mem).1 item)

theorem apart_of_plain {file : String} {entry : Entry} (settled : InSnakeCase file)
    (plain : ∀ name text, entry ≠ .type name text) : Placed.Apart ⟨file, entry⟩ :=
  ⟨inSnakeCase_moduleOfFile settled, fun name text eq => absurd eq (plain name text)⟩

theorem apart_of_type {file name text : String} (settled : InSnakeCase file) (other : ¬InSnakeCase name) :
    Placed.Apart ⟨file, .type name text⟩ := by
  refine ⟨inSnakeCase_moduleOfFile settled, fun name' text' eq => ?_⟩
  obtain ⟨rfl, -⟩ := Entry.type.inj eq
  exact other

theorem follows_of_mem_useTasks {file : String} {paths : List String} {task : Task}
    (mem : task ∈ useTasks file paths) : task.Follows ns file := by
  obtain ⟨path, _, rfl⟩ := List.mem_map.mp mem
  exact ⟨rfl, nofun⟩

theorem Snippet.plan_apart (snippet : Snippet) : snippet.plan.Apart ns := by
  refine Plan.apart_of_follows ?_ ?_ fun task mem => ?_
  · intro path eq
    simp only [Snippet.entry] at eq
    split at eq <;> cases eq
  · unfold Snippet.entry
    split
    · rename_i isType
      refine apart_of_type inSnakeCase_codecFile fun settled => ?_
      rw [(snippet.isLowered_name_iff).mp settled.isLowered] at isType
      cases isType
    · exact apart_of_plain inSnakeCase_codecFile nofun
  · rcases List.mem_append.mp mem with mem | mem
    · exact follows_of_mem_useTasks mem
    · obtain ⟨dep, _, rfl⟩ := List.mem_map.mp mem
      trivial

theorem declared_apart {name text : String} {next : List Task} (checked : checkTypeName name = .ok ())
    (follows : ∀ task ∈ next, task.Follows ns (fileName name)) :
    (⟨some ⟨fileName name, .type name text⟩, next⟩ : Plan).Apart ns :=
  Plan.apart_of_follows nofun (apart_of_type (inSnakeCase_fileName name)
    ((checkTypeName_eq_ok_iff name).mp checked).not_inSnakeCase) follows

theorem Fixed.plan_apart {type : Fixed} (checked : checkTypeName type.name = .ok ()) : type.plan.Apart ns :=
  declared_apart checked (by simp [Task.Follows])

theorem Enumeration.plan_apart {type : Enumeration} (checked : checkTypeName type.name = .ok ()) :
    type.plan.Apart ns :=
  declared_apart checked (by simp [Task.Follows])

theorem unionPlan_apart {branches : List Shape} (codes : ns.Codes (.union branches)) :
    (unionPlan (Shape.union branches).canonicalName branches).Apart ns := by
  refine Plan.apart_of_follows nofun (apart_of_type (inSnakeCase_fileName _) fun settled =>
    Shape.not_isLowered_union branches settled.isLowered) fun task mem => ?_
  rcases List.mem_append.mp mem with mem | mem
  · rcases List.mem_append.mp mem with mem | mem
    · exact follows_of_mem_useTasks mem
    · cases List.mem_singleton.mp mem
      exact ⟨rfl, nofun⟩
  · obtain ⟨branch, listed, rfl⟩ := List.mem_map.mp mem
    exact codes.component listed

namespace Record

variable {record : Record} {name : String} (stored : ns.get? name = some (.record record))

include stored

theorem codes_field {shape : Shape} (mem : shape ∈ record.shapes) : ns.Codes shape :=
  Or.inl ⟨name, record, stored, shape, mem, .self⟩

theorem declarePlan_apart (accepted : ns.Accepted) : record.declarePlan.Apart ns := by
  obtain ⟨rfl, checked⟩ := accepted.stored stored
  refine declared_apart checked fun task mem => ?_
  rcases List.mem_append.mp mem with mem | mem
  · exact follows_of_mem_useTasks mem
  · obtain ⟨shape, listed, rfl⟩ := List.mem_map.mp mem
    exact codes_field stored listed

theorem serializePlan_apart : record.serializePlan.Apart ns := by
  refine Plan.apart_of_follows nofun (apart_of_plain (inSnakeCase_fileName _) nofun) fun task mem => ?_
  obtain ⟨shape, listed, rfl⟩ := List.mem_map.mp mem
  exact codes_field stored listed

theorem deserializePlan_apart : record.deserializePlan.Apart ns := by
  refine Plan.apart_of_follows nofun (apart_of_plain (inSnakeCase_fileName _) nofun) fun task mem => ?_
  rcases List.mem_cons.mp mem with rfl | mem
  · trivial
  · obtain ⟨shape, listed, rfl⟩ := List.mem_map.mp mem
    exact codes_field stored listed

end Record

namespace Shape

variable {shape : Shape}

theorem gluePlan_apart {name text : String} {tasks : List Task}
    (calls : ∀ task ∈ tasks, (∀ item, task ≠ .enter item) ∧ task.Accepted ns) :
    (shape.gluePlan name text tasks).Apart ns := by
  cases shape with
  | primitive => exact Plan.apart_of_calls calls
  | fixed | enumeration | array | map | union | record =>
    refine Plan.apart_of_follows nofun (apart_of_plain inSnakeCase_codecFile nofun) fun task mem => ?_
    rcases List.mem_append.mp mem with mem | mem
    · exact follows_of_mem_useTasks mem
    · obtain ⟨call, accepted⟩ := calls task mem
      exact Task.follows_of_call call accepted _

theorem writePlan_apart (codes : ns.Codes shape) : shape.writePlan.Apart ns := by
  refine gluePlan_apart fun task mem => ?_
  rcases writerTasks_cases mem with rfl | ⟨snippet, -, rfl⟩ | ⟨part, inside, rfl⟩ | ⟨name, -, rfl⟩
  · exact ⟨nofun, codes⟩
  · exact ⟨nofun, trivial⟩
  · exact ⟨nofun, codes.component inside⟩
  · exact ⟨nofun, trivial⟩

theorem readPlan_apart (codes : ns.Codes shape) : shape.readPlan.Apart ns := by
  refine gluePlan_apart fun task mem => ?_
  rcases readerTasks_cases mem with rfl | ⟨snippet, -, rfl⟩ | ⟨part, inside, rfl⟩ | ⟨name, -, rfl⟩
  · exact ⟨nofun, codes⟩
  · exact ⟨nofun, trivial⟩
  · exact ⟨nofun, codes.component inside⟩
  · exact ⟨nofun, trivial⟩

end Shape

namespace Task

theorem apart_of_record {name : String} {make : Record → Plan} {plan : Plan}
    (h : ∀ record, ns.get? name = some (.record record) → (make record).Apart ns)
    (planned : (ns.record name).map make = .ok plan) : plan.Apart ns := by
  unfold Namespace.record Namespace.record? at planned
  cases found : ns.get? name with
  | none =>
    rw [found] at planned
    cases planned
  | some type =>
    rw [found] at planned
    cases type with
    | fixed | enumeration => cases planned
    | record record =>
      obtain rfl := Except.ok.inj planned
      exact h record found

/-- A task about accepted types that is no entry itself enters an item that is apart, and what follows is about
accepted types. -/
theorem Accepted.plan_apart (accepted : ns.Accepted) {task : Task} {plan : Plan} (h : task.Accepted ns)
    (planned : task.plan ns = .ok plan) : (∃ item, task = .enter item) ∨ plan.Apart ns := by
  cases task with
  | enter item => exact Or.inl ⟨item, rfl⟩
  | snippet snippet => exact Or.inr (Except.ok.inj planned ▸ snippet.plan_apart)
  | declare shape =>
    refine Or.inr ?_
    have codes : ns.Codes shape := h
    have used (type : NamedType) (same : shape = type.shape) (plain : type.isRecord = false) :
        checkTypeName type.name = .ok () := by
      rcases codes with occurs | ⟨other, stored, _, eq⟩
      · exact accepted.used (same ▸ occurs) plain
      · have name : other.name = type.name := by
          rw [← other.shape_canonicalName, ← type.shape_canonicalName, ← eq, same]
        exact name ▸ (accepted.stored stored).2
    cases shape with
    | primitive => exact Except.ok.inj planned ▸ Plan.apart_of_calls nofun
    | array | map =>
      obtain rfl := Except.ok.inj planned
      exact Plan.apart_of_calls (List.forall_mem_singleton.mpr ⟨nofun, codes.component (.head _)⟩)
    | fixed type => exact Except.ok.inj planned ▸ Fixed.plan_apart (used (.fixed type) rfl rfl)
    | enumeration type => exact Except.ok.inj planned ▸ Enumeration.plan_apart (used (.enumeration type) rfl rfl)
    | union branches => exact Except.ok.inj planned ▸ unionPlan_apart codes
    | record name => exact apart_of_record (fun _ found => Record.declarePlan_apart found accepted) planned
  | write shape => exact Or.inr (Except.ok.inj planned ▸ Shape.writePlan_apart h)
  | read shape => exact Or.inr (Except.ok.inj planned ▸ Shape.readPlan_apart h)
  | declareRecord record =>
    obtain ⟨name, found⟩ := h
    exact Or.inr (Except.ok.inj planned ▸ Record.declarePlan_apart found accepted)
  | serializeRecord record =>
    obtain ⟨name, found⟩ := h
    exact Or.inr (Except.ok.inj planned ▸ Record.serializePlan_apart found)
  | deserializeRecord record =>
    obtain ⟨name, found⟩ := h
    exact Or.inr (Except.ok.inj planned ▸ Record.deserializePlan_apart found)
  | serializeNamed name =>
    exact Or.inr (apart_of_record (fun _ found => Record.serializePlan_apart found) planned)
  | deserializeNamed name =>
    exact Or.inr (apart_of_record (fun _ found => Record.deserializePlan_apart found) planned)

theorem accepted_of_mem_tasks (accepted : ns.Accepted) {task : Task} (mem : task ∈ ns.tasks) :
    task.Accepted ns := by
  obtain ⟨type, stored, mem⟩ := List.mem_flatMap.mp mem
  obtain ⟨name, found⟩ := Namespace.mem_values stored
  obtain ⟨rfl, -⟩ := accepted.stored found
  cases type with
  | fixed type | enumeration type =>
    have codes : ns.Codes (NamedType.shape _) := Or.inr ⟨_, found, rfl, rfl⟩
    simp only [NamedType.tasks, List.mem_cons, List.not_mem_nil, or_false] at mem
    rcases mem with rfl | rfl
    · exact codes
    · exact codes
  | record record =>
    simp only [NamedType.tasks, Record.serializeTasks, Record.deserializeTasks, List.mem_append,
      List.mem_cons, List.not_mem_nil, or_false] at mem
    rcases mem with (rfl | rfl) | rfl | rfl
    · exact ⟨_, found⟩
    · exact ⟨_, found⟩
    · exact ⟨_, found⟩
    · exact ⟨_, found⟩

theorem accepted_of_reaches (accepted : ns.Accepted) {task : Task} (h : ns.Reaches task) :
    task.Accepted ns := by
  induction h with
  | start mem => exact accepted_of_mem_tasks accepted mem
  | next _ planned mem ih =>
    rcases ih.plan_apart accepted planned with ⟨item, rfl⟩ | apart
    · cases planned
      cases mem
    · exact apart.next _ mem

theorem apart_of_enters (accepted : ns.Accepted) {task : Task} (reached : ns.Reaches task) {item : Placed}
    {next : List Task} (enters : task.Enters ns item next) : item.Apart := by
  have about := accepted_of_reaches accepted reached
  rcases about.plan_apart accepted enters with ⟨other, rfl⟩ | apart
  · cases enters
    exact about
  · exact (apart.head item rfl).2

/-- What is entered is made there, or goes to the file of what was made before it. -/
theorem made_before (accepted : ns.Accepted) {task : Task} (reached : ns.Reaches task) {item : Placed}
    {next : List Task} (enters : task.Enters ns item next) :
    ∃ task' head next', ns.Reaches task' ∧ task'.Enters ns head next' ∧ head.Made ∧ item.file = head.file := by
  rcases (accepted_of_reaches accepted reached).plan_apart accepted enters with ⟨item', rfl⟩ | apart
  · cases enters
    cases reached with
    | start mem =>
      obtain ⟨type, _, mem⟩ := List.mem_flatMap.mp mem
      cases type <;> simp [NamedType.tasks, Record.serializeTasks, Record.deserializeTasks] at mem
    | @next before _ plan spawned planned mem =>
      rcases (accepted_of_reaches accepted spawned).plan_apart accepted planned with ⟨other, rfl⟩ | apart
      · cases planned
        cases mem
      · obtain ⟨head, eq, place⟩ := apart.place item mem
        obtain ⟨_, next⟩ := plan
        cases eq
        exact ⟨before, head, next, spawned, planned, (apart.head head rfl).1, place⟩
  · exact ⟨task, item, next, reached, enters, (apart.head item rfl).1, rfl⟩

end Task

end AvroCompiler

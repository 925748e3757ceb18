import AvroCompiler.Registration.Task

namespace AvroCompiler

namespace Snippet

/-- One for the snippet, one for each of its imports, and the weights of what it refers to. -/
def weight : Snippet → Nat
  | byteWriter | stringWriter | writeNull | writeFloat | writeDouble => 2
  | decodeError => 3
  | encodeInt | writeBool => 4
  | byteReader | readNull => 5
  | writeInt | writeLong | writeBlocks => 6
  | writeBytes => 8
  | decodeInt | readBool | readFloat | readDouble | writeString => 10
  | readInt | readLong | readBlocks => 15
  | readBytes => 20
  | readString => 25

theorem weight_le (snippet : Snippet) : snippet.weight ≤ 25 := by
  cases snippet <;> decide

theorem weight_pos (snippet : Snippet) : 0 < snippet.weight := by
  cases snippet <;> decide

def weights : List Snippet → Nat
  | [] => 0
  | snippet :: snippets => snippet.weight + weights snippets

theorem imports_deps_weight (snippet : Snippet) :
    snippet.imports.length + weights snippet.deps < snippet.weight := by
  cases snippet <;> decide

end Snippet

namespace Shape

mutual

def declareWeight : Shape → Nat
  | .array items => 1 + declareWeight items
  | .map values => 1 + declareWeight values
  | .union branches => 5 + declareWeights branches
  | _ => 4

def declareWeights : List Shape → Nat
  | [] => 0
  | shape :: shapes => declareWeight shape + declareWeights shapes

end

mutual

def codecWeight : Shape → Nat
  | .array items => 64 + codecWeight items
  | .map values => 64 + codecWeight values
  | .union branches => 64 + declareWeights branches + codecWeights branches
  | _ => 64

def codecWeights : List Shape → Nat
  | [] => 0
  | shape :: shapes => codecWeight shape + codecWeights shapes

end

end Shape

namespace Task

def weight : Task → Nat
  | .enter _ => 1
  | .snippet item => item.weight
  | .declare shape => shape.declareWeight
  | .write shape => shape.codecWeight
  | .read shape => shape.codecWeight
  | .declareRecord record => 4 + Shape.declareWeights record.shapes
  | .serializeRecord record => 1 + Shape.codecWeights record.shapes
  | .deserializeRecord record => 4 + Shape.codecWeights record.shapes
  | .serializeNamed _ => 1
  | .deserializeNamed _ => 1

def weights : List Task → Nat
  | [] => 0
  | task :: tasks => task.weight + weights tasks

@[simp] theorem weights_nil : weights [] = 0 := rfl

@[simp] theorem weights_cons (task : Task) (tasks : List Task) :
    weights (task :: tasks) = task.weight + weights tasks := rfl

@[simp] theorem weights_append (first second : List Task) :
    weights (first ++ second) = weights first + weights second := by
  induction first with
  | nil => simp
  | cons task tasks ih => simp [ih, Nat.add_assoc]

@[simp] theorem weights_useTasks (file : String) (paths : List String) :
    weights (useTasks file paths) = paths.length := by
  induction paths with
  | nil => rfl
  | cons path paths ih =>
    simp only [useTasks, List.map_cons, weights_cons, List.length_cons] at ih ⊢
    rw [ih, weight, Nat.add_comm]

@[simp] theorem weights_declare (shapes : List Shape) :
    weights (shapes.map .declare) = Shape.declareWeights shapes := by
  induction shapes with
  | nil => rfl
  | cons shape shapes ih => simp [ih, Shape.declareWeights, weight]

@[simp] theorem weights_write (shapes : List Shape) :
    weights (shapes.map .write) = Shape.codecWeights shapes := by
  induction shapes with
  | nil => rfl
  | cons shape shapes ih => simp [ih, Shape.codecWeights, weight]

@[simp] theorem weights_read (shapes : List Shape) :
    weights (shapes.map .read) = Shape.codecWeights shapes := by
  induction shapes with
  | nil => rfl
  | cons shape shapes ih => simp [ih, Shape.codecWeights, weight]

theorem weight_pos (task : Task) : 0 < task.weight := by
  cases task with
  | snippet item => exact item.weight_pos
  | declare shape => cases shape <;> simp only [weight, Shape.declareWeight] <;> omega
  | write shape => cases shape <;> simp only [weight, Shape.codecWeight] <;> omega
  | read shape => cases shape <;> simp only [weight, Shape.codecWeight] <;> omega
  | enter | declareRecord | serializeRecord | deserializeRecord | serializeNamed
  | deserializeNamed => simp only [weight]; omega

end Task

theorem length_mapPaths (needed : Bool) : (mapPaths needed).length ≤ 1 := by
  cases needed <;> decide

theorem Snippet.weights_plan (snippet : Snippet) :
    Task.weights snippet.plan.next < snippet.weight := by
  have deps (snippets : List Snippet) :
      Task.weights (snippets.map .snippet) = weights snippets := by
    induction snippets with
    | nil => rfl
    | cons s ss ih => simp [ih, Task.weight, weights]
  have h := snippet.imports_deps_weight
  simpa [Snippet.plan, deps] using h

theorem Shape.weights_writePlan (shape : Shape) :
    Task.weights shape.writePlan.next < shape.codecWeight := by
  have h := length_mapPaths shape.usesMap
  cases shape with
  | primitive kind =>
    have := (kind.writeSnippet).weight_le
    simp [writePlan, gluePlan, writerTasks, codecWeight, Task.weight]
    omega
  | _ =>
    simp [writePlan, gluePlan, writerTasks, codecWeight, declareWeight, Task.weight,
      Snippet.weight]
    omega

theorem Shape.weights_readPlan (shape : Shape) :
    Task.weights shape.readPlan.next < shape.codecWeight := by
  have h := length_mapPaths shape.usesMap
  cases shape with
  | primitive kind =>
    have := (kind.readSnippet).weight_le
    simp [readPlan, gluePlan, readerTasks, codecWeight, Task.weight]
    omega
  | _ =>
    simp [readPlan, gluePlan, readerTasks, codecWeight, declareWeight, Task.weight,
      Snippet.weight]
    omega

def Record.keys (record : Record) : List EntryKey :=
  [.type record.name, .routine ⟨record.name, "serialize"⟩,
   .routine (.free (deserializerName record.name))]

/-- The plan adds an entry that belongs to a record of the namespace. -/
def Plan.AddsRecord (ns : Namespace) (plan : Plan) : Prop :=
  ∃ name record item, ns.record? name = some record ∧ plan.head = some item ∧
    item.file = fileName record.name ∧ item.entry.key ∈ record.keys

theorem record_map_eq {ns : Namespace} {name : String} {make : Record → Plan} {plan : Plan}
    (h : (ns.record name).map make = .ok plan) :
    ∃ record, ns.record? name = some record ∧ plan = make record := by
  unfold Namespace.record at h
  split at h
  · rename_i record found
    cases h
    exact ⟨record, found, rfl⟩
  · cases h

/-- Either the tasks that follow are lighter, or an entry of a record is added. -/
theorem Task.weights_plan {ns : Namespace} {task : Task} {plan : Plan}
    (h : task.plan ns = .ok plan) : weights plan.next < task.weight ∨ plan.AddsRecord ns := by
  cases task with
  | enter item => cases h; exact Or.inl (by simp [weight])
  | snippet item => cases h; exact Or.inl item.weights_plan
  | declare shape =>
    cases shape with
    | record name =>
      obtain ⟨record, found, rfl⟩ := record_map_eq h
      exact Or.inr ⟨name, record, _, found, rfl, rfl, by simp [Entry.key, Record.keys]⟩
    | union branches =>
      cases h
      have := length_mapPaths (branches.any Shape.usesMap)
      refine Or.inl ?_
      simp [unionPlan, weight, Shape.declareWeight]
      omega
    | _ =>
      cases h
      refine Or.inl ?_
      simp [Fixed.plan, Enumeration.plan, weight, Shape.declareWeight]
  | write shape => cases h; exact Or.inl shape.weights_writePlan
  | read shape => cases h; exact Or.inl shape.weights_readPlan
  | declareRecord record =>
    cases h
    have := length_mapPaths (record.shapes.any Shape.usesMap)
    refine Or.inl ?_
    simp [Record.declarePlan, weight]
    omega
  | serializeRecord record =>
    cases h
    exact Or.inl (by simp [Record.serializePlan, weight])
  | deserializeRecord record =>
    cases h
    exact Or.inl (by simp [Record.deserializePlan, weight, Snippet.weight])
  | serializeNamed name =>
    obtain ⟨record, found, rfl⟩ := record_map_eq h
    exact Or.inr ⟨name, record, _, found, rfl, rfl, by simp [Entry.key, Record.keys]⟩
  | deserializeNamed name =>
    obtain ⟨record, found, rfl⟩ := record_map_eq h
    exact Or.inr ⟨name, record, _, found, rfl, rfl, by simp [Entry.key, Record.keys]⟩

def Namespace.recordKeys (ns : Namespace) : List (String × EntryKey) :=
  ns.types.values.flatMap fun
    | .record record => record.keys.map fun key => (fileName record.name, key)
    | _ => []

/-- How many entries of records are not in the package yet. -/
def Package.missing (ns : Namespace) (pkg : Package) : Nat :=
  ns.recordKeys.countP fun place => !pkg.has place.1 place.2

theorem mem_recordKeys {ns : Namespace} {name : String} {record : Record} {key : EntryKey}
    (found : ns.record? name = some record) (mem : key ∈ record.keys) :
    (fileName record.name, key) ∈ ns.recordKeys := by
  have look : ns.types.entries.lookup name = some (.record record) := by
    unfold Namespace.record? Namespace.get? Keyed.get? at found
    split at found
    · rename_i eq
      cases found
      exact eq
    · cases found
  have entry : NamedType.record record ∈ ns.types.values := by
    unfold Keyed.values
    generalize ns.types.entries = entries at look
    induction entries with
    | nil => simp at look
    | cons head rest ih =>
      rw [List.lookup_cons] at look
      split at look
      · simp [Option.some.inj look]
      · exact List.mem_cons_of_mem _ (ih look)
  exact List.mem_flatMap.mpr ⟨_, entry, List.mem_map.mpr ⟨key, mem, rfl⟩⟩

theorem countP_lt_countP {α : Type} {p q : α → Bool} {xs : List α} {x : α}
    (sub : ∀ y, p y = true → q y = true) (mem : x ∈ xs) (hq : q x = true) (hp : p x = false) :
    xs.countP p < xs.countP q := by
  induction xs with
  | nil => simp at mem
  | cons y ys ih =>
    have le : ys.countP p ≤ ys.countP q := List.countP_mono_left fun z _ => sub z
    rcases List.mem_cons.mp mem with rfl | mem
    · simp only [List.countP_cons, hq, hp]
      simp
      omega
    · have lt := ih mem
      have := sub y
      simp only [List.countP_cons]
      split <;> split <;> grind

theorem Package.insert_eq_new {pkg pkg' : Package} {file : String} {entry : Entry}
    (h : pkg.insert file entry = .ok (true, pkg')) :
    pkg.get? file entry.key = none ∧ pkg' = pkg.put file entry := by
  unfold Package.insert at h
  split at h
  · rename_i free
    cases h
    exact ⟨free, rfl⟩
  · split at h <;> cases h

theorem Package.has_put (pkg : Package) (file : String) (entry : Entry) (place : String)
    (key : EntryKey) (h : pkg.has place key = true) : (pkg.put file entry).has place key = true := by
  unfold Package.has at h ⊢
  rw [Package.get?_put]
  split
  · rfl
  · exact h

theorem Package.missing_put_le (ns : Namespace) (pkg : Package) (file : String) (entry : Entry) :
    (pkg.put file entry).missing ns ≤ pkg.missing ns := by
  refine List.countP_mono_left fun place _ h => ?_
  cases hp : pkg.has place.1 place.2 with
  | false => rfl
  | true => simp [Package.has_put pkg file entry _ _ hp] at h

theorem Package.missing_put_lt {ns : Namespace} {pkg : Package} {file : String} {entry : Entry}
    (mem : (file, entry.key) ∈ ns.recordKeys) (free : pkg.get? file entry.key = none) :
    (pkg.put file entry).missing ns < pkg.missing ns := by
  refine countP_lt_countP (x := (file, entry.key)) (fun place h => ?_) mem ?_ ?_
  · cases hp : pkg.has place.1 place.2 with
    | false => rfl
    | true => simp [Package.has_put pkg file entry _ _ hp] at h
  · simp [Package.has, free]
  · simp [Package.has, Package.get?_put]

end AvroCompiler

import AvroCompiler.Proofs.Registration.Reach
import Mathlib.Algebra.Order.BigOperators.Group.List
import Mathlib.Algebra.Order.Ring.Nat

namespace AvroCompiler

structure Work where
  pkg : Package
  tasks : List Task

abbrev Outcome := Except Error Unit × Package

namespace Work

/-- One step of registration: the work that is left after it, or the outcome. -/
def step (ns : Namespace) (work : Work) : Work ⊕ Outcome :=
  match work.tasks with
  | [] => .inr (.ok (), work.pkg)
  | task :: rest =>
    match task.plan ns with
    | .error error => .inr (.error error, work.pkg)
    | .ok ⟨none, next⟩ => .inl ⟨work.pkg, next ++ rest⟩
    | .ok ⟨some item, next⟩ =>
      match work.pkg.insert item.file item.entry with
      | .error error => .inr (.error error, work.pkg)
      | .ok (false, _) => .inl ⟨work.pkg, rest⟩
      | .ok (true, pkg') => .inl ⟨pkg', next ++ rest⟩

/-- The work ends with the outcome after so many steps. -/
inductive Ends (ns : Namespace) : Nat → Work → Outcome → Prop
  | last {work : Work} {outcome : Outcome} (stops : work.step ns = .inr outcome) : Ends ns 1 work outcome
  | step {n : Nat} {work next : Work} {outcome : Outcome} (goes : work.step ns = .inl next)
      (ends : Ends ns n next outcome) : Ends ns (n + 1) work outcome

theorem carryOut_step (ns : Namespace) (work : Work) :
    match work.step ns with
    | .inr outcome => work.pkg.carryOut ns work.tasks = outcome
    | .inl next => work.pkg.carryOut ns work.tasks = next.pkg.carryOut ns next.tasks := by
  obtain ⟨pkg, tasks⟩ := work
  cases tasks with
  | nil => exact Package.carryOut.eq_1 ns pkg
  | cons task rest =>
    have run := Package.carryOut_cons ns pkg task rest
    unfold step
    dsimp only
    cases planned : task.plan ns with
    | error error =>
      rw [planned] at run
      exact run
    | ok plan =>
      obtain ⟨_ | item, next⟩ := plan
      · rw [planned] at run
        exact run
      · rw [planned] at run
        dsimp only at run ⊢
        cases inserted : pkg.insert item.file item.entry with
        | error error =>
          rw [inserted] at run
          exact run
        | ok done =>
          obtain ⟨_ | _, pkg'⟩ := done <;> (rw [inserted] at run; exact run)

end Work

namespace Record

/-- More than the weight of the tasks that follow an entry of the record. -/
def toll (record : Record) : Nat :=
  4 + Shape.declareWeights record.shapes + Shape.codecWeights record.shapes

end Record

def Namespace.toll (ns : Namespace) : Nat :=
  (ns.types.values.map fun
    | .record record => record.toll
    | _ => 0).sum

theorem Namespace.toll_le {ns : Namespace} {name : String} {record : Record}
    (found : ns.record? name = some record) : record.toll ≤ ns.toll := by
  have stored : NamedType.record record ∈ ns.types.values := by
    unfold Namespace.record? at found
    split at found
    · rename_i type stored
      cases found
      exact mem_values_of_get? stored
    · cases found
  exact List.le_sum_of_mem (List.mem_map.mpr ⟨_, stored, rfl⟩)

namespace Task

theorem weights_plan_of_empty {task : Task} {plan : Plan} (planned : task.plan .empty = .ok plan) :
    weights plan.next < task.weight := by
  refine (weights_plan planned).resolve_right ?_
  rintro ⟨name, record, item, found, _⟩
  cases found

theorem weights_plan_lt {ns : Namespace} {task : Task} {plan : Plan}
    (planned : task.plan ns = .ok plan) : weights plan.next < task.weight + ns.toll := by
  have lighter (free : task.plan .empty = .ok plan) : weights plan.next < task.weight + ns.toll :=
    Nat.lt_add_right ns.toll (weights_plan_of_empty free)
  cases task with
  | declare shape =>
    cases shape with
    | record name =>
      obtain ⟨record, found, rfl⟩ := record_map_eq planned
      have paths := length_mapPaths (record.shapes.any Shape.usesMap)
      refine Nat.lt_of_lt_of_le ?_ (Nat.add_le_add_left (Namespace.toll_le found) _)
      simp only [Record.declarePlan, weights_append, weights_useTasks, List.length_cons,
        weights_declare, weight, Shape.declareWeight, Record.toll]
      omega
    | primitive | fixed | enumeration | array | map | union => exact lighter planned
  | serializeNamed name =>
    obtain ⟨record, found, rfl⟩ := record_map_eq planned
    refine Nat.lt_of_lt_of_le ?_ (Nat.add_le_add_left (Namespace.toll_le found) _)
    simp only [Record.serializePlan, weights_write, weight, Record.toll]
    omega
  | deserializeNamed name =>
    obtain ⟨record, found, rfl⟩ := record_map_eq planned
    refine Nat.lt_of_lt_of_le ?_ (Nat.add_le_add_left (Namespace.toll_le found) _)
    simp only [Record.deserializePlan, weights_cons, weights_read, weight, Snippet.weight, Record.toll]
    omega
  | enter | snippet | write | read | declareRecord | serializeRecord | deserializeRecord =>
    exact lighter planned

end Task

namespace Work

/-- What the tasks weigh, with the toll of every entry of a record that is missing. -/
def potential (ns : Namespace) (work : Work) : Nat :=
  Task.weights work.tasks + work.pkg.missing ns * ns.toll

/-- Every step spends. -/
theorem potential_step {ns : Namespace} {work next : Work} (goes : work.step ns = .inl next) :
    next.potential ns < work.potential ns := by
  obtain ⟨pkg, tasks⟩ := work
  cases tasks with
  | nil => cases goes
  | cons task rest =>
    unfold step at goes
    dsimp only at goes
    have heavy := task.weight_pos
    split at goes
    · cases goes
    · rename_i tasks planned
      cases goes
      have lighter : Task.weights tasks < task.weight := by
        refine (Task.weights_plan planned).resolve_right ?_
        rintro ⟨name, record, item, _, head, _⟩
        cases head
      simp only [potential, Task.weights_append, Task.weights_cons]
      omega
    · rename_i item tasks planned
      split at goes
      · cases goes
      · cases goes
        simp only [potential, Task.weights_cons]
        omega
      · rename_i pkg' inserted
        cases goes
        obtain ⟨free, rfl⟩ := Package.insert_eq_new inserted
        simp only [potential, Task.weights_append, Task.weights_cons]
        rcases Task.weights_plan planned with lighter | ⟨name, record, other, found, head, file, key⟩
        · have fewer := Nat.mul_le_mul_right ns.toll
            (Package.missing_put_le ns pkg item.file item.entry)
          dsimp only at lighter
          omega
        · cases Option.some.inj head
          have listed := mem_recordKeys found key
          rw [← file] at listed
          have fewer := Nat.mul_le_mul_right ns.toll (Package.missing_put_lt listed free)
          have heavier := Task.weights_plan_lt planned
          rw [Nat.succ_mul] at fewer
          dsimp only at heavier
          omega

theorem ends (ns : Namespace) (work : Work) :
    ∃ n ≤ work.potential ns + 1, Ends ns n work (work.pkg.carryOut ns work.tasks) := by
  induction size : work.potential ns using Nat.strongRecOn generalizing work with
  | _ _ ih =>
    have run := carryOut_step ns work
    cases stepped : work.step ns with
    | inr outcome =>
      rw [stepped] at run
      exact ⟨1, by omega, .last (stepped.trans (congrArg Sum.inr run.symm))⟩
    | inl next =>
      rw [stepped] at run
      have less := potential_step stepped
      obtain ⟨n, bound, ends⟩ := ih (next.potential ns) (by omega) next rfl
      rw [← run] at ends
      exact ⟨n + 1, by omega, .step stepped ends⟩

end Work

theorem Package.carryOut_append (ns : Namespace) (pkg : Package) (first rest : List Task) :
    pkg.carryOut ns (first ++ rest) =
      match pkg.carryOut ns first with
      | (.ok (), pkg') => pkg'.carryOut ns rest
      | (.error error, pkg') => (.error error, pkg') := by
  fun_induction carryOut ns pkg first with
  | case1 pkg => rfl
  | case2 pkg task tasks error planned =>
    exact carryOut_unplanned planned (tasks ++ rest)
  | case3 pkg task tasks plan planned head ih =>
    rw [List.cons_append, carryOut_passed planned head, ← ih, List.append_assoc]
  | case4 pkg task tasks plan planned item head error inserted =>
    exact carryOut_refused planned head inserted (tasks ++ rest)
  | case5 pkg task tasks plan planned item head other inserted ih =>
    rw [List.cons_append, carryOut_again planned head inserted, ih]
  | case6 pkg task tasks plan planned item head pkg' inserted ih =>
    rw [List.cons_append, carryOut_entered planned head inserted, ← ih, List.append_assoc]

/-- Registration ends for every namespace, package and list of tasks, be it the one task of a shape or
the tasks of a record. No run goes on for ever, and a run takes no more steps than the tasks weigh, with
the toll of every entry of a record that the package lacks. A call inside a run, such as the routine of
a record that a field refers to, ends before the tasks after it begin. Generation ends likewise. -/
theorem registration_ends (ns : Namespace) :
    (WellFounded fun next work : Work => work.step ns = .inl next) ∧
    (∀ (pkg : Package) (tasks : List Task), ∃ n ≤ Task.weights tasks + pkg.missing ns * ns.toll + 1,
      Work.Ends ns n ⟨pkg, tasks⟩ (pkg.carryOut ns tasks)) ∧
    (∀ (pkg : Package) (call rest : List Task), pkg.carryOut ns (call ++ rest) =
      match pkg.carryOut ns call with
      | (.ok (), pkg') => pkg'.carryOut ns rest
      | (.error error, pkg') => (.error error, pkg')) ∧
    ∀ name : String, ∃ n outcome, Work.Ends ns n ⟨⟨name, ∅⟩, ns.tasks⟩ outcome ∧
      generate ns name = outcome.1.map fun _ => outcome.2 := by
  refine ⟨?_, fun pkg tasks => Work.ends ns ⟨pkg, tasks⟩, Package.carryOut_append ns, ?_⟩
  · exact Subrelation.wf Work.potential_step (InvImage.wf (Work.potential ns) Nat.lt_wfRel.wf)
  · intro name
    obtain ⟨n, _, ends⟩ := Work.ends ns ⟨⟨name, ∅⟩, ns.tasks⟩
    refine ⟨n, _, ends, ?_⟩
    unfold generate
    change (match Package.carryOut ns ⟨name, ∅⟩ ns.tasks with
      | (.ok (), pkg) => Except.ok pkg
      | (.error error, _) => .error error) = _
    rcases Package.carryOut ns ⟨name, ∅⟩ ns.tasks with ⟨_ | _, pkg⟩ <;> rfl

end AvroCompiler

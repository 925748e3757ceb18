import AvroCompiler.Registration.Weight

namespace AvroCompiler

namespace Package

/-- Carries out tasks in order. The tasks that follow from a new entry come before the others; an
entry that was there already has nothing to follow. -/
def carryOut (ns : Namespace) (pkg : Package) (tasks : List Task) : Except Error Unit × Package :=
  match tasks with
  | [] => (.ok (), pkg)
  | task :: rest =>
    match _planned : task.plan ns with
    | .error error => (.error error, pkg)
    | .ok plan =>
      match _head : plan.head with
      | none => pkg.carryOut ns (plan.next ++ rest)
      | some item =>
        match _inserted : pkg.insert item.file item.entry with
        | .error error => (.error error, pkg)
        | .ok (false, _) => pkg.carryOut ns rest
        | .ok (true, pkg') => pkg'.carryOut ns (plan.next ++ rest)
termination_by (pkg.missing ns, Task.weights tasks)
decreasing_by
  · refine Prod.Lex.right _ ?_
    rcases Task.weights_plan _planned with lt | ⟨_, _, _, _, head, _⟩
    · simp only [Task.weights_append, Task.weights_cons]
      omega
    · rw [_head] at head
      cases head
  · refine Prod.Lex.right _ ?_
    have := task.weight_pos
    simp only [Task.weights_cons]
    omega
  · obtain ⟨free, rfl⟩ := Package.insert_eq_new _inserted
    rcases Task.weights_plan _planned with lt | ⟨_, record, item', found, head, file, key⟩
    · have le := Package.missing_put_le ns pkg item.file item.entry
      rcases Nat.lt_or_eq_of_le le with less | eq
      · exact Prod.Lex.left _ _ less
      · rw [eq]
        refine Prod.Lex.right _ ?_
        simp only [Task.weights_append, Task.weights_cons]
        omega
    · rw [_head] at head
      cases Option.some.inj head
      have mem := mem_recordKeys found key
      rw [← file] at mem
      exact Prod.Lex.left _ _ (Package.missing_put_lt mem free)

end Package

namespace Record

def serializeTasks (record : Record) : List Task :=
  [.declareRecord record, .serializeRecord record]

def deserializeTasks (record : Record) : List Task :=
  [.declareRecord record, .deserializeRecord record]

end Record

def NamedType.tasks : NamedType → List Task
  | .record type => type.serializeTasks ++ type.deserializeTasks
  | type => [.write type.shape, .read type.shape]

/-- The package of all types of a namespace. -/
def generate (ns : Namespace) (name : String) : Except Error Package :=
  match Package.carryOut ns ⟨name, ∅⟩ (ns.types.values.flatMap NamedType.tasks) with
  | (.ok (), pkg) => .ok pkg
  | (.error error, _) => .error error

end AvroCompiler

import AvroCompiler.Proofs.Registration.Content

namespace AvroCompiler

/-- Everything that the first package has is in the second one as it was. -/
structure Package.Grows (pkg pkg' : Package) : Prop where
  name : pkg'.name = pkg.name
  files : ∀ file, pkg.files.contains file → pkg'.files.contains file
  entries : ∀ file key entry, pkg.get? file key = some entry → pkg'.get? file key = some entry

namespace Package

theorem Grows.refl (pkg : Package) : pkg.Grows pkg :=
  ⟨rfl, fun _ => id, fun _ _ _ => id⟩

theorem Grows.trans {first second third : Package} (h : first.Grows second) (h' : second.Grows third) :
    first.Grows third where
  name := h'.name.trans h.name
  files file held := h'.files file (h.files file held)
  entries file key entry held := h'.entries file key entry (h.entries file key entry held)

theorem grows_put {pkg : Package} {file : String} {entry : Entry}
    (free : pkg.get? file entry.key = none) : pkg.Grows (pkg.put file entry) where
  name := rfl
  files other held := by
    unfold Keyed.contains put at *
    rw [Keyed.get?_insert]
    split
    · rfl
    · exact held
  entries other key existing held := by
    rw [get?_put]
    split
    · rename_i same
      rw [same.1, same.2, free] at held
      cases held
    · exact held

theorem carryOut_grows (ns : Namespace) (pkg : Package) (tasks : List Task) :
    pkg.Grows (pkg.carryOut ns tasks).2 := by
  fun_induction carryOut ns pkg tasks with
  | case1 pkg => exact .refl pkg
  | case2 pkg | case4 pkg => exact .refl pkg
  | case3 pkg task rest plan planned head ih => exact ih
  | case5 pkg task rest plan planned item head other inserted ih => exact ih
  | case6 pkg task rest plan planned item head pkg' inserted ih =>
    obtain ⟨free, rfl⟩ := insert_eq_new inserted
    exact (grows_put free).trans ih

theorem Grows.holds {pkg pkg' : Package} (grows : pkg.Grows pkg') {item : Placed} (held : pkg.Holds item) :
    pkg'.Holds item :=
  grows.entries _ _ _ held

theorem Settled.mono {ns : Namespace} {pkg pkg' : Package} (grows : pkg.Grows pkg') {task : Task}
    (settled : pkg.Settled ns task) : pkg'.Settled ns task := by
  induction settled with
  | entered planned head held => exact .entered planned head (grows.holds held)
  | passed planned head _ ih => exact .passed planned head ih

theorem carryOut_append_of_skipped {ns : Namespace} {pkg : Package} {tasks : List Task}
    (skipped : ∀ task ∈ tasks, ∀ rest, pkg.carryOut ns (task :: rest) = pkg.carryOut ns rest)
    (rest : List Task) : pkg.carryOut ns (tasks ++ rest) = pkg.carryOut ns rest := by
  induction tasks with
  | nil => rfl
  | cons task tasks ih =>
    obtain ⟨first, others⟩ := List.forall_mem_cons.mp skipped
    rw [List.cons_append, first, ih others]

theorem Settled.skipped {ns : Namespace} {pkg : Package} {task : Task} (settled : pkg.Settled ns task)
    (rest : List Task) : pkg.carryOut ns (task :: rest) = pkg.carryOut ns rest := by
  -- On what the task passes before it comes to entries, all of which are there.
  induction settled generalizing rest with
  | entered planned head held => exact carryOut_again planned head (insert_of_holds held) rest
  | passed planned head _ ih =>
    rw [carryOut_passed planned head]
    exact carryOut_append_of_skipped ih rest

theorem carryOut_of_settled {ns : Namespace} {pkg : Package} {tasks : List Task}
    (settled : ∀ task ∈ tasks, pkg.Settled ns task) : pkg.carryOut ns tasks = (.ok (), pkg) := by
  have done := carryOut_append_of_skipped (fun task mem rest => (settled task mem).skipped rest) []
  rw [List.append_nil] at done
  rw [done, carryOut]

/-- What was registered once can be registered again in any package that has grown since. -/
theorem carryOut_again_of_grows {ns : Namespace} {pkg pkg' later : Package} {tasks : List Task}
    (run : pkg.carryOut ns tasks = (.ok (), pkg')) (grows : pkg'.Grows later) :
    later.carryOut ns tasks = (.ok (), later) := by
  obtain ⟨settled, -⟩ := carryOut_settles (fun task mem => .start mem) run
  exact carryOut_of_settled fun task mem => (settled task mem).mono grows

end Package

/-- What a package can be asked to take up: a snippet, or the type, the serializer or the deserializer
of a field or of a record. -/
inductive Operation where
  | registerSnippet (snippet : Snippet)
  | registerType (shape : Shape)
  | registerSerializer (shape : Shape)
  | registerDeserializer (shape : Shape)
  | registerRecord (record : Record)
  | addSerializer (record : Record)
  | addDeserializer (record : Record)

namespace Operation

def tasks : Operation → List Task
  | registerSnippet snippet => [.snippet snippet]
  | registerType shape => [.declare shape]
  | registerSerializer shape => [.write shape]
  | registerDeserializer shape => [.read shape]
  | registerRecord record => [.declareRecord record]
  | addSerializer record => record.serializeTasks
  | addDeserializer record => record.deserializeTasks

def perform (operation : Operation) (ns : Namespace) (pkg : Package) : Except Error Unit × Package :=
  pkg.carryOut ns operation.tasks

end Operation

/-- Every operation only adds to the package, and one that succeeds can be repeated without effect, at
once and after any others. -/
theorem registration_grows_and_repeats (ns : Namespace) (pkg : Package) (operation : Operation) :
    pkg.Grows (operation.perform ns pkg).2 ∧
    ∀ pkg', operation.perform ns pkg = (.ok (), pkg') →
      operation.perform ns pkg' = (.ok (), pkg') ∧
      ∀ others : List Task, operation.perform ns (pkg'.carryOut ns others).2 =
        (.ok (), (pkg'.carryOut ns others).2) := by
  refine ⟨Package.carryOut_grows ns pkg operation.tasks, fun pkg' run => ⟨?_, fun others => ?_⟩⟩
  · exact Package.carryOut_again_of_grows run (.refl pkg')
  · exact Package.carryOut_again_of_grows run (Package.carryOut_grows ns pkg' others)

theorem node_serializer_repeats : ∃ pkg,
    (Operation.addSerializer node).perform nodeNamespace ⟨"avro", ∅⟩ = (.ok (), pkg) ∧
      (Operation.addSerializer node).perform nodeNamespace pkg = (.ok (), pkg) := by
  have ends : (Package.rehearse nodeNamespace 50 [] ⟨"avro", ∅⟩ node.serializeTasks).isSome = true := by
    decide +kernel
  obtain ⟨pkg, rehearsed⟩ := Option.isSome_iff_exists.mp ends
  have performed := Package.carryOut_of_rehearse (by simp) rehearsed
  obtain ⟨-, repeats⟩ := registration_grows_and_repeats nodeNamespace ⟨"avro", ∅⟩ (.addSerializer node)
  exact ⟨pkg, performed, (repeats pkg performed).1⟩

end AvroCompiler

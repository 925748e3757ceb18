import AvroCompiler.Registration.Basic

namespace AvroCompiler

/-- The package has the entry in its file. -/
def Package.Holds (pkg : Package) (item : Placed) : Prop :=
  pkg.get? item.file item.entry.key = some item.entry

/-- The task is carried out. The entry of a task speaks for what follows it, since the tasks that
follow are only carried out once. -/
inductive Package.Settled (ns : Namespace) (pkg : Package) : Task → Prop
  | entered {task : Task} {plan : Plan} {item : Placed} (planned : task.plan ns = .ok plan)
      (head : plan.head = some item) (held : pkg.Holds item) : Settled ns pkg task
  | passed {task : Task} {plan : Plan} (planned : task.plan ns = .ok plan) (head : plan.head = none)
      (next : ∀ other ∈ plan.next, Settled ns pkg other) : Settled ns pkg task

inductive Task.Spawned (ns : Namespace) (start : List Task) : Task → Prop
  | start {task : Task} (mem : task ∈ start) : Spawned ns start task
  | next {task other : Task} {plan : Plan} (spawned : Spawned ns start task)
      (planned : task.plan ns = .ok plan) (mem : other ∈ plan.next) : Spawned ns start other

/-- The task enters this item and leaves these tasks to follow it. -/
def Task.Enters (ns : Namespace) (task : Task) (item : Placed) (next : List Task) : Prop :=
  task.plan ns = .ok ⟨some item, next⟩

theorem Task.enters_of_plan {ns : Namespace} {task : Task} {plan : Plan} {item : Placed}
    (planned : task.plan ns = .ok plan) (head : plan.head = some item) :
    task.Enters ns item plan.next := by
  obtain ⟨_, next⟩ := plan
  cases head
  exact planned

theorem Package.Holds.settled {ns : Namespace} {pkg : Package} {task : Task} {item : Placed}
    {next : List Task} (held : pkg.Holds item) (enters : task.Enters ns item next) :
    pkg.Settled ns task :=
  .entered enters rfl held

theorem Package.Settled.holds {ns : Namespace} {pkg : Package} {task : Task} {item : Placed}
    {next : List Task} (h : pkg.Settled ns task) (enters : task.Enters ns item next) :
    pkg.Holds item := by
  cases h with
  | entered planned head held =>
    cases planned.symm.trans enters
    cases head
    exact held
  | passed planned head =>
    cases planned.symm.trans enters
    cases head

theorem Package.Settled.next {ns : Namespace} {pkg : Package} {task : Task} {next : List Task}
    (h : pkg.Settled ns task) (planned : task.plan ns = .ok ⟨none, next⟩) :
    ∀ other ∈ next, pkg.Settled ns other := by
  cases h with
  | entered planned' head =>
    cases planned'.symm.trans planned
    cases head
  | passed planned' _ settled =>
    cases planned'.symm.trans planned
    exact settled

theorem Task.spawned_next_append {ns : Namespace} {start rest : List Task} {task : Task} {plan : Plan}
    (spawned : ∀ other ∈ task :: rest, other.Spawned ns start) (planned : task.plan ns = .ok plan) :
    ∀ other ∈ plan.next ++ rest, other.Spawned ns start := by
  intro other mem
  rcases List.mem_append.mp mem with mem | mem
  · exact (spawned task (by simp)).next planned mem
  · exact spawned other (by simp [mem])

namespace Package

theorem Holds.routine_eq {pkg : Package} {file text text' : String} {key : RoutineKey}
    (h : pkg.Holds ⟨file, .routine key text⟩) (h' : pkg.Holds ⟨file, .routine key text'⟩) :
    text = text' := by
  have same := Option.some.inj (Eq.trans (Eq.symm h) h')
  exact (Entry.routine.inj same).2

theorem Holds.type_eq {pkg : Package} {file name text text' : String}
    (h : pkg.Holds ⟨file, .type name text⟩) (h' : pkg.Holds ⟨file, .type name text'⟩) :
    text = text' := by
  have same := Option.some.inj (Eq.trans (Eq.symm h) h')
  exact (Entry.type.inj same).2

theorem holds_put {pkg : Package} {item other : Placed}
    (free : pkg.get? item.file item.entry.key = none) :
    (pkg.put item.file item.entry).Holds other ↔ other = item ∨ pkg.Holds other := by
  obtain ⟨file, entry⟩ := item
  obtain ⟨place, content⟩ := other
  unfold Holds
  rw [get?_put]
  by_cases same : place = file ∧ content.key = entry.key
  · obtain ⟨rfl, key⟩ := same
    rw [if_pos ⟨rfl, key⟩, key, free]
    constructor
    · intro eq
      cases eq
      exact Or.inl rfl
    · rintro (eq | eq)
      · cases eq
        rfl
      · cases eq
  · rw [if_neg same]
    constructor
    · exact Or.inr
    · rintro (eq | held)
      · cases eq
        exact absurd ⟨rfl, rfl⟩ same
      · exact held

theorem holds_insert_false {pkg pkg' : Package} {item : Placed}
    (h : pkg.insert item.file item.entry = .ok (false, pkg')) : pkg.Holds item := by
  unfold insert at h
  split at h
  · cases h
  · rename_i existing found
    split at h
    · rename_i eq
      subst eq
      exact found
    · cases h

theorem insert_error {pkg : Package} {item : Placed} {error : Error}
    (h : pkg.insert item.file item.entry = .error error) :
    error = .conflict item.file item.entry.key.label ∧
      ∃ existing, pkg.get? item.file item.entry.key = some existing ∧ existing ≠ item.entry := by
  unfold insert at h
  split at h
  · cases h
  · rename_i existing found
    split at h
    · cases h
    · rename_i ne
      cases h
      exact ⟨rfl, existing, found, ne⟩

theorem key_of_get? {pkg : Package} {file : String} {key : EntryKey} {entry : Entry}
    (h : pkg.get? file key = some entry) : entry.key = key := by
  unfold Package.get? File.get? at h
  cases key with
  | use path | constant path | type path | routine path =>
    obtain ⟨_, _, rfl⟩ := Option.map_eq_some_iff.mp h
    rfl

theorem mem_keys_put {pkg : Package} {file other : String} {entry : Entry}
    (mem : other ∈ (pkg.put file entry).files.keys) : other = file ∨ other ∈ pkg.files.keys := by
  obtain ⟨pair, listed, rfl⟩ := List.mem_map.mp mem
  rcases mem_insertSorted listed with rfl | old
  · exact Or.inl rfl
  · exact Or.inr (List.mem_map.mpr ⟨pair, old, rfl⟩)

theorem not_holds_empty (name : String) (item : Placed) : ¬(⟨name, ∅⟩ : Package).Holds item := by
  obtain ⟨file, entry⟩ := item
  intro h
  cases entry <;> cases h

theorem carryOut_keeps (ns : Namespace) (pkg : Package) (tasks : List Task) {item : Placed}
    (held : pkg.Holds item) : (pkg.carryOut ns tasks).2.Holds item := by
  fun_induction carryOut ns pkg tasks with
  | case1 | case2 | case4 => exact held
  | case3 pkg task rest plan planned head ih => exact ih held
  | case5 pkg task rest plan planned item' head other inserted ih => exact ih held
  | case6 pkg task rest plan planned item' head pkg' inserted ih =>
    obtain ⟨free, rfl⟩ := insert_eq_new inserted
    exact ih ((holds_put free).mpr (Or.inr held))

/-- Every entry that a run adds was entered by a task of the run. -/
theorem carryOut_adds {ns : Namespace} {start : List Task} (pkg : Package) (tasks : List Task)
    (spawned : ∀ task ∈ tasks, task.Spawned ns start) {item : Placed} :
    (pkg.carryOut ns tasks).2.Holds item → pkg.Holds item ∨
      ∃ (task : Task) (next : List Task), task.Spawned ns start ∧ task.Enters ns item next := by
  fun_induction carryOut ns pkg tasks with
  | case1 | case2 | case4 => exact Or.inl
  | case3 pkg task rest plan planned head ih => exact ih (Task.spawned_next_append spawned planned)
  | case5 pkg task rest plan planned item' head other inserted ih =>
    exact ih (List.forall_mem_cons.mp spawned).2
  | case6 pkg task rest plan planned item' head pkg' inserted ih =>
    obtain ⟨free, rfl⟩ := insert_eq_new inserted
    intro held
    rcases ih (Task.spawned_next_append spawned planned) held with old | later
    · rcases (holds_put free).mp old with rfl | old
      · exact Or.inr ⟨task, plan.next, spawned task (by simp), Task.enters_of_plan planned head⟩
      · exact Or.inl old
    · exact Or.inr later

/-- A run that succeeds carries out all of its tasks, and with every entry that it adds the tasks that
follow the entry. -/
theorem carryOut_settles {ns : Namespace} {start : List Task} {pkg pkg' : Package} {tasks : List Task}
    (spawned : ∀ task ∈ tasks, task.Spawned ns start)
    (run : pkg.carryOut ns tasks = (.ok (), pkg')) :
    (∀ task ∈ tasks, pkg'.Settled ns task) ∧
      ∀ item, pkg'.Holds item → pkg.Holds item ∨
        ∃ (task : Task) (next : List Task), task.Spawned ns start ∧ task.Enters ns item next ∧
          ∀ other ∈ next, pkg'.Settled ns other := by
  revert run
  fun_induction carryOut ns pkg tasks with
  | case1 pkg =>
    intro run
    cases run
    exact ⟨by simp, fun item held => Or.inl held⟩
  | case2 | case4 =>
    intro run
    cases run
  | case3 pkg task rest plan planned head ih =>
    intro run
    obtain ⟨settled, origins⟩ := ih (Task.spawned_next_append spawned planned) run
    refine ⟨?_, origins⟩
    intro other mem
    rcases List.mem_cons.mp mem with rfl | mem
    · exact .passed planned head fun next mem => settled next (List.mem_append_left rest mem)
    · exact settled other (List.mem_append_right plan.next mem)
  | case5 pkg task rest plan planned item head other inserted ih =>
    intro run
    obtain ⟨settled, origins⟩ := ih (List.forall_mem_cons.mp spawned).2 run
    have held : pkg'.Holds item := by
      have kept := carryOut_keeps ns pkg rest (holds_insert_false inserted)
      rwa [run] at kept
    exact ⟨List.forall_mem_cons.mpr ⟨.entered planned head held, settled⟩, origins⟩
  | case6 pkg task rest plan planned item head next inserted ih =>
    intro run
    obtain ⟨free, rfl⟩ := insert_eq_new inserted
    obtain ⟨settled, origins⟩ := ih (Task.spawned_next_append spawned planned) run
    have held : pkg'.Holds item := by
      have kept := carryOut_keeps ns (pkg.put item.file item.entry) (plan.next ++ rest)
        ((holds_put free).mpr (Or.inl rfl))
      rwa [run] at kept
    refine ⟨?_, ?_⟩
    · intro other mem
      rcases List.mem_cons.mp mem with rfl | mem
      · exact .entered planned head held
      · exact settled other (List.mem_append_right plan.next mem)
    · intro other held
      rcases origins other held with old | later
      · rcases (holds_put free).mp old with rfl | old
        · exact Or.inr ⟨task, plan.next, spawned task (by simp), Task.enters_of_plan planned head,
            fun next mem => settled next (List.mem_append_left rest mem)⟩
        · exact Or.inl old
      · exact Or.inr later

/-- A run that fails met a task that cannot be planned, or a task whose entry differs from the one
that is there. -/
theorem carryOut_fails {ns : Namespace} {start : List Task} {pkg pkg' : Package} {tasks : List Task}
    {error : Error} (spawned : ∀ task ∈ tasks, task.Spawned ns start)
    (run : pkg.carryOut ns tasks = (.error error, pkg')) :
    (∃ task : Task, task.Spawned ns start ∧ task.plan ns = .error error) ∨
      ∃ (task : Task) (item : Placed) (next : List Task) (other : Placed),
        task.Spawned ns start ∧ task.Enters ns item next ∧ pkg'.Holds other ∧
        other.file = item.file ∧ other.entry.key = item.entry.key ∧ other ≠ item ∧
        error = .conflict item.file item.entry.key.label := by
  revert run
  fun_induction carryOut ns pkg tasks with
  | case1 =>
    intro run
    cases run
  | case2 pkg task rest error' planned =>
    intro run
    cases run
    exact Or.inl ⟨task, spawned task (by simp), planned⟩
  | case3 pkg task rest plan planned head ih => exact ih (Task.spawned_next_append spawned planned)
  | case4 pkg task rest plan planned item head error' inserted =>
    intro run
    cases run
    obtain ⟨rfl, existing, found, ne⟩ := insert_error inserted
    have key := key_of_get? found
    refine Or.inr ⟨task, item, plan.next, ⟨item.file, existing⟩, spawned task (by simp),
      Task.enters_of_plan planned head, ?_, rfl, key, fun eq => ne (congrArg Placed.entry eq), rfl⟩
    unfold Holds
    rw [key]
    exact found
  | case5 pkg task rest plan planned item head other inserted ih =>
    exact ih (List.forall_mem_cons.mp spawned).2
  | case6 pkg task rest plan planned item head next inserted ih =>
    exact ih (Task.spawned_next_append spawned planned)

/-- A run of so many steps at most. Snippets that are done are known by themselves, so that their
texts are not compared. -/
def rehearse (ns : Namespace) : Nat → List Snippet → Package → List Task → Option Package
  | _, _, pkg, [] => some pkg
  | 0, _, _, _ :: _ => none
  | n + 1, done, pkg, .snippet snippet :: rest =>
    if snippet ∈ done then rehearse ns n done pkg rest
    else if pkg.has codecFile snippet.entry.key then none
    else
      rehearse ns n (snippet :: done) (pkg.put codecFile snippet.entry) (snippet.plan.next ++ rest)
  | n + 1, done, pkg, task :: rest =>
    match task.plan ns with
    | .error _ => none
    | .ok ⟨none, next⟩ => rehearse ns n done pkg (next ++ rest)
    | .ok ⟨some item, next⟩ =>
      match pkg.insert item.file item.entry with
      | .error _ => none
      | .ok (false, _) => rehearse ns n done pkg rest
      | .ok (true, pkg') => rehearse ns n done pkg' (next ++ rest)

theorem insert_of_holds {pkg : Package} {item : Placed} (held : pkg.Holds item) :
    pkg.insert item.file item.entry = .ok (false, pkg) := by
  unfold insert
  rw [held]
  simp

theorem insert_of_free {pkg : Package} {file : String} {entry : Entry}
    (unset : pkg.get? file entry.key = none) :
    pkg.insert file entry = .ok (true, pkg.put file entry) := by
  unfold insert
  rw [unset]

theorem carryOut_cons (ns : Namespace) (pkg : Package) (task : Task) (rest : List Task) :
    pkg.carryOut ns (task :: rest) =
      match task.plan ns with
      | .error error => (.error error, pkg)
      | .ok ⟨none, next⟩ => pkg.carryOut ns (next ++ rest)
      | .ok ⟨some item, next⟩ =>
        match pkg.insert item.file item.entry with
        | .error error => (.error error, pkg)
        | .ok (false, _) => pkg.carryOut ns rest
        | .ok (true, pkg') => pkg'.carryOut ns (next ++ rest) := by
  rw [carryOut]
  split
  · rename_i planned
    rw [planned]
  · rename_i plan planned
    rw [planned]
    obtain ⟨head, next⟩ := plan
    split
    · rename_i none
      cases none
      rfl
    · rename_i item some
      cases some
      dsimp only
      split
      · rename_i inserted
        rw [inserted]
      · rename_i inserted
        rw [inserted]
      · rename_i inserted
        rw [inserted]

section Cons

variable {ns : Namespace} {pkg pkg' : Package} {task : Task} {plan : Plan} {item : Placed}

theorem carryOut_unplanned {error : Error} (planned : task.plan ns = .error error) (rest : List Task) :
    pkg.carryOut ns (task :: rest) = (.error error, pkg) := by
  rw [carryOut_cons, planned]

theorem carryOut_passed (planned : task.plan ns = .ok plan) (head : plan.head = none)
    (rest : List Task) : pkg.carryOut ns (task :: rest) = pkg.carryOut ns (plan.next ++ rest) := by
  obtain ⟨_, next⟩ := plan
  cases head
  rw [carryOut_cons, planned]

theorem carryOut_refused {error : Error} (planned : task.plan ns = .ok plan)
    (head : plan.head = some item) (inserted : pkg.insert item.file item.entry = .error error)
    (rest : List Task) : pkg.carryOut ns (task :: rest) = (.error error, pkg) := by
  obtain ⟨_, next⟩ := plan
  cases head
  rw [carryOut_cons, planned]
  simp only [inserted]

theorem carryOut_again (planned : task.plan ns = .ok plan) (head : plan.head = some item)
    (inserted : pkg.insert item.file item.entry = .ok (false, pkg')) (rest : List Task) :
    pkg.carryOut ns (task :: rest) = pkg.carryOut ns rest := by
  obtain ⟨_, next⟩ := plan
  cases head
  rw [carryOut_cons, planned]
  simp only [inserted]

theorem carryOut_entered (planned : task.plan ns = .ok plan) (head : plan.head = some item)
    (inserted : pkg.insert item.file item.entry = .ok (true, pkg')) (rest : List Task) :
    pkg.carryOut ns (task :: rest) = pkg'.carryOut ns (plan.next ++ rest) := by
  obtain ⟨_, next⟩ := plan
  cases head
  rw [carryOut_cons, planned]
  simp only [inserted]

end Cons

theorem carryOut_of_rehearse {ns : Namespace} {n : Nat} {done : List Snippet} {pkg pkg' : Package}
    {tasks : List Task} (held : ∀ snippet ∈ done, pkg.Holds ⟨codecFile, snippet.entry⟩)
    (h : rehearse ns n done pkg tasks = some pkg') : pkg.carryOut ns tasks = (.ok (), pkg') := by
  fun_induction rehearse ns n done pkg tasks with
  | case1 n done pkg =>
    cases h
    rw [carryOut]
  | case2 | case4 | case6 | case8 => cases h
  | case3 n done pkg snippet rest mem ih =>
    rw [carryOut_cons]
    simp only [Task.plan, Snippet.plan, insert_of_holds (held snippet mem)]
    exact ih held h
  | case5 n done pkg snippet rest mem free ih =>
    have unset : pkg.get? codecFile snippet.entry.key = none := by
      simpa [has] using free
    let item : Placed := ⟨codecFile, snippet.entry⟩
    rw [carryOut_cons]
    simp only [Task.plan, Snippet.plan, insert_of_free unset]
    have added (other : Placed) : (pkg.put codecFile snippet.entry).Holds other ↔
        other = item ∨ pkg.Holds other :=
      holds_put (show pkg.get? item.file item.entry.key = none from unset)
    refine ih ?_ h
    intro other listed
    rcases List.mem_cons.mp listed with rfl | listed
    · exact (added _).mpr (Or.inl rfl)
    · exact (added _).mpr (Or.inr (held other listed))
  | case7 n done pkg task rest _ next planned ih =>
    rw [carryOut_cons, planned]
    exact ih held h
  | case9 n done pkg task rest _ item next planned other inserted ih =>
    rw [carryOut_cons, planned]
    simp only [inserted]
    exact ih held h
  | case10 n done pkg task rest _ item next planned pkg' inserted ih =>
    rw [carryOut_cons, planned]
    simp only [inserted]
    obtain ⟨unset, rfl⟩ := insert_eq_new inserted
    exact ih (fun other listed => (holds_put unset).mpr (Or.inr (held other listed))) h

end Package

end AvroCompiler

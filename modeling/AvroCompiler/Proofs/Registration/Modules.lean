import AvroCompiler.Proofs.Registration.Exports

namespace AvroCompiler

theorem moduleName_moduleName (name : String) : moduleName (moduleName name) = moduleName name :=
  moduleName_of_inSnakeCase (inSnakeCase_moduleName name) (moduleName_not_bare name)

theorem eq_moduleName_iff (name : String) : (∃ other, name = moduleName other) ↔ name = moduleName name := by
  constructor
  · rintro ⟨other, rfl⟩
    exact (moduleName_moduleName other).symm
  · intro own
    exact ⟨name, own⟩

variable {ns : Namespace}

section Generated

variable {pkg : Package} {package : String} (accepted : ns.Accepted) (generated : generate ns package = .ok pkg)

include accepted generated

theorem apart_of_generate {item : Placed} (held : pkg.Holds item) : item.Apart := by
  have run := carryOut_of_generate generated
  have held' : (Package.carryOut ns ⟨package, ∅⟩ ns.tasks).2.Holds item := by
    rw [run]
    exact held
  rcases Package.carryOut_adds _ _ (fun _ => .start) held' with old | ⟨task, next, reached, enters⟩
  · exact absurd old (Package.not_holds_empty package item)
  · exact Task.apart_of_enters accepted reached enters

theorem inSnakeCase_of_mem_modules {m : String} (mem : m ∈ pkg.modules) : InSnakeCase m := by
  obtain ⟨file, listed, rfl⟩ := List.mem_map.mp mem
  have files := Package.carryOut_files (P := fun file => InSnakeCase (moduleOfFile file))
    (fun reached enters => (Task.apart_of_enters accepted reached enters).1) ⟨package, ∅⟩ ns.tasks
    (fun _ => .start) nofun
  rw [carryOut_of_generate generated] at files
  exact files file listed

/-- No module has the name of a declared type, as a plain or as a raw identifier. -/
theorem module_ne_type {file name text m : String} (held : pkg.Holds ⟨file, .type name text⟩)
    (mem : m ∈ pkg.modules) : m ≠ name ∧ m ≠ "r#" ++ name := by
  have other : ¬InSnakeCase name := (apart_of_generate accepted generated held).2 name text rfl
  have settled := inSnakeCase_of_mem_modules accepted generated mem
  constructor
  · rintro rfl
    exact other settled
  · rintro rfl
    exact other settled.of_append

end Generated

/-- Snake case is idempotent, and a name can share its spelling with no module but its own. So an accepted name
is the module of no accepted name, of no union and not that of the codec. Documents leave accepted names only,
and in the package of any types with accepted names no type that is declared is named like a module of the
index. -/
theorem types_and_modules_share_no_name :
    (∀ text, snakeCase (snakeCase text) = snakeCase text) ∧
    (∀ name, (∃ other, name = moduleName other) ↔ name = moduleName name) ∧
    (∀ name, checkTypeName name = .ok () →
      (∀ other, checkTypeName other = .ok () → name ≠ moduleName other) ∧
      (∀ branches, name ≠ moduleName (Shape.union branches).canonicalName) ∧
      name ≠ moduleOfFile codecFile) ∧
    (∀ texts ns, (readDocuments texts).runFrom .empty = (.ok (), ns) → ns.Accepted) ∧
    ∀ (ns : Namespace) (package : String) (pkg : Package), ns.Accepted → generate ns package = .ok pkg →
      ∀ file name text, pkg.Holds ⟨file, .type name text⟩ →
        ∀ m ∈ pkg.modules, m ≠ name ∧ m ≠ "r#" ++ name := by
  refine ⟨snakeCase_snakeCase, eq_moduleName_iff, fun name accepted => ?_,
    fun texts ns read => (closed_of_readDocuments read).accepted, ?_⟩
  · have other : ¬InSnakeCase name := ((checkTypeName_eq_ok_iff name).mp accepted).not_inSnakeCase
    refine ⟨fun other' _ => ?_, fun branches => ?_, ?_⟩
    · rintro rfl
      exact other (inSnakeCase_moduleName other')
    · rintro rfl
      exact other (inSnakeCase_moduleName _)
    · rintro rfl
      exact other (inSnakeCase_moduleOfFile inSnakeCase_codecFile)
  · intro ns package pkg accepted generated file name text held m mem
    exact module_ne_type accepted generated held mem

def blankNamespace : Namespace where
  types := (∅ : Keyed String NamedType).insert "md 5" (.fixed ⟨"md 5", 16⟩)

theorem blankNamespace_accepted : blankNamespace.Accepted where
  stored {name type} found := by
    have listed := Keyed.get?_eq_some_iff_mem.mp found
    cases List.mem_singleton.mp listed
    exact ⟨rfl, by decide +kernel⟩
  used := by
    rintro type ⟨name, record, found, -⟩
    have listed := Keyed.get?_eq_some_iff_mem.mp found
    cases List.mem_singleton.mp listed

theorem blank_type_shares_no_name :
    checkTypeName "md 5" = .ok () ∧ ∃ pkg, generate blankNamespace "avro" = .ok pkg ∧
      pkg.Holds ⟨"md_5.rs", .type "md 5" (Fixed.declaration ⟨"md 5", 16⟩)⟩ ∧
      pkg.modules = ["md_5", "primitive"] ∧ "md 5" ∉ pkg.modules := by
  have made : (Package.rehearse blankNamespace 50 [] ⟨"avro", ∅⟩ blankNamespace.tasks).map
      (fun pkg => decide (pkg.get? "md_5.rs" (.type "md 5") =
        some (.type "md 5" (Fixed.declaration ⟨"md 5", 16⟩)) ∧ pkg.modules = ["md_5", "primitive"])) =
          some true := by
    decide +kernel
  obtain ⟨pkg, rehearsed, shown⟩ := Option.map_eq_some_iff.mp made
  obtain ⟨held, modules⟩ := of_decide_eq_true shown
  have generated := generate_of_rehearse rehearsed
  obtain ⟨-, -, -, -, apart⟩ := types_and_modules_share_no_name
  exact ⟨by decide +kernel, pkg, generated, held, modules, fun listed =>
    (apart _ _ pkg blankNamespace_accepted generated _ _ _ held _ listed).1 rfl⟩

end AvroCompiler

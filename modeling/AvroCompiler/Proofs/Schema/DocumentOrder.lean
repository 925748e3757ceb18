import AvroCompiler.Generation
import AvroCompiler.Proofs.Keyed
import AvroCompiler.Proofs.Registration.Exports
import AvroCompiler.Proofs.Schema.Meaning

namespace AvroCompiler

section Permuted

variable {texts others : List String} {ns ns' : Namespace}

/-- What is stored under a name in one order is of the same shape in the other: which documents define
a name, and as what kind of type, is seen before any reference is resolved. -/
theorem exists_sameShape (perm : texts.Perm others)
    (read : (readDocuments texts).runFrom .empty = (.ok (), ns))
    (read' : (readDocuments others).runFrom .empty = (.ok (), ns')) {name : String} {type : NamedType}
    (stored : ns.get? name = some type) :
    ∃ type', ns'.get? name = some type' ∧ type'.shape = type.shape := by
  obtain ⟨mem, named⟩ := (get?_eq_some_iff_of_readDocuments read name type).mp stored
  obtain ⟨text, listed, mem⟩ := List.mem_flatMap.mp mem
  have shape : type.shape ∈ (textDefinitions ns'.referent text).map NamedType.shape := by
    rw [textDefinitions_outline ns'.referent ns.referent]
    exact List.mem_map_of_mem mem
  obtain ⟨type', mem', same⟩ := List.mem_map.mp shape
  have named' : type'.name = name := by
    rw [← type'.shape_canonicalName, same, type.shape_canonicalName, named]
  refine ⟨type', ?_, same⟩
  rw [get?_eq_some_iff_of_readDocuments read']
  exact ⟨List.mem_flatMap.mpr ⟨text, perm.mem_iff.mp listed, mem'⟩, named'⟩

theorem referent_eq_of_perm (perm : texts.Perm others)
    (read : (readDocuments texts).runFrom .empty = (.ok (), ns))
    (read' : (readDocuments others).runFrom .empty = (.ok (), ns')) : ns.referent = ns'.referent := by
  funext name
  cases stored : ns.get? name with
  | some type =>
    obtain ⟨type', stored', same⟩ := exists_sameShape perm read read' stored
    simp only [Namespace.referent, stored, stored', same]
  | none =>
    have stored' : ns'.get? name = none := by
      refine Option.eq_none_iff_forall_ne_some.mpr fun type' found => ?_
      obtain ⟨type, found', _⟩ := exists_sameShape perm.symm read' read found
      rw [stored] at found'
      cases found'
    simp only [Namespace.referent, stored, stored']

theorem types_eq_of_perm (perm : texts.Perm others)
    (read : (readDocuments texts).runFrom .empty = (.ok (), ns))
    (read' : (readDocuments others).runFrom .empty = (.ok (), ns')) : ns.types = ns'.types := by
  refine Keyed.ext_get? fun name => Option.ext fun type => ?_
  have stored := get?_eq_some_iff_of_readDocuments read name type
  have stored' := get?_eq_some_iff_of_readDocuments read' name type
  rw [← referent_eq_of_perm perm read read'] at stored'
  have sameTypes := (perm.flatMap_right (textDefinitions ns.referent)).mem_iff (a := type)
  exact stored.trans ((and_congr_left fun _ => sameTypes).trans stored'.symm)

end Permuted

section SameTypes

variable {ns ns' : Namespace}

theorem Task.plan_eq_of_types (same : ns.types = ns'.types) (task : Task) :
    task.plan ns = task.plan ns' := by
  have record : ns.record = ns'.record := by
    funext name
    simp only [Namespace.record, Namespace.record?, Namespace.get?, same]
  cases task with
  | declare shape =>
    cases shape with
    | record name => simp only [Task.plan, Shape.declarePlan, record]
    | primitive | fixed | enumeration | array | map | union => rfl
  | serializeNamed name => simp only [Task.plan, record]
  | deserializeNamed name => simp only [Task.plan, record]
  | enter | snippet | write | read | declareRecord | serializeRecord | deserializeRecord => rfl

theorem Package.carryOut_eq_of_plan (same : ∀ task : Task, task.plan ns = task.plan ns') (pkg : Package)
    (tasks : List Task) : pkg.carryOut ns tasks = pkg.carryOut ns' tasks := by
  fun_induction carryOut ns pkg tasks with
  | case1 pkg => rw [carryOut]
  | case2 pkg task rest error planned =>
    exact (carryOut_unplanned ((same task).symm.trans planned) rest).symm
  | case3 pkg task rest plan planned head ih =>
    exact ih.trans (carryOut_passed ((same task).symm.trans planned) head rest).symm
  | case4 pkg task rest plan planned item head error inserted =>
    exact (carryOut_refused ((same task).symm.trans planned) head inserted rest).symm
  | case5 pkg task rest plan planned item head other inserted ih =>
    exact ih.trans (carryOut_again ((same task).symm.trans planned) head inserted rest).symm
  | case6 pkg task rest plan planned item head pkg' inserted ih =>
    exact ih.trans (carryOut_entered ((same task).symm.trans planned) head inserted rest).symm

theorem generate_eq_of_types (same : ns.types = ns'.types) (package : String) :
    generate ns package = generate ns' package := by
  unfold generate
  rw [same, Package.carryOut_eq_of_plan (Task.plan_eq_of_types same)]

end SameTypes

/-- Documents that can be read in two orders leave the same types in both, and the same files or the
same error are generated. -/
theorem generateFiles_eq_of_perm {texts others : List String} {ns ns' : Namespace}
    (perm : texts.Perm others) (read : (readDocuments texts).runFrom .empty = (.ok (), ns))
    (read' : (readDocuments others).runFrom .empty = (.ok (), ns')) :
    ns.types = ns'.types ∧ ∀ package sources validate,
      generateFiles ns package sources validate = generateFiles ns' package sources validate := by
  have same := types_eq_of_perm perm read read'
  refine ⟨same, fun package sources validate => ?_⟩
  unfold generateFiles
  rw [generate_eq_of_types same]

def treeText : String :=
  "\x7b\"type\":\"record\",\"name\":\"Tree\",\"fields\":[" ++
    "\x7b\"name\":\"root\",\"type\":" ++ nodeText ++ "\x7d]\x7d"

def tree : Record where
  name := "Tree"
  fields := [⟨"root", .record "Node", none⟩]

def treeTypes : Keyed String NamedType :=
  nodeNamespace.types.insert "Tree" (.record tree)

def treeSchema : Schema :=
  .record "Tree" none (.cons "root" none nodeSchema .done)

theorem treeText_eq : treeText = treeSchema.text := by
  decide +kernel

theorem tree_declarable : Declarable "Tree" := by
  decide

theorem tree_made : Record.make "Tree" none tree.fields = .ok tree :=
  Record.make_of_declarable tree_declarable rfl

theorem nodeSchema_runs {ns opened ns' : Namespace} (declares : ns.declare "Node" = .ok opened)
    (refers : opened.resolve "Node" = .ok (.record "Node"))
    (defines : opened.define (.record node) = .ok ns') :
    nodeSchema.shape.runFrom ns = (.ok (.record "Node"), ns') := by
  have reference : (Schema.reference "Node").shape.runFrom opened = (.ok (.record "Node"), opened) :=
    congrArg (·, opened) refers
  have branches : (Schema.shapes [.primitive .null, .reference "Node"]).runFrom opened =
      (.ok [.null, .record "Node"], opened) :=
    Schema.run_shapes_cons rfl (Schema.run_shapes_cons reference rfl)
  exact Schema.run_record declares (Schema.run_fields_cons (Schema.run_union branches rfl) rfl)
    node_made defines

theorem treeText_runs {ns opened middle ns' : Namespace} (declares : ns.declare "Tree" = .ok opened)
    (inner : nodeSchema.shape.runFrom opened = (.ok (.record "Node"), middle))
    (defines : middle.define (.record tree) = .ok ns') :
    (readDocument treeText).runFrom ns = (.ok (), ns') := by
  rw [treeText_eq]
  exact readDocument_text (by decide) (by decide)
    (Schema.run_record declares (Schema.run_fields_cons inner rfl) tree_made defines)

def treeNamespace (declared : List String) : Namespace where
  types := treeTypes
  declared := declared

theorem treeNamespace_records (declared : List String) (name : String) (type : NamedType)
    (stored : (treeNamespace declared).get? name = some type) : type.isRecord = true := by
  have all : ∀ type ∈ treeTypes.values, type.isRecord = true := by decide
  exact all type (Namespace.mem_values_of_get? stored)

theorem nodeNamespace_records (name : String) (type : NamedType)
    (stored : nodeNamespace.get? name = some type) : type.isRecord = true := by
  cases node_stored stored
  rfl

theorem nodeSchema_runs_again (declared declared' : List String)
    (again : declared' = if "Node" ∈ declared then declared else "Node" :: declared) :
    nodeSchema.shape.runFrom (treeNamespace declared) =
      (.ok (.record "Node"), treeNamespace declared') := by
  have declares : (treeNamespace declared).declare "Node" = .ok (treeNamespace declared') := by
    refine declare_of_declarable node_declarable (treeNamespace_records _ _) ?_
    rw [again]
    by_cases listed : "Node" ∈ declared
    · rw [if_pos listed, if_pos (show "Node" ∈ (treeNamespace declared).declared from listed)]
    · rw [if_neg listed, if_neg (show "Node" ∉ (treeNamespace declared).declared from listed)]
      rfl
  exact nodeSchema_runs declares rfl rfl

theorem tree_first_reads : (readDocuments [treeText, treeText, nodeText]).runFrom .empty =
    (.ok (), treeNamespace ["Node", "Tree"]) := by
  have first : (readDocument treeText).runFrom .empty = (.ok (), treeNamespace []) :=
    treeText_runs (declare_of_declarable tree_declarable nofun rfl)
      (nodeSchema_runs (declare_of_declarable node_declarable nofun rfl) rfl rfl) rfl
  have second : (readDocument treeText).runFrom (treeNamespace []) =
      (.ok (), treeNamespace ["Node", "Tree"]) :=
    treeText_runs (declare_of_declarable tree_declarable (treeNamespace_records _ _) rfl)
      (nodeSchema_runs_again ["Tree"] _ rfl) rfl
  have third : (readDocument nodeText).runFrom (treeNamespace ["Node", "Tree"]) =
      (.ok (), treeNamespace ["Node", "Tree"]) :=
    nodeText_runs (nodeSchema_runs_again _ _ rfl)
  exact readDocuments_cons first (readDocuments_cons second (readDocuments_cons third rfl))

theorem node_first_reads : (readDocuments [nodeText, treeText, treeText]).runFrom .empty =
    (.ok (), treeNamespace ["Tree", "Node"]) := by
  have first : (readDocument nodeText).runFrom .empty = (.ok (), nodeNamespace) :=
    nodeText_runs (nodeSchema_runs (declare_of_declarable node_declarable nofun rfl) rfl rfl)
  have second : (readDocument treeText).runFrom nodeNamespace = (.ok (), treeNamespace ["Node"]) :=
    treeText_runs (declare_of_declarable tree_declarable (nodeNamespace_records _) rfl)
      (nodeSchema_runs (declare_of_declarable node_declarable (nodeNamespace_records _) rfl) rfl rfl) rfl
  have third : (readDocument treeText).runFrom (treeNamespace ["Node"]) =
      (.ok (), treeNamespace ["Tree", "Node"]) :=
    treeText_runs (declare_of_declarable tree_declarable (treeNamespace_records _ _) rfl)
      (nodeSchema_runs_again ["Tree", "Node"] _ rfl) rfl
  exact readDocuments_cons first (readDocuments_cons second (readDocuments_cons third rfl))

theorem tree_order_does_not_matter :
    [treeText, treeText, nodeText].Perm [nodeText, treeText, treeText] ∧
      (readDocuments [treeText, treeText, nodeText]).runFrom .empty =
        (.ok (), treeNamespace ["Node", "Tree"]) ∧
      (readDocuments [nodeText, treeText, treeText]).runFrom .empty =
        (.ok (), treeNamespace ["Tree", "Node"]) ∧
      ∀ validate, generateFiles (treeNamespace ["Node", "Tree"]) "avro" ["a.avsc"] validate =
        generateFiles (treeNamespace ["Tree", "Node"]) "avro" ["a.avsc"] validate := by
  have perm : [treeText, treeText, nodeText].Perm [nodeText, treeText, treeText] :=
    show ([treeText, treeText] ++ [nodeText]).Perm ([nodeText] ++ [treeText, treeText]) from
      List.perm_append_comm
  refine ⟨perm, tree_first_reads, node_first_reads, fun validate => ?_⟩
  exact (generateFiles_eq_of_perm perm tree_first_reads node_first_reads).2 "avro" ["a.avsc"] validate

end AvroCompiler

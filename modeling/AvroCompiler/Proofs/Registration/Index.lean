import AvroCompiler.Proofs.Registration.Separation
import AvroCompiler.Proofs.Text.Lines
import Mathlib.Data.List.Count
import Mathlib.Data.List.Nodup
import Mathlib.Data.String.Basic

namespace AvroCompiler

def moduleLine (m : String) : String := "pub mod " ++ m ++ ";"

def exportLine (m : String) : String := "pub use self::" ++ m ++ "::*;"

/-- The index has one line that declares the module, and one that exports it. -/
def ListsOnce (index m : String) : Prop :=
  (textLines index).count (moduleLine m) = 1 ∧ (textLines index).count (exportLine m) = 1

def indexHeading (package : String) (sources : List String) : List String :=
  [provenance sources, s!"//! Package `{package}`."].flatMap fun text => textLines text ++ [""]

theorem textLines_joinSections {sections : List String} (some : sections ≠ []) :
    textLines (joinSections sections) = sections.flatMap fun text => textLines text ++ [""] := by
  have empty : textLines "" = [""] := textLines_of_plain (by decide)
  unfold joinSections
  induction sections with
  | nil => exact absurd rfl some
  | cons text rest ih =>
    cases rest with
    | nil =>
      have split : "\n\n".intercalate [text] ++ "\n" = text ++ "\n" ++ "" := by simp
      rw [split, textLines_append, empty]
      simp
    | cons next rest =>
      -- The empty line between two sections is counted to the first of them.
      have split : "\n\n".intercalate (text :: next :: rest) ++ "\n" =
          text ++ "\n" ++ ("" ++ "\n" ++ ("\n\n".intercalate (next :: rest) ++ "\n")) := by
        have twice : "\n\n" = "\n" ++ "\n" := by decide
        rw [String.intercalate_cons_cons, twice]
        simp only [String.append_assoc, String.empty_append]
      rw [split, textLines_append, textLines_append, ih (List.cons_ne_nil _ _), empty]
      simp only [List.flatMap_cons, List.append_assoc]

def spaced (lines : List String) : List String :=
  if lines = [] then [] else lines ++ [""]

theorem flatMap_linesSection {lines : List String} (plain : ∀ line ∈ lines, '\n' ∉ line.toList) :
    ((linesSection lines).flatMap fun text => textLines text ++ [""]) = spaced lines := by
  unfold linesSection spaced
  split
  · rfl
  · rename_i some
    rw [List.flatMap_singleton, textLines_joinLines some, flatMap_textLines_of_plain plain]

theorem count_spaced {lines : List String} {line : String} (full : line ≠ "") :
    (spaced lines).count line = lines.count line := by
  unfold spaced
  split
  · rename_i empty
    rw [empty]
  · rw [List.count_append, List.count_singleton, beq_eq_false_iff_ne.mpr (Ne.symm full)]
    simp

theorem not_mem_enclosed {c : Char} {before m after : String} (left : c ∉ before.toList)
    (inner : c ∉ m.toList) (right : c ∉ after.toList) : c ∉ (before ++ m ++ after).toList := by
  simp only [String.toList_append, List.mem_append, not_or]
  exact ⟨⟨left, inner⟩, right⟩

theorem moduleLine_injective : Function.Injective moduleLine := fun _ _ eq =>
  (String.append_right_inj _).mp ((String.append_left_inj _).mp eq)

theorem exportLine_injective : Function.Injective exportLine := fun _ _ eq =>
  (String.append_right_inj _).mp ((String.append_left_inj _).mp eq)

theorem moduleLine_ne_exportLine (m other : String) : moduleLine m ≠ exportLine other := by
  have declares : "pub mod ".toList <+: (moduleLine m).toList := prefix_append (prefix_append List.prefix_rfl)
  have exports : "pub use ".toList <+: (exportLine other).toList :=
    prefix_append (prefix_append (by decide))
  exact ne_of_marks declares exports (by decide) (by decide)

theorem head_enclosed {c : Char} {before : String} (head : before.toList.head? = some c) (m after : String) :
    (before ++ m ++ after).toList.head? = some c := by
  rw [String.toList_append, String.toList_append, List.head?_append, List.head?_append, head]
  rfl

theorem head_moduleLine (m : String) : (moduleLine m).toList.head? = some 'p' :=
  head_enclosed (by decide) m ";"

theorem head_exportLine (m : String) : (exportLine m).toList.head? = some 'p' :=
  head_enclosed (by decide) m "::*;"

theorem count_lines {line other : String → String} (injective : Function.Injective line)
    (apart : ∀ m m', line m ≠ other m') (modules : List String) (m : String) :
    (modules.map line).count (line m) = modules.count m ∧ (modules.map other).count (line m) = 0 := by
  refine ⟨List.count_map_of_injective modules line injective m, List.count_eq_zero.mpr fun mem => ?_⟩
  obtain ⟨m', _, eq⟩ := List.mem_map.mp mem
  exact apart m m' eq.symm

theorem not_mem_intercalate {c : Char} {separator : String} {texts : List String}
    (apart : c ∉ separator.toList) (free : ∀ text ∈ texts, c ∉ text.toList) :
    c ∉ (separator.intercalate texts).toList := by
  induction texts with
  | nil => simp
  | cons text rest ih =>
    obtain ⟨first, others⟩ := List.forall_mem_cons.mp free
    cases rest with
    | nil => simpa using first
    | cons next rest =>
      rw [String.intercalate_cons_cons]
      simp only [String.toList_append, List.mem_append, not_or]
      exact ⟨⟨first, apart⟩, ih others⟩

theorem textLines_provenance {sources : List String} (plain : ∀ text ∈ sources, '\n' ∉ text.toList) :
    textLines (provenance sources) = "// Code generated by avrogen. DO NOT EDIT." ::
      if sources = [] then [] else ["// Source: " ++ " ".intercalate sources] := by
  have code : textLines "// Code generated by avrogen. DO NOT EDIT." =
      ["// Code generated by avrogen. DO NOT EDIT."] := textLines_of_plain (by decide)
  unfold provenance
  split
  · rw [String.append_empty, code]
  · have names : '\n' ∉ ("// Source: " ++ " ".intercalate sources).toList := by
      rw [String.toList_append, List.mem_append, not_or]
      exact ⟨by decide, not_mem_intercalate (by decide) plain⟩
    have split : "\n// Source: " = "\n" ++ "// Source: " := by decide
    rw [split, String.append_assoc, ← String.append_assoc, textLines_append, code, textLines_of_plain names]
    rfl

theorem heading_of_plain {package : String} {sources : List String}
    (plain : ∀ text ∈ package :: sources, '\n' ∉ text.toList) :
    ∀ line ∈ indexHeading package sources, line.toList.head? ≠ some 'p' := by
  obtain ⟨named, listed⟩ := List.forall_mem_cons.mp plain
  have title : '\n' ∉ (s!"//! Package `{package}`.").toList := not_mem_enclosed (by decide) named (by decide)
  intro line mem
  rw [indexHeading, List.flatMap_cons, List.flatMap_singleton, textLines_provenance listed,
    textLines_of_plain title] at mem
  simp only [List.cons_append, List.nil_append, List.mem_cons, List.mem_append, List.not_mem_nil,
    or_false] at mem
  rcases mem with rfl | (mem | rfl) | rfl | rfl
  · decide
  · split at mem
    · cases mem
    · cases List.mem_singleton.mp mem
      simp
  · decide
  · simp
  · decide

/-- Neither line of the module is in the heading. -/
def Spares (heading : List String) (m : String) : Prop :=
  moduleLine m ∉ heading ∧ exportLine m ∉ heading

theorem spares_of_plain {package : String} {sources : List String}
    (plain : ∀ text ∈ package :: sources, '\n' ∉ text.toList) (m : String) :
    Spares (indexHeading package sources) m :=
  ⟨fun mem => heading_of_plain plain _ mem (head_moduleLine m),
    fun mem => heading_of_plain plain _ mem (head_exportLine m)⟩

namespace Package

variable {pkg : Package} {sources : List String}

theorem textLines_renderIndex (plain : ∀ m ∈ pkg.modules, '\n' ∉ m.toList) :
    textLines (pkg.renderIndex sources) = indexHeading pkg.name sources ++
      (spaced (pkg.modules.map moduleLine) ++ spaced (pkg.modules.map exportLine)) := by
  have declares : ∀ line ∈ pkg.modules.map moduleLine, '\n' ∉ line.toList :=
    List.forall_mem_map.mpr fun m mem => not_mem_enclosed (by decide) (plain m mem) (by decide)
  have exports : ∀ line ∈ pkg.modules.map exportLine, '\n' ∉ line.toList :=
    List.forall_mem_map.mpr fun m mem => not_mem_enclosed (by decide) (plain m mem) (by decide)
  have shown : pkg.renderIndex sources = joinSections
      ([provenance sources, s!"//! Package `{pkg.name}`."] ++ linesSection (pkg.modules.map moduleLine) ++
        linesSection (pkg.modules.map exportLine)) := rfl
  rw [shown, textLines_joinSections (by simp), List.flatMap_append, List.flatMap_append,
    flatMap_linesSection declares, flatMap_linesSection exports, List.append_assoc]
  rfl

theorem count_renderIndex (plain : ∀ m ∈ pkg.modules, '\n' ∉ m.toList) (m : String) :
    (textLines (pkg.renderIndex sources)).count (moduleLine m) =
        (indexHeading pkg.name sources).count (moduleLine m) + pkg.modules.count m ∧
      (textLines (pkg.renderIndex sources)).count (exportLine m) =
        (indexHeading pkg.name sources).count (exportLine m) + pkg.modules.count m := by
  have full {line : String} (head : line.toList.head? = some 'p') : line ≠ "" := by
    rintro rfl
    simp at head
  obtain ⟨declared, apart⟩ := count_lines moduleLine_injective moduleLine_ne_exportLine pkg.modules m
  obtain ⟨exported, apart'⟩ := count_lines exportLine_injective
    (fun m m' => (moduleLine_ne_exportLine m' m).symm) pkg.modules m
  have first := full (head_moduleLine m)
  have second := full (head_exportLine m)
  rw [textLines_renderIndex plain]
  constructor
  · rw [List.count_append, List.count_append, count_spaced first, count_spaced first, declared, apart,
      Nat.add_zero]
  · rw [List.count_append, List.count_append, count_spaced second, count_spaced second, exported, apart',
      Nat.zero_add]

def fileNames (pkg : Package) (sources : List String) : List String :=
  (pkg.render sources).map RenderedFile.name

def others (pkg : Package) (sources : List String) : List String :=
  (pkg.fileNames sources).filter (· ≠ indexFile)

theorem index_mem_render (pkg : Package) (sources : List String) :
    ⟨indexFile, pkg.renderIndex sources⟩ ∈ pkg.render sources := by
  simp [render]

theorem fileNames_eq (pkg : Package) (sources : List String) :
    pkg.fileNames sources = pkg.files.keys.filter (· ≤ indexFile) ++
      indexFile :: pkg.files.keys.filter (indexFile < ·) := by
  simp only [fileNames, render, Keyed.keys, List.map_append, List.filter_map, List.map_map,
    List.append_assoc]
  rfl

theorem mem_others (apart : indexFile ∉ pkg.files.keys) {file : String} :
    file ∈ pkg.others sources ↔ file ∈ pkg.files.keys := by
  rw [others, List.mem_filter, fileNames_eq, List.mem_append, List.mem_cons, List.mem_filter,
    List.mem_filter, decide_eq_true_iff, decide_eq_true_iff, decide_eq_true_iff]
  constructor
  · rintro ⟨⟨mem, -⟩ | rfl | ⟨mem, -⟩, ne⟩
    · exact mem
    · exact absurd rfl ne
    · exact mem
  · intro mem
    refine ⟨?_, fun eq => apart (eq ▸ mem)⟩
    by_cases le : file ≤ indexFile
    · exact .inl ⟨mem, le⟩
    · exact .inr (.inr ⟨mem, String.not_le.mp le⟩)

theorem fileNames_increasing (sources : List String) (apart : indexFile ∉ pkg.files.keys) :
    (pkg.fileNames sources).Pairwise (· < ·) := by
  have keys : pkg.files.keys.Pairwise (· < ·) := List.pairwise_map.mpr pkg.files.increasing
  have before {file : String} (mem : file ∈ pkg.files.keys.filter (· ≤ indexFile)) : file < indexFile := by
    obtain ⟨mem, le⟩ := List.mem_filter.mp mem
    exact lt_of_le_of_ne (of_decide_eq_true le) fun eq => apart (eq ▸ mem)
  rw [fileNames_eq]
  refine List.pairwise_append.mpr ⟨keys.filter _, List.pairwise_cons.mpr ⟨?_, keys.filter _⟩, ?_⟩
  · exact fun file mem => of_decide_eq_true (List.mem_filter.mp mem).2
  · intro file mem other mem'
    rcases List.mem_cons.mp mem' with rfl | mem'
    · exact before mem
    · exact String.lt_trans (before mem) (of_decide_eq_true (List.mem_filter.mp mem').2)

theorem name_carryOut (ns : Namespace) (pkg : Package) (tasks : List Task) :
    (pkg.carryOut ns tasks).2.name = pkg.name := by
  fun_induction carryOut ns pkg tasks with
  | case1 | case2 | case4 => rfl
  | case3 pkg task rest plan planned head ih => exact ih
  | case5 pkg task rest plan planned item head other inserted ih => exact ih
  | case6 pkg task rest plan planned item head pkg' inserted ih =>
    obtain ⟨free, rfl⟩ := insert_eq_new inserted
    exact ih

end Package

section Generated

variable {ns : Namespace} {pkg : Package} {package : String} (closed : ns.Closed)
  (generated : generate ns package = .ok pkg)

theorem name_of_generate (generated : generate ns package = .ok pkg) : pkg.name = package := by
  have name := Package.name_carryOut ns ⟨package, ∅⟩ ns.tasks
  rw [carryOut_of_generate generated] at name
  exact name

include closed

theorem Namespace.Emits.file_ne_indexFile {item : Placed} {next : List Task} (h : ns.Emits item next)
    (made : item.Made) : item.file ≠ indexFile := by
  have typed (type : NamedType) (stored : ns.get? type.name = some type) :
      fileName type.name ≠ indexFile := (closed.named stored).2.fileName_ne_indexFile
  cases h with
  | use file path => exact absurd rfl (made path)
  | snippet | write | read => exact (by decide : codecFile ≠ indexFile)
  | fixed stored | size stored | conversion stored => exact typed (.fixed _) stored
  | enumeration stored | ordinal stored | symbol stored => exact typed (.enumeration _) stored
  | record stored | serialize stored | deserialize stored => exact typed (.record _) stored
  | union occurs named | branch occurs named =>
    subst named
    exact fileName_union_ne_indexFile _

include generated

theorem indexFile_not_mem_keys : indexFile ∉ pkg.files.keys := by
  intro mem
  exact files_of_generate (P := (· ≠ indexFile)) closed generated
    (fun emits made => emits.file_ne_indexFile closed made) mem rfl

theorem lineEnd_not_mem_modules : ∀ m ∈ pkg.modules, '\n' ∉ m.toList := by
  intro m mem
  obtain ⟨file, listed, rfl⟩ := List.mem_map.mp mem
  obtain ⟨name, word, rfl⟩ := isModuleFile_of_generate closed generated listed
  have plain : '\n' ∉ (moduleName name).toList := fun held =>
    absurd (isWord_moduleName word '\n' held) (by decide)
  rw [moduleOfFile_fileName word, escapeKeyword]
  split
  · simp [plain]
  · split
    · simp [plain]
    · exact plain

theorem modules_nodup : pkg.modules.Nodup := by
  have keys : pkg.files.keys.Nodup := pkg.files.increasing.keys_nodup
  refine keys.map_on fun file mem other mem' same => ?_
  exact (isModuleFile_of_generate closed generated mem).eq_of_module
    (isModuleFile_of_generate closed generated mem') same

theorem count_modules (sources : List String) (m : String) :
    pkg.modules.count m = if m ∈ (pkg.others sources).map moduleOfFile then 1 else 0 := by
  have same : m ∈ (pkg.others sources).map moduleOfFile ↔ m ∈ pkg.modules := by
    simp only [Package.modules, List.mem_map,
      Package.mem_others (indexFile_not_mem_keys closed generated)]
  rw [(modules_nodup closed generated).count]
  simp only [same]

/-- What the index lists: the module of each other file once, besides what its heading brings. -/
theorem count_index (sources : List String) (m : String) :
    (textLines (pkg.renderIndex sources)).count (moduleLine m) =
        (indexHeading package sources).count (moduleLine m) +
          (if m ∈ (pkg.others sources).map moduleOfFile then 1 else 0) ∧
      (textLines (pkg.renderIndex sources)).count (exportLine m) =
        (indexHeading package sources).count (exportLine m) +
          if m ∈ (pkg.others sources).map moduleOfFile then 1 else 0 := by
  rw [← count_modules closed generated, ← name_of_generate generated]
  exact Package.count_renderIndex (lineEnd_not_mem_modules closed generated) m

theorem listsOnce_iff (sources : List String) {m : String}
    (mem : m ∈ (pkg.others sources).map moduleOfFile) :
    ListsOnce (pkg.renderIndex sources) m ↔ Spares (indexHeading package sources) m := by
  obtain ⟨declared, exported⟩ := count_index closed generated sources m
  rw [ListsOnce, Spares, declared, exported, if_pos mem, ← List.count_eq_zero, ← List.count_eq_zero]
  omega

end Generated

/-- The files of a generated package are in the order of their names, with the index once among them. Each
other file is named after its module, no two after the same one, and the index declares and exports these
modules and no others, each of them once, besides the lines that its heading brings. The heading brings
none where the package and the sources have plain names. -/
theorem index_lists_every_file {texts : List String} {ns : Namespace} {package : String} {pkg : Package}
    (read : (readDocuments texts).runFrom .empty = (.ok (), ns))
    (generated : generate ns package = .ok pkg) (sources : List String) :
    (pkg.fileNames sources).Pairwise (· < ·) ∧ (pkg.fileNames sources).count indexFile = 1 ∧
    (∀ file ∈ pkg.others sources,
      ∃ stem, file = stem ++ ".rs" ∧ moduleOfFile file = escapeKeyword stem) ∧
    (∀ file ∈ pkg.others sources, ∀ other ∈ pkg.others sources,
      moduleOfFile file = moduleOfFile other → file = other) ∧
    ∃ index, ⟨indexFile, index⟩ ∈ pkg.render sources ∧
      (∀ m,
        (textLines index).count (moduleLine m) =
            (indexHeading package sources).count (moduleLine m) +
              (if m ∈ (pkg.others sources).map moduleOfFile then 1 else 0) ∧
          (textLines index).count (exportLine m) =
            (indexHeading package sources).count (exportLine m) +
              if m ∈ (pkg.others sources).map moduleOfFile then 1 else 0) ∧
      (∀ m ∈ (pkg.others sources).map moduleOfFile,
        ListsOnce index m ↔ Spares (indexHeading package sources) m) ∧
      ((∀ text ∈ package :: sources, '\n' ∉ text.toList) →
        ∀ m, Spares (indexHeading package sources) m) := by
  have closed := closed_of_readDocuments read
  -- No entry is made in a file of the index's name, so that the index stands between other names.
  have apart := indexFile_not_mem_keys closed generated
  have increasing := Package.fileNames_increasing sources apart
  have named (file : String) (mem : file ∈ pkg.others sources) : IsModuleFile file :=
    isModuleFile_of_generate closed generated ((Package.mem_others apart).mp mem)
  refine ⟨increasing, ?_, fun file mem => ?_, fun file mem other mem' =>
    (named file mem).eq_of_module (named other mem'), pkg.renderIndex sources, ?_,
    count_index closed generated sources, fun _ => listsOnce_iff closed generated sources, spares_of_plain⟩
  · have once : (pkg.fileNames sources).Nodup := increasing.imp ne_of_lt
    rw [once.count, if_pos (by rw [Package.fileNames_eq]; simp)]
  · obtain ⟨name, word, rfl⟩ := named file mem
    exact ⟨moduleName name, rfl, moduleOfFile_fileName word⟩
  · exact pkg.index_mem_render sources

theorem node_index_lists_every_file :
    (readDocuments [nodeText]).runFrom .empty = (.ok (), nodeNamespace) ∧
      ∃ pkg index, generate nodeNamespace "avro" = .ok pkg ∧
        ⟨indexFile, index⟩ ∈ pkg.render ["node.avsc"] ∧
        ∀ m ∈ (pkg.others ["node.avsc"]).map moduleOfFile, ListsOnce index m := by
  obtain ⟨pkg, generated⟩ :=
    generate_of_distinct (closed_of_readDocuments nodeText_reads) node_distinct "avro"
  obtain ⟨-, -, -, -, index, written, -, once, plain⟩ :=
    index_lists_every_file nodeText_reads generated ["node.avsc"]
  exact ⟨nodeText_reads, pkg, index, generated, written, fun m mem => (once m mem).mpr (plain (by decide) m)⟩

def checksumNamespace : Namespace where
  types := (∅ : Keyed String NamedType).insert "Md5" (.fixed digest)

theorem checksum_reads : (readDocuments [digestText]).runFrom .empty = (.ok (), checksumNamespace) :=
  readDocuments_cons (digestText_runs rfl) rfl

/-- The name of a source, with a second line that declares the module of a file. -/
def twoLineSource : String := "a\npub mod md5;"

theorem checksum_declared_twice :
    (readDocuments [digestText]).runFrom .empty = (.ok (), checksumNamespace) ∧
      ∃ pkg index, generate checksumNamespace "avro" = .ok pkg ∧
        ⟨indexFile, index⟩ ∈ pkg.render [twoLineSource] ∧
        "md5.rs" ∈ pkg.others [twoLineSource] ∧ moduleOfFile "md5.rs" = "md5" ∧
        (textLines index).count "pub mod md5;" = 2 := by
  have filed : (Package.rehearse checksumNamespace 50 [] ⟨"avro", ∅⟩ checksumNamespace.tasks).map
      (fun pkg => decide ("md5.rs" ∈ pkg.files.keys)) = some true := by
    decide +kernel
  obtain ⟨pkg, rehearsed, mem⟩ := Option.map_eq_some_iff.mp filed
  have generated := generate_of_rehearse rehearsed
  have closed := closed_of_readDocuments checksum_reads
  have file : "md5.rs" ∈ pkg.others [twoLineSource] :=
    (Package.mem_others (indexFile_not_mem_keys closed generated)).mpr (of_decide_eq_true mem)
  have word : moduleOfFile "md5.rs" = "md5" := by decide
  refine ⟨checksum_reads, pkg, pkg.renderIndex [twoLineSource], generated, pkg.index_mem_render _, file,
    word, ?_⟩
  have line : moduleLine "md5" = "pub mod md5;" := by decide
  have heading : (indexHeading "avro" [twoLineSource]).count "pub mod md5;" = 1 := by decide
  have declared := (count_index closed generated [twoLineSource] "md5").1
  rw [if_pos (List.mem_map.mpr ⟨_, file, word⟩), line, heading] at declared
  exact declared

end AvroCompiler

import AvroCompiler.Proofs.Registration.Accepted
import AvroCompiler.Proofs.Emit.Prelude
import AvroCompiler.Proofs.Registration.Content

namespace AvroCompiler

def IsModuleFile (file : String) : Prop :=
  ∃ name, IsWord name ∧ fileName name = file

theorem isModuleFile_codecFile : IsModuleFile codecFile :=
  ⟨"primitive", by decide, by decide +kernel⟩

theorem IsModuleFile.eq_of_module {a b : String} (ha : IsModuleFile a) (hb : IsModuleFile b)
    (h : moduleOfFile a = moduleOfFile b) : a = b := by
  obtain ⟨name, word, rfl⟩ := ha
  obtain ⟨name', word', rfl⟩ := hb
  exact fileName_eq_of_module word word' h

theorem IsModuleFile.isLowered {file : String} (h : IsModuleFile file) : IsLowered (moduleOfFile file) := by
  obtain ⟨name, -, rfl⟩ := h
  exact (inSnakeCase_moduleOfFile (inSnakeCase_fileName name)).isLowered

namespace Namespace

variable {ns : Namespace} (closed : ns.Closed)

include closed

theorem Emits.isModuleFile {item : Placed} {next : List Task} (h : ns.Emits item next)
    (made : item.Made) : IsModuleFile item.file := by
  have typed (type : NamedType) (stored : ns.get? type.name = some type) :
      IsModuleFile (fileName type.name) := ⟨_, (closed.named stored).2.isWord, rfl⟩
  have union {branches : List Shape} (occurs : ns.Occurs (.union branches)) :
      IsModuleFile (fileName (Shape.union branches).canonicalName) :=
    ⟨_, (closed.proper (Or.inl occurs)).canonicalName_isWord, rfl⟩
  cases h with
  | use file path => exact absurd rfl (made path)
  | snippet | write | read => exact isModuleFile_codecFile
  | fixed stored | size stored | conversion stored => exact typed (.fixed _) stored
  | enumeration stored | ordinal stored | symbol stored => exact typed (.enumeration _) stored
  | record stored | serialize stored | deserialize stored => exact typed (.record _) stored
  | union occurs named | branch occurs named =>
    subst named
    exact union occurs

/-- What holds of the files of all entries but imports holds of the files of imports too: they go where their
owner is. -/
theorem Reaches.file_of_emits {P : String → Prop}
    (emitted : ∀ {item next}, ns.Emits item next → item.Made → P item.file) {task : Task}
    (reached : ns.Reaches task) {item : Placed} {next : List Task} (enters : task.Enters ns item next) :
    P item.file := by
  obtain ⟨task', head, next', reached', enters', made, place⟩ := Task.made_before closed.accepted reached enters
  rw [place]
  exact emitted (Task.emits_of_enters closed reached' enters') made

end Namespace

namespace Package

theorem carryOut_files {ns : Namespace} {start : List Task} {P : String → Prop}
    (entered : ∀ {task : Task} {item : Placed} {next : List Task}, task.Spawned ns start →
      task.Enters ns item next → P item.file)
    (pkg : Package) (tasks : List Task) (spawned : ∀ task ∈ tasks, task.Spawned ns start)
    (old : ∀ file ∈ pkg.files.keys, P file) : ∀ file ∈ (pkg.carryOut ns tasks).2.files.keys, P file := by
  fun_induction carryOut ns pkg tasks with
  | case1 | case2 | case4 => exact old
  | case3 pkg task rest plan planned head ih => exact ih (Task.spawned_next_append spawned planned) old
  | case5 pkg task rest plan planned item head other inserted ih =>
    exact ih (List.forall_mem_cons.mp spawned).2 old
  | case6 pkg task rest plan planned item head pkg' inserted ih =>
    obtain ⟨free, rfl⟩ := insert_eq_new inserted
    refine ih (Task.spawned_next_append spawned planned) fun file mem => ?_
    rcases mem_keys_put mem with rfl | mem
    · exact entered (spawned task (by simp)) (Task.enters_of_plan planned head)
    · exact old file mem

end Package

/-- What a package makes visible: an entry of a file, or the file itself as a module. -/
inductive Export where
  | entry (item : Placed)
  | file (name : String)

namespace Package

/-- The names of types: declared types, unions, the helper types of the codec, and modules. -/
inductive ExportsType (pkg : Package) : Export → String → Prop
  | type {file name text : String} (held : pkg.Holds ⟨file, .type name text⟩) :
      ExportsType pkg (.entry ⟨file, .type name text⟩) name
  | file {file : String} (mem : file ∈ pkg.files.keys) : ExportsType pkg (.file file) (moduleOfFile file)

/-- The names of values: constants, free routines, and the constructors of fixed types. -/
inductive ExportsValue (ns : Namespace) (pkg : Package) : Placed → String → Prop
  | constant {file name : String} {value : Nat} (held : pkg.Holds ⟨file, .constant name value⟩) :
      ExportsValue ns pkg ⟨file, .constant name value⟩ name
  | routine {file name text : String} (held : pkg.Holds ⟨file, .routine (.free name) text⟩) :
      ExportsValue ns pkg ⟨file, .routine (.free name) text⟩ name
  | fixed {type : Fixed} (stored : ns.get? type.name = some (.fixed type))
      (held : pkg.Holds ⟨fileName type.name, .type type.name type.declaration⟩) :
      ExportsValue ns pkg ⟨fileName type.name, .type type.name type.declaration⟩ type.name

end Package

section Generated

variable {ns : Namespace} {pkg : Package} {package : String} (closed : ns.Closed)
  (generated : generate ns package = .ok pkg)

include closed generated

theorem files_of_generate {P : String → Prop}
    (emitted : ∀ {item next}, ns.Emits item next → item.Made → P item.file) {file : String}
    (mem : file ∈ pkg.files.keys) : P file := by
  have files := Package.carryOut_files (P := P)
    (fun reached enters => Namespace.Reaches.file_of_emits closed emitted reached enters) ⟨package, ∅⟩
    ns.tasks (fun _ => .start) nofun
  rw [carryOut_of_generate generated] at files
  exact files file mem

theorem isModuleFile_of_generate {file : String} (mem : file ∈ pkg.files.keys) : IsModuleFile file :=
  files_of_generate closed generated (fun emits made => emits.isModuleFile closed made) mem

theorem file_of_type {file name text : String} (held : pkg.Holds ⟨file, .type name text⟩) :
    ((∃ snippet : Snippet, snippet.isType = true ∧ snippet.name = name) ∧ file = codecFile) ∨
      (∀ snippet : Snippet, snippet.isType = true → snippet.name ≠ name) ∧ file = fileName name := by
  obtain ⟨next, emits, _⟩ := emits_of_generate closed generated held
  rcases emits.type_cases with ⟨snippet, isType, file, name, _⟩ | ⟨type, stored, file, rfl, _⟩ |
    ⟨branches, _, file, rfl, _⟩
  · exact Or.inl ⟨⟨snippet, isType, name⟩, file⟩
  · refine Or.inr ⟨fun snippet isType eq => ?_, file⟩
    exact (closed.named stored).2.declarable.1 (eq ▸ Snippet.reserved_name isType)
  · exact Or.inr ⟨fun snippet _ => snippet.name_ne_union branches, file⟩

theorem type_has_capital {file name text : String} (held : pkg.Holds ⟨file, .type name text⟩) :
    ¬IsLowered name := by
  obtain ⟨next, emits, _⟩ := emits_of_generate closed generated held
  rcases emits.type_cases with ⟨snippet, isType, _, rfl, _⟩ | ⟨type, stored, _, rfl, _⟩ |
    ⟨branches, _, _, rfl, _⟩
  · intro lowered
    rw [snippet.isLowered_name_iff, isType] at lowered
    cases lowered
  · exact (closed.named stored).2.not_isLowered
  · exact Shape.not_isLowered_union branches

theorem type_unique {file file' name text text' : String} (held : pkg.Holds ⟨file, .type name text⟩)
    (held' : pkg.Holds ⟨file', .type name text'⟩) :
    (⟨file, .type name text⟩ : Placed) = ⟨file', .type name text'⟩ := by
  have file : file = file' := by
    rcases file_of_type closed generated held with ⟨⟨snippet, isType, eq⟩, home⟩ | ⟨other, home⟩ <;>
      rcases file_of_type closed generated held' with ⟨⟨snippet', isType', eq'⟩, home'⟩ | ⟨other', home'⟩
    · rw [home, home']
    · exact absurd eq (other' snippet isType)
    · exact absurd eq' (other snippet' isType')
    · rw [home, home']
  subst file
  rw [held.type_eq held']

theorem type_ne_module {file file' name text : String} (held : pkg.Holds ⟨file, .type name text⟩)
    (mem : file' ∈ pkg.files.keys) : name ≠ moduleOfFile file' := by
  rintro rfl
  exact type_has_capital closed generated held (isModuleFile_of_generate closed generated mem).isLowered

theorem exportsType_unique {a b : Export} {name : String} (ha : pkg.ExportsType a name)
    (hb : pkg.ExportsType b name) : a = b := by
  cases ha with
  | type held =>
    generalize same : name = name' at hb
    cases hb with
    | type held' =>
      subst same
      rw [type_unique closed generated held held']
    | file mem' => exact absurd same (type_ne_module closed generated held mem')
  | @file file mem =>
    generalize same : moduleOfFile file = name' at hb
    cases hb with
    | type held' => exact absurd same.symm (type_ne_module closed generated held' mem)
    | file mem' =>
      rw [(isModuleFile_of_generate closed generated mem).eq_of_module
        (isModuleFile_of_generate closed generated mem') same]

theorem file_of_routine {file name text : String} (held : pkg.Holds ⟨file, .routine (.free name) text⟩) :
    IsLowered name ∧ ((∃ record, deserializerName record = name ∧ file = fileName record) ∨
      (∀ record, deserializerName record ≠ name) ∧ file = codecFile) := by
  obtain ⟨next, emits, _⟩ := emits_of_generate closed generated held
  rcases emits.free_cases closed with ⟨snippet, isRoutine, file, rfl, _⟩ | ⟨record, _, file, rfl, _⟩ |
    ⟨shape, _, _, file, rfl, _⟩ | ⟨shape, _, _, file, rfl, _⟩
  · exact ⟨snippet.isLowered_name_iff.mpr isRoutine,
      Or.inr ⟨fun record => (snippet.name_ne_deserializer record).symm, file⟩⟩
  · exact ⟨isLowered_deserializerName _, Or.inl ⟨record.name, rfl, file⟩⟩
  · exact ⟨shape.isLowered_writer,
      Or.inr ⟨fun record => (shape.writer_ne_deserializer record).symm, file⟩⟩
  · exact ⟨shape.isLowered_reader,
      Or.inr ⟨fun record => (shape.reader_ne_deserializer record).symm, file⟩⟩

theorem routine_unique {file file' name text text' : String}
    (held : pkg.Holds ⟨file, .routine (.free name) text⟩)
    (held' : pkg.Holds ⟨file', .routine (.free name) text'⟩) :
    (⟨file, .routine (.free name) text⟩ : Placed) = ⟨file', .routine (.free name) text'⟩ := by
  have file : file = file' := by
    rcases (file_of_routine closed generated held).2 with ⟨record, eq, home⟩ | ⟨other, home⟩ <;>
      rcases (file_of_routine closed generated held').2 with ⟨record', eq', home'⟩ | ⟨other', home'⟩
    · rw [home, home']
      exact fileName_eq_of_snakeCase ((String.append_right_inj "deserialize_").mp (eq.trans eq'.symm))
    · exact absurd eq (other' record)
    · exact absurd eq' (other record')
    · rw [home, home']
  subst file
  rw [held.routine_eq held']

theorem constant_unique {file file' name : String} {value value' : Nat}
    (held : pkg.Holds ⟨file, .constant name value⟩) (held' : pkg.Holds ⟨file', .constant name value'⟩) :
    (⟨file, .constant name value⟩ : Placed) = ⟨file', .constant name value'⟩ := by
  obtain ⟨next, emits, _⟩ := emits_of_generate closed generated held
  obtain ⟨next', emits', _⟩ := emits_of_generate closed generated held'
  obtain ⟨type, _, rfl, eq, _⟩ := emits.constant_cases
  obtain ⟨type', _, rfl, eq', _⟩ := emits'.constant_cases
  have file := fileName_eq_of_snakeCase (snakeCase_eq_of_sizeConstant (eq.trans eq'.symm))
  rw [← file] at held' ⊢
  have same := Option.some.inj (Eq.trans (Eq.symm held) held')
  rw [(Entry.constant.inj same).2]

theorem size_of_constant {file name : String} {value : Nat}
    (held : pkg.Holds ⟨file, .constant name value⟩) :
    ∃ type : Fixed, ns.get? type.name = some (.fixed type) ∧ sizeConstant type.name = name := by
  obtain ⟨next, emits, _⟩ := emits_of_generate closed generated held
  obtain ⟨type, stored, _, eq, _⟩ := emits.constant_cases
  exact ⟨type, stored, eq⟩

theorem constant_ne_routine {file file' name name' text : String} {value : Nat}
    (held : pkg.Holds ⟨file, .constant name value⟩)
    (held' : pkg.Holds ⟨file', .routine (.free name') text⟩) : name ≠ name' := by
  rintro rfl
  obtain ⟨type, _, rfl⟩ := size_of_constant closed generated held
  exact not_isLowered_sizeConstant type.name (file_of_routine closed generated held').1

theorem routine_ne_fixed {file name text : String} {type : Fixed}
    (held : pkg.Holds ⟨file, .routine (.free name) text⟩)
    (stored : ns.get? type.name = some (.fixed type)) : name ≠ type.name := by
  rintro rfl
  exact (closed.named stored).2.not_isLowered (file_of_routine closed generated held).1

/-- Values share a name only as a constant and the constructor of a fixed type. -/
theorem exportsValue_unique
    (apart : ∀ a b : Fixed, ns.get? a.name = some (.fixed a) → ns.get? b.name = some (.fixed b) →
      sizeConstant a.name ≠ b.name)
    {a b : Placed} {name : String} (ha : pkg.ExportsValue ns a name) (hb : pkg.ExportsValue ns b name) :
    a = b := by
  have constant_ne_fixed {file name : String} {value : Nat} {type : Fixed}
      (held : pkg.Holds ⟨file, .constant name value⟩)
      (stored : ns.get? type.name = some (.fixed type)) : name ≠ type.name := by
    obtain ⟨other, stored', rfl⟩ := size_of_constant closed generated held
    exact apart other type stored' stored
  cases ha with
  | constant held =>
    generalize same : name = name' at hb
    cases hb with
    | constant held' =>
      subst same
      exact constant_unique closed generated held held'
    | routine held' => exact absurd same (constant_ne_routine closed generated held held')
    | fixed stored' _ => exact absurd same (constant_ne_fixed held stored')
  | routine held =>
    generalize same : name = name' at hb
    cases hb with
    | constant held' => exact absurd same.symm (constant_ne_routine closed generated held' held)
    | routine held' =>
      subst same
      exact routine_unique closed generated held held'
    | fixed stored' _ => exact absurd same (routine_ne_fixed closed generated held stored')
  | @fixed type stored _ =>
    generalize same : type.name = name' at hb
    cases hb with
    | constant held' => exact absurd same.symm (constant_ne_fixed held' stored)
    | routine held' => exact absurd same.symm (routine_ne_fixed closed generated held' stored)
    | fixed stored' _ =>
      rw [NamedType.fixed.inj (Namespace.stored_unique stored stored' same)]

end Generated

namespace Package

def TypesApart (pkg : Package) : Prop :=
  ∀ a b name, pkg.ExportsType a name → pkg.ExportsType b name → a = b

def ValuesApart (pkg : Package) (ns : Namespace) : Prop :=
  ∀ a b name, pkg.ExportsValue ns a name → pkg.ExportsValue ns b name → a = b

/-- No declared type takes a name away from a snippet of the package. -/
def KeepsPrelude (pkg : Package) (ns : Namespace) : Prop :=
  ∀ snippet : Snippet, pkg.Holds ⟨codecFile, snippet.entry⟩ →
    ∀ type : NamedType, ns.get? type.name = some type → ¬snippet.TakesFromPrelude type.name

end Package

section Generated

variable {ns : Namespace} {pkg : Package} {package : String} (closed : ns.Closed)
  (generated : generate ns package = .ok pkg)

include closed generated

theorem exportsValue_clash {a b : Fixed} (ha : ns.get? a.name = some (.fixed a))
    (hb : ns.get? b.name = some (.fixed b)) (clash : sizeConstant a.name = b.name) :
    ¬pkg.ValuesApart ns := by
  intro apart
  have size : pkg.ExportsValue ns ⟨fileName a.name, .constant (sizeConstant a.name) a.size⟩ b.name :=
    clash ▸ .constant (holds_items closed generated (.fixed a) ha (.tail _ (.head _)))
  have maker : pkg.ExportsValue ns ⟨fileName b.name, .type b.name b.declaration⟩ b.name :=
    .fixed hb (holds_items closed generated (.fixed b) hb (.head _))
  exact Entry.noConfusion (Placed.mk.inj (apart _ _ _ size maker)).2

theorem valuesApart_iff : pkg.ValuesApart ns ↔
    ∀ a b : Fixed, ns.get? a.name = some (.fixed a) → ns.get? b.name = some (.fixed b) →
      sizeConstant a.name ≠ b.name := by
  constructor
  · intro apart a b ha hb clash
    exact exportsValue_clash closed generated ha hb clash apart
  · intro apart a b name
    exact exportsValue_unique closed generated apart

theorem holds_writeBlocks {record : Record} (stored : ns.get? record.name = some (.record record))
    {items : Shape} (mem : Shape.array items ∈ record.shapes) :
    pkg.Holds ⟨codecFile, Snippet.writeBlocks.entry⟩ := by
  have occurs : ns.Occurs (.array items) := ⟨record.name, record, stored, _, mem, .self⟩
  have held := holds_items closed generated (.record record) stored (.tail _ (.head _))
  have settled := settled_of_serialize closed generated stored held _ mem
  obtain ⟨other, _, form, follow⟩ := settled_of_written closed generated (Or.inl occurs) nofun
    (settled.holds (Shape.write_enters nofun))
  cases form with
  | array =>
    have writer := follow (.snippet .writeBlocks) (Shape.mem_writePlan (.head _))
    exact writer.holds rfl

omit generated in
theorem keepsPrelude_iff : pkg.KeepsPrelude ns ↔
    (pkg.Holds ⟨codecFile, Snippet.writeBlocks.entry⟩ → ns.get? "ExactSizeIterator" = none) := by
  constructor
  · intro keeps held
    refine Option.eq_none_iff_forall_ne_some.mpr fun type stored => ?_
    have name := (closed.named stored).1
    refine keeps .writeBlocks held type (name ▸ stored) ?_
    exact name ▸ Snippet.writeBlocks_takesFromPrelude
  · intro free snippet held type stored taken
    rcases Snippet.reserved_of_takesFromPrelude taken with reserved | ⟨rfl, name⟩
    · exact (closed.named stored).2.declarable.1 reserved
    · rw [name, free held] at stored
      cases stored

end Generated

/-- The names of a generated package are unambiguous, unless a fixed type is named as the size of
another one, or a type is named as the trait that the block writer takes from the prelude. -/
theorem generated_names_unambiguous {texts : List String} {ns : Namespace} {package : String}
    {pkg : Package} (read : (readDocuments texts).runFrom .empty = (.ok (), ns))
    (generated : generate ns package = .ok pkg) :
    pkg.TypesApart ∧
      (pkg.ValuesApart ns ↔
        ∀ a b : Fixed, ns.get? a.name = some (.fixed a) → ns.get? b.name = some (.fixed b) →
          sizeConstant a.name ≠ b.name) ∧
      (pkg.KeepsPrelude ns ↔
        (pkg.Holds ⟨codecFile, Snippet.writeBlocks.entry⟩ → ns.get? "ExactSizeIterator" = none)) := by
  have closed := closed_of_readDocuments read
  refine ⟨fun a b name => ?_, valuesApart_iff closed generated, keepsPrelude_iff closed⟩
  exact exportsType_unique closed generated

theorem node_names_unambiguous :
    (readDocuments [nodeText]).runFrom .empty = (.ok (), nodeNamespace) ∧
      ∃ pkg, generate nodeNamespace "avro" = .ok pkg ∧ pkg.TypesApart ∧ pkg.ValuesApart nodeNamespace ∧
        pkg.KeepsPrelude nodeNamespace := by
  obtain ⟨pkg, generated⟩ :=
    generate_of_distinct (closed_of_readDocuments nodeText_reads) node_distinct "avro"
  obtain ⟨types, values, prelude⟩ := generated_names_unambiguous nodeText_reads generated
  refine ⟨nodeText_reads, pkg, generated, types, values.mpr ?_, prelude.mpr fun _ => rfl⟩
  intro a b stored
  cases node_stored stored

def iteratorText : String :=
  "\x7b\"type\":\"record\",\"name\":\"ExactSizeIterator\",\"fields\":[" ++
    "\x7b\"name\":\"items\",\"type\":\x7b\"type\":\"array\",\"items\":\"int\"\x7d\x7d]\x7d"

def digestText : String :=
  "\x7b\"type\":\"fixed\",\"name\":\"Md5\",\"size\":16\x7d"

def digestSizeText : String :=
  "\x7b\"type\":\"fixed\",\"name\":\"MD5_SIZE\",\"size\":4\x7d"

def iterator : Record where
  name := "ExactSizeIterator"
  fields := [⟨"items", .array (.primitive .int), none⟩]

def digest : Fixed where
  name := "Md5"
  size := 16

def digestSize : Fixed where
  name := "MD5_SIZE"
  size := 4

def iteratorNamespace : Namespace where
  types := (∅ : Keyed String NamedType).insert "ExactSizeIterator" (.record iterator)

def digestNamespace : Namespace where
  types := iteratorNamespace.types.insert "Md5" (.fixed digest)

def shadowNamespace : Namespace where
  types := digestNamespace.types.insert "MD5_SIZE" (.fixed digestSize)

def iteratorSchema : Schema :=
  .record "ExactSizeIterator" none (.cons "items" none (.array (.primitive .int)) .done)

theorem iteratorText_eq : iteratorText = iteratorSchema.text := by
  decide

theorem digestText_eq : digestText = (Schema.fixed digest).text := by
  decide

theorem digestSizeText_eq : digestSizeText = (Schema.fixed digestSize).text := by
  decide

theorem iteratorText_reads : (readDocument iteratorText).runFrom .empty = (.ok (), iteratorNamespace) := by
  have declarable : Declarable "ExactSizeIterator" := by decide
  rw [iteratorText_eq]
  exact readDocument_text (by decide) (by decide)
    (Schema.run_record_of_declarable declarable nofun rfl rfl rfl rfl)

theorem digestText_runs {ns ns' : Namespace} (defines : ns.define (.fixed digest) = .ok ns') :
    (readDocument digestText).runFrom ns = (.ok (), ns') := by
  rw [digestText_eq]
  exact readDocument_text (by decide) (by decide) (Schema.run_fixed defines)

theorem digestSizeText_reads :
    (readDocument digestSizeText).runFrom digestNamespace = (.ok (), shadowNamespace) := by
  rw [digestSizeText_eq]
  exact readDocument_text (by decide) (by decide) (Schema.run_fixed rfl)

/-- A package with both faults: the fixed type is a second value of its name, and the record hides the
trait that the block writer asks for. -/
theorem shadow_names_ambiguous :
    (readDocuments [iteratorText, digestText, digestSizeText]).runFrom .empty =
        (.ok (), shadowNamespace) ∧
      ∃ pkg, generate shadowNamespace "avro" = .ok pkg ∧ ¬pkg.ValuesApart shadowNamespace ∧
        ¬pkg.KeepsPrelude shadowNamespace := by
  have read : (readDocuments [iteratorText, digestText, digestSizeText]).runFrom .empty =
      (.ok (), shadowNamespace) :=
    readDocuments_cons iteratorText_reads
      (readDocuments_cons (digestText_runs rfl) (readDocuments_cons digestSizeText_reads rfl))
  have closed := closed_of_readDocuments read
  have ends : (Package.rehearse shadowNamespace 200 [] ⟨"avro", ∅⟩ shadowNamespace.tasks).isSome =
      true := by
    decide +kernel
  obtain ⟨pkg, rehearsed⟩ := Option.isSome_iff_exists.mp ends
  have generated := generate_of_rehearse rehearsed
  refine ⟨read, pkg, generated, ?_, fun keeps => ?_⟩
  · exact exportsValue_clash closed generated (a := digest) (b := digestSize) rfl rfl (by decide +kernel)
  · have stored : shadowNamespace.get? iterator.name = some (.record iterator) := rfl
    have writes := holds_writeBlocks closed generated stored (.head _)
    cases (keepsPrelude_iff closed).mp keeps writes

end AvroCompiler

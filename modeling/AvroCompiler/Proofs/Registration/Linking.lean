import AvroCompiler.Proofs.Registration.Content
import AvroCompiler.Proofs.Emit.ValueType

namespace AvroCompiler

namespace Shape

/-- The shape whose type stands innermost in the value type. -/
def leaf : Shape → Shape
  | .array items => items.leaf
  | .map values => values.leaf
  | shape => shape

def MentionsMap (shape : Shape) : Prop :=
  "HashMap<".toList <:+: shape.valueType.toList

theorem usesMap_of_mentionsMap {shape : Shape} (proper : shape.Proper) (h : shape.MentionsMap) :
    shape.usesMap = true := by
  have word {text : String} (typed : IsWord text) : '<' ∉ text.toList := fun mem =>
    absurd (typed '<' mem) (by decide)
  have bare {text : String} (typed : IsWord text) : ¬"HashMap<".toList <:+: text.toList := fun inside =>
    word typed (inside.subset (by simp))
  induction shape using induction_components with
  | step shape ih =>
    unfold MentionsMap at h
    cases shape with
    | primitive kind =>
      have spelled : "HashMap<".toList <:+: kind.valueType.toList := h
      cases kind <;> simp [Primitive.valueType, List.infix_cons_iff] at spelled
    | fixed type => exact absurd h (bare (proper.typeName rfl).isWord)
    | enumeration type => exact absurd h (bare (proper.typeName rfl).isWord)
    | union branches => exact absurd h (bare proper.canonicalName_isWord)
    | map values => rfl
    | record name =>
      have typed : IsWord name := (proper.typeName rfl).isWord
      have inside : "HashMap<".toList <:+: name.toList ++ ['>'] := by
        simpa [valueType_record, List.infix_cons_iff] using h
      have mem : '<' ∈ name.toList ++ ['>'] := inside.subset (by simp)
      exact absurd mem (by simp [word typed])
    | array items =>
      have mem := List.mem_singleton_self items
      refine ih items mem (proper.component mem) ?_
      have inside : "HashMap<".toList <:+: items.valueType.toList ++ ['>'] := by
        simpa [valueType_array, List.infix_cons_iff] using h
      rcases List.infix_concat_iff.mp inside with last | inner
      · rcases List.suffix_concat_iff.mp last with empty | ⟨front, eq, _⟩
        · simp at empty
        · have final := congrArg List.getLast? eq
          simp at final
      · exact inner

theorem mem_writePlan_map {shape : Shape} (compound : shape.Compound) (uses : shape.usesMap = true) :
    Task.enter ⟨codecFile, .use mapPath⟩ ∈ shape.writePlan.next := by
  cases shape with
  | primitive kind => exact absurd rfl (compound kind)
  | fixed | enumeration | union | record => cases uses
  | array | map => simp [writePlan, gluePlan, useTasks, mapPaths, uses]

theorem mem_readPlan_map {shape : Shape} (compound : shape.Compound) (uses : shape.usesMap = true) :
    Task.enter ⟨codecFile, .use mapPath⟩ ∈ shape.readPlan.next := by
  cases shape with
  | primitive kind => exact absurd rfl (compound kind)
  | fixed | enumeration | union | record => cases uses
  | array | map => simp [readPlan, gluePlan, useTasks, mapPaths, uses]

end Shape

theorem Primitive.writeSnippet_entry (kind : Primitive) : kind.writeSnippet.entry =
    .routine (.free kind.writeSnippet.name) kind.writeSnippet.text := by
  cases kind <;> rfl

theorem Primitive.readSnippet_entry (kind : Primitive) : kind.readSnippet.entry =
    .routine (.free kind.readSnippet.name) kind.readSnippet.text := by
  cases kind <;> rfl

namespace Package

variable (ns : Namespace) (pkg : Package)

def HasRoutine (file : String) (key : RoutineKey) : Prop :=
  ∃ text, pkg.Holds ⟨file, .routine key text⟩

/-- The type of a shape is declared in its own file, together with what belongs to it. The routine of
a union may be that of another union with the same declaration. -/
def Declares : Shape → Prop
  | .fixed type => ∀ item ∈ (NamedType.fixed type).items, pkg.Holds item
  | .enumeration type => ∀ item ∈ (NamedType.enumeration type).items, pkg.Holds item
  | .record name => ∃ record, ns.get? name = some (.record record) ∧
      ∀ item ∈ (NamedType.record record).items, pkg.Holds item
  | .union branches =>
    let name := (Shape.union branches).canonicalName
    ∃ others, Shape.unionDeclaration name others = Shape.unionDeclaration name branches ∧
      ∀ item ∈ unionItems name others, pkg.Holds item
  | .primitive _ | .array _ | .map _ => True

/-- What the routine of a shape refers to is there: the routines of its components, the snippets, the
types, the routine of a record, and the map type. -/
structure Links (shape : Shape) (routine : Shape → String) (snippets : List Snippet)
    (recordRoutine : String → RoutineKey) : Prop where
  components : ∀ component ∈ shape.components, pkg.HasRoutine codecFile (.free (routine component))
  snippets : ∀ snippet ∈ snippets, pkg.Holds ⟨codecFile, snippet.entry⟩
  type : pkg.Declares ns shape
  mention : ∃ type, ns.Codes type ∧ type.valueType = shape.leaf.valueType ∧ type.leaf = type ∧
    pkg.Declares ns type
  record : ∀ name, shape = .record name → pkg.HasRoutine (fileName name) (recordRoutine name)
  map : shape.MentionsMap → pkg.Holds ⟨codecFile, .use mapPath⟩

def LinksWriter (shape : Shape) : Prop :=
  pkg.Links ns shape Shape.writer shape.writerSnippets fun name => ⟨name, "serialize"⟩

def LinksReader (shape : Shape) : Prop :=
  pkg.Links ns shape Shape.reader shape.readerSnippets fun name => .free (deserializerName name)

/-- The snippets, and the routines of shapes, with all that they refer to. -/
inductive CodecLinked : Placed → Prop
  | snippet {snippet : Snippet} (deps : ∀ dep ∈ snippet.deps, pkg.Holds ⟨codecFile, dep.entry⟩) :
      CodecLinked ⟨codecFile, snippet.entry⟩
  | write {shape : Shape} (codes : ns.Codes shape) (links : pkg.LinksWriter ns shape) :
      CodecLinked ⟨codecFile, .routine (.free shape.writer) shape.writeRoutine⟩
  | read {shape : Shape} (codes : ns.Codes shape) (links : pkg.LinksReader ns shape) :
      CodecLinked ⟨codecFile, .routine (.free shape.reader) shape.readRoutine⟩

/-- All entries, with what they refer to. -/
inductive Linked : Placed → Prop
  | use (file path : String) : Linked ⟨file, .use path⟩
  | codec {item : Placed} (linked : pkg.CodecLinked ns item) : Linked item
  | plain (type : NamedType) {item : Placed} (stored : ns.get? type.name = some type)
      (plain : type.isRecord = false) (mem : item ∈ type.items)
      (declared : pkg.Declares ns type.shape) : Linked item
  | record {record : Record} (stored : ns.get? record.name = some (.record record))
      (types : ∀ shape ∈ record.shapes, pkg.Declares ns shape.leaf)
      (map : ∀ shape ∈ record.shapes, shape.MentionsMap →
        pkg.Holds ⟨fileName record.name, .use mapPath⟩) :
      Linked ⟨fileName record.name, .type record.name record.declaration⟩
  | serialize {record : Record} (stored : ns.get? record.name = some (.record record))
      (declared : pkg.Declares ns (.record record.name))
      (writers : ∀ shape ∈ record.shapes, pkg.HasRoutine codecFile (.free shape.writer)) :
      Linked ⟨fileName record.name, .routine ⟨record.name, "serialize"⟩ record.serializeRoutine⟩
  | deserialize {record : Record} (stored : ns.get? record.name = some (.record record))
      (declared : pkg.Declares ns (.record record.name))
      (error : pkg.Holds ⟨codecFile, Snippet.decodeError.entry⟩)
      (readers : ∀ shape ∈ record.shapes, pkg.HasRoutine codecFile (.free shape.reader)) :
      Linked ⟨fileName record.name,
        .routine (.free (deserializerName record.name)) record.deserializeRoutine⟩
  | union {name : String} {branches : List Shape} (occurs : ns.Occurs (.union branches))
      (named : (Shape.union branches).canonicalName = name)
      (types : ∀ branch ∈ branches, pkg.Declares ns branch.leaf)
      (map : ∀ branch ∈ branches, branch.MentionsMap → pkg.Holds ⟨fileName name, .use mapPath⟩) :
      Linked ⟨fileName name, .type name (Shape.unionDeclaration name branches)⟩
  | branch {name : String} {branches : List Shape} (occurs : ns.Occurs (.union branches))
      (named : (Shape.union branches).canonicalName = name) :
      Linked ⟨fileName name, .routine ⟨name, "branch"⟩ (Shape.branchRoutine name branches)⟩

variable {ns pkg}

theorem Settled.snippet {snippet : Snippet} (settled : pkg.Settled ns (.snippet snippet)) :
    pkg.Holds ⟨codecFile, snippet.entry⟩ :=
  settled.holds (Task.snippet_enters ns snippet)

theorem Settled.enter {item : Placed} (settled : pkg.Settled ns (.enter item)) : pkg.Holds item :=
  settled.holds rfl

theorem Settled.writer {shape : Shape} (settled : pkg.Settled ns (.write shape)) :
    pkg.HasRoutine codecFile (.free shape.writer) := by
  rcases shape.primitive_or_compound with ⟨kind, rfl⟩ | compound
  · have held := (settled.next rfl _ (List.mem_singleton_self _)).snippet
    rw [kind.writeSnippet_entry, ← Shape.writer_primitive] at held
    exact ⟨_, held⟩
  · exact ⟨_, settled.holds (Shape.write_enters compound)⟩

theorem Settled.reader {shape : Shape} (settled : pkg.Settled ns (.read shape)) :
    pkg.HasRoutine codecFile (.free shape.reader) := by
  rcases shape.primitive_or_compound with ⟨kind, rfl⟩ | compound
  · have held := (settled.next rfl _ (List.mem_singleton_self _)).snippet
    rw [kind.readSnippet_entry, ← Shape.reader_primitive] at held
    exact ⟨_, held⟩
  · exact ⟨_, settled.holds (Shape.read_enters compound)⟩

end Package

section Generated

variable {ns : Namespace} {pkg : Package} {package : String} (closed : ns.Closed)
  (generated : generate ns package = .ok pkg)

include closed generated

theorem declares_type {shape : Shape} (codes : ns.Codes shape)
    (visited : ∀ branches, shape = .union branches → pkg.Settled ns (.declare shape)) :
    pkg.Declares ns shape := by
  have defined := closed.defines codes
  cases shape with
  | primitive | array | map => trivial
  | fixed type => exact fun _ => holds_items closed generated (.fixed type) defined
  | enumeration type => exact fun _ => holds_items closed generated (.enumeration type) defined
  | record name =>
    obtain ⟨record, found⟩ := defined
    have stored : ns.get? record.name = some (.record record) := by
      rw [closed.record_name found]
      exact found
    exact ⟨record, found, fun _ => holds_items closed generated (.record record) stored⟩
  | union branches =>
    have held := (visited branches rfl).holds (Task.declare_union_enters ns branches)
    obtain ⟨others, _, _, text, follow⟩ := settled_of_declared_union closed generated rfl held
    refine ⟨others, text, ?_⟩
    intro item mem
    simp only [unionItems, List.mem_cons, List.not_mem_nil, or_false] at mem
    rcases mem with rfl | rfl
    · rw [text]
      exact held
    · exact (follow _ (List.mem_append_left _ (List.mem_append_right _ (.head _)))).enter

theorem declares_leaf {shape : Shape} (codes : ns.Codes shape)
    (settled : pkg.Settled ns (.declare shape)) : pkg.Declares ns shape.leaf := by
  induction shape using Shape.induction_components with
  | step shape ih =>
    cases shape with
    | primitive => trivial
    | fixed | enumeration | record | union =>
      exact declares_type closed generated codes fun _ _ => settled
    | array items =>
      exact ih items (.head _) (codes.component (.head _)) (settled.next rfl _ (.head _))
    | map values =>
      exact ih values (.head _) (codes.component (.head _)) (settled.next rfl _ (.head _))

/-- The type that stands innermost in a value type is declared, if routines lead there: a routine is
there for a shape of the same value type, and so is the routine that it calls. -/
theorem declares_mention (visited : Shape → Prop)
    (step : ∀ {shape : Shape}, ns.Codes shape → shape.Compound → shape.typeName? = none → visited shape →
      ∃ other : Shape, ns.Codes other ∧ other.SameForm shape ∧
        (∀ component ∈ other.components, visited component) ∧
        ∀ branches, other = .union branches → pkg.Settled ns (.declare other))
    {shape other : Shape} (codes : ns.Codes shape) (codes' : ns.Codes other)
    (type : other.valueType = shape.valueType) (seen : visited other) :
    ∃ type, ns.Codes type ∧ type.valueType = shape.leaf.valueType ∧ type.leaf = type ∧
      pkg.Declares ns type := by
  induction shape using Shape.induction_components generalizing other with
  | step shape ih =>
    cases Shape.sameValue_of_valueType (closed.proper codes') (closed.proper codes) type with
    | primitive kind => exact ⟨.primitive kind, codes, rfl, rfl, trivial⟩
    | record name =>
      exact ⟨.record name, codes, rfl, rfl, declares_type closed generated codes nofun⟩
    | bare bare bare' name =>
      have leaf : shape.leaf = shape := by cases shape <;> first | rfl | cases bare'
      rw [leaf]
      cases other with
      | primitive | array | map | record => cases bare
      | fixed | enumeration =>
        exact ⟨_, codes', type, rfl, declares_type closed generated codes' nofun⟩
      | union branches =>
        obtain ⟨third, codes'', form, _, declared⟩ := step codes' nofun rfl seen
        cases form with
        | union name' =>
          exact ⟨_, codes'', name'.trans type, rfl, declares_type closed generated codes'' declared⟩
    | @array a b inner =>
      obtain ⟨third, codes'', form, calls, _⟩ := step codes' nofun rfl seen
      cases form with
      | array type' =>
        exact ih b (.head _) (codes.component (.head _)) (codes''.component (.head _))
          (type'.trans inner) (calls _ (.head _))
    | @map a b inner =>
      obtain ⟨third, codes'', form, calls, _⟩ := step codes' nofun rfl seen
      cases form with
      | map type' =>
        exact ih b (.head _) (codes.component (.head _)) (codes''.component (.head _))
          (type'.trans inner) (calls _ (.head _))

theorem declares_mention_of_written {shape : Shape} (codes : ns.Codes shape)
    (settled : pkg.Settled ns (.write shape)) :
    ∃ type, ns.Codes type ∧ type.valueType = shape.leaf.valueType ∧ type.leaf = type ∧
      pkg.Declares ns type := by
  refine declares_mention closed generated (fun shape => pkg.Settled ns (.write shape)) ?_ codes codes
    rfl settled
  intro shape codes compound _ settled
  obtain ⟨other, codes', form, follow⟩ := settled_of_written closed generated codes compound
    (settled.holds (Shape.write_enters compound))
  refine ⟨other, codes', form, fun component mem => follow _ (Shape.write_component mem), ?_⟩
  rintro branches rfl
  exact follow _ (Shape.mem_writePlan (.head _))

theorem declares_mention_of_read {shape : Shape} (codes : ns.Codes shape)
    (settled : pkg.Settled ns (.read shape)) :
    ∃ type, ns.Codes type ∧ type.valueType = shape.leaf.valueType ∧ type.leaf = type ∧
      pkg.Declares ns type := by
  refine declares_mention closed generated (fun shape => pkg.Settled ns (.read shape)) ?_ codes codes
    rfl settled
  intro shape codes compound unnamed settled
  obtain ⟨other, codes', form, follow⟩ := settled_of_read closed generated codes compound unnamed
    (settled.holds (Shape.read_enters compound))
  refine ⟨other, codes', form, fun component mem => follow _ (Shape.read_component mem), ?_⟩
  rintro branches rfl
  exact follow _ (Shape.mem_readPlan (.head _))

theorem holds_decodeError {shape : Shape} (occurs : ns.Occurs shape) :
    pkg.Holds ⟨codecFile, Snippet.decodeError.entry⟩ := by
  obtain ⟨name, record, found, _⟩ := occurs
  cases closed.record_name found
  have held := holds_items closed generated (.record record) found (.tail _ (.tail _ (.head _)))
  obtain ⟨next, emits, settled⟩ := emits_of_generate closed generated held
  rcases emits.free_cases closed with ⟨snippet, _, _, name, _⟩ | ⟨_, _, _, _, _, rfl⟩ |
    ⟨other, _, _, _, name, _⟩ | ⟨other, _, _, _, name, _⟩
  · exact absurd name (snippet.name_ne_deserializer _)
  · exact (settled _ (.head _)).snippet
  · exact absurd name (other.writer_ne_deserializer _)
  · exact absurd name (other.reader_ne_deserializer _)

theorem linksWriter_of_settled {shape : Shape} (codes : ns.Codes shape) (compound : shape.Compound)
    (settled : ∀ task ∈ shape.writePlan.next, pkg.Settled ns task)
    (written : pkg.Settled ns (.write shape)) : pkg.LinksWriter ns shape where
  components component mem := (settled _ (Shape.write_component mem)).writer
  snippets snippet mem := by
    refine (settled (.snippet snippet) (Shape.mem_writePlan ?_)).snippet
    cases shape <;> simp_all [Shape.writerSnippets, Shape.writerTasks]
  type := by
    refine declares_type closed generated codes ?_
    rintro branches rfl
    exact settled _ (Shape.mem_writePlan (.head _))
  mention := declares_mention_of_written closed generated codes written
  record := by
    rintro name rfl
    obtain ⟨record, found⟩ := closed.defines codes
    cases closed.record_name found
    exact ⟨_, holds_items closed generated (.record record) found (.tail _ (.head _))⟩
  map mentions :=
    (settled _ (Shape.mem_writePlan_map compound
      (Shape.usesMap_of_mentionsMap (closed.proper codes) mentions))).enter

theorem linksReader_of_settled {shape : Shape} (codes : ns.Codes shape) (compound : shape.Compound)
    (settled : ∀ task ∈ shape.readPlan.next, pkg.Settled ns task)
    (readable : pkg.Settled ns (.read shape)) : pkg.LinksReader ns shape where
  components component mem := (settled _ (Shape.read_component mem)).reader
  snippets snippet mem := by
    rcases Shape.mem_readerTasks mem with listed | ⟨rfl, other⟩
    · exact (settled _ (Shape.mem_readPlan listed)).snippet
    · exact holds_decodeError closed generated (codes.occurs other)
  type := by
    refine declares_type closed generated codes ?_
    rintro branches rfl
    exact settled _ (Shape.mem_readPlan (.head _))
  mention := declares_mention_of_read closed generated codes readable
  record := by
    rintro name rfl
    obtain ⟨record, found⟩ := closed.defines codes
    cases closed.record_name found
    exact ⟨_, holds_items closed generated (.record record) found (.tail _ (.tail _ (.head _)))⟩
  map mentions :=
    (settled _ (Shape.mem_readPlan_map compound
      (Shape.usesMap_of_mentionsMap (closed.proper codes) mentions))).enter

theorem linked_record {record : Record} (stored : ns.get? record.name = some (.record record))
    (settled : ∀ task ∈ record.declarePlan.next, pkg.Settled ns task) :
    pkg.Linked ns ⟨fileName record.name, .type record.name record.declaration⟩ := by
  have codes {shape : Shape} (mem : shape ∈ record.shapes) : ns.Codes shape :=
    Or.inl (Namespace.occurs_field stored mem)
  refine .record stored ?_ ?_
  · intro shape mem
    have declared := settled (.declare shape)
      (List.mem_append_right _ (List.mem_map.mpr ⟨shape, mem, rfl⟩))
    exact declares_leaf closed generated (codes mem) declared
  · intro shape mem mentions
    have uses := Shape.usesMap_of_mentionsMap (closed.proper (codes mem)) mentions
    refine (settled (.enter _) (List.mem_append_left _ ?_)).enter
    have some : record.shapes.any Shape.usesMap = true := List.any_eq_true.mpr ⟨shape, mem, uses⟩
    simp [useTasks, mapPaths, some]

theorem linked_union {name : String} {branches : List Shape} (occurs : ns.Occurs (.union branches))
    (named : (Shape.union branches).canonicalName = name)
    (settled : ∀ task ∈ (unionPlan name branches).next, pkg.Settled ns task) :
    pkg.Linked ns ⟨fileName name, .type name (Shape.unionDeclaration name branches)⟩ := by
  have codes {branch : Shape} (mem : branch ∈ branches) : ns.Codes branch :=
    Or.inl (occurs.component mem)
  refine .union occurs named ?_ ?_
  · intro branch mem
    have declared := settled (.declare branch)
      (List.mem_append_right _ (List.mem_map.mpr ⟨branch, mem, rfl⟩))
    exact declares_leaf closed generated (codes mem) declared
  · intro branch mem mentions
    have uses := Shape.usesMap_of_mentionsMap (closed.proper (codes mem)) mentions
    refine (settled (.enter _) (List.mem_append_left _ (List.mem_append_left _ ?_))).enter
    have some : branches.any Shape.usesMap = true := List.any_eq_true.mpr ⟨branch, mem, uses⟩
    simp [useTasks, mapPaths, some]

theorem linked_of_generate {item : Placed} (held : pkg.Holds item) : pkg.Linked ns item := by
  obtain ⟨next, emits, settled⟩ := emits_of_generate closed generated held
  have declared (type : NamedType) (stored : ns.get? type.name = some type)
      (plain : type.isRecord = false) : pkg.Declares ns type.shape :=
    declares_type closed generated (Or.inr ⟨type, stored, plain, rfl⟩) fun _ eq => by
      cases type <;> cases eq
  have declaredRecord {record : Record} (stored : ns.get? record.name = some (.record record)) :
      pkg.Declares ns (.record record.name) :=
    ⟨record, stored, fun _ => holds_items closed generated (.record record) stored⟩
  cases emits with
  | use file path => exact .use file path
  | @snippet snippet needs =>
    refine .codec (.snippet fun dep mem => ?_)
    exact (settled _ (List.mem_append_right _ (List.mem_map.mpr ⟨dep, mem, rfl⟩))).snippet
  | @fixed type stored =>
    exact .plain (.fixed type) stored rfl (.head _) (declared (.fixed type) stored rfl)
  | @size type stored =>
    exact .plain (.fixed type) stored rfl (.tail _ (.head _)) (declared (.fixed type) stored rfl)
  | @conversion type stored =>
    exact .plain (.fixed type) stored rfl (.tail _ (.tail _ (.head _)))
      (declared (.fixed type) stored rfl)
  | @enumeration type stored =>
    exact .plain (.enumeration type) stored rfl (.head _) (declared (.enumeration type) stored rfl)
  | @ordinal type stored =>
    exact .plain (.enumeration type) stored rfl (.tail _ (.head _))
      (declared (.enumeration type) stored rfl)
  | @symbol type stored =>
    exact .plain (.enumeration type) stored rfl (.tail _ (.tail _ (.head _)))
      (declared (.enumeration type) stored rfl)
  | union occurs named => exact linked_union closed generated occurs named settled
  | branch occurs named => exact .branch occurs named
  | record stored => exact linked_record closed generated stored settled
  | serialize stored =>
    refine .serialize stored (declaredRecord stored) fun shape mem => ?_
    exact (settled _ (List.mem_map.mpr ⟨shape, mem, rfl⟩)).writer
  | deserialize stored =>
    refine .deserialize stored (declaredRecord stored) (settled _ (.head _)).snippet fun shape mem => ?_
    exact (settled _ (.tail _ (List.mem_map.mpr ⟨shape, mem, rfl⟩))).reader
  | write codes compound =>
    have written : pkg.Settled ns (.write _) := held.settled (Shape.write_enters compound)
    exact .codec (.write codes (linksWriter_of_settled closed generated codes compound settled written))
  | read codes compound =>
    have readable : pkg.Settled ns (.read _) := held.settled (Shape.read_enters compound)
    exact .codec (.read codes (linksReader_of_settled closed generated codes compound settled readable))

end Generated

theorem fileName_union_ne (branches : List Shape) :
    fileName (Shape.union branches).canonicalName ≠ codecFile := by
  intro eq
  have chars := congrArg String.toList eq
  unfold fileName moduleName at chars
  split at chars <;>
    simp [Shape.canonicalName_union, snakeCase, snakeChars, codecFile] at chars

theorem NamedType.file_of_items {type : NamedType} {item : Placed} (mem : item ∈ type.items) :
    item.file = fileName type.name := by
  cases type <;> simp only [items, List.mem_cons, List.not_mem_nil, or_false] at mem <;>
    rcases mem with rfl | rfl | rfl <;> rfl

theorem Package.Linked.codec_or_own {ns : Namespace} {pkg : Package} {item : Placed}
    (linked : pkg.Linked ns item) (made : item.Made) (file : item.file = codecFile) :
    pkg.CodecLinked ns item ∨
      ∃ type : NamedType, ns.get? type.name = some type ∧ fileName type.name = codecFile := by
  cases linked with
  | use file path => exact absurd rfl (made path)
  | codec linked => exact Or.inl linked
  | plain type stored _ mem =>
    rw [NamedType.file_of_items mem] at file
    exact Or.inr ⟨type, stored, file⟩
  | @record record stored => exact Or.inr ⟨.record record, stored, file⟩
  | @serialize record stored => exact Or.inr ⟨.record record, stored, file⟩
  | @deserialize record stored => exact Or.inr ⟨.record record, stored, file⟩
  | @union name branches _ named =>
    subst named
    exact absurd file (fileName_union_ne branches)
  | @branch name branches _ named =>
    subst named
    exact absurd file (fileName_union_ne branches)

theorem not_codecLinked {ns : Namespace} {pkg : Package} {target method text : String}
    (attached : target ≠ "") : ¬pkg.CodecLinked ns ⟨codecFile, .routine ⟨target, method⟩ text⟩ := by
  generalize eq : (⟨codecFile, .routine ⟨target, method⟩ text⟩ : Placed) = item
  intro linked
  cases linked with
  | @snippet snippet deps =>
    have entry := (Placed.mk.inj eq).2
    unfold Snippet.entry at entry
    split at entry
    · cases entry
    · exact attached (RoutineKey.mk.inj (Entry.routine.inj entry).1).1
  | write | read => exact attached (RoutineKey.mk.inj (Entry.routine.inj (Placed.mk.inj eq).2).1).1

/-- Where a type has the codec file for its own, the file has a routine that is none of the codec. -/
theorem exists_foreign_routine {ns : Namespace} {pkg : Package} {package : String} (closed : ns.Closed)
    (generated : generate ns package = .ok pkg) (type : NamedType)
    (stored : ns.get? type.name = some type) (file : fileName type.name = codecFile) :
    ∃ key text, pkg.Holds ⟨codecFile, .routine key text⟩ ∧
      ¬pkg.CodecLinked ns ⟨codecFile, .routine key text⟩ := by
  have attached := (closed.named stored).2.ne_empty
  have holds {method text : String}
      (mem : ⟨fileName type.name, .routine ⟨type.name, method⟩ text⟩ ∈ type.items) :
      ∃ key text, pkg.Holds ⟨codecFile, .routine key text⟩ ∧
        ¬pkg.CodecLinked ns ⟨codecFile, .routine key text⟩ := by
    have held := holds_items closed generated type stored mem
    rw [file] at held
    exact ⟨_, _, held, not_codecLinked attached⟩
  cases type with
  | fixed => exact holds (.tail _ (.tail _ (.head _)))
  | enumeration => exact holds (.tail _ (.head _))
  | record => exact holds (.tail _ (.head _))

def primitiveText : String :=
  "\x7b\"type\":\"record\",\"name\":\"Primitive\",\"fields\":[]\x7d"

def primitiveRecord : Record where
  name := "Primitive"
  fields := []

def primitiveNamespace : Namespace where
  types := (∅ : Keyed String NamedType).insert "Primitive" (.record primitiveRecord)

def primitiveSchema : Schema :=
  .record "Primitive" none .done

theorem primitiveText_eq : primitiveText = primitiveSchema.text := by
  decide

theorem primitiveText_reads :
    (readDocuments [primitiveText]).runFrom .empty = (.ok (), primitiveNamespace) := by
  have declarable : Declarable "Primitive" := by decide
  rw [primitiveText_eq]
  exact readDocuments_text (by decide) (by decide)
    (Schema.run_record_of_declarable declarable nofun rfl rfl rfl rfl)

end AvroCompiler

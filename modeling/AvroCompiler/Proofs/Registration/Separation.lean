import AvroCompiler.Proofs.Registration.Collision
import AvroCompiler.Proofs.Registration.Exports
import AvroCompiler.Proofs.Registration.Linking

namespace AvroCompiler

theorem fileName_eq_codecFile_iff (name : String) :
    fileName name = codecFile ↔ snakeCase name = "primitive" := by
  have file : codecFile = "primitive" ++ ".rs" := by decide
  rw [fileName, file, String.append_left_inj, moduleName]
  split
  · rename_i bare
    refine ⟨fun eq => ?_, fun eq => ?_⟩
    · simp only [bareWords, List.mem_cons, List.not_mem_nil, or_false] at bare
      rcases bare with word | word | word | word | word <;>
        exact absurd (word ▸ eq) (by decide)
    · rw [eq] at bare
      exact absurd bare (by decide)
  · rfl

theorem TypeName.fileName_ne_indexFile {name : String} (h : TypeName name) : fileName name ≠ indexFile := by
  have file : indexFile = "mod" ++ ".rs" := by decide
  rw [fileName, file, ne_eq, String.append_left_inj]
  exact h.declarable.2.2.1

theorem fileName_union_ne_indexFile (branches : List Shape) :
    fileName (Shape.union branches).canonicalName ≠ indexFile := by
  intro eq
  have chars := congrArg String.toList eq
  unfold fileName moduleName at chars
  split at chars <;>
    simp [Shape.canonicalName_union, snakeCase, snakeChars, indexFile] at chars

def helperTypes : List String :=
  ["ByteReader", "ByteWriter", "DecodeError", "StringWriter"]

def codecStarts : List String :=
  ["encode_", "decode_", "write_", "read_"]

/-- An entry that the codec file is meant for: an import, a helper type, or a free routine of the
codec. -/
def Entry.IsCodec : Entry → Prop
  | .use _ => True
  | .constant _ _ => False
  | .type name _ => name ∈ helperTypes
  | .routine key _ => key.target = "" ∧ ∃ start ∈ codecStarts, start.toList <+: key.name.toList

theorem Snippet.isCodec_entry (snippet : Snippet) : snippet.entry.IsCodec := by
  cases snippet <;> simp [Snippet.entry, Snippet.isType, Snippet.name, Entry.IsCodec, helperTypes,
    codecStarts, RoutineKey.free]

theorem Shape.isCodec_writer (shape : Shape) (text : String) :
    (Entry.routine (.free shape.writer) text).IsCodec :=
  ⟨rfl, "write_", by decide, by simp [RoutineKey.free, writer, writerName]⟩

theorem Shape.isCodec_reader (shape : Shape) (text : String) :
    (Entry.routine (.free shape.reader) text).IsCodec :=
  ⟨rfl, "read_", by decide, by simp [RoutineKey.free, reader, readerName]⟩

theorem helperTypes_reserved : ∀ name ∈ helperTypes, name ∈ reservedNames := by
  decide

section Generated

variable {ns : Namespace} {pkg : Package} {package : String} (closed : ns.Closed)
  (generated : generate ns package = .ok pkg)

include closed generated

theorem isCodec_or_own {entry : Entry} (held : pkg.Holds ⟨codecFile, entry⟩) :
    entry.IsCodec ∨ ∃ type : NamedType, ns.get? type.name = some type ∧ fileName type.name = codecFile := by
  cases entry with
  | use path => exact .inl trivial
  | constant | type | routine =>
    rcases (linked_of_generate closed generated held).codec_or_own nofun rfl with linked | own
    · refine .inl ?_
      generalize eq : (⟨codecFile, _⟩ : Placed) = item at linked
      cases linked with
      | snippet => exact (Placed.mk.inj eq).2 ▸ Snippet.isCodec_entry _
      | write => exact (Placed.mk.inj eq).2 ▸ Shape.isCodec_writer _ _
      | read => exact (Placed.mk.inj eq).2 ▸ Shape.isCodec_reader _ _
    · exact .inr own

theorem codec_file_iff :
    (∀ entry, pkg.Holds ⟨codecFile, entry⟩ → entry.IsCodec) ↔
      ∀ type : NamedType, ns.get? type.name = some type → snakeCase type.name ≠ "primitive" := by
  refine ⟨fun codec type stored primitive => ?_, fun apart entry held => ?_⟩
  · have held := holds_declaration closed generated type stored
    rw [(fileName_eq_codecFile_iff _).mpr primitive] at held
    have helper : type.name ∈ helperTypes := codec _ held
    exact (closed.named stored).2.declarable.1 (helperTypes_reserved _ helper)
  · rcases isCodec_or_own closed generated held with codec | ⟨type, stored, file⟩
    · exact codec
    · exact absurd ((fileName_eq_codecFile_iff _).mp file) (apart type stored)

theorem file_of_declared {file name text : String} (held : pkg.Holds ⟨file, .type name text⟩)
    (other : ∀ snippet : Snippet, snippet.isType = true → snippet.name ≠ name) : file = fileName name := by
  rcases file_of_type closed generated held with ⟨⟨snippet, isType, eq⟩, -⟩ | ⟨-, home⟩
  · exact absurd eq (other snippet isType)
  · exact home

end Generated

theorem Namespace.union_or_stored {ns : Namespace} (closed : ns.Closed) {shape : Shape}
    (occurs : ns.Occurs shape) (bare : shape.Bare) :
    (∃ branches, shape = .union branches) ∨
      ∃ type : NamedType, ns.get? type.name = some type ∧ shape = type.shape := by
  have defined := closed.defines (Or.inl occurs)
  cases shape with
  | primitive | array | map | record => cases bare
  | fixed type => exact .inr ⟨.fixed type, defined, rfl⟩
  | enumeration type => exact .inr ⟨.enumeration type, defined, rfl⟩
  | union branches => exact .inl ⟨branches, rfl⟩

/-- Each union that occurs is declared in its own file, with its own branches. -/
def Package.DeclaresUnions (pkg : Package) (ns : Namespace) : Prop :=
  ∀ branches, ns.Occurs (.union branches) →
    pkg.Holds ⟨fileName (Shape.union branches).canonicalName, .type (Shape.union branches).canonicalName
      (Shape.unionDeclaration (Shape.union branches).canonicalName branches)⟩

section Declared

variable {ns : Namespace} {pkg : Package} {package : String} (closed : ns.Closed)
  (generated : generate ns package = .ok pkg) (declared : pkg.DeclaresUnions ns)

include closed generated declared

theorem declared_union_ne_stored {branches : List Shape} (occurs : ns.Occurs (.union branches)) {type : NamedType}
    (stored : ns.get? type.name = some type) : (Shape.union branches).canonicalName ≠ type.name := by
  intro name
  have held := declared branches occurs
  rw [name] at held
  exact type.declaration_ne_union _ _ (held.type_eq (holds_declaration closed generated type stored))

theorem eq_of_declared {a b : Shape} (occurs : ns.Occurs a) (occurs' : ns.Occurs b)
    (type : a.valueType = b.valueType) : a = b := by
  induction a using Shape.induction_components generalizing b with
  | step a ih =>
    have proper {shape : Shape} (h : ns.Occurs shape) : shape.Proper := closed.proper (Or.inl h)
    cases Shape.sameValue_of_valueType (proper occurs) (proper occurs') type with
    | primitive | record => rfl
    | @array items others inner =>
      exact congrArg Shape.array (ih items (.head _) (occurs.component (.head _))
        (occurs'.component (.head _)) inner)
    | @map values others inner =>
      exact congrArg Shape.map (ih values (.head _) (occurs.component (.head _))
        (occurs'.component (.head _)) inner)
    | bare bare bare' name =>
      rcases ns.union_or_stored closed occurs bare with ⟨as, rfl⟩ | ⟨x, stored, rfl⟩ <;>
        rcases ns.union_or_stored closed occurs' bare' with ⟨bs, rfl⟩ | ⟨y, stored', rfl⟩
      · -- Both unions are declared by one text, so that their branches have the same value types.
        have held := declared as occurs
        rw [name] at held
        refine congrArg Shape.union (Shape.eq_of_unionDeclaration (proper occurs').canonicalName_isWord
          (fun a mem => (proper occurs).component mem) (fun b mem => (proper occurs').component mem)
          (held.type_eq (declared bs occurs')) fun a memA b memB inner => ?_)
        exact ih a memA (occurs.component memA) (occurs'.component memB) inner
      · rw [y.shape_canonicalName] at name
        exact absurd name (declared_union_ne_stored closed generated declared occurs stored')
      · rw [x.shape_canonicalName] at name
        exact absurd name.symm (declared_union_ne_stored closed generated declared occurs' stored)
      · rw [x.shape_canonicalName, y.shape_canonicalName] at name
        rw [Namespace.stored_unique stored stored' name]

theorem not_masks_of_declared : ¬ns.Masks := by
  rintro ⟨name, as, bs, occurs, occurs', rfl, named, text, ne⟩
  have proper {branches : List Shape} (h : ns.Occurs (.union branches)) :
      ∀ branch ∈ branches, branch.Proper := fun branch mem => (closed.proper (Or.inl h)).component mem
  refine ne (Shape.eq_of_unionDeclaration (closed.proper (Or.inl occurs)).canonicalName_isWord
    (proper occurs) (proper occurs') text fun a memA b memB type => ?_)
  exact eq_of_declared closed generated declared (occurs.component memA) (occurs'.component memB) type

end Declared

theorem declaresUnions_iff {ns : Namespace} {pkg : Package} {package : String} (closed : ns.Closed)
    (generated : generate ns package = .ok pkg) : pkg.DeclaresUnions ns ↔ ¬ns.Masks :=
  ⟨not_masks_of_declared closed generated,
    fun unmasked _ occurs => holds_unionDeclaration closed generated unmasked rfl occurs⟩

/-- In a generated package the codec file is apart from the files of declared types, unless a type is
named like it: it holds the codec only. Each type and each union stands in the file named after it and in
no other, and every union does unless it hides behind another one. -/
theorem codec_file_stands_apart {texts : List String} {ns : Namespace} {package : String} {pkg : Package}
    (read : (readDocuments texts).runFrom .empty = (.ok (), ns))
    (generated : generate ns package = .ok pkg) :
    ((∀ entry, pkg.Holds ⟨codecFile, entry⟩ → entry.IsCodec) ↔
      ∀ type : NamedType, ns.get? type.name = some type → snakeCase type.name ≠ "primitive") ∧
    (∀ type : NamedType, ns.get? type.name = some type →
      pkg.Holds ⟨fileName type.name, .type type.name type.declaration⟩ ∧
      (∀ file text, pkg.Holds ⟨file, .type type.name text⟩ → file = fileName type.name) ∧
      (fileName type.name = codecFile ↔ snakeCase type.name = "primitive") ∧
      fileName type.name ≠ indexFile) ∧
    (∀ branches, ns.Occurs (.union branches) →
      let name := (Shape.union branches).canonicalName
      (∀ file text, pkg.Holds ⟨file, .type name text⟩ → file = fileName name) ∧
      fileName name ≠ codecFile ∧ fileName name ≠ indexFile) ∧
    (pkg.DeclaresUnions ns ↔ ¬ns.Masks) := by
  have closed := closed_of_readDocuments read
  refine ⟨codec_file_iff closed generated, fun type stored => ?_, fun branches _ => ?_,
    declaresUnions_iff closed generated⟩
  · have typed := (closed.named stored).2
    refine ⟨holds_declaration closed generated type stored, fun file text held => ?_,
      fileName_eq_codecFile_iff type.name, typed.fileName_ne_indexFile⟩
    refine file_of_declared closed generated held fun snippet isType eq => ?_
    exact typed.declarable.1 (eq ▸ Snippet.reserved_name isType)
  · refine ⟨fun file text held => ?_, fileName_union_ne branches, fileName_union_ne_indexFile branches⟩
    exact file_of_declared closed generated held fun snippet _ => snippet.name_ne_union branches

theorem node_unmasked : ¬nodeNamespace.Masks := by
  rintro ⟨name, as, bs, occurs, occurs', named, named', -, ne⟩
  exact ne (node_distinct.eq_of_union_name occurs occurs' (named.trans named'.symm))

theorem node_codec_file_stands_apart :
    (readDocuments [nodeText]).runFrom .empty = (.ok (), nodeNamespace) ∧
      ∃ pkg, generate nodeNamespace "avro" = .ok pkg ∧
        (∀ entry, pkg.Holds ⟨codecFile, entry⟩ → entry.IsCodec) ∧
        pkg.Holds ⟨fileName "Node", .type "Node" node.declaration⟩ ∧ pkg.DeclaresUnions nodeNamespace := by
  obtain ⟨pkg, generated⟩ :=
    generate_of_distinct (closed_of_readDocuments nodeText_reads) node_distinct "avro"
  obtain ⟨codec, types, -, unions⟩ := codec_file_stands_apart nodeText_reads generated
  refine ⟨nodeText_reads, pkg, generated, codec.mpr ?_, ?_, unions.mpr node_unmasked⟩
  · intro type stored
    cases node_stored stored
    simp [NamedType.name, node, snakeCase, snakeChars]
  · exact (types (.record node) rfl).1

/-- A text with a union that stands nowhere but behind another one. -/
def hiddenText : String :=
  "\x7b\"type\":\"record\",\"name\":\"Outer\",\"fields\":[" ++
    "\x7b\"name\":\"f\",\"type\":[\x7b\"type\":\"array\",\"items\":[" ++
      "\x7b\"type\":\"record\",\"name\":\"ArrayUnionIntString\",\"fields\":[]\x7d]\x7d]\x7d," ++
    "\x7b\"name\":\"g\",\"type\":[\x7b\"type\":\"array\",\"items\":[" ++
      "\x7b\"type\":\"array\",\"items\":[\"int\",\"string\"]\x7d]\x7d]\x7d]\x7d"

def hiddenFields : FieldSchemas :=
  .cons "f" none (.union [.array (.union [.record "ArrayUnionIntString" none .done])])
    (.cons "g" none (.union [.array (.union [.array (.union [.primitive .int, .primitive .string])])]) .done)

def hiddenUnion : Shape := .union [.primitive .int, .primitive .string]

def coveringUnion : Shape := .union [.array (.union [.record "ArrayUnionIntString"])]

def arrayUnion : Record where
  name := "ArrayUnionIntString"
  fields := []

def hiddenOuter : Record where
  name := "Outer"
  fields := [⟨"f", coveringUnion, none⟩, ⟨"g", .union [.array (.union [.array hiddenUnion])], none⟩]

def arrayUnionNamespace : Namespace where
  types := (∅ : Keyed String NamedType).insert "ArrayUnionIntString" (.record arrayUnion)
  declared := ["Outer"]

def hiddenNamespace : Namespace where
  types := arrayUnionNamespace.types.insert "Outer" (.record hiddenOuter)

theorem hiddenText_eq : hiddenText = (Schema.record "Outer" none hiddenFields).text := by
  decide +kernel

theorem hiddenFields_run : hiddenFields.fields.runFrom { declared := ["Outer"] } =
    (.ok hiddenOuter.fields, arrayUnionNamespace) := by
  have declarable : Declarable "ArrayUnionIntString" := by decide
  have inner : (Schema.record "ArrayUnionIntString" none .done).shape.runFrom { declared := ["Outer"] } =
      (.ok (.record "ArrayUnionIntString"), arrayUnionNamespace) :=
    Schema.run_record_of_declarable declarable nofun rfl rfl rfl rfl
  have covered : (Schema.union [.record "ArrayUnionIntString" none .done]).shape.runFrom
      { declared := ["Outer"] } = (.ok (.union [.record "ArrayUnionIntString"]), arrayUnionNamespace) :=
    Schema.run_union (Schema.run_shapes_cons inner rfl) rfl
  refine Schema.run_fields_cons
    (Schema.run_union (Schema.run_shapes_cons (Schema.run_array covered) rfl) rfl) ?_
  rfl

theorem hiddenText_reads : (readDocuments [hiddenText]).runFrom .empty = (.ok (), hiddenNamespace) := by
  have declarable : Declarable "Outer" := by decide
  rw [hiddenText_eq]
  exact readDocuments_text (by decide +kernel) (by decide +kernel)
    (Schema.run_record_of_declarable declarable nofun rfl hiddenFields_run rfl rfl)

theorem occurs_hiddenUnion : hiddenNamespace.Occurs hiddenUnion :=
  ⟨"Outer", hiddenOuter, rfl, .union [.array (.union [.array hiddenUnion])], .tail _ (.head _),
    .inside (.head _) (.inside (.head _) (.inside (.head _) (.inside (.head _) .self)))⟩

/-- A record that is declared in the codec file, and a union that is declared nowhere. -/
theorem primitive_and_hidden_union :
    ((readDocuments [primitiveText]).runFrom .empty = (.ok (), primitiveNamespace) ∧
      ∃ pkg, generate primitiveNamespace "avro" = .ok pkg ∧
        ∃ entry, pkg.Holds ⟨codecFile, entry⟩ ∧ ¬entry.IsCodec) ∧
    (readDocuments [hiddenText]).runFrom .empty = (.ok (), hiddenNamespace) ∧
      ∃ pkg, generate hiddenNamespace "avro" = .ok pkg ∧ hiddenNamespace.Occurs hiddenUnion ∧
        ∀ file text, ¬pkg.Holds ⟨file, .type hiddenUnion.canonicalName text⟩ := by
  have primitive : (Package.rehearse primitiveNamespace 50 [] ⟨"avro", ∅⟩ primitiveNamespace.tasks).isSome =
      true := by
    decide +kernel
  have hidden : (Package.rehearse hiddenNamespace 200 [] ⟨"avro", ∅⟩ hiddenNamespace.tasks).map
      (fun pkg => pkg.has (fileName hiddenUnion.canonicalName) (.type hiddenUnion.canonicalName)) =
        some false := by
    decide +kernel
  refine ⟨⟨primitiveText_reads, ?_⟩, hiddenText_reads, ?_⟩
  · obtain ⟨pkg, rehearsed⟩ := Option.isSome_iff_exists.mp primitive
    have generated := generate_of_rehearse rehearsed
    have held := holds_declaration (closed_of_readDocuments primitiveText_reads) generated
      (.record primitiveRecord) rfl
    rw [(fileName_eq_codecFile_iff _).mpr (by decide +kernel)] at held
    exact ⟨pkg, generated, _, held, by simp [Entry.IsCodec, helperTypes, NamedType.name, primitiveRecord]⟩
  · obtain ⟨pkg, rehearsed, absent⟩ := Option.map_eq_some_iff.mp hidden
    have generated := generate_of_rehearse rehearsed
    refine ⟨pkg, generated, occurs_hiddenUnion, fun file text held => ?_⟩
    obtain rfl := file_of_declared (closed_of_readDocuments hiddenText_reads) generated held
      fun snippet _ => snippet.name_ne_union _
    have found : pkg.get? (fileName hiddenUnion.canonicalName) (.type hiddenUnion.canonicalName) =
        some (.type hiddenUnion.canonicalName text) := held
    rw [Package.has, found] at absent
    cases absent

end AvroCompiler

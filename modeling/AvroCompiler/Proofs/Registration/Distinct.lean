import AvroCompiler.Proofs.Registration.Origin
import AvroCompiler.Proofs.Text.Case

namespace AvroCompiler

/-- The entry is more than an import. -/
def Placed.Made (item : Placed) : Prop :=
  ∀ path, item.entry ≠ .use path

theorem Placed.eq_or_made {item other : Placed} (file : other.file = item.file)
    (key : other.entry.key = item.entry.key) : other = item ∨ item.Made := by
  obtain ⟨place, entry⟩ := item
  obtain ⟨place', entry'⟩ := other
  cases file
  cases entry with
  | use path =>
    cases entry' with
    | use path' =>
      cases key
      exact Or.inl rfl
    | constant | type | routine => cases key
  | constant | type | routine => exact Or.inr nofun

namespace Snippet

theorem ofName?_name (snippet : Snippet) : ofName? snippet.name = some snippet := by
  cases snippet <;> decide

theorem eq_of_name {a b : Snippet} (h : a.name = b.name) : a = b := by
  have found := ofName?_name a
  rw [h, ofName?_name b] at found
  exact (Option.some.inj found).symm

theorem eq_of_read_start {snippet : Snippet} (h : "read_".toList <+: snippet.name.toList) :
    snippet = .readBlocks ∨ ∃ kind : Primitive, snippet = kind.readSnippet := by
  cases snippet with
  | readBlocks => exact Or.inl rfl
  | readNull => exact Or.inr ⟨.null, rfl⟩
  | readBool => exact Or.inr ⟨.boolean, rfl⟩
  | readInt => exact Or.inr ⟨.int, rfl⟩
  | readLong => exact Or.inr ⟨.long, rfl⟩
  | readFloat => exact Or.inr ⟨.float, rfl⟩
  | readDouble => exact Or.inr ⟨.double, rfl⟩
  | readBytes => exact Or.inr ⟨.bytes, rfl⟩
  | readString => exact Or.inr ⟨.string, rfl⟩
  | _ => simp [name] at h

end Snippet

namespace Namespace

/-- The shapes whose names generation uses: the primitive ones, those of stored types, and all that
stand in records. -/
inductive Lists (ns : Namespace) : Shape → Prop
  | primitive (kind : Primitive) : Lists ns (.primitive kind)
  | stored {type : NamedType} (stored : ns.get? type.name = some type) : Lists ns type.shape
  | occurs {shape : Shape} (occurs : ns.Occurs shape) : Lists ns shape

/-- Different shapes have different names in snake case, and none of them is that of the block
routines. -/
structure Distinct (ns : Namespace) : Prop where
  shapes : ∀ {a b : Shape}, ns.Lists a → ns.Lists b →
    snakeCase a.canonicalName = snakeCase b.canonicalName → a = b
  blocks : ∀ {a : Shape}, ns.Lists a → snakeCase a.canonicalName ≠ "blocks"

variable {ns : Namespace}

theorem Codes.lists {shape : Shape} (h : ns.Codes shape) : ns.Lists shape := by
  rcases h with occurs | ⟨type, stored, _, rfl⟩
  · exact .occurs occurs
  · exact .stored stored

namespace Distinct

variable (distinct : ns.Distinct)

include distinct

theorem union_ne_stored {branches : List Shape} (occurs : ns.Occurs (.union branches))
    {type : NamedType} (stored : ns.get? type.name = some type) :
    (Shape.union branches).canonicalName ≠ type.name := by
  intro name
  rw [← type.shape_canonicalName] at name
  have same := distinct.shapes (.occurs occurs) (.stored stored) (congrArg snakeCase name)
  cases type <;> cases same

theorem eq_of_union_name {as bs : List Shape} (occurs : ns.Occurs (.union as))
    (occurs' : ns.Occurs (.union bs))
    (name : (Shape.union as).canonicalName = (Shape.union bs).canonicalName) : as = bs :=
  Shape.union.inj (distinct.shapes (.occurs occurs) (.occurs occurs') (congrArg snakeCase name))

theorem eq_of_stored {a b : NamedType} (ha : ns.get? a.name = some a) (hb : ns.get? b.name = some b)
    (name : snakeCase a.name = snakeCase b.name) : a = b := by
  refine stored_unique ha hb ?_
  rw [← a.shape_canonicalName, ← b.shape_canonicalName] at name
  have same := distinct.shapes (.stored ha) (.stored hb) name
  rw [← a.shape_canonicalName, ← b.shape_canonicalName, same]

theorem eq_of_writer {a b : Shape} (ha : ns.Lists a) (hb : ns.Lists b) (name : a.writer = b.writer) :
    a = b :=
  distinct.shapes ha hb ((String.append_right_inj "write_").mp name)

theorem eq_of_reader {a b : Shape} (ha : ns.Lists a) (hb : ns.Lists b) (name : a.reader = b.reader) :
    a = b :=
  distinct.shapes ha hb ((String.append_right_inj "read_").mp name)

theorem snippet_ne_writer {shape : Shape} (lists : ns.Lists shape) (compound : shape.Compound)
    (snippet : Snippet) : snippet.name ≠ shape.writer := by
  intro name
  have start : "write_".toList <+: snippet.name.toList := by
    rw [name]
    simp [Shape.writer, writerName]
  rcases Snippet.eq_of_write_start start with rfl | ⟨kind, rfl⟩
  · exact distinct.blocks lists ((String.append_right_inj "write_").mp name).symm
  · rw [← Shape.writer_primitive] at name
    exact compound kind (distinct.eq_of_writer (.primitive kind) lists name).symm

theorem snippet_ne_reader {shape : Shape} (lists : ns.Lists shape) (compound : shape.Compound)
    (snippet : Snippet) : snippet.name ≠ shape.reader := by
  intro name
  have start : "read_".toList <+: snippet.name.toList := by
    rw [name]
    simp [Shape.reader, readerName]
  rcases Snippet.eq_of_read_start start with rfl | ⟨kind, rfl⟩
  · exact distinct.blocks lists ((String.append_right_inj "read_").mp name).symm
  · rw [← Shape.reader_primitive] at name
    exact compound kind (distinct.eq_of_reader (.primitive kind) lists name).symm

end Distinct

section Unique

variable {file file' name text text' : String} {next next' : List Task} (closed : ns.Closed)
  (distinct : ns.Distinct)

include closed distinct

theorem Emits.type_unique (h : ns.Emits ⟨file, .type name text⟩ next)
    (h' : ns.Emits ⟨file', .type name text'⟩ next') :
    file = file' ∧ text = text' ∧ next = next' := by
  have reserved {snippet : Snippet} (isType : snippet.isType = true) {type : NamedType}
      (stored : ns.get? type.name = some type) : snippet.name ≠ type.name := fun eq =>
    (closed.named stored).2.declarable.1 (eq ▸ Snippet.reserved_name isType)
  rcases h.type_cases with ⟨a, isType, rfl, rfl, rfl, rfl⟩ | ⟨a, stored, rfl, rfl, rfl, rfl⟩ |
    ⟨as, occurs, rfl, rfl, rfl, rfl⟩
  · rcases h'.type_cases with ⟨b, _, rfl, name, rfl, rfl⟩ | ⟨b, stored, _, name, _⟩ |
      ⟨bs, occurs, _, name, _⟩
    · rw [Snippet.eq_of_name name]
      exact ⟨rfl, rfl, rfl⟩
    · exact absurd name.symm (reserved isType stored)
    · exact absurd name.symm (a.name_ne_union bs)
  · rcases h'.type_cases with ⟨b, isType, _, name, _⟩ | ⟨b, stored', rfl, name, rfl, rfl⟩ |
      ⟨bs, occurs, _, name, _⟩
    · exact absurd name (reserved isType stored)
    · rw [stored_unique stored' stored name]
      exact ⟨rfl, rfl, rfl⟩
    · exact absurd name (distinct.union_ne_stored occurs stored)
  · rcases h'.type_cases with ⟨b, _, _, name, _⟩ | ⟨b, stored, _, name, _⟩ |
      ⟨bs, occurs', rfl, name, rfl, rfl⟩
    · exact absurd name (b.name_ne_union as)
    · exact absurd name.symm (distinct.union_ne_stored occurs stored)
    · rw [distinct.eq_of_union_name occurs' occurs name]
      exact ⟨rfl, rfl, rfl⟩

theorem Emits.free_unique {word : String} (h : ns.Emits ⟨file, .routine (.free word) text⟩ next)
    (h' : ns.Emits ⟨file', .routine (.free word) text'⟩ next') :
    file = file' ∧ text = text' ∧ next = next' := by
  rcases h.free_cases closed with ⟨a, _, rfl, rfl, rfl, rfl⟩ | ⟨a, stored, rfl, rfl, rfl, rfl⟩ |
    ⟨a, codes, compound, rfl, rfl, rfl, rfl⟩ | ⟨a, codes, compound, rfl, rfl, rfl, rfl⟩
  · rcases h'.free_cases closed with ⟨b, _, rfl, name, rfl, rfl⟩ | ⟨b, _, _, name, _⟩ |
      ⟨b, codes, compound, _, name, _⟩ | ⟨b, codes, compound, _, name, _⟩
    · rw [Snippet.eq_of_name name]
      exact ⟨rfl, rfl, rfl⟩
    · exact absurd name.symm (a.name_ne_deserializer _)
    · exact absurd name.symm (distinct.snippet_ne_writer codes.lists compound a)
    · exact absurd name.symm (distinct.snippet_ne_reader codes.lists compound a)
  · rcases h'.free_cases closed with ⟨b, _, _, name, _⟩ | ⟨b, stored', rfl, name, rfl, rfl⟩ |
      ⟨b, _, _, _, name, _⟩ | ⟨b, _, _, _, name, _⟩
    · exact absurd name (b.name_ne_deserializer _)
    · have snake := (String.append_right_inj "deserialize_").mp name
      have same : NamedType.record b = .record a := distinct.eq_of_stored stored' stored snake
      rw [NamedType.record.inj same]
      exact ⟨rfl, rfl, rfl⟩
    · exact absurd name (b.writer_ne_deserializer _)
    · exact absurd name (b.reader_ne_deserializer _)
  · rcases h'.free_cases closed with ⟨b, _, _, name, _⟩ | ⟨b, _, _, name, _⟩ |
      ⟨b, codes', _, rfl, name, rfl, rfl⟩ | ⟨b, _, _, _, name, _⟩
    · exact absurd name (distinct.snippet_ne_writer codes.lists compound b)
    · exact absurd name.symm (a.writer_ne_deserializer _)
    · rw [distinct.eq_of_writer codes'.lists codes.lists name]
      exact ⟨rfl, rfl, rfl⟩
    · exact absurd name.symm (a.writer_ne_reader b)
  · rcases h'.free_cases closed with ⟨b, _, _, name, _⟩ | ⟨b, _, _, name, _⟩ |
      ⟨b, _, _, _, name, _⟩ | ⟨b, codes', _, rfl, name, rfl, rfl⟩
    · exact absurd name (distinct.snippet_ne_reader codes.lists compound b)
    · exact absurd name.symm (a.reader_ne_deserializer _)
    · exact absurd name (b.writer_ne_reader a)
    · rw [distinct.eq_of_reader codes'.lists codes.lists name]
      exact ⟨rfl, rfl, rfl⟩

omit closed in
theorem Emits.attached_unique {target method : String} (free : target ≠ "")
    (h : ns.Emits ⟨file, .routine ⟨target, method⟩ text⟩ next)
    (h' : ns.Emits ⟨file', .routine ⟨target, method⟩ text'⟩ next') :
    file = file' ∧ text = text' ∧ next = next' := by
  have noBranch {type : NamedType} {text : String} : ("branch", text) ∉ type.methods := by
    cases type <;> simp [NamedType.methods]
  obtain ⟨rfl, origin⟩ := h.attached_cases free
  obtain ⟨rfl, origin'⟩ := h'.attached_cases free
  rcases origin with ⟨a, stored, rfl, mem, rfl⟩ | ⟨as, occurs, rfl, rfl, rfl, rfl⟩
  · rcases origin' with ⟨b, stored', name, mem', rfl⟩ | ⟨bs, _, _, rfl, _⟩
    · cases stored_unique stored' stored name
      refine ⟨rfl, ?_, rfl⟩
      cases a <;> grind [NamedType.methods]
    · exact absurd mem noBranch
  · rcases origin' with ⟨b, _, _, mem, _⟩ | ⟨bs, occurs', name, _, rfl, rfl⟩
    · exact absurd mem noBranch
    · rw [distinct.eq_of_union_name occurs' occurs name]
      exact ⟨rfl, rfl, rfl⟩

theorem Emits.unique {item other : Placed} (h : ns.Emits item next) (h' : ns.Emits other next')
    (made : item.Made) (key : other.entry.key = item.entry.key) : other = item ∧ next' = next := by
  obtain ⟨place, entry⟩ := item
  obtain ⟨place', entry'⟩ := other
  cases entry with
  | use path => exact absurd rfl (made path)
  | constant name value =>
    cases entry' with
    | constant name' value' =>
      cases key
      obtain ⟨a, stored, rfl, rfl, rfl, rfl⟩ := h.constant_cases
      obtain ⟨b, stored', rfl, name, rfl, rfl⟩ := h'.constant_cases
      have same : NamedType.fixed b = .fixed a :=
        distinct.eq_of_stored stored' stored (snakeCase_eq_of_sizeConstant name)
      rw [NamedType.fixed.inj same]
      exact ⟨rfl, rfl⟩
    | use | type | routine => cases key
  | type name text =>
    cases entry' with
    | type name' text' =>
      cases key
      obtain ⟨rfl, rfl, rfl⟩ := h'.type_unique closed distinct h
      exact ⟨rfl, rfl⟩
    | use | constant | routine => cases key
  | routine routine text =>
    cases entry' with
    | routine routine' text' =>
      cases key
      obtain ⟨target, word⟩ := routine
      by_cases free : target = ""
      · subst free
        obtain ⟨rfl, rfl, rfl⟩ := Emits.free_unique closed distinct h' h
        exact ⟨rfl, rfl⟩
      · obtain ⟨rfl, rfl, rfl⟩ := h'.attached_unique distinct free h
        exact ⟨rfl, rfl⟩
    | use | constant | type => cases key

end Unique

end Namespace

end AvroCompiler

import AvroCompiler.Emit.Declaration
import AvroCompiler.Code.Tree
import AvroCompiler.Proofs.Text.Blank
import AvroCompiler.Proofs.Text.Lines

namespace AvroCompiler

/-- The third list is the first one with the lines of the second one put in, in their order. -/
inductive Interleaved {α : Type} : List α → List α → List α → Prop
  | nil : Interleaved [] [] []
  | keep (a : α) {old new all : List α} (rest : Interleaved old new all) :
      Interleaved (a :: old) new (a :: all)
  | put (a : α) {old new all : List α} (rest : Interleaved old new all) :
      Interleaved old (a :: new) (a :: all)

namespace Interleaved

variable {α β : Type} {old new all old' new' all' : List α}

theorem keep_all (old : List α) : Interleaved old [] old := by
  induction old with
  | nil => exact .nil
  | cons a rest ih => exact .keep a ih

theorem put_all (new : List α) : Interleaved [] new new := by
  induction new with
  | nil => exact .nil
  | cons a rest ih => exact .put a ih

theorem append (h : Interleaved old new all) (h' : Interleaved old' new' all') :
    Interleaved (old ++ old') (new ++ new') (all ++ all') := by
  induction h with
  | nil => exact h'
  | keep a _ ih => exact .keep a ih
  | put a _ ih => exact .put a ih

theorem behind_kept (kept : List α) (h : Interleaved old new all) :
    Interleaved (kept ++ old) new (kept ++ all) :=
  (keep_all kept).append h

theorem before_kept (kept : List α) (h : Interleaved old new all) :
    Interleaved (old ++ kept) new (all ++ kept) := by
  simpa using h.append (keep_all kept)

theorem flatMap {xs : List β} {f g h : β → List α} (each : ∀ x ∈ xs, Interleaved (f x) (g x) (h x)) :
    Interleaved (xs.flatMap f) (xs.flatMap g) (xs.flatMap h) := by
  induction xs with
  | nil => exact .nil
  | cons x xs ih =>
    obtain ⟨first, rest⟩ := List.forall_mem_cons.mp each
    simp only [List.flatMap_cons]
    exact first.append (ih rest)

theorem perm (h : Interleaved old new all) : all.Perm (old ++ new) := by
  induction h with
  | nil => exact .nil
  | keep a _ ih => exact ih.cons a
  | put a _ ih => exact (ih.cons a).trans List.perm_middle.symm

theorem new_perm (h : Interleaved old new all) (h' : Interleaved old new' all) : new.Perm new' :=
  (List.perm_append_left_iff old).mp (h.perm.symm.trans h'.perm)

end Interleaved

/-- An indented comment of documentation, whose text has none of these characters. -/
def IsDocLine (banned : List Char) (line : String) : Prop :=
  ∃ indent text, line = indent ++ "///" ++ text ∧ (∀ c ∈ indent.toList, c = ' ') ∧
    ∀ c ∈ banned, c ∉ text.toList

theorem IsDocLine.not_mem {banned : List Char} {line : String} {c : Char} (doc : IsDocLine banned line)
    (bad : c ∈ banned) (plain : c ≠ ' ' ∧ c ≠ '/') : c ∉ line.toList := by
  obtain ⟨indent, text, rfl, spaces, free⟩ := doc
  simp only [String.toList_append, List.mem_append]
  rintro ((held | held) | held)
  · exact plain.1 (spaces c held)
  · exact plain.2 (by simpa using held)
  · exact free c bad held

/-- The second text is the first one with whole lines put in that are comments of documentation. -/
def IsCommented (banned : List Char) (bare full : String) : Prop :=
  ∃ comments, Interleaved (textLines bare) comments (textLines full) ∧
    ∀ line ∈ comments, IsDocLine banned line

/-- A CR stands inside a line of the text. -/
def HasInnerReturn (doc : String) : Prop :=
  ∃ line ∈ splitLines doc.toList, IsInner '\r' line

theorem blank_no_indent : ∀ c ∈ "".toList, c = ' ' := by simp

theorem blank_member_indent : ∀ c ∈ "    ".toList, c = ' ' := by simp

theorem mem_docLines {indent line : String} {doc : Option String} :
    line ∈ docLines indent doc ↔ ∃ text, doc = some text ∧ ∃ inner ∈ trimmedLines text,
      line = indent ++ "///" ++ if inner = "" then "" else " " ++ inner := by
  have shown (inner : String) : (if inner = "" then s!"{indent}///" else s!"{indent}/// {inner}") =
      indent ++ "///" ++ if inner = "" then "" else " " ++ inner := by
    have space : "/// " = "///" ++ " " := by decide
    split
    · simp
    · change indent ++ "/// " ++ inner = _
      rw [space]
      simp only [String.append_assoc]
  cases doc with
  | none => simp [docLines]
  | some text =>
    simp only [docLines, List.mem_map, shown, Option.some.injEq, exists_eq_left', eq_comm (a := line)]

theorem isDocLine_docLines {indent line : String} (blank : ∀ c ∈ indent.toList, c = ' ')
    {doc : Option String} {banned : List Char} (space : ' ' ∉ banned)
    (free : ∀ text, doc = some text → ∀ inner ∈ trimmedLines text, ∀ c ∈ banned, c ∉ inner.toList)
    (mem : line ∈ docLines indent doc) : IsDocLine banned line := by
  obtain ⟨text, rfl, inner, listed, rfl⟩ := mem_docLines.mp mem
  refine ⟨indent, _, rfl, blank, fun c bad held => ?_⟩
  split at held
  · simp at held
  · rw [String.toList_append] at held
    rcases List.mem_append.mp held with here | here
    · cases List.mem_singleton.mp here
      exact space bad
    · exact free text rfl inner listed c bad here

theorem lineEnd_not_mem_trimmedLines {text inner : String} (mem : inner ∈ trimmedLines text) :
    '\n' ∉ inner.toList := by
  obtain ⟨line, split, rfl⟩ := List.mem_map.mp mem
  rw [String.toList_ofList, mem_trimChars_iff (by decide)]
  rintro ⟨before, after, rfl, -⟩
  exact not_mem_of_mem_splitLines split (by simp)

theorem return_mem_trimmedLines_iff (text : String) :
    (∃ inner ∈ trimmedLines text, '\r' ∈ inner.toList) ↔ HasInnerReturn text := by
  constructor
  · rintro ⟨inner, mem, held⟩
    obtain ⟨line, split, rfl⟩ := List.mem_map.mp mem
    rw [String.toList_ofList, mem_trimChars_iff (by decide)] at held
    exact ⟨line, split, held⟩
  · rintro ⟨line, split, held⟩
    refine ⟨_, List.mem_map_of_mem split, ?_⟩
    rw [String.toList_ofList, mem_trimChars_iff (by decide)]
    exact held

theorem textLines_docLines {indent : String} (blank : ∀ c ∈ indent.toList, c = ' ') (doc : Option String) :
    (docLines indent doc).flatMap textLines = docLines indent doc := by
  refine flatMap_textLines_of_plain fun line mem => ?_
  have comment : IsDocLine ['\n'] line := by
    refine isDocLine_docLines blank (by decide) (fun text _ inner listed c bad => ?_) mem
    cases List.mem_singleton.mp bad
    exact lineEnd_not_mem_trimmedLines listed
  exact comment.not_mem (by decide) (by decide)

namespace Record

def bare (record : Record) : Record where
  name := record.name
  fields := record.fields.map fun field => { field with doc := none }

def docs (record : Record) : List String :=
  record.doc.toList ++ record.fields.filterMap Field.doc

def comments (record : Record) : List String :=
  docLines "" record.doc ++ record.fields.flatMap fun field => docLines "    " field.doc

theorem textLines_declaration (record : Record) :
    textLines record.declaration =
      docLines "" record.doc ++ (["#[derive(Debug, Clone, PartialEq)]"] ++
        if record.fields = [] then textLines s!"pub struct {record.name} \x7b\x7d"
        else textLines s!"pub struct {record.name} \x7b" ++
          ((record.fields.flatMap fun field => docLines "    " field.doc ++
            textLines s!"    pub {field.member}: {field.shape.valueType},") ++ ["\x7d"])) := by
  have single (line : String) : [line].flatMap textLines = textLines line := List.flatMap_singleton _ _
  have derives : textLines "#[derive(Debug, Clone, PartialEq)]" = ["#[derive(Debug, Clone, PartialEq)]"] :=
    textLines_of_plain (by decide)
  have closes : textLines "\x7d" = ["\x7d"] := textLines_of_plain (by decide)
  have member (field : Field) : (memberLines field).flatMap textLines = docLines "    " field.doc ++
      textLines s!"    pub {field.member}: {field.shape.valueType}," := by
    rw [memberLines, List.flatMap_append, single, textLines_docLines blank_member_indent]
  rw [declaration, textLines_joinLines (by simp), List.flatMap_append, List.flatMap_append, single, derives,
    textLines_docLines blank_no_indent, List.append_assoc]
  split
  · rw [single]
  · rw [List.flatMap_append, List.flatMap_append, single, single, closes, List.flatMap_assoc,
      List.append_assoc]
    simp only [member]

theorem interleaved_declaration (record : Record) :
    Interleaved (textLines record.bare.declaration) record.comments (textLines record.declaration) := by
  -- The two declarations have the same pieces, but for the comments in front of the record and its fields.
  rw [textLines_declaration, textLines_declaration]
  refine (Interleaved.put_all _).append (.behind_kept _ ?_)
  by_cases empty : record.fields = []
  · rw [if_pos (by simp [bare, empty]), if_pos empty, empty]
    exact .keep_all _
  · rw [if_neg (by simp [bare, empty]), if_neg empty]
    refine .behind_kept _ (.before_kept _ ?_)
    rw [bare, List.flatMap_map]
    exact .flatMap fun field _ => .before_kept _ (.put_all _)

theorem mem_docs {record : Record} {text : String} :
    text ∈ record.docs ↔ record.doc = some text ∨ ∃ field ∈ record.fields, field.doc = some text := by
  simp [docs]

theorem mem_comments {record : Record} {line : String} :
    line ∈ record.comments ↔
      line ∈ docLines "" record.doc ∨ ∃ field ∈ record.fields, line ∈ docLines "    " field.doc := by
  simp [comments]

theorem isDocLine_comments {record : Record} {banned : List Char} (space : ' ' ∉ banned)
    (free : ∀ text ∈ record.docs, ∀ inner ∈ trimmedLines text, ∀ c ∈ banned, c ∉ inner.toList) :
    ∀ line ∈ record.comments, IsDocLine banned line := by
  intro line mem
  rcases mem_comments.mp mem with mem | ⟨field, listed, mem⟩
  · exact isDocLine_docLines blank_no_indent space (fun text eq => free text (mem_docs.mpr (.inl eq))) mem
  · exact isDocLine_docLines blank_member_indent space
      (fun text eq => free text (mem_docs.mpr (.inr ⟨field, listed, eq⟩))) mem

theorem exists_comment_of_hasInnerReturn {record : Record} {text : String} (mem : text ∈ record.docs)
    (inside : HasInnerReturn text) : ∃ line ∈ record.comments, '\r' ∈ line.toList := by
  obtain ⟨inner, listed, held⟩ := (return_mem_trimmedLines_iff text).mpr inside
  have full : inner ≠ "" := by
    rintro rfl
    simp at held
  have shown (indent : String) {doc : Option String} (eq : doc = some text) :
      indent ++ "///" ++ (" " ++ inner) ∈ docLines indent doc :=
    mem_docLines.mpr ⟨text, eq, inner, listed, by rw [if_neg full]⟩
  have held (indent : String) : '\r' ∈ (indent ++ "///" ++ (" " ++ inner)).toList := by
    simp only [String.toList_append, List.mem_append]
    exact .inr (.inr held)
  rcases mem_docs.mp mem with eq | ⟨field, listed, eq⟩
  · exact ⟨_, mem_comments.mpr (.inl (shown "" eq)), held _⟩
  · exact ⟨_, mem_comments.mpr (.inr ⟨field, listed, shown "    " eq⟩), held _⟩

/-- The comments are determined by the two declarations, so one bad comment spoils every reading. -/
theorem not_isCommented_of_hasInnerReturn {record : Record} {text : String} (mem : text ∈ record.docs)
    (inside : HasInnerReturn text) :
    ¬ IsCommented ['\n', '\r'] record.bare.declaration record.declaration := by
  rintro ⟨comments, put, good⟩
  obtain ⟨line, listed, held⟩ := exists_comment_of_hasInnerReturn mem inside
  -- Whatever lines are taken for the comments, they are those of the record in some order.
  have same := record.interleaved_declaration.new_perm put
  exact (good line (same.mem_iff.mp listed)).not_mem (by decide) (by decide) held

/-- The declaration of a record is the one without documentation with whole comment lines put in. No comment
holds an LF, and none holds a CR exactly if no documentation text has a CR inside a line. -/
theorem documentation_only_adds_comments (record : Record) :
    IsCommented ['\n'] record.bare.declaration record.declaration ∧
      (IsCommented ['\n', '\r'] record.bare.declaration record.declaration ↔
        ∀ text ∈ record.docs, ¬ HasInnerReturn text) := by
  refine ⟨⟨_, record.interleaved_declaration, ?_⟩, fun clean text mem inside => ?_, fun plain => ?_⟩
  · refine isDocLine_comments (by decide) fun text _ inner listed c bad => ?_
    cases List.mem_singleton.mp bad
    exact lineEnd_not_mem_trimmedLines listed
  · exact not_isCommented_of_hasInnerReturn mem inside clean
  · refine ⟨_, record.interleaved_declaration, isDocLine_comments (by decide) ?_⟩
    intro text mem inner listed c bad held
    have ends : c = '\n' ∨ c = '\r' := by simpa using bad
    rcases ends with rfl | rfl
    · exact lineEnd_not_mem_trimmedLines listed held
    · exact plain text mem ((return_mem_trimmedLines_iff text).mp ⟨inner, listed, held⟩)

def note : Record where
  name := "Note"
  doc := some "a\rb"
  fields := []

/-- One of its comments holds the CR, and the declaration, which is code without the documentation, can not
be cut into tokens. -/
theorem note_documentation_breaks_declaration :
    ¬ IsCommented ['\n', '\r'] note.bare.declaration note.declaration ∧
      (Code.trees? note.bare.declaration).isSome ∧ Code.trees? note.declaration = none := by
  have inside : HasInnerReturn "a\rb" :=
    ⟨['a', '\r', 'b'], by decide, ['a'], ['b'], rfl, ⟨'a', by decide⟩, ⟨'b', by decide⟩⟩
  exact ⟨not_isCommented_of_hasInnerReturn (by decide) inside, by decide +kernel, by decide +kernel⟩

end Record

end AvroCompiler

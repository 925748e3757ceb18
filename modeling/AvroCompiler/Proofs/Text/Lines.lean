import AvroCompiler.Text.Blank

namespace AvroCompiler

@[simp]
theorem toString_text (text : String) : toString text = text := rfl

theorem toList_joinLines (line : String) (lines : List String) :
    (joinLines (line :: lines)).toList = line.toList ++ lines.flatMap fun l => '\n' :: l.toList := by
  unfold joinLines
  induction lines generalizing line with
  | nil => simp
  | cons next rest ih =>
    rw [String.intercalate_cons_cons, String.toList_append, ih next]
    simp

/-- The lines of a text. Every line but the last ends at an LF. -/
def textLines (text : String) : List String :=
  (text.toList.splitOn '\n').map String.ofList

theorem textLines_of_plain {line : String} (plain : '\n' ∉ line.toList) : textLines line = [line] := by
  rw [textLines, List.splitOn_eq_singleton plain, List.map_singleton, String.ofList_toList]

theorem textLines_append (a b : String) : textLines (a ++ "\n" ++ b) = textLines a ++ textLines b := by
  have chars : (a ++ "\n" ++ b).toList = a.toList ++ '\n' :: b.toList := by simp
  rw [textLines, chars, List.splitOn_append_cons_self, List.map_append]
  rfl

theorem textLines_joinLines {lines : List String} (some : lines ≠ []) :
    textLines (joinLines lines) = lines.flatMap textLines := by
  induction lines with
  | nil => exact absurd rfl some
  | cons line rest ih =>
    cases rest with
    | nil => simp [joinLines]
    | cons next rest =>
      have join : joinLines (line :: next :: rest) = line ++ "\n" ++ joinLines (next :: rest) :=
        String.intercalate_cons_cons
      rw [join, textLines_append, ih (List.cons_ne_nil _ _)]
      exact List.flatMap_cons.symm

theorem flatMap_textLines_of_plain {lines : List String} (plain : ∀ line ∈ lines, '\n' ∉ line.toList) :
    lines.flatMap textLines = lines := by
  induction lines with
  | nil => rfl
  | cons line rest ih =>
    obtain ⟨first, others⟩ := List.forall_mem_cons.mp plain
    rw [List.flatMap_cons, textLines_of_plain first, ih others, List.singleton_append]

theorem joinLines_inj {lines others : List String} (plain : ∀ line ∈ lines, '\n' ∉ line.toList)
    (plain' : ∀ line ∈ others, '\n' ∉ line.toList) (some : lines ≠ []) (some' : others ≠ [])
    (text : joinLines lines = joinLines others) : lines = others := by
  calc lines = textLines (joinLines lines) := by
        rw [textLines_joinLines some, flatMap_textLines_of_plain plain]
    _ = textLines (joinLines others) := by rw [text]
    _ = others := by rw [textLines_joinLines some', flatMap_textLines_of_plain plain']

/-- Two texts that agree agree up to the first place of a character, and after it. -/
theorem append_inj_of_first {c : Char} {a a' b b' : List Char} (h : a ++ c :: b = a' ++ c :: b')
    (ha : c ∉ a) (ha' : c ∉ a') : a = a' ∧ b = b' := by
  rcases List.append_eq_append_iff.mp h with ⟨middle, rfl, eq⟩ | ⟨middle, rfl, eq⟩
  · cases middle with
    | nil =>
      cases eq
      exact ⟨by simp, rfl⟩
    | cons d rest =>
      obtain ⟨rfl, _⟩ := List.cons.inj eq
      exact absurd (by simp) ha'
  · cases middle with
    | nil =>
      cases eq
      exact ⟨by simp, rfl⟩
    | cons d rest =>
      obtain ⟨rfl, _⟩ := List.cons.inj eq
      exact absurd (by simp) ha

theorem eq_of_mark {a b : String} {text : List Char} (ha : a.toList <+: text) (hb : b.toList <+: text)
    (length : a.toList.length = b.toList.length) : a = b := by
  have sub := List.prefix_of_prefix_length_le ha hb (Nat.le_of_eq length)
  exact String.toList_inj.mp (sub.eq_of_length length)

theorem ne_of_marks {a b mark mark' : String} (ha : mark.toList <+: a.toList)
    (hb : mark'.toList <+: b.toList) (length : mark.toList.length = mark'.toList.length)
    (ne : mark ≠ mark') : a ≠ b := by
  rintro rfl
  exact ne (eq_of_mark ha hb length)

theorem prefix_append {mark a b : String} (h : mark.toList <+: a.toList) :
    mark.toList <+: (a ++ b).toList := by
  rw [String.toList_append]
  exact h.trans (List.prefix_append _ _)

theorem prefix_joinLines {mark line : String} {lines : List String} (h : mark.toList <+: line.toList) :
    mark.toList <+: (joinLines (line :: lines)).toList := by
  rw [toList_joinLines]
  exact h.trans (List.prefix_append _ _)

theorem prefix_lines {mark line : String} {lines : List String} (h : mark.toList <+: line.toList) :
    ("\n" ++ mark).toList <+: (line :: lines).flatMap fun l => '\n' :: l.toList := by
  simp only [String.toList_append, List.flatMap_cons, List.cons_append]
  exact List.cons_prefix_cons.mpr ⟨rfl, h.trans (List.prefix_append _ _)⟩

theorem prefix_second_line {mark first second : String} {lines : List String}
    (h : mark.toList <+: second.toList) :
    (first ++ ("\n" ++ mark)).toList <+: (joinLines (first :: second :: lines)).toList := by
  rw [toList_joinLines, String.toList_append]
  exact (List.prefix_append_right_inj _).mpr (prefix_lines h)

end AvroCompiler

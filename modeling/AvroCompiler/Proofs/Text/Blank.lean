import AvroCompiler.Text.Blank
import Mathlib.Data.List.TakeWhile

namespace AvroCompiler

def IsInner (c : Char) (line : List Char) : Prop :=
  ∃ before after, line = before ++ c :: after ∧ (∃ d ∈ before, isBlank d = false) ∧
    ∃ d ∈ after, isBlank d = false

theorem not_mem_of_mem_splitLines {text line : List Char} (mem : line ∈ splitLines text) : '\n' ∉ line := by
  fun_induction splitLines text generalizing line with
  | case1 => cases mem
  | case2 rest ih =>
    rcases List.mem_cons.mp mem with rfl | mem
    · exact List.not_mem_nil
    · exact ih mem
  | case3 rest _ ih =>
    rcases List.mem_cons.mp mem with rfl | mem
    · exact List.not_mem_nil
    · exact ih mem
  | case4 c rest _ plain _ ih =>
    cases List.mem_singleton.mp mem
    simpa using Ne.symm plain
  | case5 c rest _ plain first others eq ih =>
    rw [eq] at ih
    rcases List.mem_cons.mp mem with rfl | mem
    · have old : '\n' ∉ first := ih List.mem_cons_self
      simp [old, Ne.symm plain]
    · exact ih (List.mem_cons_of_mem first mem)

theorem dropWhile_append_of_exists {before : List Char} (solid : ∃ d ∈ before, isBlank d = false)
    (rest : List Char) : (before ++ rest).dropWhile isBlank = before.dropWhile isBlank ++ rest := by
  obtain ⟨d, mem, plain⟩ := solid
  have some : before.dropWhile isBlank ≠ [] := by
    intro nil
    have blank := List.dropWhile_eq_nil_iff.mp nil d mem
    rw [plain] at blank
    cases blank
  rw [List.dropWhile_append, if_neg (by simpa using some)]

theorem mem_trimEndChars_iff {c : Char} (blank : isBlank c = true) (text : List Char) :
    c ∈ trimEndChars text ↔
      ∃ before after, text = before ++ c :: after ∧ ∃ d ∈ after, isBlank d = false := by
  rw [trimEndChars, List.mem_reverse]
  constructor
  · intro mem
    obtain ⟨d, rest, eq⟩ := List.exists_cons_of_ne_nil (List.ne_nil_of_mem mem)
    have plain : isBlank d = false := by
      have head := List.head?_dropWhile_not isBlank text.reverse
      rw [eq] at head
      exact head
    have inside : c ∈ rest := by
      rw [eq] at mem
      refine (List.mem_cons.mp mem).resolve_left ?_
      rintro rfl
      rw [blank] at plain
      cases plain
    obtain ⟨x, y, rfl⟩ := List.append_of_mem inside
    obtain ⟨lead, whole⟩ := List.dropWhile_suffix isBlank (l := text.reverse)
    rw [eq] at whole
    refine ⟨y.reverse, x.reverse ++ d :: lead.reverse, ?_, d, by simp, plain⟩
    rw [← List.reverse_reverse text, ← whole]
    simp
  · rintro ⟨before, after, rfl, d, mem, plain⟩
    have turned : (before ++ c :: after).reverse = after.reverse ++ c :: before.reverse := by simp
    rw [turned, dropWhile_append_of_exists ⟨d, List.mem_reverse.mpr mem, plain⟩]
    simp

/-- A blank is left of a line where it stands between two characters that are none. -/
theorem mem_trimChars_iff {c : Char} (blank : isBlank c = true) (text : List Char) :
    c ∈ trimChars text ↔ IsInner c text := by
  rw [trimChars, mem_trimEndChars_iff blank]
  constructor
  · rintro ⟨before, after, eq, solid⟩
    obtain ⟨lead, whole⟩ := List.dropWhile_suffix isBlank (l := text)
    rw [eq] at whole
    refine ⟨lead ++ before, after, by rw [← whole, List.append_assoc], ?_, solid⟩
    have head := List.head?_dropWhile_not isBlank text
    rw [eq] at head
    cases before with
    | nil =>
      rw [List.nil_append, List.head?_cons] at head
      dsimp only at head
      rw [blank] at head
      cases head
    | cons d rest => exact ⟨d, by simp, head⟩
  · rintro ⟨before, after, rfl, solid, solid'⟩
    exact ⟨before.dropWhile isBlank, after, dropWhile_append_of_exists solid _, solid'⟩

end AvroCompiler

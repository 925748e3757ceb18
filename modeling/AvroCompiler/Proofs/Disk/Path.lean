import AvroCompiler.Disk.Basic
import Mathlib.Data.List.Infix
import Mathlib.Data.List.TakeDrop
import Mathlib.Data.List.TakeWhile

namespace AvroCompiler

/-- What may be the name of an entry: a single piece of a path that stands for itself. -/
structure IsEntryName (name : String) : Prop where
  ne_empty : name ≠ ""
  ne_dot : name ≠ "."
  ne_dots : name ≠ ".."
  one_piece : '/' ∉ name.toList
  no_nul : '\x00' ∉ name.toList

instance (name : String) : Decidable (IsEntryName name) :=
  decidable_of_iff (name ≠ "" ∧ name ≠ "." ∧ name ≠ ".." ∧ '/' ∉ name.toList ∧ '\x00' ∉ name.toList)
    ⟨fun ⟨a, b, c, d, e⟩ => ⟨a, b, c, d, e⟩, fun ⟨a, b, c, d, e⟩ => ⟨a, b, c, d, e⟩⟩

namespace Path

theorem split_ne_nil (text : List Char) : components.split text ≠ [] := by
  cases text with
  | nil => exact List.cons_ne_nil _ _
  | cons c rest =>
    unfold components.split
    split
    · exact List.cons_ne_nil _ _
    · split <;> exact List.cons_ne_nil _ _

theorem split_of_plain {text : List Char} (plain : '/' ∉ text) :
    components.split text = [String.ofList text] := by
  induction text with
  | nil => rfl
  | cons c rest ih =>
    obtain ⟨other, plain⟩ := not_or.mp (mt List.mem_cons.mpr plain)
    rw [components.split, if_neg (Ne.symm other), ih plain]
    simp [String.ofList_cons]

theorem split_append_slash (a b : List Char) :
    components.split (a ++ '/' :: b) = components.split a ++ components.split b := by
  induction a with
  | nil => rfl
  | cons c rest ih =>
    rw [List.cons_append, components.split, components.split, ih]
    split
    · rfl
    · obtain ⟨piece, pieces, eq⟩ := List.exists_cons_of_ne_nil (split_ne_nil rest)
      rw [eq]
      rfl

theorem endsWithSlash_iff {path : String} :
    endsWithSlash path = true ↔ ∃ front, path.toList = front ++ ['/'] := by
  rw [endsWithSlash, decide_eq_true_iff, List.getLast?_eq_some_iff]

theorem extension?_eq_some_iff {name ending : String} : extension? name = some ending ↔
    '.' ∉ ending.toList ∧ ∃ stem, stem ≠ "" ∧ name = stem ++ "." ++ ending := by
  rw [extension?, List.span_eq_takeWhile_dropWhile]
  constructor
  · intro found
    have whole := @List.takeWhile_append_dropWhile _ (fun c => decide (c ≠ '.')) name.toList.reverse
    have first := List.head?_dropWhile_not (fun c => decide (c ≠ '.')) name.toList.reverse
    split at found
    rename_i after before same
    obtain ⟨taken, left⟩ := Prod.mk.inj same
    rw [taken, left] at whole
    split at found
    · rename_i dot d rest
      obtain rfl := Option.some.inj found
      rw [left] at first
      obtain rfl : dot = '.' := by simpa using first
      have plain : '.' ∉ after := fun mem => by
        rw [← taken] at mem
        simpa using List.mem_takeWhile_imp mem
      refine ⟨by simpa using plain, String.ofList (d :: rest).reverse, by simp, ?_⟩
      rw [← String.toList_inj]
      have text := congrArg List.reverse whole
      rw [List.reverse_reverse] at text
      rw [← text]
      simp
    · cases found
  · rintro ⟨plain, stem, full, rfl⟩
    have free : ∀ c ∈ ending.toList.reverse, decide (c ≠ '.') = true := by
      intro c mem
      exact decide_eq_true fun dot => plain (dot ▸ List.mem_reverse.mp mem)
    have text : (stem ++ "." ++ ending).toList.reverse =
        ending.toList.reverse ++ '.' :: stem.toList.reverse := by simp
    rw [text, List.takeWhile_append_of_pos free, List.dropWhile_append_of_pos free]
    have some : stem.toList.reverse ≠ [] := by simp [full]
    obtain ⟨c, rest, chars⟩ := List.exists_cons_of_ne_nil some
    rw [chars]
    simp

variable {base name : String} (entry : IsEntryName name)

include entry

theorem not_isAbsolute_of_entry : isAbsolute name = false := by
  refine decide_eq_false fun head => entry.one_piece ?_
  exact List.mem_of_mem_head? head

omit entry in
theorem components_empty : components "" = [] := rfl

/-- A name is joined to nothing, or behind a slash that may be there already. -/
theorem toList_join (base : String) :
    (join base name = name ∧ base = "") ∨
      base ≠ "" ∧ ∃ front, (join base name).toList = front ++ '/' :: name.toList ∧
        (base.toList = front ∨ base.toList = front ++ ['/']) := by
  unfold join
  rw [not_isAbsolute_of_entry entry]
  by_cases empty : base = ""
  · exact .inl ⟨by simp [empty], empty⟩
  · refine .inr ⟨empty, ?_⟩
    rw [if_neg (by simp [empty])]
    split
    · rename_i ends
      obtain ⟨front, eq⟩ := endsWithSlash_iff.mp ends
      exact ⟨front, by simp [eq], .inr eq⟩
    · exact ⟨base.toList, by simp, .inl rfl⟩

theorem split_entry : components.split name.toList = [name] := by
  rw [split_of_plain entry.one_piece, String.ofList_toList]

theorem components_join (base : String) : components (join base name) = components base ++ [name] := by
  have kept : [name].filter (fun piece => piece ≠ "" ∧ piece ≠ ".") = [name] := by
    simp [entry.ne_empty, entry.ne_dot]
  rcases toList_join entry base with ⟨eq, rfl⟩ | ⟨-, front, eq, base | base⟩
  · rw [eq, components, split_entry entry, kept]
    rfl
  · rw [components, eq, split_append_slash, split_entry entry, List.filter_append, kept, ← base]
    rfl
  · -- The empty piece behind the last slash of the path is left out.
    have last : components.split (front ++ ['/']) = components.split front ++ [""] :=
      split_append_slash front []
    rw [components, components, eq, base, split_append_slash, split_entry entry, last, List.filter_append,
      List.filter_append, kept]
    simp

theorem isAbsolute_join (base : String) : isAbsolute (join base name) = isAbsolute base := by
  rcases toList_join entry base with ⟨eq, rfl⟩ | ⟨some, front, eq, base | base⟩
  · rw [eq, not_isAbsolute_of_entry entry]
    rfl
  · have full : front ≠ [] := fun empty => some (String.toList_eq_nil_iff.mp (base.trans empty))
    rw [isAbsolute, isAbsolute, eq, base, List.head?_append_of_ne_nil _ full]
  · rw [isAbsolute, isAbsolute, eq, base, List.head?_append, List.head?_append]
    rfl

theorem join_ne_empty (base : String) : join base name ≠ "" := by
  intro empty
  have pieces := components_join entry base
  rw [empty, components_empty] at pieces
  simp at pieces

theorem no_nul_join {base : String} (plain : '\x00' ∉ base.toList) : '\x00' ∉ (join base name).toList := by
  have name_plain := entry.no_nul
  rcases toList_join entry base with ⟨eq, -⟩ | ⟨-, front, eq, base | base⟩
  · rwa [eq]
  · rw [eq, ← base]
    simp [plain, name_plain]
  · have front_plain : '\x00' ∉ front := fun mem => plain (base ▸ List.mem_append_left _ mem)
    rw [eq]
    simp [front_plain, name_plain]

theorem toList_join_suffix (base : String) : name.toList <:+ (join base name).toList := by
  rcases toList_join entry base with ⟨eq, -⟩ | ⟨-, front, eq, -⟩
  · rw [eq]
  · rw [eq]
    exact ⟨front ++ ['/'], by simp⟩

theorem endsWithSlash_join (base : String) : endsWithSlash (join base name) = false := by
  refine Bool.eq_false_iff.mpr fun ends => entry.one_piece ?_
  obtain ⟨front, eq⟩ := toList_join_suffix entry base
  obtain ⟨c, rest, chars⟩ := List.exists_cons_of_ne_nil (mt String.toList_eq_nil_iff.mp entry.ne_empty)
  have last : (join base name).toList.getLast? = some '/' := of_decide_eq_true ends
  rw [← eq, List.getLast?_append_of_ne_nil _ (by simp [chars])] at last
  exact List.mem_of_getLast? last

theorem endsInDot_join (base : String) : endsInDot (join base name) = false := by
  obtain ⟨front, eq⟩ := toList_join_suffix entry base
  have plain : '/' ∉ name.toList.reverse := fun mem => entry.one_piece (List.mem_reverse.mp mem)
  have full : name.toList.reverse ≠ [] := by simp [entry.ne_empty]
  have word : name.toList.reverse ≠ ['.'] := by
    intro dot
    have same : name.toList = ['.'] := by simpa using congrArg List.reverse dot
    exact entry.ne_dot (String.toList_inj.mp same)
  unfold endsInDot
  rw [← eq, List.reverse_append]
  generalize name.toList.reverse = chars at plain full word
  match chars, plain, full, word with
  | [c], plain, _, word =>
    have other : c ≠ '/' := by simpa [eq_comm] using plain
    have dotless : c ≠ '.' := fun eq => word (congrArg (fun c => [c]) eq)
    rw [List.singleton_append, List.dropWhile_cons_of_neg (by simp [other])]
    split
    · rename_i same
      exact absurd (List.cons.inj same).1 dotless
    · rename_i same
      exact absurd (List.cons.inj same).1 dotless
    · rfl
  | c :: d :: rest, plain, _, _ =>
    have other : c ≠ '/' ∧ d ≠ '/' := by simp_all [eq_comm]
    rw [List.cons_append, List.cons_append, List.dropWhile_cons_of_neg (by simp [other.1])]
    split
    · rename_i same
      cases (List.cons.inj same).2
    · rename_i same
      exact absurd (List.cons.inj (List.cons.inj same).2).1 other.2
    · rfl

end Path

end AvroCompiler

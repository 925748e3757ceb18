import AvroCompiler.Keyed

namespace AvroCompiler

structure RoutineKey where
  /-- The type that the routine is attached to; empty for a free routine. -/
  target : String
  name : String
  deriving DecidableEq, Repr

namespace RoutineKey

def free (name : String) : RoutineKey := ⟨"", name⟩

def isFree (key : RoutineKey) : Bool := key.target = ""

def label (key : RoutineKey) : String :=
  if key.isFree then key.name else key.target ++ "::" ++ key.name

/-- The order within a target: free routines have no target and follow all others. -/
def Before (a b : RoutineKey) : Prop :=
  (a.isFree = false ∧ b.isFree = true) ∨
    (a.isFree = b.isFree ∧ (a.target < b.target ∨ (a.target = b.target ∧ a.name < b.name)))

instance : LT RoutineKey := ⟨Before⟩

instance (a b : RoutineKey) : Decidable (a < b) :=
  inferInstanceAs (Decidable (_ ∨ _))

theorem before_irrefl (a : RoutineKey) : ¬a < a := by
  rintro (⟨h, h'⟩ | ⟨_, h | ⟨_, h⟩⟩)
  · simp [h] at h'
  · exact String.lt_irrefl _ h
  · exact String.lt_irrefl _ h

theorem before_trans {a b c : RoutineKey} (hab : a < b) (hbc : b < c) : a < c := by
  rcases hab with ⟨fa, fb⟩ | ⟨fab, tab⟩ <;> rcases hbc with ⟨gb, gc⟩ | ⟨gbc, tbc⟩
  · exact Or.inl ⟨fa, gc⟩
  · exact Or.inl ⟨fa, gbc ▸ fb⟩
  · exact Or.inl ⟨fab ▸ gb, gc⟩
  · refine Or.inr ⟨fab.trans gbc, ?_⟩
    rcases tab with tab | ⟨tab, nab⟩ <;> rcases tbc with tbc | ⟨tbc, nbc⟩
    · exact Or.inl (String.lt_trans tab tbc)
    · exact Or.inl (tbc ▸ tab)
    · exact Or.inl (tab ▸ tbc)
    · exact Or.inr ⟨tab.trans tbc, String.lt_trans nab nbc⟩

theorem before_connex (a b : RoutineKey) : a < b ∨ a = b ∨ b < a := by
  obtain ⟨t, n⟩ := a
  obtain ⟨u, m⟩ := b
  have within (h : isFree ⟨t, n⟩ = isFree ⟨u, m⟩) :
      (⟨t, n⟩ : RoutineKey) < ⟨u, m⟩ ∨ (⟨t, n⟩ : RoutineKey) = ⟨u, m⟩ ∨
        (⟨u, m⟩ : RoutineKey) < ⟨t, n⟩ := by
    rcases Std.lt_trichotomy t u with lt | rfl | gt
    · exact Or.inl (Or.inr ⟨h, Or.inl lt⟩)
    · rcases Std.lt_trichotomy n m with lt | rfl | gt
      · exact Or.inl (Or.inr ⟨h, Or.inr ⟨rfl, lt⟩⟩)
      · exact Or.inr (Or.inl rfl)
      · exact Or.inr (Or.inr (Or.inr ⟨h.symm, Or.inr ⟨rfl, gt⟩⟩))
    · exact Or.inr (Or.inr (Or.inr ⟨h.symm, Or.inl gt⟩))
  cases ht : isFree ⟨t, n⟩ <;> cases hu : isFree ⟨u, m⟩
  · exact within (ht.trans hu.symm)
  · exact Or.inl (Or.inl ⟨ht, hu⟩)
  · exact Or.inr (Or.inr (Or.inl ⟨hu, ht⟩))
  · exact within (ht.trans hu.symm)

instance : KeyOrder RoutineKey where
  decideLt := inferInstance
  irrefl := before_irrefl
  trans := before_trans
  connex := before_connex

def sort (keys : List RoutineKey) : List RoutineKey :=
  keys.mergeSort fun a b => ¬b < a

end RoutineKey

end AvroCompiler

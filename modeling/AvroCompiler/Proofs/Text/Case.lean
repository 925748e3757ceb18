import AvroCompiler.Identifier

namespace AvroCompiler

theorem isUpper_iff {c : Char} : c.isUpper = true ↔ 65 ≤ c.toNat ∧ c.toNat ≤ 90 :=
  decide_eq_true_iff.trans (and_congr UInt32.le_iff_toNat_le UInt32.le_iff_toNat_le)

theorem isLower_iff {c : Char} : c.isLower = true ↔ 97 ≤ c.toNat ∧ c.toNat ≤ 122 :=
  (Bool.and_eq_true_iff.trans (and_congr decide_eq_true_iff decide_eq_true_iff)).trans
    (and_congr UInt32.le_iff_toNat_le UInt32.le_iff_toNat_le)

theorem isAlpha_iff {c : Char} : c.isAlpha = true ↔ c.isUpper = true ∨ c.isLower = true :=
  Bool.or_eq_true_iff

theorem isAlphanum_iff {c : Char} : c.isAlphanum = true ↔ c.isAlpha = true ∨ c.isDigit = true :=
  Bool.or_eq_true_iff

theorem isUpper_of_isLower {c : Char} (lower : c.isLower = true) : c.isUpper = false := by
  obtain ⟨low, _⟩ := isLower_iff.mp lower
  refine Bool.eq_false_iff.mpr fun upper => ?_
  obtain ⟨_, high⟩ := isUpper_iff.mp upper
  omega

theorem toLower_eq_self {c : Char} (kept : c.isUpper = false) : c.toLower = c :=
  dif_neg (of_decide_eq_false kept)

theorem toUpper_eq_self {c : Char} (kept : c.isLower = false) : c.toUpper = c :=
  dif_neg fun bounds => Bool.eq_false_iff.mp kept
    (Bool.and_eq_true_iff.mpr ⟨decide_eq_true bounds.1, decide_eq_true bounds.2⟩)

theorem isLower_toLower {c : Char} (upper : c.isUpper = true) : c.toLower.isLower = true := by
  have small : c.toNat < 128 := Nat.lt_of_le_of_lt (isUpper_iff.mp upper).2 (by decide)
  have ascii : ∀ n < 128, (Char.ofNat n).isUpper = true → (Char.ofNat n).toLower.isLower = true := by
    decide +kernel
  rw [← Char.ofNat_toNat c] at upper ⊢
  exact ascii c.toNat small upper

theorem isUpper_toUpper {c : Char} (lower : c.isLower = true) : c.toUpper.isUpper = true := by
  have small : c.toNat < 128 := Nat.lt_of_le_of_lt (isLower_iff.mp lower).2 (by decide)
  have ascii : ∀ n < 128, (Char.ofNat n).isLower = true → (Char.ofNat n).toUpper.isUpper = true := by
    decide +kernel
  rw [← Char.ofNat_toNat c] at lower ⊢
  exact ascii c.toNat small lower

theorem toLower_toUpper {c : Char} (kept : c.isUpper = false) : c.toUpper.toLower = c := by
  cases lower : c.isLower with
  | false => rw [toUpper_eq_self lower, toLower_eq_self kept]
  | true =>
    have small : c.toNat < 128 := Nat.lt_of_le_of_lt (isLower_iff.mp lower).2 (by decide)
    have ascii : ∀ n < 128, (Char.ofNat n).isLower = true →
        (Char.ofNat n).toUpper.toLower = Char.ofNat n := by
      decide +kernel
    rw [← Char.ofNat_toNat c] at lower ⊢
    exact ascii c.toNat small lower

/-- Snake case keeps the character: it is no capital, and no break that an underscore stands for. -/
def IsSnakeChar (c : Char) : Prop :=
  c.isUpper = false ∧ c ≠ '-' ∧ c ≠ ' '

instance (c : Char) : Decidable (IsSnakeChar c) :=
  inferInstanceAs (Decidable (_ ∧ _))

theorem isSnakeChar_toLower {c : Char} (upper : c.isUpper = true) : IsSnakeChar c.toLower := by
  have letter := isLower_toLower upper
  refine ⟨isUpper_of_isLower letter, ?_, ?_⟩
  · intro eq
    rw [eq] at letter
    cases letter
  · intro eq
    rw [eq] at letter
    cases letter

theorem isSnakeChar_of_mem_snakeChars {spaced : Bool} {text : List Char} :
    ∀ c ∈ snakeChars spaced text, IsSnakeChar c := by
  have underscore : IsSnakeChar '_' := by decide
  fun_induction snakeChars spaced text with
  | case1 => nofun
  | case2 c rest upper ih =>
    exact List.forall_mem_cons.mpr
      ⟨underscore, List.forall_mem_cons.mpr ⟨isSnakeChar_toLower upper, ih⟩⟩
  | case3 spaced c rest upper _ ih => exact List.forall_mem_cons.mpr ⟨isSnakeChar_toLower upper, ih⟩
  | case4 spaced c rest upper _ ih => exact List.forall_mem_cons.mpr ⟨underscore, ih⟩
  | case5 spaced c rest upper other ih =>
    exact List.forall_mem_cons.mpr ⟨⟨by simpa using upper, not_or.mp other⟩, ih⟩

theorem snakeChars_of_isSnakeChar {spaced : Bool} {text : List Char} (h : ∀ c ∈ text, IsSnakeChar c) :
    snakeChars spaced text = text := by
  induction text generalizing spaced with
  | nil => rfl
  | cons c rest ih =>
    obtain ⟨⟨lower, other⟩, others⟩ := List.forall_mem_cons.mp h
    rw [snakeChars, if_neg (by simp [lower]), if_neg (not_or.mpr other), ih others]

theorem snakeCase_eq_self_iff {text : String} : snakeCase text = text ↔ ∀ c ∈ text.toList, IsSnakeChar c := by
  constructor
  · intro same c mem
    rw [← same, snakeCase, String.toList_ofList] at mem
    exact isSnakeChar_of_mem_snakeChars c mem
  · intro kept
    rw [snakeCase, snakeChars_of_isSnakeChar kept, String.ofList_toList]

theorem snakeCase_snakeCase (text : String) : snakeCase (snakeCase text) = snakeCase text := by
  refine snakeCase_eq_self_iff.mpr fun c mem => ?_
  rw [snakeCase, String.toList_ofList] at mem
  exact isSnakeChar_of_mem_snakeChars c mem

theorem lowerCase_upperCase_snakeCase (text : String) :
    lowerCase (upperCase (snakeCase text)) = snakeCase text := by
  unfold lowerCase upperCase snakeCase
  simp only [String.toList_ofList, List.map_map]
  refine congrArg String.ofList ?_
  calc
    (snakeChars false text.toList).map (Char.toLower ∘ Char.toUpper)
      = (snakeChars false text.toList).map id :=
        List.map_congr_left fun c mem => toLower_toUpper (isSnakeChar_of_mem_snakeChars c mem).1
    _ = snakeChars false text.toList := List.map_id _

theorem snakeCase_eq_of_sizeConstant {a b : String} (h : sizeConstant a = sizeConstant b) :
    snakeCase a = snakeCase b := by
  unfold sizeConstant at h
  rw [String.append_left_inj] at h
  rw [← lowerCase_upperCase_snakeCase a, ← lowerCase_upperCase_snakeCase b, h]

end AvroCompiler

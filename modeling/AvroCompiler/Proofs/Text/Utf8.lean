import AvroCompiler.Text.Utf8

namespace AvroCompiler

theorem toNat_ofNat_byte {n : Nat} (h : n < 256) : (UInt8.ofNat n).toNat = n := by
  simp only [UInt8.toNat_ofNat']
  omega

theorem ofNat_byte_lt {n m : Nat} (hn : n < 256) (hm : m < 256) :
    UInt8.ofNat n < UInt8.ofNat m ↔ n < m := by
  rw [UInt8.lt_iff_toNat_lt, toNat_ofNat_byte hn, toNat_ofNat_byte hm]

theorem ofNat_byte_le {n m : Nat} (hn : n < 256) (hm : m < 256) :
    UInt8.ofNat n ≤ UInt8.ofNat m ↔ n ≤ m := by
  rw [UInt8.le_iff_toNat_le, toNat_ofNat_byte hn, toNat_ofNat_byte hm]

theorem ofNat_byte_inj {n m : Nat} (hn : n < 256) (hm : m < 256)
    (h : UInt8.ofNat n = UInt8.ofNat m) : n = m := by
  have eq := congrArg UInt8.toNat h
  rwa [toNat_ofNat_byte hn, toNat_ofNat_byte hm] at eq

theorem ofNat_byte_between (low high : Nat) {n : Nat} (hl : low ≤ n) (hh : n ≤ high) (hb : high < 256) :
    (decide (UInt8.ofNat low ≤ .ofNat n) && decide (UInt8.ofNat n ≤ .ofNat high)) = true := by
  have lower := (ofNat_byte_le (n := low) (m := n) (by omega) (by omega)).mpr hl
  have upper := (ofNat_byte_le (n := n) (m := high) (by omega) (by omega)).mpr hh
  simp [lower, upper]

theorem isContinuation_ofNat {n : Nat} (h : n < 64) :
    isContinuation (.ofNat (0x80 + n)) = true :=
  ofNat_byte_between 0x80 0xBF (by omega) (by omega) (by omega)

/-- The first byte of a sequence of two bytes or more, as the decoder classifies it. -/
theorem first_byte_bounds {n : Nat} (low : 0xC2 ≤ n) (high : n ≤ 0xF4) :
    ¬UInt8.ofNat n < 0x80 ∧ ¬(UInt8.ofNat n < 0xC2 ∨ 0xF4 < UInt8.ofNat n) := by
  have ascii := ofNat_byte_lt (n := n) (m := 0x80) (by omega) (by omega)
  have under := ofNat_byte_lt (n := n) (m := 0xC2) (by omega) (by omega)
  have above := ofNat_byte_lt (n := 0xF4) (m := n) (by omega) (by omega)
  refine ⟨fun h => ?_, fun h => ?_⟩
  · have := ascii.mp h
    omega
  · rcases h with h | h
    · have := under.mp h
      omega
    · have := above.mp h
      omega

theorem decodeUtf8Chars_one {n : Nat} (h : n < 0x80) (index : Nat) (rest : List UInt8) :
    decodeUtf8Chars index (.ofNat n :: rest) =
      (decodeUtf8Chars (index + 1) rest).map (Char.ofNat n :: ·) := by
  have ascii : UInt8.ofNat n < 0x80 := (ofNat_byte_lt (m := 0x80) (by omega) (by omega)).mpr h
  rw [decodeUtf8Chars.eq_def]
  simp only [ascii, if_true, toNat_ofNat_byte (show n < 256 by omega)]
  cases decodeUtf8Chars (index + 1) rest <;> rfl

theorem decodeUtf8Chars_two {n : Nat} (low : 0x80 ≤ n) (high : n < 0x800) (index : Nat)
    (rest : List UInt8) :
    decodeUtf8Chars index (.ofNat (0xC0 + n / 64) :: .ofNat (0x80 + n % 64) :: rest) =
      (decodeUtf8Chars (index + 2) rest).map (Char.ofNat n :: ·) := by
  obtain ⟨ascii, bad⟩ := first_byte_bounds (n := 0xC0 + n / 64) (by omega) (by omega)
  have two : UInt8.ofNat (0xC0 + n / 64) < 0xE0 :=
    (ofNat_byte_lt (m := 0xE0) (by omega) (by omega)).mpr (by omega)
  have value : (0xC0 + n / 64 - 0xC0) * 64 + (0x80 + n % 64 - 0x80) = n := by omega
  rw [decodeUtf8Chars.eq_def]
  simp only [ascii, bad, two, if_true, if_false, not_true_eq_false,
    isContinuation_ofNat (Nat.mod_lt n (by decide : 0 < 64)),
    toNat_ofNat_byte (show 0xC0 + n / 64 < 256 by omega),
    toNat_ofNat_byte (show 0x80 + n % 64 < 256 by omega), value]
  cases decodeUtf8Chars (index + 2) rest <;> rfl

/-- The second byte excludes overlong sequences and the surrogates, which no character has. -/
theorem fitsThree_ofNat {n : Nat} (low : 0x800 ≤ n) (high : n < 0x10000)
    (scalar : n < 0xD800 ∨ 0xDFFF < n) :
    fitsThree (.ofNat (0xE0 + n / 4096)) (.ofNat (0x80 + n / 64 % 64)) = true := by
  unfold fitsThree
  split
  · rename_i h
    have first := ofNat_byte_inj (m := 0xE0) (by omega) (by omega) h
    exact ofNat_byte_between 0xA0 0xBF (by omega) (by omega) (by omega)
  · split
    · rename_i h
      have first := ofNat_byte_inj (m := 0xED) (by omega) (by omega) h
      exact ofNat_byte_between 0x80 0x9F (by omega) (by omega) (by omega)
    · exact isContinuation_ofNat (by omega)

theorem decodeUtf8Chars_three {n : Nat} (low : 0x800 ≤ n) (high : n < 0x10000)
    (scalar : n < 0xD800 ∨ 0xDFFF < n) (index : Nat) (rest : List UInt8) :
    decodeUtf8Chars index
        (.ofNat (0xE0 + n / 4096) :: .ofNat (0x80 + n / 64 % 64) :: .ofNat (0x80 + n % 64) :: rest) =
      (decodeUtf8Chars (index + 3) rest).map (Char.ofNat n :: ·) := by
  obtain ⟨ascii, bad⟩ := first_byte_bounds (n := 0xE0 + n / 4096) (by omega) (by omega)
  have two : ¬UInt8.ofNat (0xE0 + n / 4096) < 0xE0 := by
    intro h
    have := (ofNat_byte_lt (m := 0xE0) (by omega) (by omega)).mp h
    omega
  have three : UInt8.ofNat (0xE0 + n / 4096) < 0xF0 :=
    (ofNat_byte_lt (m := 0xF0) (by omega) (by omega)).mpr (by omega)
  have value : (0xE0 + n / 4096 - 0xE0) * 4096 + (0x80 + n / 64 % 64 - 0x80) * 64 +
      (0x80 + n % 64 - 0x80) = n := by omega
  rw [decodeUtf8Chars.eq_def]
  simp only [ascii, bad, two, three, if_true, if_false, not_true_eq_false,
    fitsThree_ofNat low high scalar, isContinuation_ofNat (Nat.mod_lt n (by decide : 0 < 64)),
    toNat_ofNat_byte (show 0xE0 + n / 4096 < 256 by omega),
    toNat_ofNat_byte (show 0x80 + n / 64 % 64 < 256 by omega),
    toNat_ofNat_byte (show 0x80 + n % 64 < 256 by omega), value]
  cases decodeUtf8Chars (index + 3) rest <;> rfl

theorem fitsFour_ofNat {n : Nat} (low : 0x10000 ≤ n) (high : n < 0x110000) :
    fitsFour (.ofNat (0xF0 + n / 262144)) (.ofNat (0x80 + n / 4096 % 64)) = true := by
  unfold fitsFour
  split
  · rename_i h
    have first := ofNat_byte_inj (m := 0xF0) (by omega) (by omega) h
    exact ofNat_byte_between 0x90 0xBF (by omega) (by omega) (by omega)
  · split
    · rename_i h
      have first := ofNat_byte_inj (m := 0xF4) (by omega) (by omega) h
      exact ofNat_byte_between 0x80 0x8F (by omega) (by omega) (by omega)
    · exact isContinuation_ofNat (by omega)

theorem decodeUtf8Chars_four {n : Nat} (low : 0x10000 ≤ n) (high : n < 0x110000) (index : Nat)
    (rest : List UInt8) :
    decodeUtf8Chars index
        (.ofNat (0xF0 + n / 262144) :: .ofNat (0x80 + n / 4096 % 64) :: .ofNat (0x80 + n / 64 % 64) ::
          .ofNat (0x80 + n % 64) :: rest) =
      (decodeUtf8Chars (index + 4) rest).map (Char.ofNat n :: ·) := by
  obtain ⟨ascii, bad⟩ := first_byte_bounds (n := 0xF0 + n / 262144) (by omega) (by omega)
  have two : ¬UInt8.ofNat (0xF0 + n / 262144) < 0xE0 := by
    intro h
    have := (ofNat_byte_lt (m := 0xE0) (by omega) (by omega)).mp h
    omega
  have three : ¬UInt8.ofNat (0xF0 + n / 262144) < 0xF0 := by
    intro h
    have := (ofNat_byte_lt (m := 0xF0) (by omega) (by omega)).mp h
    omega
  have value : (0xF0 + n / 262144 - 0xF0) * 262144 + (0x80 + n / 4096 % 64 - 0x80) * 4096 +
      (0x80 + n / 64 % 64 - 0x80) * 64 + (0x80 + n % 64 - 0x80) = n := by omega
  rw [decodeUtf8Chars.eq_def]
  simp only [ascii, bad, two, three, if_false, not_true_eq_false, fitsFour_ofNat low high,
    isContinuation_ofNat (Nat.mod_lt (n / 64) (by decide : 0 < 64)),
    isContinuation_ofNat (Nat.mod_lt n (by decide : 0 < 64)),
    toNat_ofNat_byte (show 0xF0 + n / 262144 < 256 by omega),
    toNat_ofNat_byte (show 0x80 + n / 4096 % 64 < 256 by omega),
    toNat_ofNat_byte (show 0x80 + n / 64 % 64 < 256 by omega),
    toNat_ofNat_byte (show 0x80 + n % 64 < 256 by omega), value]
  cases decodeUtf8Chars (index + 4) rest <;> rfl

theorem decodeUtf8Chars_utf8Char (c : Char) (index : Nat) (rest : List UInt8) :
    decodeUtf8Chars index (utf8Char c ++ rest) =
      (decodeUtf8Chars (index + (utf8Char c).length) rest).map (c :: ·) := by
  have scalar : c.toNat < 0xD800 ∨ 0xDFFF < c.toNat ∧ c.toNat < 0x110000 := c.valid
  unfold utf8Char
  dsimp only
  split
  · simpa using decodeUtf8Chars_one (by omega : c.toNat < 0x80) index rest
  · split
    · simpa using decodeUtf8Chars_two (n := c.toNat) (by omega) (by omega) index rest
    · split
      · simpa using decodeUtf8Chars_three (n := c.toNat) (by omega) (by omega) (by omega) index rest
      · simpa using decodeUtf8Chars_four (n := c.toNat) (by omega) (by omega) index rest

theorem decodeUtf8Chars_flatMap (cs : List Char) (index : Nat) :
    decodeUtf8Chars index (cs.flatMap utf8Char) = .ok cs := by
  induction cs generalizing index with
  | nil => rfl
  | cons c cs ih =>
    rw [List.flatMap_cons, decodeUtf8Chars_utf8Char, ih]
    rfl

theorem decodeUtf8_utf8Bytes (text : String) : decodeUtf8 (utf8Bytes text) = .ok text := by
  rw [decodeUtf8, utf8Bytes, decodeUtf8Chars_flatMap]
  exact congrArg Except.ok String.ofList_toList

theorem toNat_ofNat_char {n : Nat} (h : n < 0xD800 ∨ 0xDFFF < n ∧ n < 0x110000) :
    (Char.ofNat n).toNat = n := by
  have valid : n.isValidChar := h
  rw [Char.ofNat, dif_pos valid]
  rfl

theorem byte_between {low high b : UInt8} (h : (decide (low ≤ b) && decide (b ≤ high)) = true) :
    low.toNat ≤ b.toNat ∧ b.toNat ≤ high.toNat := by
  obtain ⟨lower, upper⟩ := Bool.and_eq_true_iff.mp h
  exact ⟨UInt8.le_iff_toNat_le.mp (of_decide_eq_true lower),
    UInt8.le_iff_toNat_le.mp (of_decide_eq_true upper)⟩

theorem isContinuation_bounds {b : UInt8} (h : isContinuation b = true) :
    0x80 ≤ b.toNat ∧ b.toNat ≤ 0xBF :=
  byte_between h

/-- The second byte of a longer sequence: two first bytes, `few` and `most`, narrow its range. -/
theorem second_byte_bounds {a b few most low high : UInt8} (ne : few ≠ most) (above : 0x80 ≤ low.toNat)
    (below : high.toNat ≤ 0xBF)
    (h : (if a = few then decide (low ≤ b) && decide (b ≤ 0xBF)
      else if a = most then decide (0x80 ≤ b) && decide (b ≤ high) else isContinuation b) = true) :
    0x80 ≤ b.toNat ∧ b.toNat ≤ 0xBF ∧ (a = few → low.toNat ≤ b.toNat) ∧
      (a = most → b.toNat ≤ high.toNat) := by
  split at h
  · rename_i eq
    obtain ⟨lower, upper⟩ := byte_between h
    exact ⟨Nat.le_trans above lower, upper, fun _ => lower, fun eq' => absurd (eq.symm.trans eq') ne⟩
  · rename_i other
    split at h
    · obtain ⟨lower, upper⟩ := byte_between h
      exact ⟨lower, Nat.le_trans upper below, fun eq => absurd eq other, fun _ => upper⟩
    · rename_i other'
      obtain ⟨lower, upper⟩ := isContinuation_bounds h
      exact ⟨lower, upper, fun eq => absurd eq other, fun eq => absurd eq other'⟩

theorem ofNat_eq_byte {n : Nat} {b : UInt8} (h : n = b.toNat) : UInt8.ofNat n = b := by
  rw [h, UInt8.ofNat_toNat]

theorem utf8Char_one {n : Nat} {a : UInt8} (ascii : a.toNat < 0x80) (h : n = a.toNat) :
    utf8Char (Char.ofNat n) = [a] := by
  have value := toNat_ofNat_char (n := n) (by omega)
  rw [utf8Char, value, if_pos (by omega), ofNat_eq_byte h]

theorem utf8Char_two {n : Nat} {a b : UInt8} (first : 0xC2 ≤ a.toNat ∧ a.toNat < 0xE0)
    (second : 0x80 ≤ b.toNat ∧ b.toNat ≤ 0xBF) (h : n = (a.toNat - 0xC0) * 64 + (b.toNat - 0x80)) :
    utf8Char (Char.ofNat n) = [a, b] := by
  have value := toNat_ofNat_char (n := n) (by omega)
  rw [utf8Char, value, if_neg (by omega), if_pos (by omega),
    ofNat_eq_byte (b := a) (by omega), ofNat_eq_byte (b := b) (by omega)]

theorem utf8Char_three {n : Nat} {a b c : UInt8} (first : 0xE0 ≤ a.toNat ∧ a.toNat < 0xF0)
    (second : fitsThree a b = true) (third : 0x80 ≤ c.toNat ∧ c.toNat ≤ 0xBF)
    (h : n = (a.toNat - 0xE0) * 4096 + (b.toNat - 0x80) * 64 + (c.toNat - 0x80)) :
    utf8Char (Char.ofNat n) = [a, b, c] := by
  obtain ⟨low, high, overlong, surrogate⟩ :=
    second_byte_bounds (by decide) (by decide) (by decide) second
  simp only [← UInt8.toNat_inj, UInt8.reduceToNat] at overlong surrogate
  have value := toNat_ofNat_char (n := n) (by omega)
  rw [utf8Char, value, if_neg (by omega), if_neg (by omega), if_pos (by omega),
    ofNat_eq_byte (b := a) (by omega), ofNat_eq_byte (b := b) (by omega), ofNat_eq_byte (b := c) (by omega)]

theorem utf8Char_four {n : Nat} {a b c d : UInt8} (first : 0xF0 ≤ a.toNat ∧ a.toNat ≤ 0xF4)
    (second : fitsFour a b = true) (third : 0x80 ≤ c.toNat ∧ c.toNat ≤ 0xBF)
    (fourth : 0x80 ≤ d.toNat ∧ d.toNat ≤ 0xBF)
    (h : n = (a.toNat - 0xF0) * 262144 + (b.toNat - 0x80) * 4096 + (c.toNat - 0x80) * 64 +
      (d.toNat - 0x80)) : utf8Char (Char.ofNat n) = [a, b, c, d] := by
  obtain ⟨low, high, overlong, beyond⟩ :=
    second_byte_bounds (by decide) (by decide) (by decide) second
  simp only [← UInt8.toNat_inj, UInt8.reduceToNat] at overlong beyond
  have value := toNat_ofNat_char (n := n) (by omega)
  rw [utf8Char, value, if_neg (by omega), if_neg (by omega), if_neg (by omega),
    ofNat_eq_byte (b := a) (by omega), ofNat_eq_byte (b := b) (by omega),
    ofNat_eq_byte (b := c) (by omega), ofNat_eq_byte (b := d) (by omega)]

theorem flatMap_utf8Char_of_bind {more : Except Utf8Fault (List Char)} {c : Char} {cs : List Char}
    {head rest : List UInt8} (h : (do return c :: (← more)) = .ok cs) (first : utf8Char c = head)
    (ih : ∀ others, more = .ok others → others.flatMap utf8Char = rest) :
    cs.flatMap utf8Char = head ++ rest := by
  cases more with
  | error fault => cases h
  | ok others =>
    cases h
    rw [List.flatMap_cons, first, ih others rfl]

theorem flatMap_of_decodeUtf8Chars {index : Nat} {bytes : List UInt8} {cs : List Char}
    (h : decodeUtf8Chars index bytes = .ok cs) : cs.flatMap utf8Char = bytes := by
  fun_induction decodeUtf8Chars index bytes generalizing cs with
  | case1 =>
    cases h
    rfl
  | case2 index a r ascii ih =>
    exact flatMap_utf8Char_of_bind h (utf8Char_one (UInt8.lt_iff_toNat_lt.mp ascii) rfl) @ih
  | case6 index a ascii bad two b r second ih =>
    simp only [not_or, UInt8.lt_iff_toNat_lt, UInt8.reduceToNat, Nat.not_lt, Decidable.not_not] at *
    exact flatMap_utf8Char_of_bind h
      (utf8Char_two ⟨bad.1, two⟩ (isContinuation_bounds second) rfl) @ih
  | case11 index a ascii bad two three b second c r third ih =>
    simp only [not_or, UInt8.lt_iff_toNat_lt, UInt8.reduceToNat, Nat.not_lt, Decidable.not_not] at *
    exact flatMap_utf8Char_of_bind h
      (utf8Char_three ⟨two, three⟩ second (isContinuation_bounds third) rfl) @ih
  | case18 index a ascii bad two three b second c third d r fourth ih =>
    simp only [not_or, UInt8.lt_iff_toNat_lt, UInt8.reduceToNat, Nat.not_lt, Decidable.not_not] at *
    exact flatMap_utf8Char_of_bind h
      (utf8Char_four ⟨three, bad.2⟩ second (isContinuation_bounds third) (isContinuation_bounds fourth)
        rfl) @ih
  | _ => cases h

theorem utf8Bytes_of_decodeUtf8 {bytes : List UInt8} {text : String}
    (h : decodeUtf8 bytes = .ok text) : utf8Bytes text = bytes := by
  unfold decodeUtf8 at h
  cases decoded : decodeUtf8Chars 0 bytes with
  | error fault =>
    rw [decoded] at h
    cases h
  | ok cs =>
    rw [decoded] at h
    cases h
    rw [utf8Bytes, String.toList_ofList]
    exact flatMap_of_decodeUtf8Chars decoded

end AvroCompiler

import AvroCompiler.Proofs.Wire.Primitive
import AvroCompiler.Proofs.Wire.Equations

namespace AvroCompiler.Wire

theorem groups_length_pos (v : UInt64) : 0 < (groups v).length := by
  rw [groups]
  split <;> simp

theorem lt_pow_groups_length (v : UInt64) : v.toNat < 128 ^ (groups v).length := by
  fun_induction groups v with
  | case1 v small => simpa [UInt64.lt_iff_toNat_lt] using small
  | case2 v large ih =>
    rw [shift_seven_toNat] at ih
    rw [List.length_cons, Nat.pow_succ]
    omega

theorem groups_length_le {v : UInt64} {count : Nat} (pos : 0 < count) (h : v.toNat < 128 ^ count) :
    (groups v).length ≤ count := by
  fun_induction groups v generalizing count with
  | case1 v small => exact pos
  | case2 v large ih =>
    have ge : 128 ≤ v.toNat := by simpa [UInt64.lt_iff_toNat_lt] using large
    obtain ⟨count, rfl⟩ : ∃ before, count = before + 1 := ⟨count - 1, by omega⟩
    have more : 0 < count := by
      by_contra zero
      obtain rfl : count = 0 := by omega
      omega
    rw [Nat.pow_succ] at h
    have rest := ih more (by rw [shift_seven_toNat]; omega)
    rw [List.length_cons]
    omega

theorem accumulate_lt {value shift : UInt64} {b : UInt8} {k : Nat} (hs : shift.toNat = 7 * k)
    (hk : k ≤ 9) (hv : value.toNat < 2 ^ (7 * k)) :
    (value ||| (b &&& 0x7F).toUInt64 <<< shift).toNat < 2 ^ (7 * (k + 1)) := by
  have small : shift.toNat % 64 = 7 * k := by omega
  have more : (2 : Nat) ^ (7 * (k + 1)) = 128 * 2 ^ (7 * k) := by
    rw [Nat.mul_add, Nat.pow_add, Nat.mul_comm]
  have group : b.toNat % 128 * 2 ^ (7 * k) < 2 ^ (7 * (k + 1)) := by
    rw [more]
    exact Nat.mul_lt_mul_of_pos_right (Nat.mod_lt _ (by decide)) (Nat.two_pow_pos _)
  rw [UInt64.toNat_or, UInt64.toNat_shiftLeft, small, low_group_toNat, Nat.shiftLeft_eq]
  refine Nat.or_lt_two_pow ?_ ?_
  · rw [more]
    omega
  · exact Nat.lt_of_le_of_lt (Nat.mod_le _ _) group

/-- By induction on the input. The tenth group is the last one, so the shift stays within 64 bits. -/
theorem collect_lt {shift value total : UInt64} {bytes : List UInt8} {ending : Ending} {rest : Source}
    {k : Nat} (hs : shift.toNat = 7 * k) (hk : k ≤ 9) (hv : value.toNat < 2 ^ (7 * k))
    (h : (collect shift value).run ⟨bytes, ending⟩ = (.ok total, rest)) :
    ∃ used, bytes.length = used + 1 + rest.bytes.length ∧ total.toNat < 2 ^ (7 * (k + used + 1)) := by
  induction bytes generalizing shift value k with
  | nil => cases h
  | cons b bytes ih =>
    have acc := accumulate_lt (b := b) hs hk hv
    rw [collect_eq] at h
    change Decoder.run _ ⟨bytes, ending⟩ = _ at h
    split at h
    · cases h
    · rename_i fits
      split at h
      · cases h
        exact ⟨0, by simp [Nat.add_comm], acc⟩
      · rename_i inner
        have eight : k ≤ 8 := by
          by_contra big
          have nine : shift = 63 := by
            rw [← UInt64.toNat_inj, hs, show k = 9 by omega]
            rfl
          have one : b.toNat ≤ 1 := by
            have le : ¬1 < b := fun lt => fits ⟨nine, lt⟩
            rw [UInt8.lt_iff_toNat_lt] at le
            exact Nat.le_of_not_lt le
          exact inner (top_bit_eq_zero (by omega))
        obtain ⟨used, length, bound⟩ := ih (shift_add_seven hs hk) (by omega) acc h
        refine ⟨used + 1, by rw [List.length_cons, length]; omega, ?_⟩
        rwa [show k + (used + 1) + 1 = k + 1 + used + 1 by omega]

theorem varint_spends {source rest : Source} {v : UInt64} (h : varint.run source = (.ok v, rest)) :
    (groups v).length + rest.bytes.length ≤ source.bytes.length := by
  obtain ⟨used, length, bound⟩ := collect_lt (show (0 : UInt64).toNat = 7 * 0 from rfl) (by omega)
    (show (0 : UInt64).toNat < 2 ^ (7 * 0) by decide) h
  have few : (groups v).length ≤ used + 1 := by
    refine groups_length_le (by omega) ?_
    rwa [Nat.pow_mul, Nat.zero_add] at bound
  omega

theorem zigzag_toBitVec (n : Int64) :
    (zigzag n).toBitVec = n.toBitVec <<< 1 ^^^ n.toBitVec.sshiftRight 63 := by
  simp [zigzag]

theorem zigzag_toNat_of_nonneg {n : Int64} (h : 0 ≤ n.toInt) :
    (zigzag n).toNat = 2 * n.toInt.natAbs := by
  have sign := BitVec.toInt_eq_msb_cond n.toBitVec
  have bound := n.toBitVec.isLt
  change 0 ≤ n.toBitVec.toInt at h
  change (zigzag n).toBitVec.toNat = 2 * n.toBitVec.toInt.natAbs
  have msb : n.toBitVec.msb = false := by
    rw [BitVec.msb_eq_toInt, decide_eq_false_iff_not]
    omega
  rw [msb] at sign
  simp only [Bool.false_eq_true, if_false] at sign
  rw [zigzag_toBitVec, sshiftRight_sign, msb, if_neg Bool.false_ne_true, BitVec.xor_zero,
    BitVec.toNat_shiftLeft, Nat.shiftLeft_eq]
  have upper := BitVec.toInt_lt (x := n.toBitVec)
  omega

theorem zigzag_toNat_of_neg {n : Int64} (h : n.toInt < 0) :
    (zigzag n).toNat = 2 * n.toInt.natAbs - 1 := by
  have sign := BitVec.toInt_eq_msb_cond n.toBitVec
  have bound := n.toBitVec.isLt
  change n.toBitVec.toInt < 0 at h
  change (zigzag n).toBitVec.toNat = 2 * n.toBitVec.toInt.natAbs - 1
  have msb : n.toBitVec.msb = true := by
    rw [BitVec.msb_eq_toInt, decide_eq_true_iff]
    exact h
  rw [msb] at sign
  simp only [if_true] at sign
  rw [zigzag_toBitVec, sshiftRight_sign, msb, if_pos rfl, BitVec.xor_allOnes, BitVec.toNat_not,
    BitVec.toNat_shiftLeft, Nat.shiftLeft_eq]
  have lower := BitVec.le_toInt (x := n.toBitVec)
  omega

theorem zigzag_surjective (v : UInt64) : ∃ n, zigzag n = v := by
  have bound := v.toNat_lt
  rcases Nat.mod_two_eq_zero_or_one v.toNat with even | odd
  · refine ⟨.ofInt (v.toNat / 2 : Nat), ?_⟩
    have value := Int64.toInt_ofInt_of_le (n := (v.toNat / 2 : Nat)) (by omega) (by omega)
    rw [← UInt64.toNat_inj, zigzag_toNat_of_nonneg (by omega), value]
    omega
  · refine ⟨.ofInt (-(v.toNat / 2 + 1 : Nat)), ?_⟩
    have value := Int64.toInt_ofInt_of_le (n := -(v.toNat / 2 + 1 : Nat)) (by omega) (by omega)
    rw [← UInt64.toNat_inj, zigzag_toNat_of_neg (by omega), value]
    omega

theorem zigzag_unzigzag (v : UInt64) : zigzag (unzigzag v) = v := by
  obtain ⟨n, rfl⟩ := zigzag_surjective v
  rw [unzigzag_zigzag]

theorem decodeInt_spends {source rest : Source} {n : Int64} (h : decodeInt.run source = (.ok n, rest)) :
    (intBytes n).length + rest.bytes.length ≤ source.bytes.length := by
  obtain ⟨v, middle, read, done⟩ := Decoder.exists_of_bind_ok h
  cases done
  rw [intBytes, zigzag_unzigzag]
  exact varint_spends read

def countSize (count : Nat) : Nat :=
  (intBytes (.ofNat count)).length

theorem countSize_pos (count : Nat) : 0 < countSize count :=
  groups_length_pos _

theorem zigzag_ofNat_toNat {count : Nat} (h : count < 2 ^ 63) :
    (zigzag (.ofNat count)).toNat = 2 * count := by
  have value := Int64.toInt_ofNat_of_lt h
  rw [zigzag_toNat_of_nonneg (by omega), value]
  omega

theorem countSize_le_iff {count size : Nat} (h : count < 2 ^ 63) (pos : 0 < size) :
    countSize count ≤ size ↔ 2 * count < 128 ^ size := by
  constructor
  · intro le
    have lt := lt_pow_groups_length (zigzag (.ofNat count))
    rw [zigzag_ofNat_toNat h] at lt
    exact Nat.lt_of_lt_of_le lt (Nat.pow_le_pow_right (by decide) le)
  · intro lt
    exact groups_length_le pos (by rwa [zigzag_ofNat_toNat h])

theorem countSize_mono {few many : Nat} (h : many < 2 ^ 63) (le : few ≤ many) :
    countSize few ≤ countSize many := by
  have fits := (countSize_le_iff h (countSize_pos many)).mp (Nat.le_refl _)
  exact (countSize_le_iff (by omega) (countSize_pos many)).mpr (by omega)

/-- One count for all items takes no more bytes than a count for each of two blocks. -/
theorem countSize_add_le {first second : Nat} (h : first + second < 2 ^ 63) :
    countSize (first + second) ≤ countSize first + countSize second := by
  have fits := (countSize_le_iff (by omega) (countSize_pos first)).mp (Nat.le_refl _)
  have fits' := (countSize_le_iff (by omega) (countSize_pos second)).mp (Nat.le_refl _)
  have pos := countSize_pos first
  have large : 2 ≤ 128 ^ countSize first := by
    calc 2 ≤ 128 ^ 1 := by decide
      _ ≤ 128 ^ countSize first := Nat.pow_le_pow_right (by decide) pos
  have large' : 2 ≤ 128 ^ countSize second := by
    calc 2 ≤ 128 ^ 1 := by decide
      _ ≤ 128 ^ countSize second := Nat.pow_le_pow_right (by decide) (countSize_pos second)
  refine (countSize_le_iff h (by omega)).mpr ?_
  rw [Nat.pow_add]
  calc 2 * (first + second) < 128 ^ countSize first + 128 ^ countSize second := by omega
    _ ≤ 128 ^ countSize first * 128 ^ countSize second := Nat.add_le_mul large large'

/-- A count below zero may take a byte less than its negation, never two. -/
theorem countSize_natAbs_le {n : Int64} (negative : n.toInt < 0) (h : n.toInt.natAbs < 2 ^ 63) :
    countSize n.toInt.natAbs ≤ (intBytes n).length + 1 := by
  have lt := lt_pow_groups_length (zigzag n)
  rw [zigzag_toNat_of_neg negative] at lt
  refine (countSize_le_iff h (by omega)).mpr ?_
  rw [intBytes, Nat.pow_succ]
  omega

end AvroCompiler.Wire

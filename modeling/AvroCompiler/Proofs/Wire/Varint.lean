import AvroCompiler.Wire.Varint
import AvroCompiler.Proofs.Wire.Transfer
import Mathlib.Data.Nat.Bitwise
import Mathlib.Tactic.Ring

namespace AvroCompiler.Wire

theorem low_group_toNat (b : UInt8) : (b &&& 0x7F).toUInt64.toNat = b.toNat % 128 := by
  rw [UInt8.toNat_toUInt64, UInt8.toNat_and]
  exact Nat.and_two_pow_sub_one_eq_mod b.toNat 7

theorem last_group_toNat {v : UInt64} (h : v < 0x80) : v.toUInt8.toNat = v.toNat := by
  have lt : v.toNat < 0x80 := by simpa [UInt64.lt_iff_toNat_lt] using h
  rw [UInt64.toNat_toUInt8]
  omega

theorem inner_group_toNat (v : UInt64) :
    (v.toUInt8 &&& 0x7F ||| 0x80).toNat = v.toNat % 128 + 128 := by
  have low : v.toUInt8.toNat &&& (0x7F : UInt8).toNat = v.toNat % 128 := by
    have h := Nat.and_two_pow_sub_one_eq_mod v.toUInt8.toNat 7
    rw [UInt64.toNat_toUInt8] at h ⊢
    refine h.trans ?_
    omega
  have top := Nat.two_pow_add_eq_or_of_lt (i := 7) (b := v.toNat % 128) (by omega) 1
  rw [UInt8.toNat_or, UInt8.toNat_and, low, Nat.or_comm]
  rw [show (0x80 : UInt8).toNat = 2 ^ 7 * 1 from rfl, ← top]
  omega

theorem shift_seven_toNat (v : UInt64) : (v >>> 7).toNat = v.toNat / 128 := by
  rw [UInt64.toNat_shiftRight, Nat.shiftRight_eq_div_pow]
  rfl

theorem top_bit_eq_zero {b : UInt8} (h : b.toNat < 128) : b &&& 0x80 = 0 := by
  have bit : b.toNat.testBit 7 = false := Nat.testBit_lt_two_pow h
  rw [← UInt8.toNat_inj, UInt8.toNat_and]
  change b.toNat &&& 2 ^ 7 = 0
  rw [Nat.and_two_pow, bit]
  rfl

theorem top_bit_ne_zero {b : UInt8} (h : 128 ≤ b.toNat) : b &&& 0x80 ≠ 0 := by
  intro eq
  have bound := b.toNat_lt
  have bit : b.toNat.testBit 7 = true := by
    rw [Nat.testBit_eq_decide_div_mod_eq, decide_eq_true_eq]
    omega
  have eq := congrArg UInt8.toNat eq
  rw [UInt8.toNat_and] at eq
  change b.toNat &&& 2 ^ 7 = 0 at eq
  rw [Nat.and_two_pow, bit] at eq
  exact absurd eq (by decide)

/-- A group is added above the bits collected so far, as long as it stays within 64 bits. -/
theorem accumulate_toNat {value group shift : UInt64} {k : Nat} (hs : shift.toNat = 7 * k) (hk : k ≤ 9)
    (hv : value.toNat < 2 ^ (7 * k)) (hg : group.toNat * 2 ^ (7 * k) < 2 ^ 64) :
    (value ||| group <<< shift).toNat = value.toNat + group.toNat * 2 ^ (7 * k) := by
  have small : shift.toNat % 64 = 7 * k := by omega
  rw [UInt64.toNat_or, UInt64.toNat_shiftLeft, small, Nat.shiftLeft_eq, Nat.mod_eq_of_lt hg,
    Nat.or_comm, ← Nat.shiftLeft_eq, ← Nat.shiftLeft_add_eq_or_of_lt hv, Nat.add_comm]

theorem shift_add_seven {shift : UInt64} {k : Nat} (hs : shift.toNat = 7 * k) (hk : k ≤ 9) :
    (shift + 7).toNat = 7 * (k + 1) := by
  rw [UInt64.toNat_add, hs]
  change (7 * k + 7) % 2 ^ 64 = _
  omega

theorem ungroup_go_groups (source : Source) (rest : List UInt8) {v shift value : UInt64} {k : Nat}
    (hs : shift.toNat = 7 * k) (hk : k ≤ 9) (hv : value.toNat < 2 ^ (7 * k))
    (room : v.toNat * 2 ^ (7 * k) < 2 ^ 64) :
    ∃ total : UInt64, total.toNat = value.toNat + v.toNat * 2 ^ (7 * k) ∧
      ungroup.go source shift value (groups v ++ rest) =
        (.ok total, { source with bytes := rest }) := by
  fun_induction groups v generalizing shift value k with
  | case1 v small =>
    have lt : v.toNat < 128 := by simpa [UInt64.lt_iff_toNat_lt] using small
    have hb := last_group_toNat small
    have group : (v.toUInt8 &&& 0x7F).toUInt64.toNat = v.toNat := by
      rw [low_group_toNat, hb]
      omega
    refine ⟨value ||| (v.toUInt8 &&& 0x7F).toUInt64 <<< shift, ?_, ?_⟩
    · rw [accumulate_toNat hs hk hv (by rw [group]; exact room), group]
    · have fits : ¬(shift = 63 ∧ 1 < v.toUInt8) := by
        rintro ⟨rfl, big⟩
        have nine : k = 9 := by
          have : (63 : UInt64).toNat = 63 := rfl
          omega
        have big : 1 < v.toNat := hb ▸ UInt8.lt_iff_toNat_lt.mp big
        subst nine
        omega
      rw [List.singleton_append, ungroup.go, if_neg fits]
      exact if_pos (top_bit_eq_zero (by omega))
  | case2 v large ih =>
    have ge : 128 ≤ v.toNat := by simpa [UInt64.lt_iff_toNat_lt] using large
    have hb := inner_group_toNat v
    have hq := shift_seven_toNat v
    have group : ((v.toUInt8 &&& 0x7F ||| 0x80) &&& 0x7F).toUInt64.toNat = v.toNat % 128 := by
      rw [low_group_toNat, hb]
      omega
    have step : (2 : Nat) ^ (7 * (k + 1)) = 128 * 2 ^ (7 * k) := by
      rw [Nat.mul_add, Nat.pow_add]
      ring
    have eight : k ≤ 8 := by
      by_contra big
      have nine : k = 9 := by omega
      subst nine
      omega
    have parts : v.toNat * 2 ^ (7 * k) =
        v.toNat % 128 * 2 ^ (7 * k) + v.toNat / 128 * (128 * 2 ^ (7 * k)) := by
      conv_lhs => rw [← Nat.mod_add_div v.toNat 128]
      ring
    have low : v.toNat % 128 * 2 ^ (7 * k) ≤ 127 * 2 ^ (7 * k) := Nat.mul_le_mul_right _ (by omega)
    have acc := accumulate_toNat hs hk hv (by rw [group]; omega)
    rw [group] at acc
    obtain ⟨total, ht, hgo⟩ :=
      ih (shift_add_seven hs hk) (by omega) (by rw [acc, step]; omega) (by rw [hq, step]; omega)
    refine ⟨total, ?_, ?_⟩
    · rw [ht, acc, hq, step, parts]
      omega
    · have fits : ¬(shift = 63 ∧ 1 < (v.toUInt8 &&& 0x7F ||| 0x80)) := by
        rintro ⟨rfl, -⟩
        have : (63 : UInt64).toNat = 63 := rfl
        omega
      rw [List.cons_append, ungroup.go, if_neg fits]
      exact (if_neg (top_bit_ne_zero (by omega))).trans hgo

theorem varint_takes (v : UInt64) : varint.Takes (groups v) v := by
  intro rest ending
  have room : v.toNat * 2 ^ (7 * 0) < 2 ^ 64 := by
    have := v.toNat_lt
    omega
  obtain ⟨total, ht, hgo⟩ := ungroup_go_groups ⟨groups v ++ rest, ending⟩ rest
    (show (0 : UInt64).toNat = 7 * 0 from rfl) (by omega) (show (0 : UInt64).toNat < 1 by decide) room
  have eq : total = v := by
    rw [← UInt64.toNat_inj, ht, UInt64.toNat_zero]
    omega
  exact eq ▸ hgo

theorem sshiftRight_sign (x : BitVec 64) :
    x.sshiftRight 63 = if x.msb then BitVec.allOnes 64 else 0#64 := by
  have top : x.msb = x.getLsbD 63 := BitVec.msb_eq_getLsbD_last x
  ext i hi
  rw [BitVec.getElem_sshiftRight]
  by_cases h : 63 + i < 64
  · have zero : i = 0 := by omega
    subst zero
    cases hm : x.msb <;> simp_all [-BitVec.reduceAllOnes]
  · cases hm : x.msb <;> simp [h, -BitVec.reduceAllOnes]

theorem unzigzag_zigzag_bits (x : BitVec 64) :
    (x <<< 1 ^^^ x.sshiftRight 63) >>> 1 ^^^ -((x <<< 1 ^^^ x.sshiftRight 63) &&& 1#64) = x := by
  have top : x.msb = x.getLsbD 63 := BitVec.msb_eq_getLsbD_last x
  rw [sshiftRight_sign]
  cases hm : x.msb with
  | false =>
    have even : x <<< 1 &&& 1#64 = 0#64 := by
      ext i hi
      by_cases h : i = 0 <;> simp [h]
    simp only [Bool.false_eq_true, if_false, BitVec.xor_zero, even, BitVec.neg_zero]
    ext i hi
    by_cases h : i = 63
    · subst h
      simpa [hm] using top
    · have below : 1 + i < 64 := by omega
      simp [below]
  | true =>
    have odd : (x <<< 1 ^^^ BitVec.allOnes 64) &&& 1#64 = 1#64 := by
      ext i hi
      by_cases h : i = 0 <;> simp [h]
    have ones : -1#64 = BitVec.allOnes 64 := rfl
    simp only [if_true, odd, ones]
    ext i hi
    by_cases h : i = 63
    · subst h
      simpa [hm] using top
    · have below : 1 + i < 64 := by omega
      simp [below, -BitVec.reduceAllOnes]

theorem unzigzag_zigzag (n : Int64) : unzigzag (zigzag n) = n := by
  have h := unzigzag_zigzag_bits n.toBitVec
  rw [← Int64.toBitVec_inj]
  simpa [unzigzag, zigzag] using h

theorem decodeInt_takes (n : Int64) : decodeInt.Takes (intBytes n) n := by
  have h : decodeInt.Takes (intBytes n) (unzigzag (zigzag n)) :=
    (varint_takes (zigzag n)).bind_nil (Decoder.takes_pure _)
  rwa [unzigzag_zigzag] at h

theorem putGroups_eq (v : UInt64) : putGroups v = put (groups v) := by
  fun_induction groups v with
  | case1 v small =>
    rw [putGroups, if_pos small]
    rfl
  | case2 v large ih =>
    rw [putGroups, if_neg large]
    have inner : putByte (v.toUInt8 &&& 0x7F ||| 0x80) = put [v.toUInt8 &&& 0x7F ||| 0x80] := rfl
    exact Writer.put_bind inner ih

theorem encodeInt_eq (n : Int64) : encodeInt n = put (intBytes n) :=
  putGroups_eq (zigzag n)

end AvroCompiler.Wire

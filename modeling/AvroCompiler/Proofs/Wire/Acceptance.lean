import AvroCompiler.Proofs.Loop
import AvroCompiler.Proofs.Wire.Size
import Mathlib.Data.Nat.Digits.Defs

namespace AvroCompiler.Wire

/-- Another group follows: the top bit is set. -/
def Continues (b : UInt8) : Prop :=
  b &&& 0x80 ≠ 0

instance (b : UInt8) : Decidable (Continues b) :=
  inferInstanceAs (Decidable (b &&& 0x80 ≠ 0))

/-- The groups of the bytes as the digits of a number, the lowest one first. -/
def groupSum (bytes : List UInt8) : Nat :=
  Nat.ofDigits 128 (bytes.map fun b => b.toNat % 128)

/-- The integer that zigzag maps to a number. -/
def signed (v : Nat) : Int :=
  if v % 2 = 0 then v / 2 else -(v / 2 + 1)

theorem continues_iff {b : UInt8} : Continues b ↔ 128 ≤ b.toNat := by
  constructor
  · intro more
    by_contra small
    exact more (top_bit_eq_zero (by omega))
  · exact top_bit_ne_zero

theorem groupSum_cons (b : UInt8) (bytes : List UInt8) :
    groupSum (b :: bytes) = b.toNat % 128 + 128 * groupSum bytes :=
  Nat.ofDigits_cons

theorem groupSum_snoc (front : List UInt8) (last : UInt8) :
    groupSum (front ++ [last]) = groupSum front + last.toNat % 128 * 2 ^ (7 * front.length) := by
  unfold groupSum
  rw [List.map_append, Nat.ofDigits_append, List.length_map, List.map_singleton, Nat.ofDigits_singleton,
    Nat.mul_comm, Nat.pow_mul]

theorem groupSum_lt (bytes : List UInt8) : groupSum bytes < 128 ^ bytes.length := by
  induction bytes with
  | nil => exact Nat.one_pos
  | cons b bytes ih =>
    rw [groupSum_cons, List.length_cons, Nat.pow_succ]
    omega

theorem signed_zigzag (n : Int64) : signed (zigzag n).toNat = n.toInt := by
  unfold signed
  by_cases sign : 0 ≤ n.toInt
  · rw [zigzag_toNat_of_nonneg sign]
    split <;> omega
  · rw [zigzag_toNat_of_neg (by omega)]
    split <;> omega

theorem shift_eq_iff {shift : UInt64} {k : Nat} (hs : shift.toNat = 7 * k) : shift = 63 ↔ k = 9 := by
  rw [← UInt64.toNat_inj, hs]
  change 7 * k = 63 ↔ _
  omega

theorem collect_nil (shift value : UInt64) (ending : Ending) :
    (collect shift value).run ⟨[], ending⟩ =
      (.error (Source.shortage ⟨[], ending⟩), ⟨[], ending⟩) := by
  rw [collect_eq]
  rfl

theorem collect_cons (shift value : UInt64) (b : UInt8) (rest : List UInt8) (ending : Ending) :
    (collect shift value).run ⟨b :: rest, ending⟩ =
      if shift = 63 ∧ 1 < b then (.error .varintOverflow, ⟨rest, ending⟩)
      else if Continues b then
        (collect (shift + 7) (value ||| (b &&& 0x7F).toUInt64 <<< shift)).run ⟨rest, ending⟩
      else (.ok (value ||| (b &&& 0x7F).toUInt64 <<< shift), ⟨rest, ending⟩) := by
  rw [collect_eq]
  change Decoder.run _ ⟨rest, ending⟩ = _
  by_cases full : shift = 63 ∧ 1 < b
  · rw [if_pos full, if_pos full]
    rfl
  · rw [if_neg full, if_neg full]
    by_cases more : Continues b
    · rw [if_neg more, if_pos more]
    · rw [if_pos (not_not.mp more), if_neg more]
      rfl

theorem collect_front {shift value : UInt64} {k : Nat} {front : List UInt8} (rest : List UInt8)
    (ending : Ending) (hs : shift.toNat = 7 * k) (hv : value.toNat < 2 ^ (7 * k))
    (more : ∀ b ∈ front, Continues b) (room : k + front.length ≤ 9) :
    ∃ shift' value' : UInt64, shift'.toNat = 7 * (k + front.length) ∧
      value'.toNat = value.toNat + groupSum front * 2 ^ (7 * k) ∧
      (collect shift value).run ⟨front ++ rest, ending⟩ =
        (collect shift' value').run ⟨rest, ending⟩ := by
  induction front generalizing shift value k with
  | nil => exact ⟨shift, value, hs, by simp [groupSum], rfl⟩
  | cons b front ih =>
    obtain ⟨first, others⟩ := List.forall_mem_cons.mp more
    rw [List.length_cons] at room
    have group : b.toNat % 128 * 2 ^ (7 * k) < 2 ^ 64 := by
      calc b.toNat % 128 * 2 ^ (7 * k) < 128 * 2 ^ (7 * k) :=
            Nat.mul_lt_mul_of_pos_right (Nat.mod_lt _ (by decide)) (Nat.two_pow_pos _)
        _ = 2 ^ (7 + 7 * k) := by rw [Nat.pow_add]
        _ ≤ 2 ^ 64 := Nat.pow_le_pow_right (by decide) (by omega)
    -- What is collected so far is below the shift, so that `|||` adds the group.
    have acc := accumulate_toNat hs (by omega) hv (by rw [low_group_toNat]; exact group)
    rw [low_group_toNat] at acc
    obtain ⟨shift', value', hs', hv', run⟩ := ih (shift_add_seven hs (by omega))
      (accumulate_lt hs (by omega) hv) others (by omega)
    refine ⟨shift', value', by rw [hs', List.length_cons]; omega, ?_, ?_⟩
    · rw [hv', acc, groupSum_cons, Nat.mul_add 7, Nat.pow_add]
      ring
    · -- This byte is not the tenth one, which is the only one with a limit.
      have fits : ¬(shift = 63 ∧ 1 < b) := fun full => by
        have nine := (shift_eq_iff hs).mp full.1
        omega
      rw [List.cons_append, collect_cons, if_neg fits, if_pos first, run]

theorem varint_front {front : List UInt8} (rest : List UInt8) (ending : Ending)
    (more : ∀ b ∈ front, Continues b) (room : front.length ≤ 9) :
    ∃ shift value : UInt64, shift.toNat = 7 * front.length ∧ value.toNat = groupSum front ∧
      varint.run ⟨front ++ rest, ending⟩ = (collect shift value).run ⟨rest, ending⟩ := by
  obtain ⟨shift, value, hs, hv, run⟩ := collect_front rest ending
    (show (0 : UInt64).toNat = 7 * 0 from rfl) (show (0 : UInt64).toNat < 2 ^ (7 * 0) by decide) more
    (by omega)
  refine ⟨shift, value, by rw [hs, Nat.zero_add], ?_, run⟩
  rw [hv, UInt64.toNat_zero]
  omega

/-- The bytes of a number of at most 64 bits: nine groups and one more bit. -/
structure Fits (front : List UInt8) (last : UInt8) : Prop where
  continues : ∀ b ∈ front, Continues b
  ends : ¬Continues last
  room : front.length < 9 ∨ front.length = 9 ∧ last ≤ 1

theorem Fits.groupSum_lt {front : List UInt8} {last : UInt8} (fits : Fits front last) :
    groupSum (front ++ [last]) < 2 ^ 64 := by
  rcases fits.room with few | ⟨nine, small⟩
  · calc groupSum (front ++ [last]) < 128 ^ (front ++ [last]).length := Wire.groupSum_lt _
      _ ≤ 128 ^ 9 := Nat.pow_le_pow_right (by decide) (by rw [List.length_append]; exact few)
      _ ≤ 2 ^ 64 := by norm_num
  · have below := Wire.groupSum_lt front
    have small : last.toNat ≤ 1 := UInt8.le_iff_toNat_le.mp small
    rw [groupSum_snoc, nine]
    rw [nine] at below
    omega

theorem Fits.varint_run {front : List UInt8} {last : UInt8} (fits : Fits front last)
    (rest : List UInt8) (ending : Ending) :
    ∃ v : UInt64, v.toNat = groupSum (front ++ [last]) ∧
      varint.run ⟨front ++ last :: rest, ending⟩ = (.ok v, ⟨rest, ending⟩) := by
  have room : front.length ≤ 9 := by have := fits.room; omega
  have bound := fits.groupSum_lt
  rw [groupSum_snoc] at bound
  obtain ⟨shift, value, hs, hv, run⟩ := varint_front (last :: rest) ending fits.continues room
  have below : value.toNat < 2 ^ (7 * front.length) := by
    rw [hv, Nat.pow_mul]
    exact Wire.groupSum_lt front
  have acc := accumulate_toNat hs room below
    (show (last &&& 0x7F).toUInt64.toNat * 2 ^ (7 * front.length) < 2 ^ 64 by
      rw [low_group_toNat]
      omega)
  refine ⟨value ||| (last &&& 0x7F).toUInt64 <<< shift, ?_, ?_⟩
  · rw [acc, low_group_toNat, hv, groupSum_snoc]
  · have fitting : ¬(shift = 63 ∧ 1 < last) := by
      rintro ⟨full, large⟩
      have nine := (shift_eq_iff hs).mp full
      have small : last ≤ 1 := by
        rcases fits.room with few | ⟨-, small⟩
        · omega
        · exact small
      exact UInt8.not_lt.mpr small large
    rw [run, collect_cons, if_neg fitting, if_neg fits.ends]

/-- More than 64 bits: after nine bytes with the top bit set, the tenth has room for one bit only. -/
def TooLong (bytes : List UInt8) : Prop :=
  ∃ front b rest,
    bytes = front ++ b :: rest ∧ front.length = 9 ∧ (∀ b ∈ front, Continues b) ∧ 1 < b

theorem one_lt_of_continues {b : UInt8} (more : Continues b) : 1 < b := by
  rw [UInt8.lt_iff_toNat_lt]
  exact Nat.lt_of_lt_of_le (by decide) (continues_iff.mp more)

theorem tooLong_of_ten {front : List UInt8} (rest : List UInt8) (more : ∀ b ∈ front, Continues b)
    (many : 9 < front.length) : TooLong (front ++ rest) := by
  refine ⟨front.take 9, front[9], front.drop 10 ++ rest, ?_, by rw [List.length_take]; omega,
    fun b mem => more b (List.mem_of_mem_take mem), one_lt_of_continues (more _ (List.getElem_mem many))⟩
  rw [← List.cons_append, ← List.append_assoc, ← List.drop_eq_getElem_cons many, List.take_append_drop]

theorem fits_or_tooLong {front : List UInt8} {last : UInt8} (rest : List UInt8)
    (more : ∀ b ∈ front, Continues b) (ends : ¬Continues last) :
    Fits front last ∨ TooLong (front ++ last :: rest) := by
  rcases Nat.lt_trichotomy front.length 9 with few | nine | many
  · exact .inl ⟨more, ends, .inl few⟩
  · by_cases small : last ≤ 1
    · exact .inl ⟨more, ends, .inr ⟨nine, small⟩⟩
    · exact .inr ⟨front, last, rest, rfl, nine, more, UInt8.not_le.mp small⟩
  · exact .inr (tooLong_of_ten (last :: rest) more many)

theorem bytes_cases (bytes : List UInt8) :
    (∃ front last rest, Fits front last ∧ bytes = front ++ last :: rest) ∨ TooLong bytes ∨
      bytes.length < 10 ∧ ∀ b ∈ bytes, Continues b := by
  cases found : bytes.find? fun b => ¬Continues b with
  | none =>
    have all : ∀ b ∈ bytes, Continues b := by simpa using found
    rcases Nat.lt_or_ge bytes.length 10 with few | many
    · exact .inr (.inr ⟨few, all⟩)
    · have long := tooLong_of_ten [] all many
      rw [List.append_nil] at long
      exact .inr (.inl long)
  | some last =>
    obtain ⟨ends, front, rest, rfl, more⟩ := List.find?_eq_some_iff_append.mp found
    simp only [decide_not, Bool.not_eq_true', decide_eq_false_iff_not, Bool.not_not,
      decide_eq_true_eq] at ends more
    rcases fits_or_tooLong rest more ends with fits | long
    · exact .inl ⟨front, last, rest, fits, rfl⟩
    · exact .inr (.inl long)

theorem decodeInt_of_ok {source rest : Source} {v : UInt64} (read : varint.run source = (.ok v, rest)) :
    decodeInt.run source = (.ok (unzigzag v), rest) := by
  change Decoder.runBind varint _ source = _
  rw [Decoder.runBind, read]
  rfl

theorem decodeInt_of_error {source rest : Source} {fault : Fault}
    (read : varint.run source = (.error fault, rest)) : decodeInt.run source = (.error fault, rest) := by
  change Decoder.runBind varint _ source = _
  rw [Decoder.runBind, read]

theorem Fits.decodeInt_run {front : List UInt8} {last : UInt8} (fits : Fits front last)
    (rest : List UInt8) (ending : Ending) :
    ∃ n : Int64, n.toInt = signed (groupSum (front ++ [last])) ∧
      (zigzag n).toNat = groupSum (front ++ [last]) ∧
      decodeInt.run ⟨front ++ last :: rest, ending⟩ = (.ok n, ⟨rest, ending⟩) := by
  obtain ⟨v, value, run⟩ := fits.varint_run rest ending
  have back := signed_zigzag (unzigzag v)
  rw [zigzag_unzigzag] at back
  exact ⟨unzigzag v, by rw [← back, value], by rw [zigzag_unzigzag, value], decodeInt_of_ok run⟩

theorem TooLong.decodeInt_run {bytes : List UInt8} (long : TooLong bytes) (ending : Ending) :
    ∃ left, decodeInt.run ⟨bytes, ending⟩ = (.error .varintOverflow, left) := by
  obtain ⟨front, b, rest, rfl, nine, more, large⟩ := long
  obtain ⟨shift, value, hs, -, run⟩ := varint_front (b :: rest) ending more (by omega)
  rw [collect_cons, if_pos ⟨(shift_eq_iff hs).mpr nine, large⟩] at run
  exact ⟨_, decodeInt_of_error run⟩

theorem decodeInt_short {bytes : List UInt8} (ending : Ending) (few : bytes.length < 10)
    (more : ∀ b ∈ bytes, Continues b) :
    decodeInt.run ⟨bytes, ending⟩ = (.error (Source.shortage ⟨[], ending⟩), ⟨[], ending⟩) := by
  obtain ⟨shift, value, -, -, run⟩ := varint_front [] ending more (by omega)
  rw [List.append_nil, collect_nil] at run
  exact decodeInt_of_error run

/-- What the loop over the bytes of a number carries from one byte to the next. -/
structure Collecting where
  shift : UInt64
  value : UInt64
  source : Source

namespace Collecting

def step (state : Collecting) : Collecting ⊕ (Except Fault UInt64 × Source) :=
  match state.source.bytes with
  | [] => .inr (.error state.source.shortage, state.source)
  | b :: rest =>
    let rest := { state.source with bytes := rest }
    if state.shift = 63 ∧ 1 < b then .inr (.error .varintOverflow, rest)
    else
      let value := state.value ||| (b &&& 0x7F).toUInt64 <<< state.shift
      if Continues b then .inl ⟨state.shift + 7, value, rest⟩ else .inr (.ok value, rest)

def run (state : Collecting) : Except Fault UInt64 × Source :=
  (collect state.shift state.value).run state.source

theorem run_step (state : Collecting) : state.run = state.step.elim run id := by
  obtain ⟨shift, value, bytes, ending⟩ := state
  unfold step run
  cases bytes with
  | nil => exact collect_nil shift value ending
  | cons b rest =>
    dsimp only
    rw [collect_cons]
    by_cases full : shift = 63 ∧ 1 < b
    · rw [if_pos full, if_pos full]
      rfl
    · rw [if_neg full, if_neg full]
      by_cases more : Continues b
      · rw [if_pos more, if_pos more]
        rfl
      · rw [if_neg more, if_neg more]
        rfl

theorem step_goes {state after : Collecting} (goes : state.step = .inl after) :
    ∃ b rest, state.source.bytes = b :: rest ∧ Continues b ∧ ¬(state.shift = 63 ∧ 1 < b) ∧
      after.shift = state.shift + 7 ∧ after.source.bytes = rest := by
  unfold step at goes
  cases bytes : state.source.bytes with
  | nil => simp [bytes] at goes
  | cons b rest =>
    rw [bytes] at goes
    dsimp only at goes
    split at goes
    · cases goes
    · rename_i fits
      split at goes
      · rename_i more
        cases goes
        exact ⟨b, rest, rfl, more, fits, rfl, rfl⟩
      · cases goes

theorem shift_le {states : List Collecting} {source : Source} {outcome : Except Fault UInt64 × Source}
    (visits : Visits step ⟨0, 0, source⟩ states outcome) :
    ∀ state ∈ states, state.shift.toNat ≤ 63 := by
  have multiple : ∀ state ∈ states, ∃ k ≤ 9, state.shift.toNat = 7 * k := by
    refine visits.forall_mem (fun {state after} goes => ?_) ⟨0, by omega, rfl⟩
    rintro ⟨k, le, hs⟩
    obtain ⟨b, rest, -, more, fits, next, -⟩ := step_goes goes
    -- The tenth byte is refused where another one would follow.
    have eight : k ≠ 9 := fun nine => fits ⟨(shift_eq_iff hs).mpr nine, one_lt_of_continues more⟩
    exact ⟨k + 1, by omega, by rw [next, shift_add_seven hs le]⟩
  intro state mem
  obtain ⟨k, le, hs⟩ := multiple state mem
  omega

theorem step_shrinks {state after : Collecting} (goes : state.step = .inl after) :
    after.source.bytes.length < state.source.bytes.length := by
  obtain ⟨b, rest, bytes, -, -, -, left⟩ := step_goes goes
  rw [bytes, left]
  exact Nat.lt_succ_self _

theorem visits_varint (source : Source) :
    ∃ states, Visits step ⟨0, 0, source⟩ states (varint.run source) := by
  obtain ⟨states, outcome, visits⟩ :=
    Visits.exists_of_weight step (fun state => state.source.bytes.length) step_shrinks ⟨0, 0, source⟩
  obtain rfl : outcome = varint.run source := visits.outcome_eq run run_step
  exact ⟨states, visits⟩

end Collecting

theorem eq_groups {front : List UInt8} {last : UInt8} {v : UInt64} (more : ∀ b ∈ front, Continues b)
    (ends : ¬Continues last) (sum : groupSum (front ++ [last]) = v.toNat)
    (length : front.length + 1 = (groups v).length) : front ++ [last] = groups v := by
  have small : last.toNat < 128 := Nat.lt_of_not_le fun large => ends (continues_iff.mpr large)
  fun_induction groups v generalizing front with
  | case1 v one =>
    obtain rfl : front = [] := List.length_eq_zero_iff.mp (by simpa using length)
    have eq : last = v.toUInt8 := by
      rw [← UInt8.toNat_inj, last_group_toNat one, ← sum, List.nil_append, groupSum_cons]
      simp [groupSum, Nat.mod_eq_of_lt small]
    rw [eq, List.nil_append]
  | case2 v large ih =>
    cases front with
    | nil =>
      have := groups_length_pos (v >>> 7)
      simp only [List.length_nil, List.length_cons] at length
      omega
    | cons b front =>
      obtain ⟨first, others⟩ := List.forall_mem_cons.mp more
      have top := continues_iff.mp first
      have bound := b.toNat_lt
      rw [List.cons_append, groupSum_cons] at sum
      -- Equal sums have the same lowest group, and the rest of them is equal.
      have rest := ih others (by rw [shift_seven_toNat]; omega) (by simpa using length)
      have eq : b = v.toUInt8 &&& 0x7F ||| 0x80 := by
        rw [← UInt8.toNat_inj, inner_group_toNat]
        omega
      rw [List.cons_append, rest, eq]

/-- Other bytes that are read as the same number are longer, also where more bytes follow. -/
theorem intBytes_shorter {n : Int64} {bytes : List UInt8} {left : Source} {ending : Ending}
    (read : decodeInt.run ⟨bytes, ending⟩ = (.ok n, left)) (other : bytes ≠ intBytes n) :
    (intBytes n).length < bytes.length := by
  have enough := decodeInt_spends read
  refine Nat.lt_of_le_of_ne (by dsimp only at enough; omega) fun same => ?_
  rcases bytes_cases bytes with ⟨front, last, rest, fits, rfl⟩ | long | ⟨few, more⟩
  · obtain ⟨n', -, value, run⟩ := fits.decodeInt_run rest ending
    cases run.symm.trans read
    obtain rfl : rest = [] := by
      rw [← List.length_eq_zero_iff]
      dsimp only at enough
      omega
    exact other (eq_groups fits.continues fits.ends value.symm (by simpa [intBytes] using same.symm))
  · obtain ⟨_, run⟩ := long.decodeInt_run ending
    cases run.symm.trans read
  · cases (decodeInt_short ending few more).symm.trans read

theorem decodeInt_overflows_iff (bytes : List UInt8) (ending : Ending) :
    (decodeInt.run ⟨bytes, ending⟩).1 = .error .varintOverflow ↔ TooLong bytes := by
  rcases bytes_cases bytes with ⟨front, last, rest, fits, rfl⟩ | long | ⟨few, more⟩
  · obtain ⟨n, -, -, run⟩ := fits.decodeInt_run rest ending
    refine ⟨fun overflow => by simp [run] at overflow, fun long => ?_⟩
    obtain ⟨_, run'⟩ := long.decodeInt_run ending
    cases run.symm.trans run'
  · obtain ⟨_, run⟩ := long.decodeInt_run ending
    exact ⟨fun _ => long, fun _ => congrArg Prod.fst run⟩
  · have run := decodeInt_short ending few more
    refine ⟨fun overflow => ?_, fun long => ?_⟩
    · rw [run] at overflow
      cases ending <;> cases overflow
    · obtain ⟨_, run'⟩ := long.decodeInt_run ending
      rw [run] at run'
      cases ending <;> cases run'

theorem decodeInt_endOfInput_iff (bytes : List UInt8) (ending : Ending) :
    (decodeInt.run ⟨bytes, ending⟩).1 = .error .endOfInput ↔
      ending = .closed ∧ bytes.length < 10 ∧ ∀ b ∈ bytes, Continues b := by
  constructor
  · intro short
    rcases bytes_cases bytes with ⟨front, last, rest, fits, rfl⟩ | long | ⟨few, more⟩
    · obtain ⟨n, -, -, run⟩ := fits.decodeInt_run rest ending
      simp [run] at short
    · obtain ⟨_, run⟩ := long.decodeInt_run ending
      simp [run] at short
    · rw [decodeInt_short ending few more] at short
      cases ending with
      | closed => exact ⟨rfl, few, more⟩
      | failing text => cases short
  · rintro ⟨rfl, few, more⟩
    rw [decodeInt_short .closed few more]
    rfl

/-- Integers are read from exactly the numbers of at most 64 bits, whatever follows them, and each is
written as the only shortest number that is read as it. -/
theorem integers_are_the_varints (ending : Ending) :
    (∀ front last rest, (∀ b ∈ front, Continues b) → ¬Continues last →
      ((∃ n left, decodeInt.run ⟨front ++ last :: rest, ending⟩ = (.ok n, left)) ↔
        front.length < 9 ∨ front.length = 9 ∧ last ≤ 1) ∧
      ∀ n left, decodeInt.run ⟨front ++ last :: rest, ending⟩ = (.ok n, left) →
        left = ⟨rest, ending⟩ ∧ n.toInt = signed (groupSum (front ++ [last]))) ∧
    (∀ bytes, (decodeInt.run ⟨bytes, ending⟩).1 = .error .varintOverflow ↔
      ∃ front b rest,
        bytes = front ++ b :: rest ∧ front.length = 9 ∧ (∀ b ∈ front, Continues b) ∧ 1 < b) ∧
    (∀ bytes, (decodeInt.run ⟨bytes, ending⟩).1 = .error .endOfInput ↔
      ending = .closed ∧ bytes.length < 10 ∧ ∀ b ∈ bytes, Continues b) ∧
    (∀ source, ∃ states, Visits Collecting.step ⟨0, 0, source⟩ states (varint.run source) ∧
      ∀ state ∈ states, state.shift.toNat ≤ 63) ∧
    ∀ n, (encodeInt n).Delivers (intBytes n) ∧ decodeInt.Takes (intBytes n) n ∧
      ∀ bytes left, decodeInt.run ⟨bytes, ending⟩ = (.ok n, left) → bytes ≠ intBytes n →
        (intBytes n).length < bytes.length := by
  refine ⟨fun front last rest more ends => ?_, fun bytes => decodeInt_overflows_iff bytes ending,
    fun bytes => decodeInt_endOfInput_iff bytes ending, fun source => ?_, fun n => ⟨?_, ?_, ?_⟩⟩
  · rcases fits_or_tooLong rest more ends with fits | long
    · obtain ⟨n, value, -, run⟩ := fits.decodeInt_run rest ending
      refine ⟨⟨fun _ => fits.room, fun _ => ⟨n, _, run⟩⟩, fun n' left read => ?_⟩
      cases run.symm.trans read
      exact ⟨rfl, value⟩
    · obtain ⟨_, run⟩ := long.decodeInt_run ending
      refine ⟨⟨?_, fun room => ?_⟩, fun n left read => ?_⟩
      · rintro ⟨n, left, read⟩
        cases run.symm.trans read
      · have fits : Fits front last := ⟨more, ends, room⟩
        obtain ⟨n, -, -, run'⟩ := fits.decodeInt_run rest ending
        cases run.symm.trans run'
      · cases run.symm.trans read
  · obtain ⟨states, visits⟩ := Collecting.visits_varint source
    exact ⟨states, visits, Collecting.shift_le visits⟩
  · exact Writer.delivers_of_eq_put (encodeInt_eq n)
  · exact decodeInt_takes n
  · exact fun _ _ => intBytes_shorter

/-- Ten bytes are enough for the lowest integer, and zero with another group is read, yet not written. -/
theorem lowest_and_padded_zero :
    (∃ n left, decodeInt.run ⟨List.replicate 9 0xFF ++ 1 :: [7], .closed⟩ = (.ok n, left) ∧
      left.bytes = [7] ∧ n.toInt = -2 ^ 63) ∧
    decodeInt.run ⟨[0x80, 0], .closed⟩ = (.ok 0, ⟨[], .closed⟩) ∧ (intBytes 0).length < 2 := by
  obtain ⟨accepts, -, -, -, written⟩ := integers_are_the_varints .closed
  have more : ∀ b ∈ List.replicate 9 (0xFF : UInt8), Continues b := fun b mem => by
    rw [List.eq_of_mem_replicate mem]
    decide
  obtain ⟨iff, value⟩ := accepts (List.replicate 9 0xFF) 1 [7] more (by decide)
  obtain ⟨n, left, read⟩ := iff.mpr (by decide)
  obtain ⟨rest, number⟩ := value n left read
  have padded : decodeInt.run ⟨[0x80, 0], .closed⟩ = (.ok 0, ⟨[], .closed⟩) := by rfl
  have other : [0x80, 0] ≠ intBytes 0 := by
    rw [show intBytes 0 = groups (zigzag 0) from rfl, groups, if_pos (by decide)]
    decide
  refine ⟨⟨n, left, read, by rw [rest], ?_⟩, padded, (written 0).2.2 _ _ padded other⟩
  rw [number]
  decide

end AvroCompiler.Wire

import AvroCompiler.Wire.Decoder
import AvroCompiler.Wire.Sink

namespace AvroCompiler.Wire

def zigzag (n : Int64) : UInt64 :=
  ((n <<< 1) ^^^ (n >>> 63)).toUInt64

def unzigzag (value : UInt64) : Int64 :=
  (value >>> 1).toInt64 ^^^ -(value &&& 1).toInt64

theorem shift_seven_lt {value : UInt64} (h : ¬value < 0x80) :
    (value >>> 7).toNat < value.toNat := by
  have : 0x80 ≤ value.toNat := by
    simpa [UInt64.lt_iff_toNat_lt] using h
  simp only [UInt64.toNat_shiftRight, Nat.shiftRight_eq_div_pow]
  simp
  omega

/-- The groups of an unsigned integer; every group but the last carries the top bit. -/
def groups (value : UInt64) : List UInt8 :=
  if value < 0x80 then [value.toUInt8]
  else (value.toUInt8 &&& 0x7F ||| 0x80) :: groups (value >>> 7)
termination_by value.toNat
decreasing_by exact shift_seven_lt ‹_›

def intBytes (n : Int64) : List UInt8 :=
  groups (zigzag n)

def putGroups (value : UInt64) : Writer :=
  if value < 0x80 then putByte value.toUInt8
  else do
    putByte (value.toUInt8 &&& 0x7F ||| 0x80)
    putGroups (value >>> 7)
termination_by value.toNat
decreasing_by exact shift_seven_lt ‹_›

def encodeInt (n : Int64) : Writer :=
  putGroups (zigzag n)

/-- Collects groups into `value` at `shift`. The tenth group has room for one bit. -/
def ungroup (shift value : UInt64) (source : Source) : Except Fault UInt64 × Source :=
  go shift value source.bytes
where
  go (shift value : UInt64) : List UInt8 → Except Fault UInt64 × Source
    | [] => (.error source.shortage, { source with bytes := [] })
    | b :: rest =>
      if shift = 63 ∧ 1 < b then (.error .varintOverflow, { source with bytes := rest })
      else
        let value := value ||| (b &&& 0x7F).toUInt64 <<< shift
        if b &&& 0x80 = 0 then (.ok value, { source with bytes := rest })
        else go (shift + 7) value rest

theorem ungroup_go_shrinks (source : Source) (shift value : UInt64) (bytes : List UInt8) :
    (ungroup.go source shift value bytes).2.bytes.length ≤ bytes.length := by
  induction bytes generalizing shift value with
  | nil => simp [ungroup.go]
  | cons b rest ih =>
    rw [ungroup.go]
    split
    · simp
    · dsimp only
      split
      · simp
      · exact Nat.le_trans (ih _ _) (by simp)

def varint : Decoder UInt64 :=
  ⟨ungroup 0 0, fun source => ungroup_go_shrinks source 0 0 source.bytes⟩

def decodeInt : Decoder Int64 := do
  return unzigzag (← varint)

theorem varint_consumes {source rest : Source} {value : UInt64}
    (h : varint.run source = (.ok value, rest)) : rest.bytes.length < source.bytes.length := by
  change ungroup.go source 0 0 source.bytes = _ at h
  cases hb : source.bytes with
  | nil => simp [hb, ungroup.go] at h
  | cons b bytes =>
    rw [hb, ungroup.go, if_neg (by simp)] at h
    dsimp only at h
    split at h
    · cases h
      simp
    · have le := ungroup_go_shrinks source (0 + 7) ((0 : UInt64) ||| (b &&& 0x7F).toUInt64 <<< 0) bytes
      rw [h] at le
      exact Nat.lt_succ_of_le le

theorem decodeInt_consumes {source rest : Source} {n : Int64}
    (h : decodeInt.run source = (.ok n, rest)) : rest.bytes.length < source.bytes.length := by
  obtain ⟨value, middle, hv, hp⟩ := Decoder.exists_of_bind_ok h
  cases hp
  exact varint_consumes hv

end AvroCompiler.Wire

import AvroCompiler.Wire.Primitive
import AvroCompiler.Proofs.Text.Utf8
import AvroCompiler.Proofs.Wire.Varint

namespace AvroCompiler.Wire

theorem length_littleEndian (count n : Nat) : (littleEndian count n).length = count := by
  induction count generalizing n with
  | zero => rfl
  | succ count ih => simp [littleEndian, ih]

theorem ofLittleEndian_littleEndian {count n : Nat} (h : n < 256 ^ count) :
    ofLittleEndian (littleEndian count n) = n := by
  induction count generalizing n with
  | zero =>
    have : n = 0 := by simpa using h
    simp [littleEndian, ofLittleEndian, this]
  | succ count ih =>
    have low := toNat_ofNat_byte (Nat.mod_lt n (by decide : 0 < 256))
    have high : n / 256 < 256 ^ count := by
      rw [Nat.div_lt_iff_lt_mul (by decide)]
      rwa [Nat.pow_succ] at h
    rw [littleEndian, ofLittleEndian, low, ih high]
    omega

theorem readFloat_takes (bits : UInt32) : readFloat.Takes (floatBytes bits) bits := by
  have value : UInt32.ofNat (ofLittleEndian (floatBytes bits)) = bits := by
    rw [floatBytes, ofLittleEndian_littleEndian bits.toNat_lt, UInt32.ofNat_toNat]
  have taken : readFloat.Takes (floatBytes bits) (.ofNat (ofLittleEndian (floatBytes bits))) :=
    (Decoder.exactly_takes (length_littleEndian 4 bits.toNat)).bind_nil (Decoder.takes_pure _)
  rwa [value] at taken

theorem readDouble_takes (bits : UInt64) : readDouble.Takes (doubleBytes bits) bits := by
  have value : UInt64.ofNat (ofLittleEndian (doubleBytes bits)) = bits := by
    rw [doubleBytes, ofLittleEndian_littleEndian bits.toNat_lt, UInt64.ofNat_toNat]
  have taken : readDouble.Takes (doubleBytes bits) (.ofNat (ofLittleEndian (doubleBytes bits))) :=
    (Decoder.exactly_takes (length_littleEndian 8 bits.toNat)).bind_nil (Decoder.takes_pure _)
  rwa [value] at taken

theorem readBool_takes (value : Bool) : readBool.Takes (boolBytes value) value := by
  refine (Decoder.byte_takes _).bind_nil ?_
  cases value
  · exact Decoder.takes_pure false
  · exact Decoder.takes_pure true

theorem readInt_takes (n : Int32) : readInt.Takes (intBytes n.toInt64) n := by
  refine (decodeInt_takes n.toInt64).bind_nil ?_
  rw [Int32.toInt32_toInt64, if_pos rfl]
  exact Decoder.takes_pure n

theorem readLong_takes (n : Int64) : readLong.Takes (intBytes n) n :=
  decodeInt_takes n

theorem toInt_ofNat_length {n : Nat} (h : n < 2 ^ 63) :
    ¬Int64.ofNat n < 0 ∧ (Int64.ofNat n).toInt.toNat = n := by
  have value := Int64.toInt_ofNat_of_lt h
  refine ⟨?_, by rw [value, Int.toNat_natCast]⟩
  rw [Int64.lt_iff_toInt_lt, value]
  exact Int.not_lt.mpr (Int.natCast_nonneg n)

theorem readBytes_takes {bytes : List UInt8} (h : bytes.length < 2 ^ 63) :
    readBytes.Takes (sizedBytes bytes) bytes := by
  obtain ⟨nonneg, value⟩ := toInt_ofNat_length h
  refine (readLong_takes (.ofNat bytes.length)).bind ?_
  rw [if_neg nonneg, value]
  refine (Decoder.atMost_takes rfl).bind_nil ?_
  rw [if_neg (Nat.lt_irrefl _)]
  exact Decoder.takes_pure bytes

theorem readString_takes {text : String} (h : (utf8Bytes text).length < 2 ^ 63) :
    readString.Takes (stringBytes text) text := by
  refine (readBytes_takes h).bind_nil ?_
  rw [decodeUtf8_utf8Bytes]
  exact Decoder.takes_pure text

theorem writeInt_eq (n : Int32) : writeInt n = put (intBytes n.toInt64) :=
  encodeInt_eq n.toInt64

theorem writeBytes_eq (bytes : List UInt8) : writeBytes bytes = put (sizedBytes bytes) :=
  Writer.put_bind (encodeInt_eq _) rfl

theorem writeString_eq (text : String) : writeString text = put (stringBytes text) :=
  Writer.put_bind (encodeInt_eq _) rfl

end AvroCompiler.Wire

import AvroCompiler.Wire.Blocks
import AvroCompiler.Proofs.Wire.Primitive

namespace AvroCompiler.Wire

variable {α : Type}

theorem putAll_eq {write : α → Writer} {bytes : α → List UInt8} {items : List α}
    (h : ∀ item ∈ items, write item = put (bytes item)) :
    putAll write items = put (items.flatMap bytes) := by
  induction items with
  | nil => exact Writer.put_nil.symm
  | cons item items ih =>
    obtain ⟨first, others⟩ := List.forall_mem_cons.mp h
    exact Writer.put_bind first (ih others)

theorem writeBlocks_eq {write : α → Writer} {bytes : α → List UInt8} {items : List α}
    (h : ∀ item ∈ items, write item = put (bytes item)) :
    writeBlocks write items = put (blockBytes bytes items) := by
  unfold writeBlocks blockBytes
  by_cases empty : items = []
  · simpa [empty] using encodeInt_eq 0
  · have block := Writer.put_bind (encodeInt_eq (.ofNat items.length)) (putAll_eq h)
    simpa [empty] using Writer.put_bind block (encodeInt_eq 0)

theorem blockCount_takes {count : Nat} (h : count < 2 ^ 63) :
    blockCount.Takes (intBytes (.ofNat count)) count := by
  obtain ⟨nonneg, value⟩ := toInt_ofNat_length h
  refine (decodeInt_takes (.ofNat count)).bind_nil ?_
  rw [if_neg nonneg, value]
  exact Decoder.takes_pure count

theorem readItems_flatMap {item : Decoder α} {bytes : α → List UInt8} {items : List α}
    (h : ∀ value ∈ items, item.Takes (bytes value) value) (rest : List UInt8) (ending : Ending) :
    readItems item items.length ⟨items.flatMap bytes ++ rest, ending⟩ =
      ⟨items, .ok (), ⟨rest, ending⟩⟩ := by
  induction items with
  | nil => rfl
  | cons value values ih =>
    have first := h value (by simp) (values.flatMap bytes ++ rest) ending
    have others := ih fun other mem => h other (by simp [mem])
    rw [List.length_cons, readItems, List.flatMap_cons, List.append_assoc, first]
    dsimp only
    rw [others]

theorem readBlocksFrom_of_counted {item : Decoder α} {source rest : Source} {count : Nat}
    (counted : blockCount.run source = (.ok count, rest)) (total : Nat) :
    readBlocksFrom item total source =
      if count = 0 then ⟨[], .ok (), rest⟩
      else if maxItems < total + count then
        ⟨[], .error (.tooManyItems (.ofNat (min (total + count) 0x7FFFFFFFFFFFFFFF))), rest⟩
      else
        match (readItems item count rest).result with
        | .error _ => readItems item count rest
        | .ok () =>
          let more := readBlocksFrom item (total + count) (readItems item count rest).rest
          { more with items := (readItems item count rest).items ++ more.items } := by
  rw [readBlocksFrom]
  split
  · rename_i eq
    cases counted.symm.trans eq
  · rename_i eq
    cases counted.symm.trans eq
    rfl

theorem readBlocksFrom_end {zero : List UInt8} (counts : blockCount.Takes zero 0) (item : Decoder α)
    (total : Nat) (rest : List UInt8) (ending : Ending) :
    readBlocksFrom item total ⟨zero ++ rest, ending⟩ = ⟨[], .ok (), ⟨rest, ending⟩⟩ := by
  rw [readBlocksFrom_of_counted (counts rest ending), if_pos rfl]

/-- A block within the limit is read to its end, and the next one follows. -/
theorem readBlocksFrom_block {item : Decoder α} {bytes : α → List UInt8} {head : List UInt8}
    {items : List α} {total : Nat} (counts : blockCount.Takes head items.length) (nonempty : items ≠ [])
    (h : ∀ value ∈ items, item.Takes (bytes value) value) (limit : total + items.length ≤ maxItems)
    (rest : List UInt8) (ending : Ending) :
    readBlocksFrom item total ⟨head ++ (items.flatMap bytes ++ rest), ending⟩ =
      let more := readBlocksFrom item (total + items.length) ⟨rest, ending⟩
      { more with items := items ++ more.items } := by
  have nonzero : items.length ≠ 0 := fun zero => nonempty (List.length_eq_zero_iff.mp zero)
  rw [readBlocksFrom_of_counted (counts _ ending), if_neg nonzero, if_neg (Nat.not_lt.mpr limit),
    readItems_flatMap h]

theorem readBlocks_takes {item : Decoder α} {bytes : α → List UInt8} {items : List α}
    (h : ∀ value ∈ items, item.Takes (bytes value) value) (limit : items.length ≤ maxItems) :
    (readBlocks item).Takes (blockBytes bytes items) items := by
  intro rest ending
  suffices read : readBlocksFrom item 0 ⟨blockBytes bytes items ++ rest, ending⟩ =
      ⟨items, .ok (), ⟨rest, ending⟩⟩ by
    simp only [readBlocks, read]
    rfl
  have ended : blockCount.Takes (intBytes 0) 0 := blockCount_takes (by decide)
  unfold blockBytes
  by_cases empty : items = []
  · subst empty
    simpa using readBlocksFrom_end ended item 0 rest ending
  · have small : items.length < 2 ^ 63 := by unfold maxItems at limit; omega
    rw [if_neg empty, List.append_assoc, List.append_assoc,
      readBlocksFrom_block (blockCount_takes small) empty h (by omega), readBlocksFrom_end ended]
    dsimp only
    rw [List.append_nil]

end AvroCompiler.Wire

import AvroCompiler.Wire.Varint

namespace AvroCompiler.Wire

def maxItems : Nat := 0x7FFFFFFF

def blockCount : Decoder Nat := do
  let count ← decodeInt
  if count < 0 then
    let _ ← decodeInt
    if count = Int64.minValue then .fail (.negativeLength count)
    else return count.toInt.natAbs
  else return count.toInt.toNat

theorem blockCount_consumes {source rest : Source} {count : Nat}
    (h : blockCount.run source = (.ok count, rest)) : rest.bytes.length < source.bytes.length := by
  obtain ⟨n, middle, hn, hr⟩ := Decoder.exists_of_bind_ok h
  have le := (if n < 0 then do
    let _ ← decodeInt
    if n = Int64.minValue then Decoder.fail (.negativeLength n)
    else return n.toInt.natAbs
    else return n.toInt.toNat : Decoder Nat).shrinks middle
  rw [hr] at le
  exact Nat.lt_of_le_of_lt le (decodeInt_consumes hn)

variable {α : Type}

/-- Items that were read, whether all of them could be read, and what is left. -/
structure Items (α : Type) where
  items : List α
  result : Except Fault Unit
  rest : Source

def readItems (item : Decoder α) : Nat → Source → Items α
  | 0, source => ⟨[], .ok (), source⟩
  | count + 1, source =>
    match item.run source with
    | (.error fault, rest) => ⟨[], .error fault, rest⟩
    | (.ok value, rest) =>
      let more := readItems item count rest
      { more with items := value :: more.items }

theorem readItems_shrinks (item : Decoder α) (count : Nat) (source : Source) :
    (readItems item count source).rest.bytes.length ≤ source.bytes.length := by
  induction count generalizing source with
  | zero => exact Nat.le_refl _
  | succ count ih =>
    have h := item.shrinks source
    rw [readItems]
    split
    · rename_i eq
      rw [eq] at h
      exact h
    · rename_i eq
      rw [eq] at h
      exact Nat.le_trans (ih _) h

/-- Reads blocks up to the empty one. `total` items were read before. -/
def readBlocksFrom (item : Decoder α) (total : Nat) (source : Source) : Items α :=
  match _counted : blockCount.run source with
  | (.error fault, rest) => ⟨[], .error fault, rest⟩
  | (.ok count, rest) =>
    if count = 0 then ⟨[], .ok (), rest⟩
    else if maxItems < total + count then
      ⟨[], .error (.tooManyItems (.ofNat (min (total + count) 0x7FFFFFFFFFFFFFFF))), rest⟩
    else
      let block := readItems item count rest
      match block.result with
      | .error _ => block
      | .ok () =>
        let more := readBlocksFrom item (total + count) block.rest
        { more with items := block.items ++ more.items }
termination_by source.bytes.length
decreasing_by
  exact Nat.lt_of_le_of_lt (readItems_shrinks item count rest) (blockCount_consumes _counted)

theorem readBlocksFrom_shrinks (item : Decoder α) (total : Nat) (source : Source) :
    (readBlocksFrom item total source).rest.bytes.length ≤ source.bytes.length := by
  fun_induction readBlocksFrom item total source with
  | case1 total source fault rest counted =>
    have h := blockCount.shrinks source
    rw [counted] at h
    exact h
  | case2 total source rest counted => exact Nat.le_of_lt (blockCount_consumes counted)
  | case3 total source count rest counted => exact Nat.le_of_lt (blockCount_consumes counted)
  | case4 total source count rest counted _ _ block =>
    exact Nat.le_trans (readItems_shrinks item count rest) (Nat.le_of_lt (blockCount_consumes counted))
  | case5 total source count rest counted _ _ block _ more ih =>
    exact Nat.le_trans ih
      (Nat.le_trans (readItems_shrinks item count rest) (Nat.le_of_lt (blockCount_consumes counted)))

def readBlocks (item : Decoder α) : Decoder (List α) where
  run source :=
    let read := readBlocksFrom item 0 source
    (read.result.map fun _ => read.items, read.rest)
  shrinks source := readBlocksFrom_shrinks item 0 source

def putAll (write : α → Writer) : List α → Writer
  | [] => pure ()
  | value :: values => do
    write value
    putAll write values

/-- Writes all items as one block, then the empty block. -/
def writeBlocks (write : α → Writer) (items : List α) : Writer := do
  if items ≠ [] then
    encodeInt (.ofNat items.length)
    putAll write items
  encodeInt 0

def blockBytes (bytes : α → List UInt8) (items : List α) : List UInt8 :=
  (if items = [] then [] else intBytes (.ofNat items.length) ++ items.flatMap bytes) ++ intBytes 0

end AvroCompiler.Wire

import AvroCompiler.Proofs.Wire.Canonical
import AvroCompiler.Proofs.Wire.Failure

namespace AvroCompiler.Wire

variable {α : Type}

/-- An outcome on bytes that are used up is the outcome on whatever follows them, and however the
input ends. -/
theorem Decoder.takes_of_run {decoder : Decoder α} (streams : decoder.Streams) (fails : decoder.Fails)
    {bytes : List UInt8} {value : α} (h : decoder.run ⟨bytes, .closed⟩ = (.ok value, ⟨[], .closed⟩)) :
    decoder.Takes bytes value := by
  intro rest ending
  obtain ⟨consumed, split, repeats, -⟩ := (streams bytes).taken h
  rw [List.append_nil] at split
  subst split
  cases ending with
  | closed => exact repeats rest
  | failing text =>
    rw [(fails (bytes ++ rest)).failing text, repeats rest]
    rfl

/-- The bytes are a number on the wire, padded or not. -/
def Spells (bytes : List UInt8) (n : Int64) : Prop :=
  decodeInt.run ⟨bytes, .closed⟩ = (.ok n, ⟨[], .closed⟩)

instance (bytes : List UInt8) (n : Int64) : Decidable (Spells bytes n) :=
  inferInstanceAs (Decidable (_ = _))

theorem Spells.takes {bytes : List UInt8} {n : Int64} (h : Spells bytes n) : decodeInt.Takes bytes n :=
  Decoder.takes_of_run decodeInt_streams Decoder.failsAt_law.decodeInt h

/-- What stands in front of so many items: their number, or their number below zero and any size. -/
inductive Announces : List UInt8 → Nat → Prop
  | plain {bytes : List UInt8} {n : Int64} (number : Spells bytes n) (positive : 0 < n) :
    Announces bytes n.toInt.toNat
  | sized {bytes size : List UInt8} {n byteSize : Int64} (number : Spells bytes n) (negative : n < 0)
    (above : n ≠ Int64.minValue) (skipped : Spells size byteSize) :
    Announces (bytes ++ size) n.toInt.natAbs

theorem Announces.pos {head : List UInt8} {count : Nat} (h : Announces head count) : 0 < count := by
  cases h with
  | plain _ positive =>
    have positive := Int64.lt_iff_toInt_lt.mp positive
    rw [Int64.toInt_zero] at positive
    omega
  | sized _ negative =>
    have negative := Int64.lt_iff_toInt_lt.mp negative
    rw [Int64.toInt_zero] at negative
    omega

theorem Announces.takes {head : List UInt8} {count : Nat} (h : Announces head count) :
    blockCount.Takes head count := by
  cases h with
  | @plain _ n number positive =>
    have nonneg : ¬n < 0 := fun negative => Int64.lt_asymm positive negative
    refine number.takes.bind_nil ?_
    rw [if_neg nonneg]
    exact Decoder.takes_pure _
  | sized number negative above skipped =>
    refine number.takes.bind ?_
    rw [if_pos negative]
    refine skipped.takes.bind_nil ?_
    rw [if_neg above]
    exact Decoder.takes_pure _

theorem blockCount_zero {zero : List UInt8} (h : Spells zero 0) : blockCount.Takes zero 0 :=
  h.takes.bind_nil (Decoder.takes_pure 0)

/-- The lowest number has no opposite. It is refused, but only behind the size. -/
theorem blockCount_lowest {lowest size : List UInt8} {byteSize : Int64}
    (number : Spells lowest Int64.minValue) (skipped : Spells size byteSize) (rest : List UInt8)
    (ending : Ending) :
    blockCount.run ⟨lowest ++ (size ++ rest), ending⟩ =
      (.error (.negativeLength Int64.minValue), ⟨rest, ending⟩) := by
  unfold blockCount
  rw [Decoder.run_of_first_takes (number.takes _ ending), if_pos (by decide),
    Decoder.run_of_first_takes (skipped.takes rest ending)]
  rfl

theorem readBlocksFrom_refused {item : Decoder α} {source rest : Source} {fault : Fault}
    (refused : blockCount.run source = (.error fault, rest)) (total : Nat) :
    readBlocksFrom item total source = ⟨[], .error fault, rest⟩ := by
  rw [readBlocksFrom]
  split
  · rename_i eq
    cases refused.symm.trans eq
    rfl
  · rename_i eq
    cases refused.symm.trans eq

/-- Items with something in front that announces as many. -/
structure Block (α : Type) where
  head : List UInt8
  items : List α
  announced : Announces head items.length

namespace Block

def bytes (item : α → List UInt8) (block : Block α) : List UInt8 :=
  block.head ++ block.items.flatMap item

theorem items_ne_nil (block : Block α) : block.items ≠ [] :=
  List.length_pos_iff.mp block.announced.pos

def all (blocks : List (Block α)) : List α :=
  blocks.flatMap Block.items

end Block

/-- By induction on the blocks: each is read to its end, and the total goes up by its items. -/
theorem readBlocksFrom_blocks {item : Decoder α} {bytes : α → List UInt8} {blocks : List (Block α)}
    (takes : ∀ value ∈ Block.all blocks, item.Takes (bytes value) value) {total : Nat}
    (limit : total + (Block.all blocks).length ≤ maxItems) (rest : List UInt8) (ending : Ending) :
    readBlocksFrom item total ⟨blocks.flatMap (Block.bytes bytes) ++ rest, ending⟩ =
      let more := readBlocksFrom item (total + (Block.all blocks).length) ⟨rest, ending⟩
      { more with items := Block.all blocks ++ more.items } := by
  induction blocks generalizing total with
  | nil => rfl
  | cons block blocks ih =>
    have all : Block.all (block :: blocks) = block.items ++ Block.all blocks := List.flatMap_cons
    have sum : total + (Block.all (block :: blocks)).length =
        total + block.items.length + (Block.all blocks).length := by
      rw [all, List.length_append, Nat.add_assoc]
    rw [all] at takes
    rw [sum] at limit
    obtain ⟨here, later⟩ := List.forall_mem_append.mp takes
    rw [sum, all, List.flatMap_cons, Block.bytes, List.append_assoc, List.append_assoc,
      readBlocksFrom_block block.announced.takes block.items_ne_nil here (by omega), ih later limit]
    dsimp only
    rw [List.append_assoc]

/-- How a collection that begins with some blocks is read, by what stands behind them. -/
structure ReadsBlocks (item : Decoder α) (bytes : α → List UInt8) (blocks : List (Block α)) : Prop where
  /-- A zero ends the collection. -/
  ended : ∀ {zero : List UInt8}, Spells zero 0 → ∀ (rest : List UInt8) (ending : Ending),
    readBlocksFrom item 0 ⟨blocks.flatMap (Block.bytes bytes) ++ (zero ++ rest), ending⟩ =
      ⟨Block.all blocks, .ok (), ⟨rest, ending⟩⟩
  /-- A block that goes beyond the limit is refused at its head, with the total in its way. -/
  exceeded : ∀ {head : List UInt8} {count : Nat}, Announces head count →
    maxItems < (Block.all blocks).length + count → ∀ (rest : List UInt8) (ending : Ending),
    readBlocksFrom item 0 ⟨blocks.flatMap (Block.bytes bytes) ++ (head ++ rest), ending⟩ =
      ⟨Block.all blocks, .error (.tooManyItems
        (.ofNat (min ((Block.all blocks).length + count) 0x7FFFFFFFFFFFFFFF))), ⟨rest, ending⟩⟩
  /-- The lowest number is refused behind the size that belongs to it. -/
  lowest : ∀ {number size : List UInt8} {byteSize : Int64}, Spells number Int64.minValue →
    Spells size byteSize → ∀ (rest : List UInt8) (ending : Ending),
    readBlocksFrom item 0 ⟨blocks.flatMap (Block.bytes bytes) ++ (number ++ (size ++ rest)), ending⟩ =
      ⟨Block.all blocks, .error (.negativeLength Int64.minValue), ⟨rest, ending⟩⟩

theorem readsBlocks {item : Decoder α} {bytes : α → List UInt8} {blocks : List (Block α)}
    (takes : ∀ value ∈ Block.all blocks, item.Takes (bytes value) value)
    (limit : (Block.all blocks).length ≤ maxItems) : ReadsBlocks item bytes blocks := by
  have start : 0 + (Block.all blocks).length ≤ maxItems := by rwa [Nat.zero_add]
  have read := readBlocksFrom_blocks takes start
  rw [Nat.zero_add] at read
  constructor
  · intro zero number rest ending
    rw [read, readBlocksFrom_end (blockCount_zero number)]
    dsimp only
    rw [List.append_nil]
  · intro head count announced above rest ending
    have nonzero : count ≠ 0 := Nat.pos_iff_ne_zero.mp announced.pos
    rw [read, readBlocksFrom_of_counted (announced.takes rest ending), if_neg nonzero, if_pos above]
    dsimp only
    rw [List.append_nil]
  · intro number size byteSize spelled skipped rest ending
    rw [read, readBlocksFrom_refused (blockCount_lowest spelled skipped rest ending)]
    dsimp only
    rw [List.append_nil]

theorem ReadsBlocks.takes {item : Decoder α} {bytes : α → List UInt8} {blocks : List (Block α)}
    (h : ReadsBlocks item bytes blocks) {zero : List UInt8} (number : Spells zero 0) :
    (readBlocks item).Takes (blocks.flatMap (Block.bytes bytes) ++ zero) (Block.all blocks) := by
  intro rest ending
  simp only [readBlocks, List.append_assoc, h.ended number]
  rfl

theorem readBlocks_length_le {item : Decoder α} {source rest : Source} {items : List α}
    (h : (readBlocks item).run source = (.ok items, rest)) : items.length ≤ maxItems := by
  have spends : item.Spends (fun _ => True) (fun _ => []) := by
    intro source rest value run
    have le := item.shrinks source
    rw [run] at le
    exact ⟨trivial, by simpa using le⟩
  exact (readBlocks_spends spends h).1.1

theorem putAll_delivers {write : α → Writer} {bytes : α → List UInt8} {items : List α}
    (h : ∀ value ∈ items, (write value).Delivers (bytes value)) :
    (putAll write items).Delivers (items.flatMap bytes) := by
  induction items with
  | nil => exact Writer.delivers_of_eq_put Writer.put_nil.symm
  | cons value values ih =>
    obtain ⟨first, others⟩ := List.forall_mem_cons.mp h
    exact first.bind (ih others)

theorem writeBlocks_delivers {write : α → Writer} {bytes : α → List UInt8} {items : List α}
    (h : ∀ value ∈ items, (write value).Delivers (bytes value)) :
    (writeBlocks write items).Delivers (blockBytes bytes items) := by
  have number (n : Int64) : (encodeInt n).Delivers (intBytes n) :=
    Writer.delivers_of_eq_put (encodeInt_eq n)
  unfold writeBlocks blockBytes
  by_cases empty : items = []
  · simpa [empty] using number 0
  · have block := (number (.ofNat items.length)).bind (putAll_delivers h)
    simpa [empty] using block.bind (number 0)

/-- Blocks of items that can be read are read as far as their total stays within the limit, and what
follows them decides how reading ends. What is written of a list is taken back if and only if the list
is within the limit. -/
theorem block_grammar_is_read :
    (∀ {α : Type} (item : Decoder α) (bytes : α → List UInt8) (blocks : List (Block α)),
      (∀ value ∈ Block.all blocks, item.Takes (bytes value) value) →
      (Block.all blocks).length ≤ maxItems →
      ReadsBlocks item bytes blocks ∧ ∀ zero : List UInt8, Spells zero 0 →
        (readBlocks item).Takes (blocks.flatMap (Block.bytes bytes) ++ zero) (Block.all blocks)) ∧
    ∀ {α : Type} (write : α → Writer) (bytes : α → List UInt8) (item : Decoder α) (items : List α),
      (∀ value ∈ items, (write value).Delivers (bytes value) ∧ item.Takes (bytes value) value) →
      ∃ encoded : List UInt8, (writeBlocks write items).Delivers encoded ∧
        (items.length ≤ maxItems ↔ (readBlocks item).Takes encoded items) := by
  refine ⟨?_, ?_⟩
  · intro α item bytes blocks takes limit
    have read := readsBlocks takes limit
    exact ⟨read, fun zero number => read.takes number⟩
  · intro α write bytes item items codec
    refine ⟨blockBytes bytes items, writeBlocks_delivers fun value mem => (codec value mem).1, ?_, ?_⟩
    · exact readBlocks_takes fun value mem => (codec value mem).2
    · intro takes
      exact readBlocks_length_le (takes [] .closed)

def cutBlocks : List (Block Int32) :=
  [⟨[0x82, 0], [7], .plain (show Spells [0x82, 0] 1 by decide +kernel) (by decide)⟩,
    ⟨[3, 1], [-1, 2], .sized (show Spells [3] (-2) by decide +kernel) (by decide) (by decide)
      (show Spells [1] (-1) by decide +kernel)⟩]

/-- Blocks up to a padded zero, and up to a count by which the total is one item too large. -/
theorem cutBlocks_are_read :
    (readBlocks readInt).run ⟨[0x82, 0, 14, 3, 1, 1, 4, 0x80, 0, 5], .closed⟩ =
      (.ok [7, -1, 2], ⟨[5], .closed⟩) ∧
    readBlocksFrom readInt 0 ⟨[0x82, 0, 14, 3, 1, 1, 4, 0xFA, 0xFF, 0xFF, 0xFF, 0x0F, 5], .closed⟩ =
      ⟨[7, -1, 2], .error (.tooManyItems 0x80000000), ⟨[5], .closed⟩⟩ ∧
    ((readBlocks readInt).Takes [4, 14, 1, 0] [7, -1]) := by
  obtain ⟨grammar, written⟩ := block_grammar_is_read
  obtain ⟨blocks, taken⟩ := grammar readInt (fun n => intBytes n.toInt64) cutBlocks
    (fun n _ => readInt_takes n) (by decide)
  have spelled : cutBlocks.flatMap (Block.bytes fun n => intBytes n.toInt64) =
      [0x82, 0, 14, 3, 1, 1, 4] := by decide +kernel
  have zero : Spells [0x80, 0] 0 := by decide +kernel
  have head : Announces [0xFA, 0xFF, 0xFF, 0xFF, 0x0F] 0x7FFFFFFD :=
    .plain (show Spells [0xFA, 0xFF, 0xFF, 0xFF, 0x0F] 0x7FFFFFFD by decide +kernel) (by decide)
  refine ⟨?_, ?_, ?_⟩
  · have read := taken [0x80, 0] zero [5] .closed
    rwa [spelled] at read
  · have read := blocks.exceeded head (by decide) [5] .closed
    rwa [spelled] at read
  · obtain ⟨encoded, delivers, iff⟩ := written writeInt (fun n => intBytes n.toInt64) readInt [7, -1]
      fun n _ => ⟨Writer.delivers_of_eq_put (writeInt_eq n), readInt_takes n⟩
    have same : (writeBlocks writeInt [7, -1]).into ⟨[], none⟩ = (.ok (), ⟨[4, 14, 1, 0], none⟩) := by
      decide +kernel
    cases (delivers []).symm.trans same
    exact iff.mp (by decide)

end AvroCompiler.Wire

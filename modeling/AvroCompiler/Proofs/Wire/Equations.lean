import AvroCompiler.Wire.Sample
import AvroCompiler.Wire.LinkedNode

namespace AvroCompiler.Wire

variable {α β : Type}

namespace Decoder

theorem ext_run {first second : Decoder α} (h : ∀ source, first.run source = second.run source) :
    first = second := by
  obtain ⟨run, _⟩ := first
  obtain ⟨run', _⟩ := second
  obtain rfl : run = run' := funext h
  rfl

theorem atMost_checked (count : Nat) :
    (do
      let bytes ← atMost count
      if bytes.length < count then fail .endOfInput else return bytes) = exactly count := by
  apply ext_run
  rintro ⟨bytes, ending⟩
  rw [bind_run, runBind]
  by_cases enough : (bytes.take count).length = count
  · simp only [atMost, exactly, enough, true_or, if_true, Nat.lt_irrefl, if_false]
    rfl
  · have length := List.length_take (i := count) (l := bytes)
    have few : (bytes.take count).length < count := by omega
    have spent : bytes.drop count = [] := List.drop_eq_nil_of_le (by omega)
    cases ending with
    | closed =>
      simp only [atMost, exactly, enough, or_true, if_true, few, if_false, spent]
      rfl
    | failing text =>
      simp only [atMost, exactly, enough, reduceCtorEq, or_self, if_false]

end Decoder

theorem readBytes_eq : readBytes = (do
    let length ← readLong
    if length < 0 then .fail (.negativeLength length) else .exactly length.toInt.toNat) := by
  simp only [← Decoder.atMost_checked]
  rfl

def collect (shift value : UInt64) : Decoder UInt64 :=
  ⟨ungroup shift value, fun source => ungroup_go_shrinks source shift value source.bytes⟩

theorem ungroup_go_ending (source source' : Source) (h : source.ending = source'.ending)
    (shift value : UInt64) (bytes : List UInt8) :
    ungroup.go source shift value bytes = ungroup.go source' shift value bytes := by
  obtain ⟨_, ending⟩ := source
  obtain ⟨_, ending'⟩ := source'
  obtain rfl : ending = ending' := h
  induction bytes generalizing shift value with
  | nil => rfl
  | cons b rest ih =>
    simp only [ungroup.go]
    split
    · rfl
    · split
      · rfl
      · exact ih _ _

theorem collect_eq (shift value : UInt64) : collect shift value = (do
    let b ← .byte
    if shift = 63 ∧ 1 < b then .fail .varintOverflow
    else if b &&& 0x80 = 0 then return value ||| (b &&& 0x7F).toUInt64 <<< shift
    else collect (shift + 7) (value ||| (b &&& 0x7F).toUInt64 <<< shift)) := by
  apply Decoder.ext_run
  rintro ⟨bytes, ending⟩
  cases bytes with
  | nil => rfl
  | cons b rest =>
    change ungroup.go ⟨b :: rest, ending⟩ shift value (b :: rest) = Decoder.run _ ⟨rest, ending⟩
    rw [ungroup.go]
    split
    · rfl
    · dsimp only
      split
      · rfl
      · exact ungroup_go_ending ⟨b :: rest, ending⟩ ⟨rest, ending⟩ rfl _ _ rest

def itemsOf (item : Decoder α) : Nat → Decoder (List α)
  | 0 => pure []
  | count + 1 => do
    let value ← item
    return value :: (← itemsOf item count)

theorem readItems_run (item : Decoder α) (count : Nat) (source : Source) :
    (itemsOf item count).run source =
      ((readItems item count source).result.map fun _ => (readItems item count source).items,
        (readItems item count source).rest) := by
  induction count generalizing source with
  | zero => rfl
  | succ count ih =>
    rw [itemsOf, Decoder.bind_run, Decoder.runBind, readItems]
    cases item.run source with
    | mk result rest =>
      cases result with
      | error fault => rfl
      | ok value =>
        dsimp only
        rw [Decoder.bind_run, Decoder.runBind, ih rest]
        cases readItems item count rest with
        | mk items result rest' => cases result <;> rfl

/-- The items of all further blocks, after so many items. -/
def blocksFrom (item : Decoder α) (total : Nat) : Decoder (List α) where
  run source :=
    let read := readBlocksFrom item total source
    (read.result.map fun _ => read.items, read.rest)
  shrinks source := readBlocksFrom_shrinks item total source

theorem blocksFrom_run (item : Decoder α) (total : Nat) (source : Source) :
    (blocksFrom item total).run source =
      ((readBlocksFrom item total source).result.map fun _ => (readBlocksFrom item total source).items,
        (readBlocksFrom item total source).rest) := rfl

theorem blocksFrom_eq (item : Decoder α) (total : Nat) : blocksFrom item total = (do
    let count ← blockCount
    if count = 0 then return []
    else if maxItems < total + count then
      .fail (.tooManyItems (.ofNat (min (total + count) 0x7FFFFFFFFFFFFFFF)))
    else
      let block ← itemsOf item count
      return block ++ (← blocksFrom item (total + count))) := by
  apply Decoder.ext_run
  intro source
  rw [Decoder.bind_run, Decoder.runBind]
  rw [blocksFrom_run, readBlocksFrom]
  split
  · rename_i fault rest counted
    rw [counted]
    rfl
  · rename_i count rest counted
    rw [counted]
    dsimp only
    split
    · rfl
    · split
      · rfl
      · rw [Decoder.bind_run, Decoder.runBind, readItems_run]
        cases readItems item count rest with
        | mk items result rest' =>
          cases result with
          | error fault => rfl
          | ok done =>
            dsimp only [Except.map]
            rw [Decoder.bind_run, Decoder.runBind, blocksFrom_run]
            cases readBlocksFrom item (total + count) rest' with
            | mk items' result' rest'' => cases result' <;> rfl

theorem LinkedNode.read_eq : LinkedNode.read = (do
    let value ← readInt
    let index ← decodeInt
    if index = 0 then return .last value
    else if index = 1 then return .link value (← LinkedNode.read)
    else .fail (.invalidBranch "UnionNullLinkedNode" index)) := by
  apply Decoder.ext_run
  intro source
  change readFrom source = _
  rw [readFrom, Decoder.bind_run, Decoder.runBind]
  split
  · rename_i read
    rw [read]
  · rename_i value rest read
    rw [read]
    dsimp only
    rw [Decoder.bind_run, Decoder.runBind]
    split
    · rename_i read'
      rw [read']
    · rename_i index rest' read'
      rw [read']
      dsimp only
      split
      · rfl
      · split
        · rw [Decoder.bind_run, Decoder.runBind]
          rw [show LinkedNode.read.run rest' = readFrom rest' from rfl]
          cases readFrom rest' with
          | mk result rest'' => cases result <;> rfl
        · rfl

end AvroCompiler.Wire

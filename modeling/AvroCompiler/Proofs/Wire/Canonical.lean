import AvroCompiler.Proofs.Wire.RoundTrip
import AvroCompiler.Proofs.Wire.Size
import AvroCompiler.Proofs.Wire.Streaming
import Mathlib.Data.List.Flatten
import Mathlib.Data.List.Perm.Subperm

namespace AvroCompiler.Wire

variable {α : Type}

/-- Whatever the decoder gives is good, and it took no fewer bytes than those that stand for it. -/
def Decoder.Spends (decoder : Decoder α) (good : α → Prop) (bytes : α → List UInt8) : Prop :=
  ∀ {source rest : Source} {value : α}, decoder.run source = (.ok value, rest) →
    good value ∧ (bytes value).length + rest.bytes.length ≤ source.bytes.length

theorem Decoder.exactly_spends {count : Nat} {source rest : Source} {bytes : List UInt8}
    (h : (exactly count).run source = (.ok bytes, rest)) :
    bytes.length = count ∧ bytes.length + rest.bytes.length = source.bytes.length := by
  simp only [exactly] at h
  split at h
  · rename_i eq
    cases h
    refine ⟨eq, ?_⟩
    rw [List.length_take] at eq ⊢
    rw [List.length_drop]
    omega
  · cases h

theorem ofNat_toNat_of_nonneg {n : Int64} (h : ¬n < 0) :
    Int64.ofNat n.toInt.toNat = n ∧ n.toInt.toNat < 2 ^ 63 := by
  have nonneg : 0 ≤ n.toInt := by
    rw [Int64.lt_iff_toInt_lt] at h
    exact Int.not_lt.mp h
  have bound := n.toInt_lt
  refine ⟨?_, by omega⟩
  rw [← Int64.toInt_inj, Int64.toInt_ofNat_of_lt (by omega)]
  omega

theorem readInt_spends : readInt.Spends (fun _ => True) (fun n => intBytes n.toInt64) := by
  intro source rest n h
  obtain ⟨value, middle, read, done⟩ := Decoder.exists_of_bind_ok h
  have spent := decodeInt_spends read
  split at done
  · rename_i fits
    cases done
    refine ⟨trivial, ?_⟩
    dsimp only
    rwa [fits]
  · cases done

theorem readBool_spends {source rest : Source} {value : Bool} (h : readBool.run source = (.ok value, rest)) :
    (boolBytes value).length + rest.bytes.length ≤ source.bytes.length := by
  obtain ⟨b, middle, read, done⟩ := Decoder.exists_of_bind_ok h
  have spent : middle.bytes.length + 1 = source.bytes.length := by
    obtain ⟨bytes, ending⟩ := source
    cases bytes with
    | nil => cases read
    | cons first bytes =>
      cases read
      rfl
  have left : rest = middle := by
    split at done
    · cases done
      rfl
    · split at done
      · cases done
        rfl
      · cases done
  rw [left, boolBytes, List.length_singleton]
  omega

theorem readFloat_spends {source rest : Source} {bits : UInt32} (h : readFloat.run source = (.ok bits, rest)) :
    (floatBytes bits).length + rest.bytes.length ≤ source.bytes.length := by
  obtain ⟨bytes, middle, read, done⟩ := Decoder.exists_of_bind_ok h
  have spent := Decoder.exactly_spends read
  cases done
  rw [floatBytes, length_littleEndian]
  omega

theorem readDouble_spends {source rest : Source} {bits : UInt64}
    (h : readDouble.run source = (.ok bits, rest)) :
    (doubleBytes bits).length + rest.bytes.length ≤ source.bytes.length := by
  obtain ⟨bytes, middle, read, done⟩ := Decoder.exists_of_bind_ok h
  have spent := Decoder.exactly_spends read
  cases done
  rw [doubleBytes, length_littleEndian]
  omega

theorem readBytes_spends : readBytes.Spends (fun bytes => bytes.length < 2 ^ 63) sizedBytes := by
  intro source rest bytes h
  rw [readBytes_eq] at h
  obtain ⟨length, middle, read, done⟩ := Decoder.exists_of_bind_ok h
  have spent := decodeInt_spends read
  split at done
  · cases done
  · rename_i nonneg
    obtain ⟨same, bound⟩ := ofNat_toNat_of_nonneg nonneg
    obtain ⟨size, spent'⟩ := Decoder.exactly_spends done
    refine ⟨by omega, ?_⟩
    rw [sizedBytes, List.length_append, size, same]
    omega

theorem readString_spends :
    readString.Spends (fun text => (utf8Bytes text).length < 2 ^ 63) stringBytes := by
  intro source rest text h
  obtain ⟨bytes, middle, read, done⟩ := Decoder.exists_of_bind_ok h
  split at done
  · rename_i decoded
    cases done
    obtain ⟨bound, spent⟩ := readBytes_spends read
    rw [← utf8Bytes_of_decodeUtf8 decoded] at bound spent
    exact ⟨bound, spent⟩
  · cases done

/-- A count below zero may be a byte shorter, but then the size of the block takes a byte at least. -/
theorem blockCount_spends {source rest : Source} {count : Nat}
    (h : blockCount.run source = (.ok count, rest)) :
    countSize count + rest.bytes.length ≤ source.bytes.length := by
  obtain ⟨n, middle, read, done⟩ := Decoder.exists_of_bind_ok h
  have spent := decodeInt_spends read
  split at done
  · rename_i negative
    have negative : n.toInt < 0 := Int64.lt_iff_toInt_lt.mp negative
    obtain ⟨size, middle', read', done⟩ := Decoder.exists_of_bind_ok done
    have sized := decodeInt_consumes read'
    split at done
    · cases done
    · rename_i lowest
      cases done
      have above : n.toInt ≠ -2 ^ 63 := fun eq => lowest (Int64.toInt_inj.mp eq)
      have bound := n.le_toInt
      have short := countSize_natAbs_le negative (by omega)
      omega
  · rename_i nonneg
    cases done
    rw [countSize, (ofNat_toNat_of_nonneg nonneg).1]
    exact spent

theorem itemsOf_spends {item : Decoder α} {good : α → Prop} {bytes : α → List UInt8}
    (h : item.Spends good bytes) (count : Nat) :
    (itemsOf item count).Spends (fun items => items.length = count ∧ ∀ value ∈ items, good value)
      (List.flatMap bytes) := by
  induction count with
  | zero =>
    intro source rest items run
    cases run
    exact ⟨⟨rfl, by simp⟩, by simp⟩
  | succ count ih =>
    intro source rest items run
    obtain ⟨value, middle, read, run⟩ := Decoder.exists_of_bind_ok run
    obtain ⟨values, middle', read', done⟩ := Decoder.exists_of_bind_ok run
    obtain ⟨ok, spent⟩ := h read
    obtain ⟨⟨length, oks⟩, spent'⟩ := ih read'
    cases done
    refine ⟨⟨by rw [List.length_cons, length], List.forall_mem_cons.mpr ⟨ok, oks⟩⟩, ?_⟩
    rw [List.flatMap_cons, List.length_append]
    omega

theorem length_blockBytes (bytes : α → List UInt8) (items : List α) :
    (blockBytes bytes items).length =
      (if items = [] then 0 else countSize items.length) + (items.flatMap bytes).length + 1 := by
  have last : (intBytes 0).length = 1 := by
    rw [intBytes, groups]
    rfl
  unfold blockBytes
  by_cases empty : items = []
  · simp [empty, last]
  · simp only [empty, if_false, List.length_append, last]
    rfl

theorem length_blockBytes_append_le (bytes : α → List UInt8) {block items : List α}
    (h : block.length + items.length < 2 ^ 63) :
    (blockBytes bytes (block ++ items)).length ≤
      countSize block.length + (block.flatMap bytes).length + (blockBytes bytes items).length := by
  have sum := countSize_add_le h
  simp only [length_blockBytes, List.append_eq_nil_iff, List.flatMap_append, List.length_append]
  by_cases empty : items = []
  · subst empty
    by_cases none : block = []
    · simp [none]
    · simp [none]
  · simp only [empty, and_false, if_false]
    omega

theorem blocksFrom_spends {item : Decoder α} {good : α → Prop} {bytes : α → List UInt8}
    (h : item.Spends good bytes) (total : Nat) :
    (blocksFrom item total).Spends
      (fun items => (items = [] ∨ total + items.length ≤ maxItems) ∧ ∀ value ∈ items, good value)
      (blockBytes bytes) := by
  intro source rest items run
  induction size : source.bytes.length using Nat.strongRecOn generalizing source rest items total with
  | ind size ih =>
  subst size
  rw [blocksFrom_eq] at run
  obtain ⟨count, middle, counted, run⟩ := Decoder.exists_of_bind_ok run
  have spent := blockCount_spends counted
  split at run
  · cases run
    have pos := countSize_pos count
    refine ⟨⟨Or.inl rfl, by simp⟩, ?_⟩
    rw [length_blockBytes]
    simp only [if_true, List.flatMap_nil, List.length_nil]
    omega
  · split at run
    · cases run
    · rename_i within
      obtain ⟨block, middle', read, run⟩ := Decoder.exists_of_bind_ok run
      obtain ⟨others, middle'', read', done⟩ := Decoder.exists_of_bind_ok run
      obtain ⟨⟨length, oks⟩, spent'⟩ := itemsOf_spends h count read
      have less := blockCount_consumes counted
      obtain ⟨⟨limit, oks'⟩, spent''⟩ := ih _ (by omega) _ read' rfl
      cases done
      have limit : total + (block.length + others.length) ≤ maxItems := by
        rcases limit with rfl | limit
        · rw [List.length_nil]
          omega
        · omega
      have joined := length_blockBytes_append_le bytes
        (show block.length + others.length < 2 ^ 63 by unfold maxItems at limit; omega)
      refine ⟨⟨Or.inr (by rwa [List.length_append]), List.forall_mem_append.mpr ⟨oks, oks'⟩⟩, ?_⟩
      rw [length] at joined
      omega

theorem readBlocks_spends {item : Decoder α} {good : α → Prop} {bytes : α → List UInt8}
    (h : item.Spends good bytes) :
    (readBlocks item).Spends (fun items => items.length ≤ maxItems ∧ ∀ value ∈ items, good value)
      (blockBytes bytes) := by
  intro source rest items run
  obtain ⟨⟨limit, oks⟩, spent⟩ := blocksFrom_spends h 0 run
  refine ⟨⟨?_, oks⟩, spent⟩
  rcases limit with rfl | limit
  · exact Nat.zero_le _
  · omega

theorem insertSorted_subperm {κ β : Type} [KeyOrder κ] (key : κ) (value : β) (entries : List (κ × β)) :
    (insertSorted key value entries).Subperm ((key, value) :: entries) := by
  induction entries with
  | nil => exact List.Subperm.refl _
  | cons entry entries ih =>
    rw [insertSorted]
    split
    · exact List.Subperm.refl _
    · split
      · exact ((List.subperm_cons entry).mpr ih).trans (List.Perm.swap _ _ _).subperm
      · exact ((List.sublist_cons_self entry entries).cons_cons _).subperm

/-- The entries of a map are among those that it was built from: of a repeated key only one stays. -/
theorem tagsOf_subperm (entries : List (String × String)) : (tagsOf entries).entries.Subperm entries := by
  suffices grown : ∀ tags : Keyed String String,
      (entries.foldl (fun tags entry => tags.insert entry.1 entry.2) tags).entries.Subperm
        (tags.entries ++ entries) from grown ∅
  induction entries with
  | nil =>
    intro tags
    rw [List.append_nil]
    exact List.Subperm.refl _
  | cons entry entries ih =>
    intro tags
    have one : (tags.insert entry.1 entry.2).entries.Subperm (entry :: tags.entries) :=
      insertSorted_subperm entry.1 entry.2 tags.entries
    have more := (ih (tags.insert entry.1 entry.2)).trans ((List.subperm_append_right entries).mpr one)
    exact more.trans List.perm_middle.symm.subperm

theorem length_blockBytes_subperm (bytes : α → List UInt8) {few many : List α} (h : few.Subperm many)
    (limit : many.length < 2 ^ 63) :
    (blockBytes bytes few).length ≤ (blockBytes bytes many).length := by
  have count := countSize_mono limit h.length_le
  obtain ⟨chosen, perm, sub⟩ := h
  have sum : (few.flatMap bytes).length ≤ (many.flatMap bytes).length := by
    rw [← (perm.flatMap_right bytes).length_eq]
    exact (sub.flatMap bytes).length_le
  rw [length_blockBytes, length_blockBytes]
  by_cases empty : many = []
  · have none : few = [] := by
      subst empty
      rw [List.sublist_nil.mp sub] at perm
      exact perm.symm.eq_nil
    simp [empty, none]
  · rw [if_neg empty]
    split <;> omega

theorem readMd5_spends {source rest : Source} {digest : Md5} (h : readMd5.run source = (.ok digest, rest)) :
    digest.bytes.length + rest.bytes.length ≤ source.bytes.length := by
  obtain ⟨bytes, middle, read, done⟩ := Decoder.exists_of_bind_ok h
  have spent := Decoder.exactly_spends read
  split at done
  · cases done
    rw [digest.length_eq]
    omega
  · cases done

theorem ordinal_of_ofOrdinal? {ordinal : Int64} {suit : Suit} (h : Suit.ofOrdinal? ordinal = some suit) :
    suit.ordinal = ordinal := by
  unfold Suit.ofOrdinal? at h
  split at h
  next eq => cases h; exact eq.symm
  split at h
  next eq => cases h; exact eq.symm
  split at h
  next eq => cases h; exact eq.symm
  split at h
  next eq => cases h; exact eq.symm
  cases h

theorem readSuit_spends {source rest : Source} {suit : Suit} (h : readSuit.run source = (.ok suit, rest)) :
    (intBytes suit.ordinal).length + rest.bytes.length ≤ source.bytes.length := by
  obtain ⟨ordinal, middle, read, done⟩ := Decoder.exists_of_bind_ok h
  have spent := decodeInt_spends read
  split at done
  · rename_i found
    cases done
    rwa [ordinal_of_ofOrdinal? found]
  · cases done

theorem readEntry_spends :
    readEntry.Spends EntryBounded fun entry => stringBytes entry.1 ++ stringBytes entry.2 := by
  intro source rest entry h
  obtain ⟨key, middle, read, h⟩ := Decoder.exists_of_bind_ok h
  obtain ⟨value, middle', read', done⟩ := Decoder.exists_of_bind_ok h
  obtain ⟨bound, spent⟩ := readString_spends read
  obtain ⟨bound', spent'⟩ := readString_spends read'
  cases done
  refine ⟨⟨bound, bound'⟩, ?_⟩
  dsimp only
  rw [List.length_append]
  omega

theorem readTags_spends {source rest : Source} {tags : Keyed String String}
    {entries : List (String × String)} (h : readTags.run source = (.ok tags, rest))
    (perm : entries.Perm tags.entries) :
    (tags.size ≤ maxItems ∧ ∀ entry ∈ tags.entries, EntryBounded entry) ∧
      (blockBytes (fun entry => stringBytes entry.1 ++ stringBytes entry.2) entries).length +
        rest.bytes.length ≤ source.bytes.length := by
  obtain ⟨items, middle, read, done⟩ := Decoder.exists_of_bind_ok h
  obtain ⟨⟨limit, bounded⟩, spent⟩ := readBlocks_spends readEntry_spends read
  cases done
  have among := tagsOf_subperm items
  have shorter := length_blockBytes_subperm
    (fun entry => stringBytes entry.1 ++ stringBytes entry.2) (perm.subperm.trans among)
    (show items.length < 2 ^ 63 by unfold maxItems at limit; omega)
  refine ⟨⟨Nat.le_trans among.length_le limit, fun entry mem => bounded entry (among.subset mem)⟩, ?_⟩
  omega

theorem readNickname_spends : readNickname.Spends
    (fun nickname => ∀ text, nickname = some text → (utf8Bytes text).length < 2 ^ 63) nicknameBytes := by
  intro source rest nickname h
  obtain ⟨index, middle, read, h⟩ := Decoder.exists_of_bind_ok h
  have spent := decodeInt_spends read
  split at h
  · rename_i zero
    cases h
    refine ⟨by simp, ?_⟩
    rwa [zero] at spent
  · split at h
    · rename_i one
      obtain ⟨text, middle', read', done⟩ := Decoder.exists_of_bind_ok h
      obtain ⟨bound, spent'⟩ := readString_spends read'
      cases done
      refine ⟨fun text' eq => by rwa [← Option.some.inj eq], ?_⟩
      rw [one] at spent
      rw [nicknameBytes, List.length_append]
      omega
    · cases h

theorem readSample_spends {source rest : Source} {sample : Sample} {entries : List (String × String)}
    (h : readSample.run source = (.ok sample, rest)) (perm : entries.Perm sample.tags.entries) :
    sample.Bounded ∧
      (sample.bytesVisiting entries).length + rest.bytes.length ≤ source.bytes.length := by
  -- one field after the other, in the order of the record
  obtain ⟨count, _, read, h⟩ := Decoder.exists_of_bind_ok h
  have count_spent : (intBytes count.toInt64).length + _ ≤ _ := (readInt_spends read).2
  obtain ⟨total, _, read, h⟩ := Decoder.exists_of_bind_ok h
  have total_spent := decodeInt_spends read
  obtain ⟨ratio, _, read, h⟩ := Decoder.exists_of_bind_ok h
  have ratio_spent := readFloat_spends read
  obtain ⟨precise, _, read, h⟩ := Decoder.exists_of_bind_ok h
  have precise_spent := readDouble_spends read
  obtain ⟨flag, _, read, h⟩ := Decoder.exists_of_bind_ok h
  have flag_spent := readBool_spends read
  obtain ⟨payload, _, read, h⟩ := Decoder.exists_of_bind_ok h
  obtain ⟨payload_bound, payload_spent⟩ := readBytes_spends read
  obtain ⟨label, _, read, h⟩ := Decoder.exists_of_bind_ok h
  obtain ⟨label_bound, label_spent⟩ := readString_spends read
  obtain ⟨digest, _, read, h⟩ := Decoder.exists_of_bind_ok h
  have digest_spent := readMd5_spends read
  obtain ⟨suit, _, read, h⟩ := Decoder.exists_of_bind_ok h
  have suit_spent := readSuit_spends read
  obtain ⟨scores, _, read, h⟩ := Decoder.exists_of_bind_ok h
  obtain ⟨⟨scores_limit, -⟩, scores_spent⟩ := readBlocks_spends readInt_spends read
  obtain ⟨tags, _, tags_read, h⟩ := Decoder.exists_of_bind_ok h
  obtain ⟨nickname, _, read, done⟩ := Decoder.exists_of_bind_ok h
  obtain ⟨nickname_bound, nickname_spent⟩ := readNickname_spends read
  cases done
  obtain ⟨⟨tags_limit, entries_bounded⟩, tags_spent⟩ := readTags_spends tags_read perm
  refine ⟨⟨payload_bound, label_bound, scores_limit, tags_limit, entries_bounded, nickname_bound⟩, ?_⟩
  simp only [Sample.bytesVisiting, List.length_append]
  omega

theorem LinkedNode.read_spends {source rest : Source} {node : LinkedNode}
    (h : LinkedNode.read.run source = (.ok node, rest)) :
    node.bytes.length + rest.bytes.length ≤ source.bytes.length := by
  induction size : source.bytes.length using Nat.strongRecOn generalizing source node with
  | ind size ih =>
  subst size
  rw [read_eq] at h
  obtain ⟨value, middle, read, h⟩ := Decoder.exists_of_bind_ok h
  have value_spent : (intBytes value.toInt64).length + _ ≤ _ := (readInt_spends read).2
  obtain ⟨index, middle', read', h⟩ := Decoder.exists_of_bind_ok h
  have index_spent := decodeInt_spends read'
  split at h
  · rename_i zero
    cases h
    rw [zero] at index_spent
    rw [bytes, List.length_append]
    omega
  · split at h
    · rename_i one
      obtain ⟨next, middle'', read'', done⟩ := Decoder.exists_of_bind_ok h
      cases done
      have less := Nat.lt_trans (decodeInt_consumes read') (readInt_consumes read)
      have next_spent := ih _ less read'' rfl
      rw [one] at index_spent
      rw [bytes, List.length_append, List.length_append]
      omega
    · cases h

/-- What was read is written in no more bytes than were read, in whatever order the tags of a sample
are visited, and it is read back from them. -/
theorem written_encoding_is_shortest :
    (∀ (input : List UInt8) (sample : Sample) (rest : Source),
      readSample.run ⟨input, .closed⟩ = (.ok sample, rest) →
      ∃ consumed, input = consumed ++ rest.bytes ∧
        ∀ entries : List (String × String), entries.Perm sample.tags.entries →
          ∃ bytes, (sample.writeVisiting entries).into {} = (.ok (), ⟨bytes, none⟩) ∧
            bytes.length ≤ consumed.length ∧
            ∀ more, readSample.run ⟨bytes ++ more, .closed⟩ = (.ok sample, ⟨more, .closed⟩)) ∧
    ∀ (input : List UInt8) (node : LinkedNode) (rest : Source),
      LinkedNode.read.run ⟨input, .closed⟩ = (.ok node, rest) →
      ∃ consumed, input = consumed ++ rest.bytes ∧
        ∃ bytes, node.write.into {} = (.ok (), ⟨bytes, none⟩) ∧
          bytes.length ≤ consumed.length ∧
          ∀ more, LinkedNode.read.run ⟨bytes ++ more, .closed⟩ = (.ok node, ⟨more, .closed⟩) := by
  refine ⟨?_, ?_⟩
  · intro input sample rest h
    obtain ⟨consumed, split, -, -⟩ := (readSample_streams input).taken h
    refine ⟨consumed, split, ?_⟩
    intro entries perm
    obtain ⟨bounded, spent⟩ := readSample_spends h perm
    refine ⟨sample.bytesVisiting entries, writeVisiting_delivers sample entries [], ?_,
      fun more => readSample_takes bounded perm more .closed⟩
    dsimp only at spent
    rw [split, List.length_append] at spent
    omega
  · intro input node rest h
    obtain ⟨consumed, split, -, -⟩ := (LinkedNode.read_streams input).taken h
    have spent := LinkedNode.read_spends h
    refine ⟨consumed, split, node.bytes, node.write_delivers [], ?_,
      fun more => node.read_takes more .closed⟩
    dsimp only at spent
    rw [split, List.length_append] at spent
    omega

/-- Numbers with padding groups, scores in two blocks of which one tells its size, and a tag that is
given twice. -/
def paddedSample : List UInt8 :=
  [0x81, 0x80, 0, 0, 1, 0, 0xC0, 0x7F, 0, 0, 0, 0, 0, 0, 0, 0, 1, 0x82, 0, 0xAB, 0] ++
    List.replicate 16 9 ++ [6, 2, 2, 1, 2, 1, 0, 4, 2, 0x61, 2, 0x78, 2, 0x61, 2, 0x79, 0, 0]

def unpaddedSample : Sample where
  count := -1
  total := 0
  ratio := 0x7FC00001
  precise := 0
  flag := true
  payload := [0xAB]
  label := ""
  digest := ⟨List.replicate 16 9, rfl⟩
  suit := .clubs
  scores := [1, -1]
  tags := ⟨[("a", "y")], List.pairwise_singleton _ _⟩
  nickname := none

theorem readSample_paddedSample :
    readSample.run ⟨paddedSample, .closed⟩ = (.ok unpaddedSample, ⟨[], .closed⟩) := by
  have count : readInt.run ⟨paddedSample, .closed⟩ = (.ok (-1), ⟨paddedSample.drop 3, .closed⟩) := by
    decide +kernel
  have total : readLong.run ⟨paddedSample.drop 3, .closed⟩ =
      (.ok 0, ⟨paddedSample.drop 4, .closed⟩) := by decide +kernel
  have ratio : readFloat.run ⟨paddedSample.drop 4, .closed⟩ =
      (.ok 0x7FC00001, ⟨paddedSample.drop 8, .closed⟩) := by decide +kernel
  have precise : readDouble.run ⟨paddedSample.drop 8, .closed⟩ =
      (.ok 0, ⟨paddedSample.drop 16, .closed⟩) := by decide +kernel
  have flag : readBool.run ⟨paddedSample.drop 16, .closed⟩ =
      (.ok true, ⟨paddedSample.drop 17, .closed⟩) := by decide +kernel
  have payload : readBytes.run ⟨paddedSample.drop 17, .closed⟩ =
      (.ok [0xAB], ⟨paddedSample.drop 20, .closed⟩) := by decide +kernel
  have label : readString.run ⟨paddedSample.drop 20, .closed⟩ =
      (.ok "", ⟨paddedSample.drop 21, .closed⟩) := by decide +kernel
  have digest : readMd5.run ⟨paddedSample.drop 21, .closed⟩ =
      (.ok unpaddedSample.digest, ⟨paddedSample.drop 37, .closed⟩) := rfl
  have suit : readSuit.run ⟨paddedSample.drop 37, .closed⟩ =
      (.ok .clubs, ⟨paddedSample.drop 38, .closed⟩) := by decide +kernel
  have scores : readScores.run ⟨paddedSample.drop 38, .closed⟩ =
      (.ok [1, -1], ⟨paddedSample.drop 44, .closed⟩) := by decide +kernel
  have entries : (readBlocks readEntry).run ⟨paddedSample.drop 44, .closed⟩ =
      (.ok [("a", "x"), ("a", "y")], ⟨paddedSample.drop 54, .closed⟩) := by decide +kernel
  have tags : readTags.run ⟨paddedSample.drop 44, .closed⟩ =
      (.ok unpaddedSample.tags, ⟨paddedSample.drop 54, .closed⟩) := by
    rw [readTags, Decoder.run_of_first_takes entries]
    rfl
  have nickname : readNickname.run ⟨paddedSample.drop 54, .closed⟩ = (.ok none, ⟨[], .closed⟩) := by
    decide +kernel
  rw [readSample, Decoder.run_of_first_takes count, Decoder.run_of_first_takes total,
    Decoder.run_of_first_takes ratio, Decoder.run_of_first_takes precise,
    Decoder.run_of_first_takes flag, Decoder.run_of_first_takes payload,
    Decoder.run_of_first_takes label, Decoder.run_of_first_takes digest,
    Decoder.run_of_first_takes suit, Decoder.run_of_first_takes scores,
    Decoder.run_of_first_takes tags, Decoder.run_of_first_takes nickname]
  rfl

theorem unpaddedSample_is_shorter :
    readSample.run ⟨paddedSample, .closed⟩ = (.ok unpaddedSample, ⟨[], .closed⟩) ∧
      ∃ bytes, (unpaddedSample.writeVisiting [("a", "y")]).into {} = (.ok (), ⟨bytes, none⟩) ∧
        bytes.length ≤ paddedSample.length ∧
        readSample.run ⟨bytes ++ [7], .closed⟩ = (.ok unpaddedSample, ⟨[7], .closed⟩) := by
  obtain ⟨consumed, whole, written⟩ :=
    written_encoding_is_shortest.1 paddedSample unpaddedSample _ readSample_paddedSample
  obtain ⟨bytes, delivered, shorter, taken⟩ := written [("a", "y")] (List.Perm.refl _)
  rw [List.append_nil] at whole
  exact ⟨readSample_paddedSample, bytes, delivered, whole ▸ shorter, taken [7]⟩

end AvroCompiler.Wire

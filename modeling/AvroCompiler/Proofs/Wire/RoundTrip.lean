import AvroCompiler.Wire.Sample
import AvroCompiler.Wire.LinkedNode
import AvroCompiler.Proofs.Keyed
import AvroCompiler.Proofs.Wire.Blocks

namespace AvroCompiler.Wire

theorem readMd5_takes (digest : Md5) : readMd5.Takes digest.bytes digest := by
  refine (Decoder.exactly_takes digest.length_eq).bind_nil ?_
  have found : Md5.ofBytes? digest.bytes = some digest := dif_pos digest.length_eq
  rw [found]
  exact Decoder.takes_pure digest

theorem readSuit_takes (suit : Suit) : readSuit.Takes (intBytes suit.ordinal) suit := by
  refine (decodeInt_takes suit.ordinal).bind_nil ?_
  have found : Suit.ofOrdinal? suit.ordinal = some suit := by cases suit <;> decide
  rw [found]
  exact Decoder.takes_pure suit

/-- Both texts of an entry are short enough for their lengths to be written. -/
def EntryBounded (entry : String × String) : Prop :=
  (utf8Bytes entry.1).length < 2 ^ 63 ∧ (utf8Bytes entry.2).length < 2 ^ 63

theorem readEntry_takes {entry : String × String} (h : EntryBounded entry) :
    readEntry.Takes (stringBytes entry.1 ++ stringBytes entry.2) entry := by
  refine (readString_takes h.1).bind ?_
  exact (readString_takes h.2).bind_nil (Decoder.takes_pure entry)

/-- The order in which the entries of a map are visited does not show in the map that is read. -/
theorem tagsOf_perm {entries : List (String × String)} {tags : Keyed String String}
    (perm : entries.Perm tags.entries) : tagsOf entries = tags := by
  have nodup : (entries.map Prod.fst).Nodup :=
    (perm.map Prod.fst).nodup_iff.mpr tags.increasing.keys_nodup
  apply Keyed.ext_get?
  intro key
  rw [tagsOf, Keyed.get?_foldl_insert ∅ nodup, Keyed.get?_empty, Option.or_none, lookup_perm perm nodup]
  rfl

theorem readTags_takes {entries : List (String × String)} {tags : Keyed String String}
    (perm : entries.Perm tags.entries) (limit : tags.size ≤ maxItems)
    (bounded : ∀ entry ∈ tags.entries, EntryBounded entry) :
    readTags.Takes (blockBytes (fun entry => stringBytes entry.1 ++ stringBytes entry.2) entries)
      tags := by
  have items := readBlocks_takes
    (fun entry mem => readEntry_takes (bounded entry (perm.mem_iff.mp mem)))
    (show entries.length ≤ maxItems by rw [perm.length_eq]; exact limit)
  refine items.bind_nil ?_
  rw [tagsOf_perm perm]
  exact Decoder.takes_pure tags

theorem readNickname_takes {nickname : Option String}
    (bounded : ∀ text, nickname = some text → (utf8Bytes text).length < 2 ^ 63) :
    readNickname.Takes (nicknameBytes nickname) nickname := by
  cases nickname with
  | none =>
    refine (decodeInt_takes 0).bind_nil ?_
    exact (Decoder.takes_pure ()).bind_nil (Decoder.takes_pure none)
  | some text =>
    refine (decodeInt_takes 1).bind ?_
    exact (readString_takes (bounded text rfl)).bind_nil (Decoder.takes_pure (some text))

/-- The sizes that the wire format has room for: a byte string shorter than `2 ^ 63`, which no memory
exceeds, and a collection of at most `maxItems` items. -/
structure Sample.Bounded (sample : Sample) : Prop where
  payload : sample.payload.length < 2 ^ 63
  label : (utf8Bytes sample.label).length < 2 ^ 63
  scores : sample.scores.length ≤ maxItems
  tags : sample.tags.size ≤ maxItems
  entries : ∀ entry ∈ sample.tags.entries, EntryBounded entry
  nickname : ∀ text, sample.nickname = some text → (utf8Bytes text).length < 2 ^ 63

theorem readSample_takes {sample : Sample} {entries : List (String × String)}
    (bounded : sample.Bounded) (perm : entries.Perm sample.tags.entries) :
    readSample.Takes (sample.bytesVisiting entries) sample := by
  have scores := readBlocks_takes (fun n (_ : n ∈ sample.scores) => readInt_takes n) bounded.scores
  have tags := readTags_takes perm bounded.tags bounded.entries
  unfold Sample.bytesVisiting
  simp only [List.append_assoc]
  -- one field after the other, in the order of the record
  refine (readInt_takes sample.count).bind ?_
  refine (readLong_takes sample.total).bind ?_
  refine (readFloat_takes sample.ratio).bind ?_
  refine (readDouble_takes sample.precise).bind ?_
  refine (readBool_takes sample.flag).bind ?_
  refine (readBytes_takes bounded.payload).bind ?_
  refine (readString_takes bounded.label).bind ?_
  refine (readMd5_takes sample.digest).bind ?_
  refine (readSuit_takes sample.suit).bind ?_
  refine scores.bind ?_
  refine tags.bind ?_
  exact (readNickname_takes bounded.nickname).bind_nil (Decoder.takes_pure sample)

theorem writeNickname_eq (nickname : Option String) :
    writeNickname nickname = put (nicknameBytes nickname) := by
  cases nickname with
  | none =>
    have h := Writer.put_bind (encodeInt_eq 0) Writer.put_nil.symm
    rwa [List.append_nil] at h
  | some text => exact Writer.put_bind (encodeInt_eq 1) (writeString_eq text)

theorem Sample.writeVisiting_eq (sample : Sample) (entries : List (String × String)) :
    sample.writeVisiting entries = put (sample.bytesVisiting entries) := by
  have scores := writeBlocks_eq fun n (_ : n ∈ sample.scores) => writeInt_eq n
  have tags := writeBlocks_eq fun entry (_ : entry ∈ entries) =>
    Writer.put_bind (writeString_eq entry.1) (writeString_eq entry.2)
  unfold Sample.bytesVisiting
  simp only [List.append_assoc]
  -- one field after the other, in the order of the record
  refine Writer.put_bind (writeInt_eq sample.count) ?_
  refine Writer.put_bind (encodeInt_eq sample.total) ?_
  refine Writer.put_bind rfl ?_
  refine Writer.put_bind rfl ?_
  refine Writer.put_bind rfl ?_
  refine Writer.put_bind (writeBytes_eq sample.payload) ?_
  refine Writer.put_bind (writeString_eq sample.label) ?_
  refine Writer.put_bind rfl ?_
  refine Writer.put_bind (encodeInt_eq sample.suit.ordinal) ?_
  refine Writer.put_bind scores ?_
  exact Writer.put_bind tags (writeNickname_eq sample.nickname)

theorem writeVisiting_delivers (sample : Sample) (entries : List (String × String)) :
    (sample.writeVisiting entries).Delivers (sample.bytesVisiting entries) :=
  Writer.delivers_of_eq_put (sample.writeVisiting_eq entries)

namespace LinkedNode

theorem write_eq (node : LinkedNode) : node.write = put node.bytes := by
  induction node with
  | last value => exact Writer.put_bind (writeInt_eq value) (encodeInt_eq 0)
  | link value next ih =>
    rw [bytes, List.append_assoc]
    exact Writer.put_bind (writeInt_eq value) (Writer.put_bind (encodeInt_eq 1) ih)

theorem write_delivers (node : LinkedNode) : node.write.Delivers node.bytes :=
  Writer.delivers_of_eq_put node.write_eq

theorem readFrom_head (value : Int32) (index : Int64) (rest : List UInt8) (ending : Ending) :
    readFrom ⟨intBytes value.toInt64 ++ (intBytes index ++ rest), ending⟩ =
      if index = 0 then (.ok (.last value), ⟨rest, ending⟩)
      else if index = 1 then
        match readFrom ⟨rest, ending⟩ with
        | (.ok next, rest) => (.ok (.link value next), rest)
        | (.error fault, rest) => (.error fault, rest)
      else (.error (.invalidBranch "UnionNullLinkedNode" index), ⟨rest, ending⟩) := by
  have hv := readInt_takes value (intBytes index ++ rest) ending
  have hi := decodeInt_takes index rest ending
  rw [readFrom]
  split
  · rename_i eq
    cases hv.symm.trans eq
  · rename_i eq
    cases hv.symm.trans eq
    split
    · rename_i eq
      cases hi.symm.trans eq
    · rename_i eq
      cases hi.symm.trans eq
      rfl

theorem read_takes (node : LinkedNode) : read.Takes node.bytes node := by
  intro rest ending
  change readFrom ⟨node.bytes ++ rest, ending⟩ = _
  induction node with
  | last value =>
    rw [bytes, List.append_assoc, readFrom_head, if_pos rfl]
  | link value next ih =>
    rw [bytes, List.append_assoc, List.append_assoc, readFrom_head, if_neg (by decide), if_pos rfl, ih]

end LinkedNode

/-- A record is read back from its bytes, with everything behind them left: a sample whatever the
order in which its tags were written, and a list of any length. -/
theorem records_round_trip :
    (∀ (sample : Sample) (entries : List (String × String)) (rest : List UInt8) (ending : Ending),
      sample.Bounded → entries.Perm sample.tags.entries →
      ∃ bytes, (sample.writeVisiting entries).into {} = (.ok (), ⟨bytes, none⟩) ∧
        readSample.run ⟨bytes ++ rest, ending⟩ = (.ok sample, ⟨rest, ending⟩)) ∧
    ∀ (node : LinkedNode) (rest : List UInt8) (ending : Ending),
      ∃ bytes, node.write.into {} = (.ok (), ⟨bytes, none⟩) ∧
        LinkedNode.read.run ⟨bytes ++ rest, ending⟩ = (.ok node, ⟨rest, ending⟩) := by
  refine ⟨?_, ?_⟩
  · intro sample entries rest ending bounded perm
    exact ⟨sample.bytesVisiting entries, writeVisiting_delivers sample entries [],
      readSample_takes bounded perm rest ending⟩
  · intro node rest ending
    exact ⟨node.bytes, node.write_delivers [], node.read_takes rest ending⟩

/-- A sample with bits of numbers that are not numbers, and tags of two entries. -/
def specimen : Sample where
  count := -1
  total := Int64.minValue
  ratio := 0x7FC00001
  precise := 0x7FF8000000000001
  flag := true
  payload := [0xAB]
  label := "日"
  digest := ⟨List.replicate 16 7, rfl⟩
  suit := .clubs
  scores := [1, -1]
  tags := ⟨[("a", "x"), ("b", "é")], List.pairwise_pair.mpr (by decide)⟩
  nickname := some "n"

theorem specimen_bounded : specimen.Bounded where
  payload := by decide
  label := by decide
  scores := by decide
  tags := by decide
  entries := by
    intro entry mem
    have mem : entry = ("a", "x") ∨ entry = ("b", "é") := by simpa [specimen] using mem
    rcases mem with rfl | rfl <;> exact ⟨by decide, by decide⟩
  nickname := by
    intro text eq
    cases Option.some.inj eq
    decide

theorem specimen_round_trip :
    ∃ bytes, (specimen.writeVisiting [("b", "é"), ("a", "x")]).into {} = (.ok (), ⟨bytes, none⟩) ∧
      readSample.run ⟨bytes ++ [0xFF], .closed⟩ = (.ok specimen, ⟨[0xFF], .closed⟩) :=
  records_round_trip.1 specimen _ [0xFF] .closed specimen_bounded (List.Perm.swap _ _ _)

end AvroCompiler.Wire

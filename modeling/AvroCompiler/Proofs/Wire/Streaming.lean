import AvroCompiler.Proofs.Wire.Law

namespace AvroCompiler.Wire

variable {α β : Type}

namespace Decoder

/-- What the outcome on some bytes tells of longer and of shorter inputs. -/
structure StreamsAt (decoder : Decoder α) (bytes : List UInt8) : Prop where
  taken : ∀ {value : α} {rest : Source}, decoder.run ⟨bytes, .closed⟩ = (.ok value, rest) →
    ∃ consumed, bytes = consumed ++ rest.bytes ∧
      (∀ more, decoder.run ⟨consumed ++ more, .closed⟩ = (.ok value, ⟨more, .closed⟩)) ∧
      ∀ part, part <+: consumed → part ≠ consumed →
        (decoder.run ⟨part, .closed⟩).1 = .error .endOfInput
  refused : ∀ {fault : Fault}, (decoder.run ⟨bytes, .closed⟩).1 = .error fault →
    fault ≠ .endOfInput →
      ∀ more, (decoder.run ⟨bytes ++ more, .closed⟩).1 = .error fault

def Streams (decoder : Decoder α) : Prop :=
  ∀ bytes, decoder.StreamsAt bytes

theorem streams_pure (value : α) : (pure value : Decoder α).Streams := by
  intro bytes
  constructor
  · intro value' rest h
    cases h
    refine ⟨[], rfl, fun _ => rfl, ?_⟩
    intro part initial ne
    exact absurd (List.prefix_nil.mp initial) ne
  · intro fault h
    cases h

theorem streams_fail (fault : Fault) : (fail fault : Decoder α).Streams := by
  intro bytes
  constructor
  · intro value rest h
    cases h
  · intro fault' h _ more
    exact h

theorem streams_exactly (count : Nat) : (exactly count).Streams := by
  intro bytes
  by_cases enough : count ≤ bytes.length
  · have run := exactly_enough enough
    constructor
    · intro value rest h
      rw [run] at h
      cases h
      have length : (bytes.take count).length = count := List.length_take_of_le enough
      refine ⟨bytes.take count, (List.take_append_drop count bytes).symm, ?_, ?_⟩
      · intro more
        have taken : (bytes.take count ++ more).take count = bytes.take count :=
          List.take_left' length
        have left : (bytes.take count ++ more).drop count = more := List.drop_left' length
        rw [exactly_enough (by rw [List.length_append]; omega), taken, left]
      · intro part initial ne
        have le := initial.length_le
        have short : part.length ≠ count := fun eq => ne (initial.eq_of_length (eq.trans length.symm))
        rw [exactly_short (by omega)]
    · intro fault h
      rw [run] at h
      cases h
  · have run := exactly_short (Nat.lt_of_not_le enough)
    constructor
    · intro value rest h
      rw [run] at h
      cases h
    · intro fault h ne
      rw [run] at h
      cases h
      exact absurd rfl ne

theorem streams_byte : byte.Streams := by
  intro bytes
  cases bytes with
  | nil =>
    constructor
    · intro value rest h
      cases h
    · intro fault h ne
      cases h
      exact absurd rfl ne
  | cons b bytes =>
    constructor
    · intro value rest h
      cases h
      refine ⟨[b], rfl, fun _ => rfl, ?_⟩
      intro part initial ne
      rcases List.prefix_cons_iff.mp initial with rfl | ⟨tail, rfl, initial'⟩
      · rfl
      · cases List.prefix_nil.mp initial'
        exact absurd rfl ne
    · intro fault h
      cases h

theorem run_of_first_fails {first : Decoder α} {source : Source} {fault : Fault}
    (h : (first.run source).1 = .error fault) (next : α → Decoder β) :
    ((first >>= next).run source).1 = .error fault := by
  rw [bind_run, runBind]
  split
  · rename_i value rest eq
    rw [eq] at h
    cases h
  · rename_i fault' rest eq
    rw [eq] at h
    cases h
    rfl

theorem run_of_first_takes {first : Decoder α} {source rest : Source} {a : α}
    (h : first.run source = (.ok a, rest)) (next : α → Decoder β) :
    (first >>= next).run source = (next a).run rest := by
  rw [bind_run, runBind, h]

theorem prefix_append_cases {part first second : List UInt8} (h : part <+: first ++ second) :
    (part <+: first ∧ part ≠ first) ∨ ∃ inner, part = first ++ inner ∧ inner <+: second := by
  rcases List.prefix_or_prefix_of_prefix h (List.prefix_append first second) with within | ⟨inner, rfl⟩
  · by_cases eq : part = first
    · exact Or.inr ⟨[], by rw [eq, List.append_nil], List.nil_prefix⟩
    · exact Or.inl ⟨within, eq⟩
  · exact Or.inr ⟨inner, rfl, (List.prefix_append_right_inj first).mp h⟩

theorem StreamsAt.bind {first : Decoder α} {next : α → Decoder β} {bytes : List UInt8}
    (hf : first.StreamsAt bytes)
    (hn : ∀ a rest, first.run ⟨bytes, .closed⟩ = (.ok a, ⟨rest, .closed⟩) → (next a).StreamsAt rest) :
    (first >>= next).StreamsAt bytes := by
  constructor
  · intro value rest h
    obtain ⟨a, middle, ran, ran'⟩ := exists_of_bind_ok h
    obtain ⟨used, split, repeats, early⟩ := hf.taken ran
    have ended : first.run ⟨bytes, .closed⟩ = (.ok a, ⟨middle.bytes, .closed⟩) := by
      rw [split]
      exact repeats middle.bytes
    have closed : middle = ⟨middle.bytes, .closed⟩ := (Prod.mk.inj (ran.symm.trans ended)).2
    rw [closed] at ran'
    obtain ⟨used', split', repeats', early'⟩ := (hn a middle.bytes ended).taken ran'
    refine ⟨used ++ used', ?_, ?_, ?_⟩
    · rw [split, split', List.append_assoc]
    · intro more
      rw [List.append_assoc, run_of_first_takes (repeats (used' ++ more)) next]
      exact repeats' more
    · intro part initial ne
      rcases prefix_append_cases initial with ⟨within, ne'⟩ | ⟨inner, rfl, inside⟩
      · exact run_of_first_fails (early part within ne') next
      · rw [run_of_first_takes (repeats inner) next]
        exact early' inner inside fun eq => ne (congrArg (used ++ ·) eq)
  · intro fault h ne more
    cases ran : first.run ⟨bytes, .closed⟩ with
    | mk result middle =>
      cases result with
      | error fault' =>
        have failed : (first.run ⟨bytes, .closed⟩).1 = .error fault' := by rw [ran]
        have same := (run_of_first_fails failed next).symm.trans h
        cases same
        exact run_of_first_fails (hf.refused failed ne more) next
      | ok a =>
        obtain ⟨used, split, repeats, _⟩ := hf.taken ran
        have ended : first.run ⟨bytes, .closed⟩ = (.ok a, ⟨middle.bytes, .closed⟩) := by
          rw [split]
          exact repeats middle.bytes
        rw [run_of_first_takes ended next] at h
        rw [split, List.append_assoc, run_of_first_takes (repeats (middle.bytes ++ more)) next]
        exact (hn a middle.bytes ended).refused h ne more

theorem streams_law : Law StreamsAt where
  pure := streams_pure
  fail _ := streams_fail _
  byte := streams_byte
  exactly := streams_exactly
  bind := StreamsAt.bind

end Decoder

open Decoder (streams_law)

theorem decodeInt_streams : decodeInt.Streams :=
  streams_law.decodeInt

theorem readBool_streams : readBool.Streams :=
  streams_law.readBool

theorem readInt_streams : readInt.Streams :=
  streams_law.readInt

theorem readFloat_streams : readFloat.Streams :=
  streams_law.readFloat

theorem readDouble_streams : readDouble.Streams :=
  streams_law.readDouble

theorem readBytes_streams : readBytes.Streams :=
  streams_law.readBytes

theorem readString_streams : readString.Streams :=
  streams_law.readString

theorem readBlocks_streams {item : Decoder α} (h : item.Streams) : (readBlocks item).Streams :=
  streams_law.readBlocks h

theorem readSample_streams : readSample.Streams :=
  streams_law.readSample

theorem LinkedNode.read_streams : LinkedNode.read.Streams :=
  streams_law.readNode

/-- All readers of the wire format obey the streaming law, and block framing passes it on from the
reader of the items. -/
theorem wire_readers_stream :
    decodeInt.Streams ∧ readBool.Streams ∧ readInt.Streams ∧ readLong.Streams ∧ readFloat.Streams ∧
      readDouble.Streams ∧ readBytes.Streams ∧ readString.Streams ∧
      (∀ {α : Type} (item : Decoder α), item.Streams → (readBlocks item).Streams) ∧
      readSample.Streams ∧ LinkedNode.read.Streams :=
  ⟨decodeInt_streams, readBool_streams, readInt_streams, decodeInt_streams, readFloat_streams,
    readDouble_streams, readBytes_streams, readString_streams, fun _ => readBlocks_streams,
    readSample_streams, LinkedNode.read_streams⟩

/-- One item in a block that tells its size, as a varint with a padding group, then the empty block. -/
def paddedBlock : List UInt8 := [1, 4, 0x82, 0, 0]

theorem readBlocks_paddedBlock :
    (readBlocks readInt).run ⟨paddedBlock, .closed⟩ = (.ok [1], ⟨[], .closed⟩) := by
  cbv

theorem paddedBlock_streams : readInt.Streams ∧
    (readBlocks readInt).run ⟨paddedBlock ++ [7], .closed⟩ = (.ok [1], ⟨[7], .closed⟩) ∧
      ((readBlocks readInt).run ⟨[1, 4, 0x82], .closed⟩).1 = .error .endOfInput := by
  obtain ⟨-, -, int, -, -, -, -, -, blocks, -, -⟩ := wire_readers_stream
  obtain ⟨consumed, whole, repeats, early⟩ :=
    (blocks readInt int paddedBlock).taken readBlocks_paddedBlock
  rw [List.append_nil] at whole
  subst whole
  exact ⟨int, repeats [7], early [1, 4, 0x82] (by decide) (by decide)⟩

end AvroCompiler.Wire

import AvroCompiler.Proofs.Wire.Layout
import AvroCompiler.Proofs.Wire.Streaming

namespace AvroCompiler.Wire

variable {α β : Type}

/-- What becomes of a fault where the input fails instead of ending. -/
def Fault.orFailure (text : String) : Fault → Fault
  | .endOfInput => .input text
  | fault => fault

theorem Fault.orFailure_of_ne {fault : Fault} (ne : fault ≠ .endOfInput) (text : String) :
    fault.orFailure text = fault := by
  cases fault with
  | endOfInput => exact absurd rfl ne
  | invalidBool | invalidOrdinal | invalidBranch | negativeLength | tooManyItems | intOutOfRange
  | varintOverflow | invalidUtf8 | input => rfl

namespace Decoder

/-- After some bytes a failure changes nothing but the fault of a read that wants more. -/
structure FailsAt (decoder : Decoder α) (bytes : List UInt8) : Prop where
  closed : (decoder.run ⟨bytes, .closed⟩).2.ending = .closed
  failing : ∀ text, decoder.run ⟨bytes, .failing text⟩ =
    ((decoder.run ⟨bytes, .closed⟩).1.mapError (Fault.orFailure text),
      ⟨(decoder.run ⟨bytes, .closed⟩).2.bytes, .failing text⟩)

theorem FailsAt.bind {first : Decoder α} {next : α → Decoder β} {bytes : List UInt8}
    (hf : first.FailsAt bytes)
    (hn : ∀ a rest, first.run ⟨bytes, .closed⟩ = (.ok a, ⟨rest, .closed⟩) → (next a).FailsAt rest) :
    (first >>= next).FailsAt bytes := by
  obtain ⟨closed, failing⟩ := hf
  rcases ran : first.run ⟨bytes, .closed⟩ with ⟨result, middle, ending⟩
  rw [ran] at closed failing
  obtain rfl : ending = .closed := closed
  cases result with
  | error fault =>
    have stops : (first >>= next).run ⟨bytes, .closed⟩ = (.error fault, ⟨middle, .closed⟩) := by
      rw [bind_run, runBind, ran]
    constructor
    · rw [stops]
    · intro text
      rw [stops, bind_run, runBind, failing text]
      rfl
  | ok a =>
    have goes : (first >>= next).run ⟨bytes, .closed⟩ = (next a).run ⟨middle, .closed⟩ := by
      rw [bind_run, runBind, ran]
    obtain ⟨closed', failing'⟩ := hn a middle ran
    constructor
    · rw [goes]
      exact closed'
    · intro text
      rw [goes, ← failing' text, bind_run, runBind, failing text]
      rfl

theorem failsAt_fail {fault : Fault} (ne : fault ≠ .endOfInput) (bytes : List UInt8) :
    (fail fault : Decoder α).FailsAt bytes := by
  refine ⟨rfl, fun text => ?_⟩
  have same := Fault.orFailure_of_ne ne text
  have failed : ∀ source, (fail fault : Decoder α).run source = (.error fault, source) := fun _ => rfl
  simp only [failed, Except.mapError, same]

theorem failsAt_byte (bytes : List UInt8) : byte.FailsAt bytes := by
  cases bytes with
  | nil => exact ⟨rfl, fun _ => rfl⟩
  | cons b bytes => exact ⟨rfl, fun _ => rfl⟩

theorem failsAt_exactly (count : Nat) (bytes : List UInt8) : (exactly count).FailsAt bytes := by
  by_cases enough : count ≤ bytes.length
  · have length : (bytes.take count).length = count := List.length_take_of_le enough
    constructor
    · rw [exactly_enough enough]
    · intro text
      rw [exactly_enough enough]
      simp only [exactly, if_pos length]
      rfl
  · have length : (bytes.take count).length ≠ count := by
      rw [List.length_take]
      omega
    constructor
    · rw [exactly_short (Nat.lt_of_not_le enough)]
    · intro text
      rw [exactly_short (Nat.lt_of_not_le enough)]
      simp only [exactly, if_neg length]
      rfl

theorem failsAt_law : Law FailsAt where
  pure _ _ := ⟨rfl, fun _ => rfl⟩
  fail ne := failsAt_fail ne
  byte := failsAt_byte
  exactly := failsAt_exactly
  bind := FailsAt.bind

def Fails (decoder : Decoder α) : Prop :=
  ∀ bytes, decoder.FailsAt bytes

/-- How an input that fails at a position is read. -/
structure ReadsUpTo (decoder : Decoder α) (bytes : List UInt8) (position : Nat) (text : String) :
    Prop where
  /-- The outcome is that on the bytes in front of the position, but for the fault at their end. -/
  outcome : decoder.run (.failingAt bytes position text) =
    ((decoder.run ⟨bytes.take position, .closed⟩).1.mapError (Fault.orFailure text),
      ⟨(decoder.run ⟨bytes.take position, .closed⟩).2.bytes, .failing text⟩)
  /-- A value that is read is the one that the whole input begins with. -/
  value : ∀ {value rest}, decoder.run (.failingAt bytes position text) = (.ok value, rest) →
    decoder.run ⟨bytes, .closed⟩ = (.ok value, ⟨rest.bytes ++ bytes.drop position, .closed⟩)
  /-- A fault other than the failure is a fault of the whole input. -/
  fault : ∀ {fault}, (decoder.run (.failingAt bytes position text)).1 = .error fault →
    fault = .input text ∨ (decoder.run ⟨bytes, .closed⟩).1 = .error fault
  /-- A value that goes on behind the position is not read. -/
  failure : ∀ {value rest}, decoder.run ⟨bytes, .closed⟩ = (.ok value, rest) →
    position + rest.bytes.length < bytes.length →
    (decoder.run (.failingAt bytes position text)).1 = .error (.input text)

theorem readsUpTo {decoder : Decoder α} (streams : decoder.Streams) (fails : decoder.Fails)
    (bytes : List UInt8) (position : Nat) (text : String) :
    decoder.ReadsUpTo bytes position text := by
  have outcome := (fails (bytes.take position)).failing text
  have closed := (fails (bytes.take position)).closed
  rcases ran : decoder.run ⟨bytes.take position, .closed⟩ with ⟨result, left, ending⟩
  rw [ran] at outcome closed
  obtain rfl : ending = .closed := closed
  have failing : decoder.run (.failingAt bytes position text) =
      (result.mapError (Fault.orFailure text), ⟨left, .failing text⟩) := outcome
  refine ⟨by rw [ran]; exact failing, ?_, ?_, ?_⟩
  · intro value rest h
    rw [failing] at h
    cases result with
    | error fault => cases h
    | ok value =>
      cases h
      obtain ⟨consumed, split, repeats, -⟩ := (streams _).taken ran
      have whole := repeats (left ++ bytes.drop position)
      rwa [← List.append_assoc, ← split, List.take_append_drop] at whole
  · intro fault h
    rw [failing] at h
    cases result with
    | ok value => cases h
    | error fault' =>
      cases h
      by_cases ended : fault' = .endOfInput
      · subst ended
        exact Or.inl rfl
      · have refused : (decoder.run ⟨bytes.take position, .closed⟩).1 = .error fault' := by rw [ran]
        have whole := (streams (bytes.take position)).refused refused ended (bytes.drop position)
        rw [List.take_append_drop] at whole
        exact Or.inr (by rw [whole, Fault.orFailure_of_ne ended])
  · intro value rest h beyond
    obtain ⟨consumed, split, -, early⟩ := (streams bytes).taken h
    have length := congrArg List.length split
    rw [List.length_append] at length
    have part : bytes.take position <+: consumed := by
      have whole : bytes.take position <+: consumed ++ rest.bytes := split ▸ List.take_prefix _ _
      refine List.prefix_of_prefix_length_le whole (List.prefix_append _ _) ?_
      rw [List.length_take]
      omega
    have shorter : bytes.take position ≠ consumed := by
      intro eq
      have same := congrArg List.length eq
      rw [List.length_take] at same
      omega
    have short := early _ part shorter
    rw [ran] at short
    rw [failing]
    cases short
    rfl

end Decoder

open Decoder (failsAt_law readsUpTo)

/-- All readers of the wire format read an input that fails at a position up to there, and block
framing does with every reader of items that obeys the laws of streams and of failing inputs. -/
theorem failing_inputs_read_up_to :
    (∀ (layout : Layout) (bytes : List UInt8) (position : Nat) (text : String),
      layout.read.ReadsUpTo bytes position text) ∧
    (∀ (bytes : List UInt8) (position : Nat) (text : String),
      decodeInt.ReadsUpTo bytes position text ∧ readSample.ReadsUpTo bytes position text ∧
        LinkedNode.read.ReadsUpTo bytes position text) ∧
    ∀ {α : Type} (item : Decoder α), item.Streams → item.Fails →
      (readBlocks item).Streams ∧ (readBlocks item).Fails ∧
        ∀ (bytes : List UInt8) (position : Nat) (text : String),
          (readBlocks item).ReadsUpTo bytes position text := by
  refine ⟨?_, ?_, ?_⟩
  · intro layout
    exact readsUpTo (Decoder.streams_law.readLayout layout) (failsAt_law.readLayout layout)
  · intro bytes position text
    exact ⟨readsUpTo decodeInt_streams failsAt_law.decodeInt bytes position text,
      readsUpTo readSample_streams failsAt_law.readSample bytes position text,
      readsUpTo LinkedNode.read_streams failsAt_law.readNode bytes position text⟩
  · intro α item streams fails
    have streams' := readBlocks_streams streams
    have fails' : (readBlocks item).Fails := failsAt_law.readBlocks fails
    exact ⟨streams', fails', readsUpTo streams' fails'⟩

/-- Two items, with a failure in front of the empty block. -/
theorem unended_blocks_fail : readInt.Streams ∧ readInt.Fails ∧
    ((readBlocks readInt).run (.failingAt [4, 2, 4, 0] 3 "boom")).1 = .error (.input "boom") := by
  have fails : readInt.Fails := failsAt_law.readInt
  have whole : (readBlocks readInt).run ⟨[4, 2, 4, 0], .closed⟩ = (.ok [1, 2], ⟨[], .closed⟩) := by
    decide +kernel
  obtain ⟨-, -, blocks⟩ := failing_inputs_read_up_to
  obtain ⟨-, -, upTo⟩ := blocks readInt readInt_streams fails
  exact ⟨readInt_streams, fails, (upTo [4, 2, 4, 0] 3 "boom").failure whole (by decide)⟩

end AvroCompiler.Wire

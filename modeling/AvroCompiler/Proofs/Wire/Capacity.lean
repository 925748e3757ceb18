import AvroCompiler.Proofs.Wire.Layout
import AvroCompiler.Proofs.Wire.RoundTrip

namespace AvroCompiler.Wire

/-- The writer delivers all its bytes where there is room for them. Elsewhere it fails, and those that
there is room for are what it has delivered. -/
def Writer.Fills (writer : Writer) (bytes : List UInt8) : Prop :=
  ∀ written room, writer.into ⟨written, some room⟩ =
    if bytes.length ≤ room then (.ok (), ⟨written ++ bytes, some (room - bytes.length)⟩)
    else (.error .full, ⟨written ++ bytes.take room, some 0⟩)

theorem put_limited (bytes written : List UInt8) (room : Nat) :
    (put bytes).into ⟨written, some room⟩ =
      (if bytes.length ≤ room then .ok () else .error .full,
        ⟨written ++ bytes.take room, some (room - bytes.length)⟩) := by
  change put bytes ⟨written, some room⟩ = _
  simp only [put]
  split <;> rfl

theorem Writer.fills_of_eq_put {writer : Writer} {bytes : List UInt8} (h : writer = put bytes) :
    writer.Fills bytes := by
  subst h
  intro written room
  rw [put_limited]
  by_cases fits : bytes.length ≤ room
  · rw [if_pos fits, if_pos fits, List.take_of_length_le fits]
  · rw [if_neg fits, if_neg fits, Nat.sub_eq_zero_of_le (Nat.le_of_not_le fits)]

structure Step where
  layout : Layout
  value : layout.Value

namespace Step

def write (step : Step) : Writer :=
  step.layout.write step.value

def bytes (step : Step) : List UInt8 :=
  step.layout.bytes step.value

/-- Writes one value after the other, and goes on where a write has failed. -/
def writeAll : List Step → Sink → List (Except WriteFault Unit) × Sink
  | [], sink => ([], sink)
  | step :: steps, sink =>
    let (outcome, next) := step.write.into sink
    let (outcomes, last) := writeAll steps next
    (outcome :: outcomes, last)

/-- A step succeeds if its bytes fit into the room that those before it have left. -/
def outcomes (room : Nat) : List Step → List (Except WriteFault Unit)
  | [] => []
  | step :: steps =>
    (if step.bytes.length ≤ room then .ok () else .error .full) ::
      outcomes (room - step.bytes.length) steps

theorem write_eq (step : Step) : step.write = put step.bytes :=
  step.layout.write_eq step.value

/-- By induction on the steps: what is left of the room after a step is what the others meet. -/
theorem writeAll_limited (steps : List Step) (written : List UInt8) (room : Nat) :
    writeAll steps ⟨written, some room⟩ =
      (outcomes room steps, ⟨written ++ (steps.flatMap bytes).take room,
        some (room - (steps.flatMap bytes).length)⟩) := by
  induction steps generalizing written room with
  | nil => simp [writeAll, outcomes]
  | cons step steps ih =>
    have length : room - (step.bytes ++ steps.flatMap bytes).length =
        room - step.bytes.length - (steps.flatMap bytes).length := by
      rw [List.length_append, Nat.sub_sub]
    rw [writeAll, outcomes, List.flatMap_cons, length, List.take_append, step.write_eq, put_limited]
    dsimp only
    rw [ih, List.append_assoc]

end Step

/-- A limited sink takes the beginning of what is written to it, as long as it has room: of any steps,
each of which fails if it meets less room than it needs, of steps that stop at the first failure, and
of records, whatever the order in which the tags of a sample are visited. -/
theorem limited_sinks_fill_up :
    (∀ (steps : List Step) (written : List UInt8) (room : Nat),
      Step.writeAll steps ⟨written, some room⟩ =
        (Step.outcomes room steps, ⟨written ++ (steps.flatMap Step.bytes).take room,
          some (room - (steps.flatMap Step.bytes).length)⟩)) ∧
    (∀ step : Step, step.write.Delivers step.bytes ∧ step.write.Fills step.bytes) ∧
    (∀ steps : List Step, (putAll Step.write steps).Delivers (steps.flatMap Step.bytes) ∧
      (putAll Step.write steps).Fills (steps.flatMap Step.bytes)) ∧
    (∀ (sample : Sample) (entries : List (String × String)),
      (sample.writeVisiting entries).Delivers (sample.bytesVisiting entries) ∧
        (sample.writeVisiting entries).Fills (sample.bytesVisiting entries)) ∧
    ∀ node : LinkedNode, node.write.Delivers node.bytes ∧ node.write.Fills node.bytes := by
  have both {writer : Writer} {bytes : List UInt8} (h : writer = put bytes) :
      writer.Delivers bytes ∧ writer.Fills bytes :=
    ⟨Writer.delivers_of_eq_put h, Writer.fills_of_eq_put h⟩
  refine ⟨Step.writeAll_limited, fun step => both step.write_eq, ?_, ?_, fun node => both node.write_eq⟩
  · intro steps
    exact both (putAll_eq fun step _ => step.write_eq)
  · intro sample entries
    exact both (sample.writeVisiting_eq entries)

/-- The second value is cut off in its varint, the third fits nowhere any more, and the last one needs
no room. -/
example : Step.writeAll
    [⟨.blocks (.primitive .int), ([1, 2] : List Int32)⟩, ⟨.primitive .long, (300 : Int64)⟩,
      ⟨.primitive .boolean, true⟩, ⟨.primitive .null, ()⟩] ⟨[], some 5⟩ =
    ([.ok (), .error .full, .error .full, .ok ()], ⟨[4, 2, 4, 0, 0xD8], some 0⟩) := by
  decide +kernel

end AvroCompiler.Wire

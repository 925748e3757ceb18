import AvroCompiler.Wire.Fault

namespace AvroCompiler.Wire

/-- What a read meets after the last byte: the end of the input, or a failure. -/
inductive Ending where
  | closed
  | failing (text : String)
  deriving DecidableEq, Repr

structure Source where
  bytes : List UInt8
  ending : Ending := .closed
  deriving DecidableEq, Repr

namespace Source

/-- The input fails from the given position on; what stands there is never seen. -/
def failingAt (bytes : List UInt8) (position : Nat) (text : String) : Source :=
  ⟨bytes.take position, .failing text⟩

def shortage (source : Source) : Fault :=
  match source.ending with
  | .closed => .endOfInput
  | .failing text => .input text

end Source

structure Decoder (α : Type) where
  run : Source → Except Fault α × Source
  shrinks (source : Source) : (run source).2.bytes.length ≤ source.bytes.length

namespace Decoder

variable {α β : Type}

def done (value : α) : Decoder α :=
  ⟨fun source => (.ok value, source), fun _ => Nat.le_refl _⟩

def fail (fault : Fault) : Decoder α :=
  ⟨fun source => (.error fault, source), fun _ => Nat.le_refl _⟩

def runBind (first : Decoder α) (next : α → Decoder β) (source : Source) : Except Fault β × Source :=
  match first.run source with
  | (.ok value, rest) => (next value).run rest
  | (.error fault, rest) => (.error fault, rest)

theorem runBind_shrinks (first : Decoder α) (next : α → Decoder β) (source : Source) :
    (runBind first next source).2.bytes.length ≤ source.bytes.length := by
  have h := first.shrinks source
  unfold runBind
  split
  · rename_i value rest eq
    rw [eq] at h
    exact Nat.le_trans ((next value).shrinks rest) h
  · rename_i fault rest eq
    rw [eq] at h
    exact h

instance : Monad Decoder where
  pure := done
  bind first next := ⟨runBind first next, runBind_shrinks first next⟩

theorem bind_run (first : Decoder α) (next : α → Decoder β) (source : Source) :
    (first >>= next).run source = runBind first next source := rfl

theorem exists_of_bind_ok {first : Decoder α} {next : α → Decoder β} {source rest : Source}
    {value : β} (h : (first >>= next).run source = (.ok value, rest)) :
    ∃ a middle, first.run source = (.ok a, middle) ∧ (next a).run middle = (.ok value, rest) := by
  rw [bind_run, runBind] at h
  split at h
  · exact ⟨_, _, by assumption, h⟩
  · simp at h

def ofExcept : Except Fault α → Decoder α
  | .ok value => done value
  | .error fault => fail fault

/-- Exactly `count` bytes. Where there are fewer, all of them are used up. -/
def exactly (count : Nat) : Decoder (List UInt8) where
  run source :=
    let taken := source.bytes.take count
    if taken.length = count then (.ok taken, { source with bytes := source.bytes.drop count })
    else (.error source.shortage, { source with bytes := [] })
  shrinks source := by
    dsimp only
    split <;> simp

/-- Up to `count` bytes: fewer where the input ends. A failing input still fails. -/
def atMost (count : Nat) : Decoder (List UInt8) where
  run source :=
    let taken := source.bytes.take count
    if taken.length = count ∨ source.ending = .closed then
      (.ok taken, { source with bytes := source.bytes.drop count })
    else (.error source.shortage, { source with bytes := [] })
  shrinks source := by
    dsimp only
    split <;> simp

def byte : Decoder UInt8 where
  run source :=
    match source.bytes with
    | [] => (.error source.shortage, source)
    | b :: rest => (.ok b, { source with bytes := rest })
  shrinks source := by
    split
    · exact Nat.le_refl _
    · rename_i eq
      simp [eq]

end Decoder

end AvroCompiler.Wire

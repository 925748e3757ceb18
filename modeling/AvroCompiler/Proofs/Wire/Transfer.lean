import AvroCompiler.Wire.Decoder
import AvroCompiler.Wire.Sink

namespace AvroCompiler.Wire

variable {α β : Type}

/-- The decoder takes exactly these bytes for the value, whatever follows them. -/
def Decoder.Takes (decoder : Decoder α) (bytes : List UInt8) (value : α) : Prop :=
  ∀ rest ending, decoder.run ⟨bytes ++ rest, ending⟩ = (.ok value, ⟨rest, ending⟩)

/-- The writer adds exactly these bytes to a sink without a limit. -/
def Writer.Delivers (writer : Writer) (bytes : List UInt8) : Prop :=
  ∀ written, writer.into ⟨written, none⟩ = (.ok (), ⟨written ++ bytes, none⟩)

namespace Decoder

theorem takes_pure (value : α) : (pure value : Decoder α).Takes [] value :=
  fun _ _ => rfl

theorem Takes.bind {first : Decoder α} {next : α → Decoder β} {bytes more : List UInt8} {a : α} {b : β}
    (hf : first.Takes bytes a) (hn : (next a).Takes more b) :
    (first >>= next).Takes (bytes ++ more) b := by
  intro rest ending
  rw [bind_run, runBind, List.append_assoc, hf (more ++ rest) ending]
  exact hn rest ending

theorem Takes.bind_nil {first : Decoder α} {next : α → Decoder β} {bytes : List UInt8} {a : α} {b : β}
    (hf : first.Takes bytes a) (hn : (next a).Takes [] b) : (first >>= next).Takes bytes b := by
  have h := hf.bind hn
  rwa [List.append_nil] at h

theorem exactly_takes {bytes : List UInt8} {count : Nat} (h : bytes.length = count) :
    (exactly count).Takes bytes bytes := by
  intro rest ending
  have taken : (bytes ++ rest).take count = bytes := by rw [← h]; exact List.take_left
  have left : (bytes ++ rest).drop count = rest := by rw [← h]; exact List.drop_left
  simp only [exactly, taken, left, h, if_true]

theorem atMost_takes {bytes : List UInt8} {count : Nat} (h : bytes.length = count) :
    (atMost count).Takes bytes bytes := by
  intro rest ending
  have taken : (bytes ++ rest).take count = bytes := by rw [← h]; exact List.take_left
  have left : (bytes ++ rest).drop count = rest := by rw [← h]; exact List.drop_left
  simp only [atMost, taken, left, h, true_or, if_true]

theorem byte_takes (b : UInt8) : byte.Takes [b] b :=
  fun _ _ => rfl

end Decoder

namespace Writer

theorem into_bind (first second : Writer) (sink : Sink) :
    into (first >>= fun _ => second) sink =
      match first.into sink with
      | (.ok (), next) => second.into next
      | (.error fault, next) => (.error fault, next) := by
  unfold into
  simp only [bind, ExceptT.bind, ExceptT.mk, StateT.bind]
  cases first sink with
  | mk result next => cases result <;> rfl

theorem put_nil : put [] = pure () := by
  funext ⟨written, room⟩
  have nothing : put [] ⟨written, room⟩ = (.ok (), ⟨written, room⟩) := by
    cases room <;> simp [put]
  exact nothing

/-- Two writers in a row put what the first puts and then what the second puts, and where the first
does not find room the second puts nothing. -/
theorem put_bind {first second : Writer} {bytes more : List UInt8} (hf : first = put bytes)
    (hs : second = put more) : (first >>= fun _ => second) = put (bytes ++ more) := by
  subst hf hs
  funext ⟨written, room⟩
  change into (put bytes >>= fun _ => put more) ⟨written, room⟩ = put (bytes ++ more) ⟨written, room⟩
  rw [into_bind]
  cases room with
  | none =>
    change put more ⟨written ++ bytes, none⟩ = _
    simp only [put, List.append_assoc]
  | some room =>
    have length : (bytes ++ more).length = bytes.length + more.length := List.length_append
    by_cases fits : bytes.length ≤ room
    · have both : more.length ≤ room - bytes.length ↔ (bytes ++ more).length ≤ room := by omega
      have left : room - bytes.length - more.length = room - (bytes ++ more).length := by omega
      simp only [into, put, fits, if_true, both, left, List.take_append, List.append_assoc]
    · have full : ¬(bytes ++ more).length ≤ room := by omega
      have spent : room - bytes.length = 0 := by omega
      have spent' : room - (bytes ++ more).length = 0 := by omega
      simp only [into, put, fits, full, if_false, List.take_append, spent, spent', List.take_zero,
        List.append_nil]

theorem delivers_of_eq_put {writer : Writer} {bytes : List UInt8} (h : writer = put bytes) :
    writer.Delivers bytes := by
  subst h
  exact fun _ => rfl

theorem Delivers.bind {first second : Writer} {bytes more : List UInt8} (hf : first.Delivers bytes)
    (hs : second.Delivers more) :
    Writer.Delivers (first >>= fun _ => second) (bytes ++ more) := by
  intro written
  rw [into_bind, hf written, ← List.append_assoc]
  exact hs (written ++ bytes)

end Writer

end AvroCompiler.Wire

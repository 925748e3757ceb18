import AvroCompiler.Proofs.Wire.Equations

namespace AvroCompiler.Wire

namespace Decoder

theorem exactly_short {count : Nat} {bytes : List UInt8} (short : bytes.length < count) :
    (exactly count).run ⟨bytes, .closed⟩ = (.error .endOfInput, ⟨[], .closed⟩) := by
  have ne : (bytes.take count).length ≠ count := by
    rw [List.length_take]
    omega
  simp only [exactly, if_neg ne]
  rfl

theorem exactly_enough {count : Nat} {bytes : List UInt8} (enough : count ≤ bytes.length) :
    (exactly count).run ⟨bytes, .closed⟩ = (.ok (bytes.take count), ⟨bytes.drop count, .closed⟩) := by
  have eq : (bytes.take count).length = count := by
    rw [List.length_take]
    omega
  simp only [exactly, if_pos eq]

/-- A law tells of the outcome on some bytes. In a sequence it has to hold of the second reader only
on what the first one leaves. -/
structure Law (P : {α : Type} → Decoder α → List UInt8 → Prop) : Prop where
  pure {α : Type} (value : α) (bytes : List UInt8) : P (pure value : Decoder α) bytes
  fail {α : Type} {fault : Fault} (ne : fault ≠ .endOfInput) (bytes : List UInt8) :
    P (fail fault : Decoder α) bytes
  byte (bytes : List UInt8) : P byte bytes
  exactly (count : Nat) (bytes : List UInt8) : P (exactly count) bytes
  bind {α β : Type} {first : Decoder α} {next : α → Decoder β} {bytes : List UInt8}
    (hf : P first bytes)
    (hn : ∀ a rest, first.run ⟨bytes, .closed⟩ = (.ok a, ⟨rest, .closed⟩) → P (next a) rest) :
    P (first >>= next) bytes

namespace Law

variable {P : {α : Type} → Decoder α → List UInt8 → Prop} {α β : Type}

theorem sequence (law : Law P) {first : Decoder α} {next : α → Decoder β} (hf : ∀ bytes, P first bytes)
    (hn : ∀ a bytes, P (next a) bytes) (bytes : List UInt8) : P (first >>= next) bytes :=
  law.bind (hf bytes) fun a rest _ => hn a rest

theorem collect (law : Law P) (shift value : UInt64) (bytes : List UInt8) :
    P (collect shift value) bytes := by
  induction bytes generalizing shift value with
  | nil =>
    rw [collect_eq]
    refine law.bind (law.byte []) ?_
    intro b rest h
    cases h
  | cons c bytes ih =>
    rw [collect_eq]
    refine law.bind (law.byte (c :: bytes)) ?_
    intro b rest h
    cases h
    split
    · exact law.fail (by simp) _
    · split
      · exact law.pure _ _
      · exact ih _ _

theorem decodeInt (law : Law P) : ∀ bytes, P decodeInt bytes :=
  law.sequence (law.collect 0 0) fun _ => law.pure _

theorem readBool (law : Law P) : ∀ bytes, P readBool bytes := by
  refine law.sequence law.byte fun b => ?_
  split
  · exact law.pure _
  · split
    · exact law.pure _
    · exact law.fail nofun

theorem readInt (law : Law P) : ∀ bytes, P readInt bytes := by
  refine law.sequence law.decodeInt fun n => ?_
  split
  · exact law.pure _
  · exact law.fail nofun

theorem readFloat (law : Law P) : ∀ bytes, P readFloat bytes :=
  law.sequence (law.exactly 4) fun _ => law.pure _

theorem readDouble (law : Law P) : ∀ bytes, P readDouble bytes :=
  law.sequence (law.exactly 8) fun _ => law.pure _

theorem readBytes (law : Law P) : ∀ bytes, P readBytes bytes := by
  rw [readBytes_eq]
  refine law.sequence law.decodeInt fun length => ?_
  split
  · exact law.fail nofun
  · exact law.exactly _

theorem readString (law : Law P) : ∀ bytes, P readString bytes := by
  refine law.sequence law.readBytes fun bytes => ?_
  split
  · exact law.pure _
  · exact law.fail nofun

theorem blockCount (law : Law P) : ∀ bytes, P blockCount bytes := by
  refine law.sequence law.decodeInt fun count => ?_
  split
  · refine law.sequence law.decodeInt fun _ => ?_
    split
    · exact law.fail nofun
    · exact law.pure _
  · exact law.pure _

theorem itemsOf (law : Law P) {item : Decoder α} (h : ∀ bytes, P item bytes) (count : Nat) :
    ∀ bytes, P (itemsOf item count) bytes := by
  induction count with
  | zero => exact law.pure _
  | succ count ih => exact law.sequence h fun _ => law.sequence ih fun _ => law.pure _

/-- By induction on the input: a count takes a byte at least, so the blocks that follow have less. -/
theorem blocksFrom (law : Law P) {item : Decoder α} (h : ∀ bytes, P item bytes) (total : Nat)
    (bytes : List UInt8) : P (blocksFrom item total) bytes := by
  induction h' : bytes.length using Nat.strongRecOn generalizing bytes total with
  | ind size ih =>
  subst h'
  rw [blocksFrom_eq]
  refine law.bind (law.blockCount bytes) ?_
  intro count rest counted
  split
  · exact law.pure _ _
  · split
    · exact law.fail (by simp) _
    · refine law.bind (law.itemsOf h count rest) ?_
      intro block rest' read
      have less := blockCount_consumes counted
      have le := (Wire.itemsOf item count).shrinks ⟨rest, .closed⟩
      rw [read] at le
      exact law.bind (ih _ (Nat.lt_of_le_of_lt le less) _ rest' rfl) fun _ _ _ => law.pure _ _

theorem readBlocks (law : Law P) {item : Decoder α} (h : ∀ bytes, P item bytes) :
    ∀ bytes, P (readBlocks item) bytes :=
  law.blocksFrom h 0

theorem readMd5 (law : Law P) (bytes : List UInt8) : P readMd5 bytes := by
  refine law.bind (law.exactly 16 bytes) ?_
  intro digest rest read
  have length : digest.length = 16 := by
    by_cases enough : 16 ≤ bytes.length
    · rw [exactly_enough enough] at read
      cases read
      exact List.length_take_of_le enough
    · rw [exactly_short (Nat.lt_of_not_le enough)] at read
      cases read
  have found : Md5.ofBytes? digest = some ⟨digest, length⟩ := dif_pos length
  rw [found]
  exact law.pure _ _

theorem readSuit (law : Law P) : ∀ bytes, P readSuit bytes := by
  refine law.sequence law.decodeInt fun ordinal => ?_
  split
  · exact law.pure _
  · exact law.fail nofun

theorem readTags (law : Law P) : ∀ bytes, P readTags bytes := by
  have entry : ∀ bytes, P readEntry bytes :=
    law.sequence law.readString fun _ => law.sequence law.readString fun _ => law.pure _
  exact law.sequence (law.readBlocks entry) fun _ => law.pure _

theorem readNickname (law : Law P) : ∀ bytes, P readNickname bytes := by
  refine law.sequence law.decodeInt fun index => ?_
  split
  · exact law.sequence (law.pure ()) fun _ => law.pure _
  · split
    · exact law.sequence law.readString fun _ => law.pure _
    · exact law.fail nofun

theorem readSample (law : Law P) : ∀ bytes, P readSample bytes := by
  refine law.sequence law.readInt fun count => ?_
  refine law.sequence law.decodeInt fun total => ?_
  refine law.sequence law.readFloat fun ratio => ?_
  refine law.sequence law.readDouble fun precise => ?_
  refine law.sequence law.readBool fun flag => ?_
  refine law.sequence law.readBytes fun payload => ?_
  refine law.sequence law.readString fun label => ?_
  refine law.sequence law.readMd5 fun digest => ?_
  refine law.sequence law.readSuit fun suit => ?_
  refine law.sequence (law.readBlocks law.readInt) fun scores => ?_
  refine law.sequence law.readTags fun tags => ?_
  exact law.sequence law.readNickname fun nickname => law.pure _

theorem readNode (law : Law P) (bytes : List UInt8) : P LinkedNode.read bytes := by
  induction h : bytes.length using Nat.strongRecOn generalizing bytes with
  | ind size ih =>
  subst h
  rw [LinkedNode.read_eq]
  refine law.bind (law.readInt bytes) ?_
  intro value rest read
  refine law.bind (law.decodeInt rest) ?_
  intro index rest' read'
  split
  · exact law.pure _ _
  · split
    · have less : rest'.length < bytes.length :=
        Nat.lt_trans (decodeInt_consumes read') (readInt_consumes read)
      exact law.bind (ih _ less rest' rfl) fun _ _ _ => law.pure _ _
    · exact law.fail (by simp) _

end Law

end Decoder

end AvroCompiler.Wire

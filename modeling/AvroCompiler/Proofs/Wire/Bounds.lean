import AvroCompiler.Proofs.Loop
import AvroCompiler.Proofs.Wire.Canonical
import AvroCompiler.Proofs.Wire.Grammar
import Mathlib.Data.Prod.Lex

namespace AvroCompiler.Wire

variable {α μ : Type}

theorem Decoder.bind_shrinks {β : Type} (first : Decoder α) (next : α → Decoder β) (source : Source) :
    ((first >>= next).run source).2.bytes.length ≤ (first.run source).2.bytes.length := by
  rw [bind_run, runBind]
  cases first.run source with
  | mk result rest =>
    cases result with
    | error fault => exact Nat.le_refl _
    | ok value => exact (next value).shrinks rest

theorem decodeInt_takes_byte (b : UInt8) (rest : List UInt8) (ending : Ending) :
    (decodeInt.run ⟨b :: rest, ending⟩).2.bytes.length ≤ rest.length := by
  have number : varint = collect 0 0 := rfl
  refine Nat.le_trans (Decoder.bind_shrinks varint _ _) ?_
  rw [number, collect_eq]
  exact Decoder.bind_shrinks .byte _ ⟨b :: rest, ending⟩

theorem blockCount_takes_byte {source : Source} (nonempty : source.bytes ≠ []) :
    (blockCount.run source).2.bytes.length < source.bytes.length := by
  obtain ⟨_ | ⟨b, rest⟩, ending⟩ := source
  · exact absurd rfl nonempty
  · exact Nat.lt_succ_of_le
      (Nat.le_trans (Decoder.bind_shrinks decodeInt _ _) (decodeInt_takes_byte b rest ending))

/-- A reader of items that may keep something between two calls. It never gives bytes back. -/
structure ItemReader (μ : Type) where
  call : μ → Source → Except Fault Unit × μ × Source
  shrinks (memory : μ) (source : Source) : (call memory source).2.2.bytes.length ≤ source.bytes.length

def ItemReader.keeping (item : Decoder α) : ItemReader (List α) where
  call items source :=
    match item.run source with
    | (.error fault, rest) => (.error fault, items, rest)
    | (.ok value, rest) => (.ok (), items ++ [value], rest)
  shrinks items source := by
    have shrunk := item.shrinks source
    cases read : item.run source with
    | mk result rest =>
      rw [read] at shrunk
      cases result <;> exact shrunk

/-- Where reading blocks is: `pending` items of a block are still to be read, and where there are none,
the next block begins. The blocks so far announce `total` items. -/
structure BlockState (μ : Type) where
  pending : Nat
  total : Nat
  memory : μ
  source : Source

structure BlocksEnd (μ : Type) where
  result : Except Fault Unit
  memory : μ
  rest : Source

namespace BlockState

def step (reader : ItemReader μ) (state : BlockState μ) : BlockState μ ⊕ BlocksEnd μ :=
  match state.pending with
  | 0 =>
    match blockCount.run state.source with
    | (.error fault, rest) => .inr ⟨.error fault, state.memory, rest⟩
    | (.ok count, rest) =>
      let total := state.total + count
      if count = 0 then .inr ⟨.ok (), state.memory, rest⟩
      else if maxItems < total then
        .inr ⟨.error (.tooManyItems (.ofNat (min total 0x7FFFFFFFFFFFFFFF))), state.memory, rest⟩
      else .inl ⟨count, total, state.memory, rest⟩
  | more + 1 =>
    match reader.call state.memory state.source with
    | (.error fault, memory, rest) => .inr ⟨.error fault, memory, rest⟩
    | (.ok (), memory, rest) => .inl ⟨more, state.total, memory, rest⟩

def start (memory : μ) (source : Source) : BlockState μ :=
  ⟨0, 0, memory, source⟩

theorem step_goes {reader : ItemReader μ} {state after : BlockState μ}
    (goes : state.step reader = .inl after) :
    (state.pending = 0 ∧ after.total = state.total + after.pending ∧ after.total ≤ maxItems ∧
      after.source.bytes.length < state.source.bytes.length) ∨
    (state.pending = after.pending + 1 ∧ after.total = state.total ∧
      after.source.bytes.length ≤ state.source.bytes.length) := by
  unfold step at goes
  split at goes
  · rename_i head
    split at goes
    · cases goes
    · rename_i count rest counted
      dsimp only at goes
      split at goes
      · cases goes
      · split at goes
        · cases goes
        · rename_i limit
          cases goes
          exact .inl ⟨head, rfl, Nat.le_of_not_lt limit, blockCount_consumes counted⟩
  · rename_i more item
    have shrunk := reader.shrinks state.memory state.source
    split at goes
    · cases goes
    · rename_i called
      rw [called] at shrunk
      cases goes
      exact .inr ⟨item, rfl, shrunk⟩

/-- No bytes are given back between two turns, and from the head of a block on there are fewer. -/
def Spends (early late : BlockState μ) : Prop :=
  late.source.bytes.length ≤ early.source.bytes.length ∧
    (early.pending = 0 → late.source.bytes.length < early.source.bytes.length)

/-- No bytes are given back at the end, and a block takes bytes also where it is the last one, or else
the input was spent before it. -/
def Ends (state : BlockState μ) (outcome : BlocksEnd μ) : Prop :=
  outcome.rest.bytes.length ≤ state.source.bytes.length ∧
    (state.pending = 0 → outcome.rest.bytes.length < state.source.bytes.length ∨
      state.source.bytes = [] ∧ outcome.result = .error state.source.shortage)

theorem step_stops {reader : ItemReader μ} {state : BlockState μ} {outcome : BlocksEnd μ}
    (stops : state.step reader = .inr outcome) : state.Ends outcome := by
  unfold step at stops
  split at stops
  · have rest : outcome.rest = (blockCount.run state.source).2 := by
      split at stops
      · rename_i counted
        cases stops
        rw [counted]
      · rename_i counted
        rw [counted]
        dsimp only at stops
        split at stops
        · cases stops
          rfl
        · split at stops <;> cases stops
          rfl
    -- The head of a block takes a byte also where it fails, unless there is none.
    by_cases spent : state.source.bytes = []
    · obtain ⟨pending, total, memory, ⟨bytes, ending⟩⟩ := state
      obtain rfl : bytes = [] := spent
      cases stops
      exact ⟨Nat.le_refl _, fun _ => .inr ⟨rfl, rfl⟩⟩
    · have taken := blockCount_takes_byte spent
      rw [← rest] at taken
      exact ⟨Nat.le_of_lt taken, fun _ => .inl taken⟩
  · rename_i item
    have shrunk := reader.shrinks state.memory state.source
    split at stops
    · rename_i called
      rw [called] at shrunk
      cases stops
      exact ⟨shrunk, fun head => by rw [head] at item; cases item⟩
    · cases stops

variable {reader : ItemReader μ} {state : BlockState μ} {memory : μ} {source : Source}
  {states : List (BlockState μ)} {outcome : BlocksEnd μ}

theorem exists_visits (reader : ItemReader μ) (memory : μ) (source : Source) :
    ∃ states outcome, Visits (step reader) (start memory source) states outcome := by
  refine Visits.exists_of_weight (step reader)
    (fun state => toLex (state.source.bytes.length, state.pending)) (fun goes => ?_) _
  -- An item may take no bytes, but then one fewer is pending.
  rw [Prod.Lex.toLex_lt_toLex]
  rcases step_goes goes with ⟨-, -, -, less⟩ | ⟨one, -, le⟩
  · exact .inl less
  · rcases Nat.lt_or_eq_of_le le with less | same
    · exact .inl less
    · exact .inr ⟨same, by dsimp only; omega⟩

theorem calls_le (visits : Visits (step reader) (start memory source) states outcome) :
    states.countP (fun state => state.pending ≠ 0) ≤ maxItems := by
  -- The head of a block turns announced items into pending ones, and each call spends one.
  refine visits.countP_le (fun state => state.pending ≠ 0)
    (fun state => maxItems - state.total + state.pending) (fun goes => ?_) (fun _ call => ?_)
  · rcases step_goes goes with ⟨head, total, limit, -⟩ | ⟨item, total, -⟩
    · exact ⟨by omega, fun call => absurd head call⟩
    · exact ⟨by omega, fun _ => by omega⟩
  · exact Nat.add_pos_right _ (Nat.pos_of_ne_zero call)

theorem heads_le (visits : Visits (step reader) (start memory source) states outcome) :
    states.countP (fun state => state.pending = 0) ≤ source.bytes.length + 1 := by
  refine visits.countP_le (fun state => state.pending = 0)
    (fun state => state.source.bytes.length + 1) (fun goes => ?_) (fun _ _ => Nat.succ_pos _)
  rcases step_goes goes with ⟨-, -, -, less⟩ | ⟨item, -, le⟩
  · exact ⟨by omega, fun _ => by omega⟩
  · exact ⟨by omega, fun head => by omega⟩

theorem length_le (visits : Visits (step reader) (start memory source) states outcome) :
    states.length ≤ maxItems + (source.bytes.length + 1) := by
  have calls := calls_le visits
  have heads := heads_le visits
  have split : states.length = _ :=
    List.length_eq_countP_add_countP (fun state : BlockState μ => state.pending ≠ 0)
  simp only [ne_eq, decide_not, Bool.not_eq_true', decide_eq_false_iff_not, not_not] at split calls
  omega

theorem pairwise_spends (visits : Visits (step reader) (start memory source) states outcome) :
    states.Pairwise Spends := by
  refine visits.pairwise (fun goes => ?_) (fun goes later => ?_)
  · rcases step_goes goes with ⟨-, -, -, less⟩ | ⟨item, -, le⟩
    · exact ⟨Nat.le_of_lt less, fun _ => less⟩
    · exact ⟨le, fun head => by omega⟩
  · rcases step_goes goes with ⟨-, -, -, less⟩ | ⟨item, -, le⟩
    · have less := Nat.lt_of_le_of_lt later.1 less
      exact ⟨Nat.le_of_lt less, fun _ => less⟩
    · exact ⟨Nat.le_trans later.1 le, fun head => by omega⟩

theorem forall_ends (visits : Visits (step reader) (start memory source) states outcome) :
    ∀ state ∈ states, state.Ends outcome := by
  refine visits.forall_outcome step_stops (fun goes later => ?_)
  rcases step_goes goes with ⟨-, -, -, less⟩ | ⟨item, -, le⟩
  · have less := Nat.lt_of_le_of_lt later.1 less
    exact ⟨Nat.le_of_lt less, fun _ => .inl less⟩
  · exact ⟨Nat.le_trans later.1 le, fun head => by omega⟩

def run (item : Decoder α) (state : BlockState (List α)) : BlocksEnd (List α) :=
  let block := readItems item state.pending state.source
  match block.result with
  | .error fault => ⟨.error fault, state.memory ++ block.items, block.rest⟩
  | .ok () =>
    let more := readBlocksFrom item state.total block.rest
    ⟨more.result, state.memory ++ block.items ++ more.items, more.rest⟩

theorem run_step (item : Decoder α) (state : BlockState (List α)) :
    state.run item = (state.step (.keeping item)).elim (run item) id := by
  obtain ⟨_ | more, total, memory, source⟩ := state
  · unfold run step
    dsimp only [readItems]
    rw [List.append_nil]
    cases counted : blockCount.run source with
    | mk result rest =>
      cases result with
      | error fault =>
        rw [readBlocksFrom_refused counted]
        simp
      | ok count =>
        rw [readBlocksFrom_of_counted counted]
        dsimp only
        split
        · simp
        · split
          · simp
          · dsimp only [Sum.elim_inl, run]
            cases ended : (readItems item count rest).result <;> simp [ended]
  · unfold run step
    dsimp only [readItems, ItemReader.keeping]
    cases item.run source with
    | mk result rest =>
      cases result with
      | error fault => simp
      | ok value =>
        dsimp only [Sum.elim_inl, run]
        cases (readItems item more rest).result <;> simp

/-- Reading the items of a collection is this loop with a reader that keeps them. -/
theorem visits_readBlocks (item : Decoder α) (source : Source) :
    ∃ states outcome, Visits (step (.keeping item)) (start [] source) states outcome ∧
      (readBlocks item).run source = (outcome.result.map fun _ => outcome.memory, outcome.rest) := by
  obtain ⟨states, outcome, visits⟩ := exists_visits (.keeping item) [] source
  obtain rfl : outcome = (start [] source).run item := visits.outcome_eq (run item) (run_step item)
  exact ⟨states, _, visits, rfl⟩

end BlockState

/-- Where reading a list is: the values of the nodes around, the innermost one first, and the input. -/
structure NodeState where
  outer : List Int32
  source : Source

namespace NodeState

def enclose (outer : List Int32) (node : LinkedNode) : LinkedNode :=
  outer.foldl (fun node value => .link value node) node

def step (state : NodeState) : NodeState ⊕ (Except Fault LinkedNode × Source) :=
  match readInt.run state.source with
  | (.error fault, rest) => .inr (.error fault, rest)
  | (.ok value, rest) =>
    match decodeInt.run rest with
    | (.error fault, rest) => .inr (.error fault, rest)
    | (.ok index, rest) =>
      if index = 0 then .inr (.ok (enclose state.outer (.last value)), rest)
      else if index = 1 then .inl ⟨value :: state.outer, rest⟩
      else .inr (.error (.invalidBranch "UnionNullLinkedNode" index), rest)

def run (state : NodeState) : Except Fault LinkedNode × Source :=
  let read := LinkedNode.read.run state.source
  (read.1.map (enclose state.outer), read.2)

theorem run_step (state : NodeState) : state.run = state.step.elim run id := by
  obtain ⟨outer, source⟩ := state
  conv_lhs => rw [run, LinkedNode.read_eq]
  unfold step
  dsimp only
  rw [Decoder.bind_run, Decoder.runBind]
  cases readInt.run source with
  | mk result rest =>
    cases result with
    | error fault => rfl
    | ok value =>
      dsimp only
      rw [Decoder.bind_run, Decoder.runBind]
      cases decodeInt.run rest with
      | mk result rest =>
        cases result with
        | error fault => rfl
        | ok index =>
          dsimp only
          split
          · rfl
          · split
            · rw [Decoder.bind_run, Decoder.runBind]
              dsimp only [Sum.elim_inl, run]
              cases LinkedNode.read.run rest with
              | mk result rest => cases result <;> rfl
            · rfl

theorem step_goes {state after : NodeState} (goes : state.step = .inl after) :
    after.source.bytes.length + 2 ≤ state.source.bytes.length := by
  unfold step at goes
  split at goes
  · cases goes
  · rename_i value
    split at goes
    · cases goes
    · rename_i index
      split at goes
      · cases goes
      · split at goes
        · cases goes
          have := readInt_consumes value
          have := decodeInt_consumes index
          dsimp only
          omega
        · cases goes

theorem visits_read (source : Source) :
    ∃ states, Visits step ⟨[], source⟩ states (LinkedNode.read.run source) := by
  obtain ⟨states, outcome, visits⟩ :=
    Visits.exists_of_weight step (fun state => state.source.bytes.length)
      (fun goes => Nat.lt_of_succ_le (Nat.le_of_succ_le (step_goes goes))) ⟨[], source⟩
  have read : run ⟨[], source⟩ = LinkedNode.read.run source := by
    unfold run
    cases LinkedNode.read.run source with
    | mk result rest => cases result <;> rfl
  rw [visits.outcome_eq run run_step, read] at visits
  exact ⟨states, visits⟩

theorem length_le {source : Source} {states : List NodeState} {outcome : Except Fault LinkedNode × Source}
    (visits : Visits step ⟨[], source⟩ states outcome) :
    states.length ≤ source.bytes.length / 2 + 1 := by
  have few := visits.countP_le (fun _ => True) (fun state => state.source.bytes.length / 2 + 1)
    (fun goes => by have := step_goes goes; omega) (fun _ _ => Nat.succ_pos _)
  simpa using few

end NodeState

theorem LinkedNode.two_mul_length_values_le (node : LinkedNode) :
    2 * node.values.length ≤ node.bytes.length := by
  have value (n : Int64) : 0 < (intBytes n).length := groups_length_pos _
  induction node with
  | last n =>
    have := value n.toInt64
    have := value 0
    simp only [values, bytes, List.length_append, List.length_singleton]
    omega
  | link n next ih =>
    have := value n.toInt64
    have := value 1
    simp only [values, bytes, List.length_append, List.length_cons]
    omega

/-- Decoding is bounded by the bytes of the input and the limit on items, whatever they say. -/
theorem decoding_is_bounded :
    (∀ (μ : Type) (reader : ItemReader μ) (memory : μ) (source : Source),
      (∃ states outcome, Visits (BlockState.step reader) (.start memory source) states outcome) ∧
      ∀ states outcome, Visits (BlockState.step reader) (.start memory source) states outcome →
        states.countP (fun state => state.pending ≠ 0) ≤ maxItems ∧
        states.length ≤ maxItems + (source.bytes.length + 1) ∧
        states.Pairwise BlockState.Spends ∧ ∀ state ∈ states, state.Ends outcome) ∧
    (∀ (α : Type) (item : Decoder α) (source : Source), ∃ states outcome,
      Visits (BlockState.step (.keeping item)) (.start [] source) states outcome ∧
      (readBlocks item).run source = (outcome.result.map fun _ => outcome.memory, outcome.rest)) ∧
    ∀ source : Source,
      (∃ states, Visits NodeState.step ⟨[], source⟩ states (LinkedNode.read.run source) ∧
        states.length ≤ source.bytes.length / 2 + 1 ∧
        states.IsChain fun node next => next.source.bytes.length + 2 ≤ node.source.bytes.length) ∧
      ∀ node rest, LinkedNode.read.run source = (.ok node, rest) →
        2 * node.values.length + rest.bytes.length ≤ source.bytes.length := by
  refine ⟨fun μ reader memory source => ⟨BlockState.exists_visits reader memory source, ?_⟩,
    fun α item source => BlockState.visits_readBlocks item source,
    fun source => ⟨?_, fun node rest read => ?_⟩⟩
  · intro states outcome visits
    exact ⟨BlockState.calls_le visits, BlockState.length_le visits, BlockState.pairwise_spends visits,
      BlockState.forall_ends visits⟩
  · obtain ⟨states, visits⟩ := NodeState.visits_read source
    exact ⟨states, visits, NodeState.length_le visits, visits.isChain.imp fun _ _ => NodeState.step_goes⟩
  · have spent := LinkedNode.read_spends read
    have nodes := node.two_mul_length_values_le
    omega

end AvroCompiler.Wire

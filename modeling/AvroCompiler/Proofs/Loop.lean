import Mathlib.Data.List.Chain
import Mathlib.Order.WellFounded

namespace AvroCompiler

variable {σ ω : Type}

/-- A loop that starts in a state passes through the states in this order and ends with the outcome. -/
inductive Visits (step : σ → σ ⊕ ω) : σ → List σ → ω → Prop
  | last {state : σ} {outcome : ω} (stops : step state = .inr outcome) :
      Visits step state [state] outcome
  | next {state after : σ} {states : List σ} {outcome : ω} (goes : step state = .inl after)
      (rest : Visits step after states outcome) : Visits step state (state :: states) outcome

namespace Visits

variable {step : σ → σ ⊕ ω} {start : σ} {states : List σ} {outcome : ω}

/-- A loop whose steps lower a weight ends. -/
theorem exists_of_weight {μ : Type} [LT μ] [WellFoundedLT μ] (step : σ → σ ⊕ ω) (weight : σ → μ)
    (lowers : ∀ {state after}, step state = .inl after → weight after < weight state) (start : σ) :
    ∃ states outcome, Visits step start states outcome := by
  induction start using (InvImage.wf weight wellFounded_lt).induction with
  | h state ih =>
    cases taken : step state with
    | inl after =>
      obtain ⟨states, outcome, rest⟩ := ih after (lowers taken)
      exact ⟨state :: states, outcome, .next taken rest⟩
    | inr outcome => exact ⟨[state], outcome, .last taken⟩

/-- What the loop ends with is what a function gives that does as the first step says. -/
theorem outcome_eq (visits : Visits step start states outcome) (run : σ → ω)
    (first : ∀ state, run state = (step state).elim run id) : outcome = run start := by
  induction visits with
  | last stopped => rw [first, stopped, Sum.elim_inr, id]
  | next gone _ ih => rw [first, gone, Sum.elim_inl, ih]

theorem forall_mem (visits : Visits step start states outcome) {holds : σ → Prop}
    (keeps : ∀ {state after}, step state = .inl after → holds state → holds after)
    (first : holds start) : ∀ state ∈ states, holds state := by
  induction visits with
  | last => simpa using first
  | next gone _ ih => exact List.forall_mem_cons.mpr ⟨first, ih (keeps gone first)⟩

/-- Every step from a counted state spends from a budget that no step adds to. -/
theorem countP_le (visits : Visits step start states outcome) (counted : σ → Prop)
    [DecidablePred counted] (budget : σ → Nat)
    (goes : ∀ {state after}, step state = .inl after →
      budget after ≤ budget state ∧ (counted state → budget after < budget state))
    (stops : ∀ {state outcome}, step state = .inr outcome → counted state → 0 < budget state) :
    states.countP (counted ·) ≤ budget start := by
  induction visits with
  | @last state _ stopped =>
    rw [List.countP_singleton]
    by_cases here : counted state
    · rw [if_pos (decide_eq_true here)]
      exact stops stopped here
    · rw [if_neg (by simpa using here)]
      exact Nat.zero_le _
  | @next state after states _ gone _ ih =>
    obtain ⟨le, spends⟩ := goes gone
    rw [List.countP_cons]
    by_cases here : counted state
    · rw [if_pos (decide_eq_true here)]
      exact Nat.succ_le_of_lt (Nat.lt_of_le_of_lt ih (spends here))
    · rw [if_neg (by simpa using here)]
      exact Nat.le_trans ih le

theorem isChain (visits : Visits step start states outcome) :
    states.IsChain fun state after => step state = .inl after := by
  induction visits with
  | last => exact .singleton _
  | next gone rest ih => cases rest <;> exact .cons_cons gone ih

theorem pairwise (visits : Visits step start states outcome) {related : σ → σ → Prop}
    (near : ∀ {state after}, step state = .inl after → related state after)
    (far : ∀ {state after late}, step state = .inl after → related after late → related state late) :
    states.Pairwise related := by
  -- With the state in front of the first one, since `far` goes back one step at a time.
  suffices states.Pairwise related ∧
      ∀ {before}, step before = .inl start → ∀ late ∈ states, related before late from this.1
  induction visits with
  | last =>
    exact ⟨List.pairwise_singleton _ _, fun gone late mem => List.mem_singleton.mp mem ▸ near gone⟩
  | next gone _ ih =>
    obtain ⟨ordered, later⟩ := ih
    refine ⟨List.pairwise_cons.mpr ⟨later gone, ordered⟩, fun gone' => ?_⟩
    exact List.forall_mem_cons.mpr ⟨near gone', fun late mem => far gone' (later gone late mem)⟩

theorem forall_outcome (visits : Visits step start states outcome) {related : σ → ω → Prop}
    (stops : ∀ {state outcome}, step state = .inr outcome → related state outcome)
    (goes : ∀ {state after outcome}, step state = .inl after → related after outcome →
      related state outcome) :
    ∀ state ∈ states, related state outcome := by
  suffices related start outcome ∧ ∀ state ∈ states, related state outcome from this.2
  induction visits with
  | last stopped =>
    have holds := stops stopped
    exact ⟨holds, by simpa using holds⟩
  | next gone _ ih =>
    have holds := goes gone ih.1
    exact ⟨holds, List.forall_mem_cons.mpr ⟨holds, ih.2⟩⟩

end Visits

end AvroCompiler

import Scanipy.Library.Laws
import Scanipy.Services.Triage.SpecInference

/-! The wealth of a candidate below its floor does not grow on average, whatever its outcomes
depend on, so that the gate seldom accepts it at any look.
-/

namespace Scanipy.Services.Triage

open Library Scan.Provenance

/-- A label in `[0, 1]`. -/
abbrev Outcome := {label : ℚ // 0 ≤ label ∧ label ≤ 1}

/-- What a bet may be at most. -/
theorem predictableBet_mem (state : EProcessState)
    : 0 ≤ predictableBet state
      ∧ predictableBet state ≤ if state.piZero > 0 then betC / state.piZero else 0 := by
  have upper : (0 : ℚ) ≤ if state.piZero > 0 then betC / state.piZero else 0 := by
    split
    case isTrue positive => exact div_nonneg (by norm_num [betC]) positive.le
    case isFalse => exact le_rfl
  simp only [predictableBet]
  generalize (if state.piZero > 0 then betC / state.piZero else 0) = bound at upper ⊢
  split
  case isTrue => exact ⟨le_rfl, upper⟩
  case isFalse positive =>
    split
    case isTrue => exact ⟨upper, le_rfl⟩
    case isFalse below => exact ⟨not_lt.mp positive, not_lt.mp below⟩

/-- No outcome costs more than half of the wealth. Witness: the worst one is nought, and the bet is
at most half of what makes it cost all.
-/
theorem half_le_factor (state : EProcessState) (outcome : Outcome)
    : 1 / 2 ≤ 1 + predictableBet state * (outcome.val - state.piZero) := by
  obtain ⟨nonneg, bounded⟩ := predictableBet_mem state
  have atLeast : -(predictableBet state * state.piZero)
      ≤ predictableBet state * (outcome.val - state.piZero) := by
    have gained := mul_nonneg nonneg outcome.property.1
    linarith [mul_sub (predictableBet state) outcome.val state.piZero]
  have cost : predictableBet state * state.piZero ≤ 1 / 2 := by
    split at bounded
    case isTrue positive =>
      have scaled := mul_le_mul_of_nonneg_right bounded positive.le
      rwa [div_mul_cancel₀ _ positive.ne'] at scaled
    case isFalse absent =>
      rw [le_antisymm bounded nonneg, zero_mul]
      norm_num
  linarith

/-- The state that `update_e_process` returns. -/
def EProcessState.updated (state : EProcessState) (outcome : Outcome) : EProcessState :=
  { state with
    wealth := state.wealth * (1 + predictableBet state * (outcome.val - state.piZero))
    nObservations := state.nObservations + 1
    sumOutcomes := state.sumOutcomes + outcome.val
    lastBetState :=
      [(Python.py "last_lambda", predictableBet state), (Python.py "last_outcome", outcome.val)] }

/-- No label is refused. -/
theorem updateEProcess_ok (state : EProcessState) (outcome : Outcome)
    : updateEProcess state outcome.val = .ok (state.updated outcome) := by
  have defined : -1 < predictableBet state * (outcome.val - state.piZero) := by
    have factor := half_le_factor state outcome
    linarith
  simp only [updateEProcess, demand, if_pos outcome.property, if_pos defined]
  rfl

/-- The state of a candidate after a sequence of outcomes. -/
def stateAfter (spec : CandidateSpec) (outcomes : List Outcome) : EProcessState :=
  outcomes.foldl EProcessState.updated (initialState spec)

/-- The calls of `update_e_process` with a sequence of outcomes, one after another. -/
def updates (state : EProcessState) (outcomes : List Outcome) : Except GateError EProcessState :=
  outcomes.foldlM (fun state outcome => updateEProcess state outcome.val) state

theorem updates_eq_ok (state : EProcessState) (outcomes : List Outcome)
    : updates state outcomes = .ok (outcomes.foldl EProcessState.updated state) := by
  unfold updates
  induction outcomes generalizing state with
  | nil => rfl
  | cons outcome outcomes ih =>
      rw [List.foldlM_cons, updateEProcess_ok, List.foldl_cons, ← ih]
      rfl

theorem stateAfter_concat (spec : CandidateSpec) (outcomes : List Outcome) (outcome : Outcome)
    : stateAfter spec (outcomes ++ [outcome]) = (stateAfter spec outcomes).updated outcome := by
  rw [stateAfter, List.foldl_append]
  rfl

/-- The floor and the level of a candidate stay, and its wealth stays positive, by induction on
the outcomes.
-/
theorem stateAfter_facts (spec : CandidateSpec) (outcomes : List Outcome)
    : (stateAfter spec outcomes).piZero = spec.piZero
      ∧ (stateAfter spec outcomes).alpha = spec.alpha
      ∧ 0 < (stateAfter spec outcomes).wealth := by
  induction outcomes using List.reverseRecOn with
  | nil => exact ⟨rfl, rfl, by norm_num [stateAfter, initialState]⟩
  | append_singleton outcomes outcome ih =>
      obtain ⟨floor, level, positive⟩ := ih
      rw [stateAfter_concat]
      refine ⟨floor, level, mul_pos positive ?_⟩
      exact lt_of_lt_of_le (by norm_num) (half_le_factor _ outcome)

/-- An outcome multiplies the wealth by its factor. -/
theorem wealth_concat (spec : CandidateSpec) (outcomes : List Outcome) (outcome : Outcome)
    : (stateAfter spec (outcomes ++ [outcome])).wealth
      = (stateAfter spec outcomes).wealth
        * (1 + predictableBet (stateAfter spec outcomes) * (outcome.val - spec.piZero)) := by
  rw [stateAfter_concat, EProcessState.updated, (stateAfter_facts spec outcomes).1]

variable {stores : Stores}

/-- Whether `evaluate_proposed_spec` returns that a candidate is accepted. -/
def Accepts (spec : CandidateSpec) (state : EProcessState) (call : Call) (ports : Ports stores)
    : Bool :=
  match evaluateProposedSpec spec state call ports with
  | .ok (verdict, _) => verdict.decision = .accepted
  | .error _ => false

variable {spec : CandidateSpec} {state : EProcessState} {call : Call}

/-- An accepted candidate has reached its threshold. -/
theorem threshold_le_of_accepts {ports : Ports stores}
    (accepts : Accepts spec state call ports = true)
    : 1 / state.alpha ≤ state.eValue := by
  rw [Accepts, evaluateProposedSpec, EProcessState.threshold] at accepts
  by_cases zero : state.alpha = 0
  · rw [if_pos zero] at accepts
    cases accepts
  · rw [if_neg zero, ok_bind] at accepts
    by_contra below
    rw [if_pos (not_le.mp below)] at accepts
    cases accepts

/-- A candidate that has reached its threshold is accepted when no ports are given. -/
theorem accepts_of_threshold_le (level : state.alpha ≠ 0) (reached : 1 / state.alpha ≤ state.eValue)
    : Accepts spec state call ({} : Ports stores) = true := by
  rw [Accepts, evaluateProposedSpec, EProcessState.threshold, if_neg level, ok_bind,
    if_neg (not_lt.mpr reached)]
  rfl

section Processes

variable {K : Type} [Field K] [LinearOrder K] [IsStrictOrderedRing K]

/-- A process of outcomes, each drawn by a law that may depend on all earlier ones, whose mean
given these is never above a floor.
-/
structure BelowFloor (K : Type) [Field K] [LinearOrder K] (piZero : ℚ) where
  next : List Outcome → Law K Outcome
  mean_le : ∀ history, (next history).expect (fun outcome => (outcome.val : K)) ≤ piZero

/-- The wealth of a candidate after a sequence of outcomes, in the numbers of the weights. -/
def wealthAfter (K : Type) [Field K] (spec : CandidateSpec) (outcomes : List Outcome) : K :=
  (stateAfter spec outcomes).wealth

/-- The wealth does not grow on average from any state. Witness: the bet is fixed by the past, so
that the mean of the factor is at most the factor of the mean.
-/
theorem wealth_lowers (spec : CandidateSpec) (process : BelowFloor K spec.piZero)
    (history : List Outcome)
    : (process.next history).expect (fun outcome => wealthAfter K spec (history ++ [outcome]))
      ≤ wealthAfter K spec history := by
  have positive := (stateAfter_facts spec history).2.2
  generalize same : stateAfter spec history = state at positive
  have stake : (0 : K) ≤ (state.wealth * predictableBet state : ℚ) :=
    Rat.cast_nonneg.mpr (mul_nonneg positive.le (predictableBet_mem state).1)
  have step : ∀ outcome : Outcome, wealthAfter K spec (history ++ [outcome])
      = (state.wealth * predictableBet state : ℚ) * (outcome.val : K)
        + (state.wealth - state.wealth * predictableBet state * spec.piZero : ℚ) := by
    intro outcome
    rw [wealthAfter, wealth_concat, same]
    push_cast
    ring
  simp only [step, Law.expect_add, Law.expect_mul, Law.expect_const]
  have mean := mul_le_mul_of_nonneg_left (process.mean_le history) stake
  rw [wealthAfter, same]
  push_cast at mean ⊢
  linarith

/-- The gate is valid at any time: updates refuse no outcome; stopping a candidate below its floor
by any rule leaves an expected wealth of at most one; and the gate accepts it at some look, whatever
ports each look is given, with a probability of at most its level.
-/
theorem gate_anytime_valid (spec : CandidateSpec) (positive : 0 < spec.alpha)
    (process : BelowFloor K spec.piZero) (horizon : Nat)
    (call : List Outcome → Call) (ports : List Outcome → Ports stores)
    : (∀ outcomes, updates (initialState spec) outcomes = .ok (stateAfter spec outcomes))
      ∧ (∀ stopping : StoppingTime Outcome horizon,
        (paths process.next horizon []).expect
          (fun outcomes => wealthAfter K spec (stopping.seen outcomes)) ≤ 1)
      ∧ (paths process.next horizon []).prob (fun outcomes =>
        ∃ look ≤ horizon, Accepts spec (stateAfter spec (outcomes.take look))
          (call (outcomes.take look)) (ports (outcomes.take look)) = true) ≤ spec.alpha := by
  have sinks := sinks_paths (wealth_lowers spec process) horizon
  have start : wealthAfter K spec [] = 1 := by simp [wealthAfter, stateAfter, initialState]
  refine ⟨updates_eq_ok _, fun stopping => ?_, ?_⟩
  · have lengths : ∀ run, (paths process.next horizon []).Gives run → run.length = horizon :=
      fun run given => by simpa using (of_gives_paths given).1
    exact (sinks.expect_seen_le lengths stopping).trans_eq start
  · have level : (0 : K) < spec.alpha := Rat.cast_pos.mpr positive
    have reach : (paths process.next horizon []).prob (fun outcomes =>
        ∃ look ≤ horizon, (spec.alpha : K)⁻¹ ≤ wealthAfter K spec (outcomes.take look))
          * (spec.alpha : K)⁻¹ ≤ 1 := by
      rw [← start]
      refine sinks.prob_reach_mul_le fun run _ time => ?_
      exact (Rat.cast_pos.mpr (stateAfter_facts spec _).2.2).le
    rw [← mul_inv_cancel₀ level.ne'] at reach
    refine le_trans (Law.prob_mono fun outcomes _ accepted => ?_)
      (le_of_mul_le_mul_right reach (inv_pos.mpr level))
    obtain ⟨look, early, accepts⟩ := accepted
    have reached := threshold_le_of_accepts accepts
    rw [(stateAfter_facts spec _).2.1, one_div] at reached
    refine ⟨look, early, ?_⟩
    rw [← Rat.cast_inv, wealthAfter]
    exact Rat.cast_le.mpr reached

/-- A fair coin between the labels nought and one. -/
def coin : Law ℚ Outcome where
  points := [(⟨0, by norm_num⟩, 1 / 2), (⟨1, by norm_num⟩, 1 / 2)]
  nonneg := by simp
  total := by norm_num

/-- A candidate with a floor of one half and the pinned level. -/
def evenSpec : CandidateSpec where
  id := 0
  orgId := 0
  specBody := []
  detectorClass := []
  piZero := 1 / 2

def evenProcess : BelowFloor ℚ evenSpec.piZero where
  next _ := coin
  mean_le _ := by norm_num [coin, Law.expect, evenSpec]

def plainCall : Call where
  kmsKeyArn := []
  envDigest := []
  scanId := none
  signatureAlg := .rsassaPssSha256
  decidedAt := none
  rowId := 0
  recordId := 0
  freshScanId := 0
  now := 0

theorem gate_anytime_valid_even
    : (paths evenProcess.next 9 []).prob (fun outcomes =>
        ∃ look ≤ (9 : Nat), Accepts evenSpec (stateAfter evenSpec (outcomes.take look)) plainCall
          ({} : Ports (tables (fun _ => none) mapStore)) = true) ≤ 1 / 20 := by
  have bound := (gate_anytime_valid evenSpec (by norm_num [evenSpec, defaultAlpha]) evenProcess 9
    (fun _ => plainCall) fun _ => ({} : Ports (tables (fun _ => none) mapStore))).2.2
  norm_num [evenSpec, defaultAlpha] at bound ⊢
  exact bound

end Processes

end Scanipy.Services.Triage

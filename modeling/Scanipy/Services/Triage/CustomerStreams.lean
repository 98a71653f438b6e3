import Scanipy.Services.Triage.AnytimeValidity

/-! The e-processes of a customer on a global spec: one for its revalidation and one for its drift,
over the same outcomes. The drift process is the revalidation process of the mirrored stream; a
quarantine is decided anew at every look.
-/

namespace Scanipy.Services.Triage

open Library Python Scan.Provenance

/-- `CustomerEvaluationStream`. -/
structure CustomerEvaluationStream where
  orgId : Uuid
  specVersionId : Uuid
  piZero : ℚ
  alpha : ℚ := defaultAlpha

/-- `CustomerEProcessState`, with the wealths in place of their logarithms. -/
structure CustomerEProcessState where
  orgId : Uuid
  specVersionId : Uuid
  piZero : ℚ
  alpha : ℚ := defaultAlpha
  wealthRevalidate : ℚ := 1
  wealthDrift : ℚ := 1
  nObservations : Nat := 0
  sumOutcomes : ℚ := 0
  deriving DecidableEq

/-- `initial_customer_state`. -/
def initialCustomerState (stream : CustomerEvaluationStream) : CustomerEProcessState where
  orgId := stream.orgId
  specVersionId := stream.specVersionId
  piZero := stream.piZero
  alpha := stream.alpha

inductive RevalidationDecision where
  | pending | revalidated | quarantined
  deriving DecidableEq, Repr

namespace CustomerEProcessState

/-- The view that `update_customer_e_process` takes of the revalidation process. -/
def revalidateView (state : CustomerEProcessState) : EProcessState where
  specId := state.specVersionId
  piZero := state.piZero
  alpha := state.alpha
  wealth := state.wealthRevalidate
  nObservations := state.nObservations
  sumOutcomes := state.sumOutcomes

/-- `_drift_view`. -/
def driftView (state : CustomerEProcessState) : EProcessState where
  specId := state.specVersionId
  piZero := 1 - state.piZero
  alpha := state.alpha
  wealth := state.wealthDrift
  nObservations := state.nObservations
  sumOutcomes := state.nObservations - state.sumOutcomes

/-- `threshold`. -/
def threshold (state : CustomerEProcessState) : Except GateError ℚ :=
  if state.alpha = 0 then .error .zeroDivision else .ok (1 / state.alpha)

/-- `_decide`. -/
def decision (state : CustomerEProcessState) : Except GateError RevalidationDecision := do
  let threshold ← state.threshold
  .ok (if threshold ≤ state.wealthDrift then .quarantined
    else if threshold ≤ state.wealthRevalidate then .revalidated
    else .pending)

end CustomerEProcessState

/-- `_predictable_drift_bet`. -/
def predictableDriftBet (state : CustomerEProcessState) : ℚ :=
  predictableBet state.driftView

/-- `update_customer_e_process`. -/
def updateCustomerEProcess (state : CustomerEProcessState) (outcome : ℚ)
    : Except GateError CustomerEProcessState := do
  demand (0 ≤ outcome ∧ outcome ≤ 1) (.python (.valueError "outcome must be bounded in [0, 1]"))
  let revalNext ← updateEProcess state.revalidateView outcome
  let driftNext ← updateEProcess state.driftView (1 - outcome)
  .ok
    { state with
      wealthRevalidate := revalNext.wealth
      wealthDrift := driftNext.wealth
      nObservations := state.nObservations + 1
      sumOutcomes := state.sumOutcomes + outcome }

/-- `RevalidationResult`. -/
structure RevalidationResult where
  orgId : Uuid
  specVersionId : Uuid
  decision : RevalidationDecision
  eValueRevalidate : ℚ
  eValueDrift : ℚ

/-- A call of `SpecQuarantineStore`. -/
inductive Mark where
  | quarantined (orgId specVersionId : Uuid)
  | revalidated (orgId specVersionId : Uuid)
  deriving DecidableEq

/-- `revalidate_spec`, with the calls that it makes of a store that it is given. -/
def revalidateSpec (specVersionId customerId : Uuid) (state : CustomerEProcessState) (stored : Bool)
    : Except GateError (RevalidationResult × List Mark) := do
  let decision ← state.decision
  let marks :=
    match stored, decision with
    | true, .quarantined => [.quarantined customerId specVersionId]
    | true, .revalidated => [.revalidated customerId specVersionId]
    | _, _ => []
  .ok (⟨customerId, specVersionId, decision, state.wealthRevalidate, state.wealthDrift⟩, marks)

/-- `monitor_drift`, over the states of the organisation: the calls that it makes, and its results
unless one raises.
-/
def monitorDrift (customerId : Uuid) (stored : Bool)
    : List CustomerEProcessState → List Mark × Except GateError (List RevalidationResult)
  | [] => ([], .ok [])
  | state :: rest =>
      match revalidateSpec state.specVersionId customerId state stored with
      | .error raised => ([], .error raised)
      | .ok (result, marks) =>
          let (later, results) := monitorDrift customerId stored rest
          (marks ++ later, results.map (result :: ·))

/-- The calls of `update_customer_e_process` with a sequence of outcomes, one after another. -/
def customerUpdates (state : CustomerEProcessState) (outcomes : List Outcome)
    : Except GateError CustomerEProcessState :=
  outcomes.foldlM (fun state outcome => updateCustomerEProcess state outcome.val) state

/-- The outcome `1 - X`. -/
def Outcome.mirror (outcome : Outcome) : Outcome :=
  ⟨1 - outcome.val, by
    obtain ⟨low, high⟩ := outcome.property
    constructor <;> linarith⟩

/-- The stream with the floor `1 - pi_0`. -/
def CustomerEvaluationStream.mirror (stream : CustomerEvaluationStream)
    : CustomerEvaluationStream :=
  { stream with piZero := 1 - stream.piZero }

namespace CustomerEProcessState

/-- What multiplies the wealth of the revalidation. -/
def revalidateFactor (state : CustomerEProcessState) (outcome : Outcome) : ℚ :=
  1 + predictableBet state.revalidateView * (outcome.val - state.piZero)

/-- What multiplies the wealth of the drift. -/
def driftFactor (state : CustomerEProcessState) (outcome : Outcome) : ℚ :=
  1 + predictableDriftBet state * (outcome.mirror.val - (1 - state.piZero))

/-- The state that `update_customer_e_process` returns. -/
def updated (state : CustomerEProcessState) (outcome : Outcome) : CustomerEProcessState :=
  { state with
    wealthRevalidate := state.wealthRevalidate * state.revalidateFactor outcome
    wealthDrift := state.wealthDrift * state.driftFactor outcome
    nObservations := state.nObservations + 1
    sumOutcomes := state.sumOutcomes + outcome.val }

theorem driftFactor_eq (state : CustomerEProcessState) (outcome : Outcome)
    : state.driftFactor outcome
      = 1 - predictableDriftBet state * (outcome.val - state.piZero) := by
  rw [driftFactor, Outcome.mirror]
  ring

end CustomerEProcessState

/-- No label is refused: neither process refuses it. -/
theorem updateCustomerEProcess_eq_ok (state : CustomerEProcessState) (outcome : Outcome)
    : updateCustomerEProcess state outcome.val = .ok (state.updated outcome) := by
  have drift := updateEProcess_ok state.driftView outcome.mirror
  rw [Outcome.mirror] at drift
  simp only [updateCustomerEProcess, demand, if_pos outcome.property, updateEProcess_ok, drift]
  rfl

/-- The state of a stream after a sequence of outcomes. -/
def customerStateAfter (stream : CustomerEvaluationStream) (outcomes : List Outcome)
    : CustomerEProcessState :=
  outcomes.foldl CustomerEProcessState.updated (initialCustomerState stream)

theorem customerUpdates_eq_ok (state : CustomerEProcessState) (outcomes : List Outcome)
    : customerUpdates state outcomes
      = .ok (outcomes.foldl CustomerEProcessState.updated state) := by
  unfold customerUpdates
  induction outcomes generalizing state with
  | nil => rfl
  | cons outcome outcomes ih =>
      rw [List.foldlM_cons, updateCustomerEProcess_eq_ok, List.foldl_cons, ← ih]
      rfl

theorem customerStateAfter_concat (stream : CustomerEvaluationStream) (outcomes : List Outcome)
    (outcome : Outcome)
    : customerStateAfter stream (outcomes ++ [outcome])
      = (customerStateAfter stream outcomes).updated outcome := by
  rw [customerStateAfter, List.foldl_append]
  rfl

/-- The floor and the level of a stream stay, by induction on the outcomes. -/
theorem customerStateAfter_facts (stream : CustomerEvaluationStream) (outcomes : List Outcome)
    : (customerStateAfter stream outcomes).piZero = stream.piZero
      ∧ (customerStateAfter stream outcomes).alpha = stream.alpha
      ∧ (customerStateAfter stream outcomes).specVersionId = stream.specVersionId
      ∧ (customerStateAfter stream outcomes).nObservations = outcomes.length := by
  induction outcomes using List.reverseRecOn with
  | nil => exact ⟨rfl, rfl, rfl, rfl⟩
  | append_singleton outcomes outcome ih =>
      obtain ⟨floor, level, version, count⟩ := ih
      rw [customerStateAfter_concat]
      refine ⟨floor, level, version, ?_⟩
      rw [List.length_append, ← count]
      rfl

/-- The drift view of a stream is the revalidation view of the mirrored stream, by induction on the
outcomes.
-/
theorem driftView_mirror (stream : CustomerEvaluationStream) (outcomes : List Outcome)
    : (customerStateAfter stream outcomes).driftView
      = (customerStateAfter stream.mirror (outcomes.map Outcome.mirror)).revalidateView := by
  induction outcomes using List.reverseRecOn with
  | nil =>
      have nothing : ((0 : Nat) : ℚ) - 0 = 0 := by norm_num
      simp only [customerStateAfter, List.map_nil, List.foldl_nil, initialCustomerState,
        CustomerEProcessState.driftView, CustomerEProcessState.revalidateView,
        CustomerEvaluationStream.mirror, nothing]
  | append_singleton outcomes outcome ih =>
      rw [List.map_append, List.map_singleton, customerStateAfter_concat, customerStateAfter_concat]
      generalize customerStateAfter stream outcomes = state at ih ⊢
      generalize customerStateAfter stream.mirror _ = mirrored at ih ⊢
      have bet : predictableDriftBet state = predictableBet mirrored.revalidateView := by
        rw [predictableDriftBet, ih]
      simp only [CustomerEProcessState.driftView, CustomerEProcessState.revalidateView,
        EProcessState.mk.injEq] at ih
      obtain ⟨version, floor, level, wealth, count, sum, _⟩ := ih
      simp only [CustomerEProcessState.driftView, CustomerEProcessState.revalidateView,
        CustomerEProcessState.updated, CustomerEProcessState.driftFactor,
        CustomerEProcessState.revalidateFactor, bet, floor, wealth, count, version, level,
        EProcessState.mk.injEq, true_and, and_true]
      rw [← sum, ← count, Outcome.mirror]
      push_cast
      ring

/-- No outcome costs either process more than half of its wealth. -/
theorem half_le_factors (state : CustomerEProcessState) (outcome : Outcome)
    : 1 / 2 ≤ state.revalidateFactor outcome ∧ 1 / 2 ≤ state.driftFactor outcome :=
  ⟨half_le_factor state.revalidateView outcome, half_le_factor state.driftView outcome.mirror⟩

/-- A bet is nought when the mean does not exceed the floor. -/
theorem predictableBet_eq_zero {state : EProcessState} (below : state.meanEstimate ≤ state.piZero)
    : predictableBet state = 0 := by
  have raw : betKappa * (state.meanEstimate - state.piZero) ≤ 0 :=
    mul_nonpos_of_nonneg_of_nonpos (by norm_num [betKappa]) (sub_nonpos.mpr below)
  have bound : (0 : ℚ) ≤ if state.piZero > 0 then betC / state.piZero else 0 := by
    split
    case isTrue positive => exact div_nonneg (by norm_num [betC]) positive.le
    case isFalse => exact le_rfl
  simp only [predictableBet]
  rcases raw.lt_or_eq with negative | zero
  · rw [if_pos negative]
  · rw [if_neg zero.not_lt, zero, if_neg bound.not_gt]

/-- After an outcome the mean is not on both sides of the floor, so one of the bets is nought. -/
theorem one_bet (state : CustomerEProcessState) (observed : state.nObservations ≠ 0)
    : predictableBet state.revalidateView = 0 ∨ predictableDriftBet state = 0 := by
  have count : (state.nObservations : ℚ) ≠ 0 := Nat.cast_ne_zero.mpr observed
  have drift : state.driftView.meanEstimate
      = (state.nObservations - state.sumOutcomes) / state.nObservations :=
    if_neg observed
  have revalidate : state.revalidateView.meanEstimate = state.sumOutcomes / state.nObservations :=
    if_neg observed
  have mean : state.driftView.meanEstimate = 1 - state.revalidateView.meanEstimate := by
    rw [drift, revalidate, sub_div, div_self count]
  rcases le_total state.revalidateView.meanEstimate state.piZero with below | above
  · exact .inl (predictableBet_eq_zero below)
  · refine .inr (predictableBet_eq_zero ?_)
    rw [mean]
    exact sub_le_sub_left above 1

/-- The drift process of a stream is the revalidation process of the mirrored stream: both streams
are folded without an error, the wealths agree at the end of every sequence of outcomes, each
further outcome multiplies both wealths of a state by a half at least, and after the first outcome
one of the two bets is nought. Witness: the views agree, which holds the floor, the wealth, the
count and the sum.
-/
theorem drift_mirrors_revalidation (stream : CustomerEvaluationStream) (outcomes : List Outcome)
    : ∃ state mirrored,
        customerUpdates (initialCustomerState stream) outcomes = .ok state
        ∧ customerUpdates (initialCustomerState stream.mirror) (outcomes.map Outcome.mirror)
          = .ok mirrored
        ∧ state.wealthDrift = mirrored.wealthRevalidate
        ∧ (∀ outcome : Outcome, ∃ next, updateCustomerEProcess state outcome.val = .ok next
          ∧ next.wealthRevalidate = state.wealthRevalidate
            * (1 + predictableBet state.revalidateView * (outcome.val - stream.piZero))
          ∧ 1 / 2 ≤ 1 + predictableBet state.revalidateView * (outcome.val - stream.piZero)
          ∧ next.wealthDrift = state.wealthDrift
            * (1 + predictableDriftBet state * (stream.piZero - outcome.val))
          ∧ 1 / 2 ≤ 1 + predictableDriftBet state * (stream.piZero - outcome.val))
        ∧ (outcomes ≠ []
          → predictableBet state.revalidateView = 0 ∨ predictableDriftBet state = 0) := by
  refine ⟨_, _, customerUpdates_eq_ok _ outcomes, customerUpdates_eq_ok _ _,
    congrArg EProcessState.wealth (driftView_mirror stream outcomes), ?_, ?_⟩
  · intro outcome
    obtain ⟨floor, _⟩ := customerStateAfter_facts stream outcomes
    obtain ⟨revalidate, drift⟩ := half_le_factors (customerStateAfter stream outcomes) outcome
    have turned (bet : ℚ)
        : 1 + bet * (outcome.mirror.val - (1 - stream.piZero))
          = 1 + bet * (stream.piZero - outcome.val) := by
      rw [Outcome.mirror]
      ring
    rw [CustomerEProcessState.revalidateFactor, floor] at revalidate
    rw [CustomerEProcessState.driftFactor, floor, turned] at drift
    refine ⟨_, updateCustomerEProcess_eq_ok _ outcome, ?_, revalidate, ?_, drift⟩
    · rw [← floor]
      rfl
    · rw [← turned, ← floor]
      rfl
  · intro observed
    refine one_bet _ ?_
    rw [← customerStateAfter, (customerStateAfter_facts stream outcomes).2.2.2]
    exact fun none => observed (List.eq_nil_of_length_eq_zero none)

/-- The look of `_decide` at a state quarantines. -/
def CustomerEProcessState.Quarantined (state : CustomerEProcessState) : Prop :=
  state.decision = .ok .quarantined

/-- What the drift bet loses on an outcome is at most what the wealth is above the threshold. -/
def CustomerEProcessState.Retains (state : CustomerEProcessState) (outcome : Outcome) : Prop :=
  predictableDriftBet state * (outcome.val - state.piZero) * state.wealthDrift
    ≤ state.wealthDrift - 1 / state.alpha

theorem quarantined_iff (state : CustomerEProcessState)
    : state.Quarantined ↔ state.alpha ≠ 0 ∧ 1 / state.alpha ≤ state.wealthDrift := by
  simp only [CustomerEProcessState.Quarantined, CustomerEProcessState.decision,
    CustomerEProcessState.threshold]
  by_cases level : state.alpha = 0
  · rw [if_pos level]
    exact ⟨fun raised => (by cases raised), fun valid => absurd level valid.1⟩
  · rw [if_neg level]
    by_cases crossed : 1 / state.alpha ≤ state.wealthDrift
    · exact ⟨fun _ => ⟨level, crossed⟩, fun _ => congrArg Except.ok (if_pos crossed)⟩
    · refine ⟨fun decided => ?_, fun valid => absurd valid.2 crossed⟩
      have other : (if 1 / state.alpha ≤ state.wealthDrift then RevalidationDecision.quarantined
          else if 1 / state.alpha ≤ state.wealthRevalidate then .revalidated else .pending)
          = .quarantined := Except.ok.inj decided
      rw [if_neg crossed] at other
      split at other <;> cases other

/-- A quarantine outlasts an outcome exactly when the drift bet does not lose too much on it. -/
theorem quarantined_updated {state : CustomerEProcessState} (quarantined : state.Quarantined)
    (outcome : Outcome)
    : (state.updated outcome).Quarantined ↔ state.Retains outcome := by
  have level := ((quarantined_iff state).mp quarantined).1
  have wealth : (state.updated outcome).wealthDrift
      = state.wealthDrift
        - predictableDriftBet state * (outcome.val - state.piZero) * state.wealthDrift := by
    rw [CustomerEProcessState.updated, CustomerEProcessState.driftFactor_eq]
    ring
  rw [quarantined_iff, wealth, CustomerEProcessState.Retains]
  refine ⟨fun kept => le_sub_comm.mp kept.2, fun kept => ⟨level, le_sub_comm.mp kept⟩⟩

/-- The state at a position of a stream. -/
def customerStateAt (stream : CustomerEvaluationStream) (outcomes : List Outcome) (place : Nat)
    : CustomerEProcessState :=
  customerStateAfter stream (outcomes.take place)

theorem customerStateAt_succ (stream : CustomerEvaluationStream) {outcomes : List Outcome}
    {place : Nat} (below : place < outcomes.length)
    : customerStateAt stream outcomes (place + 1)
      = (customerStateAt stream outcomes place).updated outcomes[place] := by
  rw [customerStateAt, customerStateAt, ← customerStateAfter_concat,
    List.take_append_getElem below]

/-- A quarantine stays at the end of a stretch that retains it, by induction on the stretch. -/
theorem quarantined_stays (stream : CustomerEvaluationStream) {outcomes : List Outcome}
    (retained : ∀ place, (below : place < outcomes.length)
      → (customerStateAt stream outcomes place).Quarantined
      → (customerStateAt stream outcomes place).Retains outcomes[place])
    {first last : Nat} (order : first ≤ last) (within : last ≤ outcomes.length)
    (quarantined : (customerStateAt stream outcomes first).Quarantined)
    : (customerStateAt stream outcomes last).Quarantined := by
  induction last, order using Nat.le_induction with
  | base => exact quarantined
  | succ last _ ih =>
      have now := ih (Nat.le_of_succ_le within)
      rw [customerStateAt_succ stream within]
      exact (quarantined_updated now _).mpr (retained last within now)

/-- The mark of a sweep is that of the decision on one of its states, by induction on them. -/
theorem mem_monitorDrift {customerId : Uuid} {stored : Bool} {states : List CustomerEProcessState}
    {mark : Mark} (marked : mark ∈ (monitorDrift customerId stored states).1)
    : ∃ state ∈ states,
        state.Quarantined ∧ mark = .quarantined customerId state.specVersionId
        ∨ state.decision = .ok .revalidated ∧ mark = .revalidated customerId state.specVersionId := by
  induction states with
  | nil => cases marked
  | cons state rest ih =>
      rw [monitorDrift, revalidateSpec] at marked
      cases decided : state.decision with
      | error raised =>
          rw [decided] at marked
          cases marked
      | ok decision =>
          rw [decided] at marked
          rcases List.mem_append.mp marked with here | later
          · refine ⟨state, List.mem_cons_self, ?_⟩
            cases stored <;> cases decision <;> first | cases here; done | skip
            · exact .inr ⟨decided, List.mem_singleton.mp here⟩
            · exact .inl ⟨decided, List.mem_singleton.mp here⟩
          · obtain ⟨other, among, cause⟩ := ih later
            exact ⟨other, List.mem_cons_of_mem _ among, cause⟩

/-- A sweep at a position of a stream, with the states of the organisation at that time. -/
structure Sweep (stream : CustomerEvaluationStream) (outcomes : List Outcome) where
  place : Nat
  stored : Bool
  states : List CustomerEProcessState
  within : place ≤ outcomes.length
  current : ∀ state ∈ states, state.specVersionId = stream.specVersionId
    → state = customerStateAt stream outcomes place

/-- The calls that sweeps make of the store. -/
def Sweep.marks {stream : CustomerEvaluationStream} {outcomes : List Outcome}
    (sweeps : List (Sweep stream outcomes)) : List Mark :=
  sweeps.flatMap fun sweep => (monitorDrift stream.orgId sweep.stored sweep.states).1

/-- A quarantine stays along a stream exactly when no outcome that arrives at a quarantined state
costs the drift wealth more than its margin over the threshold; then no sweep marks the spec as
revalidated after one that marks it as quarantined. Witness: the wealth after an outcome is the
wealth less what the bet loses.
-/
theorem quarantine_final_iff (stream : CustomerEvaluationStream) (outcomes : List Outcome)
    : ((∀ first last, first ≤ last → last ≤ outcomes.length
          → (customerStateAt stream outcomes first).Quarantined
          → (customerStateAt stream outcomes last).Quarantined)
        ↔ ∀ place, (below : place < outcomes.length)
          → (customerStateAt stream outcomes place).Quarantined
          → (customerStateAt stream outcomes place).Retains outcomes[place])
      ∧ ((∀ place, (below : place < outcomes.length)
          → (customerStateAt stream outcomes place).Quarantined
          → (customerStateAt stream outcomes place).Retains outcomes[place])
        → ∀ sweeps : List (Sweep stream outcomes),
          sweeps.Pairwise (fun early late => early.place ≤ late.place)
          → (Sweep.marks sweeps).Pairwise fun early late =>
            early = .quarantined stream.orgId stream.specVersionId
            → late ≠ .revalidated stream.orgId stream.specVersionId) := by
  refine ⟨⟨fun final place below quarantined => ?_,
    fun retained first last => quarantined_stays stream retained⟩, fun retained sweeps order => ?_⟩
  · have next := final place (place + 1) (Nat.le_succ place) below quarantined
    rw [customerStateAt_succ stream below] at next
    exact (quarantined_updated quarantined _).mp next
  · have apart (early late : Sweep stream outcomes) (before : early.place ≤ late.place)
        (mark : Mark) (marked : mark ∈ (monitorDrift stream.orgId early.stored early.states).1)
        (other : Mark) (later : other ∈ (monitorDrift stream.orgId late.stored late.states).1)
        : mark = .quarantined stream.orgId stream.specVersionId
          → other ≠ .revalidated stream.orgId stream.specVersionId := by
      rintro rfl rfl
      obtain ⟨state, among, ⟨quarantined, named⟩ | ⟨_, named⟩⟩ := mem_monitorDrift marked
      · obtain ⟨last, member, ⟨_, listed⟩ | ⟨revalidated, listed⟩⟩ := mem_monitorDrift later
        · cases listed
        · rw [early.current state among (Mark.quarantined.inj named).2.symm] at quarantined
          rw [late.current last member (Mark.revalidated.inj listed).2.symm] at revalidated
          have kept := quarantined_stays stream retained before late.within quarantined
          cases kept.symm.trans revalidated
      · cases named
    refine List.pairwise_flatMap.mpr ⟨fun sweep _ => ?_, order.imp fun before => apart _ _ before⟩
    exact List.pairwise_of_forall_mem_list fun mark marked other later =>
      apart sweep sweep le_rfl mark marked other later

theorem one_bounds : (0 : ℚ) ≤ 1 ∧ (1 : ℚ) ≤ 1 :=
  ⟨zero_le_one, le_rfl⟩

theorem zero_bounds : (0 : ℚ) ≤ 0 ∧ (0 : ℚ) ≤ 1 :=
  ⟨le_rfl, zero_le_one⟩

/-- The labels of a true and of a false positive. -/
def truePositive : Outcome :=
  ⟨1, one_bounds⟩

def falsePositive : Outcome :=
  ⟨0, zero_bounds⟩

/-- A stream that breaches its floor and recovers. -/
def recovery : List Outcome :=
  List.replicate 9 falsePositive ++ List.replicate 30 truePositive

/-- After nine false positives the spec is quarantined, and after thirty true ones it is
revalidated.
-/
theorem quarantine_lifted
    : ¬∀ (stream : CustomerEvaluationStream) (outcomes : List Outcome) (first last : Nat),
        first ≤ last → last ≤ outcomes.length
        → (customerStateAt stream outcomes first).decision = .ok .quarantined
        → (customerStateAt stream outcomes last).decision ≠ .ok .revalidated
          ∧ (customerStateAt stream outcomes last).decision ≠ .ok .pending := by
  intro claimed
  exact (claimed ⟨1, 2, 1 / 2, defaultAlpha⟩ recovery 9 39 (by decide) (by decide)
    (by decide +kernel)).1 (by decide +kernel)

end Scanipy.Services.Triage

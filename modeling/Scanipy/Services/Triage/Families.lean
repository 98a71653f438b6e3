import Mathlib.Tactic.FinCases
import Mathlib.Tactic.LinearCombination
import Scanipy.Services.Triage.AnytimeValidity

/-! Families of candidates that are updated and evaluated in any order. The gate compares each
candidate's own wealth with the threshold, so that the chance of accepting some candidate below its
floor is kept to the level for one candidate, and not for two.
-/

namespace Scanipy.Services.Triage

open Library Scan.Provenance

section Runs

variable {ι : Type} [DecidableEq ι] {stores : Stores}

/-- A step of a joint run: a candidate's outcome arrives, or the gate is consulted on it. -/
inductive Action (ι : Type) (stores : Stores) where
  | update (candidate : ι) (outcome : Outcome)
  | evaluate (candidate : ι) (call : Call) (ports : Ports stores)

/-- Whether some consultation accepts its candidate, from the states of the candidates on. -/
def acceptsSome (family : ι → CandidateSpec)
    : (ι → EProcessState) → List (Action ι stores) → Bool
  | _, [] => false
  | states, .update candidate outcome :: rest =>
      acceptsSome family
        (Function.update states candidate ((states candidate).updated outcome)) rest
  | states, .evaluate candidate call ports :: rest =>
      Accepts (family candidate) (states candidate) call ports || acceptsSome family states rest

/-- The outcomes of one candidate in a joint run. -/
def streamOf (candidate : ι) : List (Action ι stores) → List Outcome
  | [] => []
  | .update other outcome :: rest =>
      if other = candidate then outcome :: streamOf candidate rest else streamOf candidate rest
  | .evaluate _ _ _ :: rest => streamOf candidate rest

/-- By how much the outcome that follows a history exceeds a floor, if there is one. -/
def excess (K : Type) [Field K] (piZero : ℚ) (history outcomes : List Outcome) : K :=
  if outcomes.take history.length = history then
    match outcomes.drop history.length with
    | [] => 0
    | outcome :: _ => outcome.val - piZero
  else 0

/-- A law of joint runs in which the mean of each candidate's next outcome, given its outcomes so
far, is never above its floor, however the streams depend on each other.
-/
structure BelowFloors (K : Type) [Field K] [LinearOrder K] (family : ι → CandidateSpec)
    (stores : Stores) where
  runs : Law K (List (Action ι stores))
  mean_le : ∀ candidate history,
    runs.expect (fun run => excess K (family candidate).piZero history (streamOf candidate run)) ≤ 0

/-- The documented guarantee of a family's floors: at every level, whatever the streams are and in
whatever order they are updated and evaluated, some candidate is accepted with a probability of
at most the level.
-/
def FamilyGuarantee (K : Type) [Field K] [LinearOrder K] [IsStrictOrderedRing K]
    (floors : ι → ℚ) (stores : Stores) : Prop :=
  ∀ (family : ι → CandidateSpec) (alpha : ℚ), 0 < alpha → alpha < 1
    → (∀ candidate, (family candidate).piZero = floors candidate)
    → (∀ candidate, (family candidate).alpha = alpha)
    → ∀ process : BelowFloors K family stores,
      process.runs.prob (fun run =>
        acceptsSome family (fun candidate => initialState (family candidate)) run = true) ≤ alpha

end Runs

-- One candidate

section One

variable {ι : Type} [DecidableEq ι] {stores : Stores} {K : Type} [Field K] [LinearOrder K]
  [IsStrictOrderedRing K]

/-- What the wealth gains after a history is its stake times the excess of the next outcome. -/
theorem gain_wealthAfter (spec : CandidateSpec) (history outcomes : List Outcome)
    : gain (wealthAfter K spec) history outcomes
      = ((stateAfter spec history).wealth * predictableBet (stateAfter spec history) : ℚ)
        * excess K spec.piZero history outcomes := by
  rw [gain, excess]
  by_cases starts : outcomes.take history.length = history
  · rcases followed : outcomes.drop history.length with _ | ⟨outcome, rest⟩
    · have short := List.drop_eq_nil_iff.mp followed
      rw [if_neg fun both => absurd both.2 (not_lt.mpr short), if_pos starts, mul_zero]
    · have split := List.take_append_drop history.length outcomes
      rw [starts, followed] at split
      have further : outcomes.take (history.length + 1) = history ++ [outcome] := by
        rw [← split]
        simp [List.take_append]
      have longer : history.length < outcomes.length := by
        rw [← split]
        simp
      rw [if_pos ⟨starts, longer⟩, if_pos starts, further, wealthAfter, wealthAfter, wealth_concat]
      push_cast
      ring
  · rw [if_neg fun both => starts both.1, if_neg starts, mul_zero]

variable {family : ι → CandidateSpec}

/-- The wealth of each candidate gains nothing on average. -/
theorem BelowFloors.sinks (process : BelowFloors K family stores) (candidate : ι)
    : Sinks (process.runs.map (streamOf candidate)) (wealthAfter K (family candidate)) := by
  intro history
  have stake : (0 : K) ≤ ((stateAfter (family candidate) history).wealth
      * predictableBet (stateAfter (family candidate) history) : ℚ) :=
    Rat.cast_nonneg.mpr
      (mul_nonneg (stateAfter_facts _ history).2.2.le (predictableBet_mem _).1)
  simp only [Law.expect_map, gain_wealthAfter, Law.expect_mul]
  exact mul_nonpos_of_nonneg_of_nonpos stake (process.mean_le candidate history)

/-- An update is one more outcome of its candidate. -/
theorem update_stateAfter (family : ι → CandidateSpec) (seen : ι → List Outcome) (candidate : ι)
    (outcome : Outcome)
    : Function.update (fun candidate => stateAfter (family candidate) (seen candidate)) candidate
        ((stateAfter (family candidate) (seen candidate)).updated outcome)
      = fun other => stateAfter (family other)
        (Function.update seen candidate (seen candidate ++ [outcome]) other) := by
  funext other
  rcases eq_or_ne other candidate with rfl | different
  · rw [Function.update_self, Function.update_self, stateAfter_concat]
  · rw [Function.update_of_ne different, Function.update_of_ne different]

/-- A consultation that accepts a candidate sees a state that the candidate's outcomes lead to, by
induction on the run.
-/
theorem exists_of_acceptsSome {seen : ι → List Outcome} {run : List (Action ι stores)}
    (accepts : acceptsSome family (fun candidate => stateAfter (family candidate) (seen candidate))
      run = true)
    : ∃ candidate time,
        1 / (family candidate).alpha
        ≤ (stateAfter (family candidate)
            (seen candidate ++ (streamOf candidate run).take time)).wealth := by
  induction run generalizing seen with
  | nil => cases accepts
  | cons action rest ih =>
      cases action with
      | update candidate outcome =>
          rw [acceptsSome, update_stateAfter] at accepts
          obtain ⟨other, time, reached⟩ := ih accepts
          rcases eq_or_ne other candidate with rfl | different
          · refine ⟨other, time + 1, ?_⟩
            rw [Function.update_self, List.append_assoc] at reached
            rwa [streamOf, if_pos rfl, List.take_succ_cons]
          · refine ⟨other, time, ?_⟩
            rw [Function.update_of_ne different] at reached
            rwa [streamOf, if_neg different.symm]
      | evaluate candidate call ports =>
          rw [acceptsSome, Bool.or_eq_true] at accepts
          rcases accepts with now | later
          · refine ⟨candidate, 0, ?_⟩
            have reached := threshold_le_of_accepts now
            rw [(stateAfter_facts _ _).2.1] at reached
            simpa [EProcessState.eValue] using reached
          · exact ih later

variable {spec : CandidateSpec}

/-- No bet is placed on a candidate whose floor is not strictly between nought and one. Witness:
below, the bound on bets is nought; above, no mean estimate exceeds the floor.
-/
theorem wealth_of_outside (outside : ¬ (0 < spec.piZero ∧ spec.piZero < 1))
    (outcomes : List Outcome)
    : (stateAfter spec outcomes).wealth = 1
      ∧ (stateAfter spec outcomes).sumOutcomes ≤ (stateAfter spec outcomes).nObservations := by
  induction outcomes using List.reverseRecOn with
  | nil => simp [stateAfter, initialState]
  | append_singleton outcomes outcome ih =>
      obtain ⟨unchanged, labels⟩ := ih
      have floor := (stateAfter_facts spec outcomes).1
      rw [stateAfter_concat]
      generalize stateAfter spec outcomes = state at unchanged labels floor
      obtain ⟨nonneg, bounded⟩ := predictableBet_mem state
      have noBet : predictableBet state = 0 := by
        rcases le_or_gt state.piZero 0 with low | positive
        · rw [if_neg (not_lt.mpr low)] at bounded
          exact le_antisymm bounded nonneg
        · have high : 1 ≤ state.piZero := by
            by_contra below
            exact outside (floor ▸ ⟨positive, not_le.mp below⟩)
          have mean : state.meanEstimate ≤ 1 := by
            rw [EProcessState.meanEstimate]
            split
            · exact zero_le_one
            · exact div_le_one_of_le₀ labels (Nat.cast_nonneg _)
          have raw : betKappa * (state.meanEstimate - state.piZero) ≤ 0 :=
            mul_nonpos_of_nonneg_of_nonpos (by norm_num [betKappa]) (by linarith)
          refine le_antisymm ?_ nonneg
          simp only [predictableBet]
          split
          · exact le_rfl
          · split
            · linarith
            · exact raw
      refine ⟨by simp [EProcessState.updated, unchanged, noBet], ?_⟩
      simp only [EProcessState.updated, Nat.cast_add, Nat.cast_one]
      linarith [outcome.property.2]

variable {floors : ι → ℚ}

/-- With at most one floor strictly between nought and one, the guarantee holds. -/
theorem guarantee_of_one (one : ∀ first second, 0 < floors first ∧ floors first < 1
      → 0 < floors second ∧ floors second < 1 → first = second)
    : FamilyGuarantee K floors stores := by
  intro family alpha positive below floor level process
  have cast : (0 : K) < alpha := Rat.cast_pos.mpr positive
  have inside : ∀ run : List (Action ι stores),
      acceptsSome family (fun candidate => initialState (family candidate)) run = true
      → ∃ candidate, (0 < floors candidate ∧ floors candidate < 1)
        ∧ ∃ time, alpha⁻¹
          ≤ (stateAfter (family candidate) ((streamOf candidate run).take time)).wealth := by
    intro run accepts
    have fromStart : acceptsSome family (fun candidate => stateAfter (family candidate) []) run
        = true := accepts
    obtain ⟨candidate, time, reached⟩ := exists_of_acceptsSome fromStart
    rw [level, one_div, List.nil_append] at reached
    refine ⟨candidate, ?_, time, reached⟩
    by_contra outside
    rw [← floor] at outside
    rw [(wealth_of_outside outside _).1] at reached
    exact absurd reached (not_le.mpr ((one_lt_inv₀ positive).mpr below))
  by_cases exposed : ∃ candidate, 0 < floors candidate ∧ floors candidate < 1
  · obtain ⟨candidate, within⟩ := exposed
    obtain ⟨steps, bound⟩ := (process.runs.map (streamOf candidate)).exists_length_le
    have reach : (process.runs.map (streamOf candidate)).prob (fun outcomes =>
        ∃ time ≤ steps, (alpha : K)⁻¹ ≤ wealthAfter K (family candidate) (outcomes.take time))
          * (alpha : K)⁻¹ ≤ 1 :=
      ((process.sinks candidate).prob_reach_mul_le fun run _ time =>
        (Rat.cast_pos.mpr (stateAfter_facts _ _).2.2).le).trans_eq
          (by simp [wealthAfter, stateAfter, initialState])
    rw [← mul_inv_cancel₀ cast.ne', Law.prob_map] at reach
    refine le_trans (Law.prob_mono fun run given accepts => ?_)
      (le_of_mul_le_mul_right reach (inv_pos.mpr cast))
    obtain ⟨other, otherWithin, time, reached⟩ := inside run accepts
    obtain rfl := one other candidate otherWithin within
    refine ⟨min time steps, min_le_right _ _, ?_⟩
    have whole : (streamOf other run).take (min time steps) = (streamOf other run).take time := by
      rw [← List.take_take, List.take_of_length_le (bound _ (given.map _))]
    rw [whole, wealthAfter, ← Rat.cast_inv]
    exact Rat.cast_le.mpr reached
  · have never : process.runs.prob (fun run => acceptsSome family
          (fun candidate => initialState (family candidate)) run = true)
        ≤ process.runs.prob fun _ => False := by
      refine Law.prob_mono fun run _ accepts => ?_
      obtain ⟨candidate, within, _⟩ := inside run accepts
      exact exposed ⟨candidate, within⟩
    refine never.trans (le_of_eq_of_le ?_ cast.le)
    simp [Law.prob, Law.expect_const]

-- Two candidates

theorem streamOf_append (candidate : ι) (first second : List (Action ι stores))
    : streamOf candidate (first ++ second)
      = streamOf candidate first ++ streamOf candidate second := by
  induction first with
  | nil => rfl
  | cons action rest ih =>
      cases action with
      | update other outcome =>
          rw [List.cons_append, streamOf, streamOf, ih]
          split <;> rfl
      | evaluate other call ports => exact ih

theorem streamOf_updates (candidate other : ι) (outcomes : List Outcome)
    : streamOf candidate (outcomes.map (Action.update other) : List (Action ι stores))
      = if other = candidate then outcomes else [] := by
  induction outcomes with
  | nil => simp [streamOf]
  | cons outcome outcomes ih =>
      rw [List.map_cons, streamOf, ih]
      split <;> rfl

/-- A consultation without ports accepts a candidate whose outcomes so far have taken it to its
threshold, by induction on what comes before.
-/
theorem acceptsSome_of_reached (seen : ι → List Outcome) {candidate : ι} {call : Call}
    {before after : List (Action ι stores)} (level : (family candidate).alpha ≠ 0)
    (reached : 1 / (family candidate).alpha
      ≤ (stateAfter (family candidate) (seen candidate ++ streamOf candidate before)).wealth)
    : acceptsSome family (fun candidate => stateAfter (family candidate) (seen candidate))
      (before ++ .evaluate candidate call {} :: after) = true := by
  induction before generalizing seen with
  | nil =>
      rw [List.nil_append, acceptsSome, Bool.or_eq_true]
      refine .inl (accepts_of_threshold_le ?_ ?_)
      · rwa [(stateAfter_facts _ _).2.1]
      · rw [(stateAfter_facts _ _).2.1]
        simpa [streamOf, EProcessState.eValue] using reached
  | cons action before ih =>
      cases action with
      | update other outcome =>
          rw [List.cons_append, acceptsSome, update_stateAfter]
          refine ih _ ?_
          rcases eq_or_ne other candidate with rfl | different
          · rw [streamOf, if_pos rfl] at reached
            rwa [Function.update_self, List.append_assoc, List.singleton_append]
          · rw [streamOf, if_neg different] at reached
            rwa [Function.update_of_ne different.symm]
      | evaluate other call ports =>
          rw [List.cons_append, acceptsSome, ih seen reached, Bool.or_true]

theorem nought_within : (0 : ℚ) ≤ 0 ∧ (0 : ℚ) ≤ 1 := by
  norm_num

/-- The label nought. -/
def nought : Outcome :=
  ⟨0, nought_within⟩

/-- A floor and a step above it that leave room for a climb. -/
structure Climb where
  floor : ℚ
  step : ℚ
  step_pos : 0 < step
  step_le : step ≤ 1 / 4
  step_le_floor : 4 * step ≤ floor
  floor_add_le : floor + step ≤ 1

namespace Climb

variable (climb : Climb)

theorem floor_pos : 0 < climb.floor := by
  linarith [climb.step_pos, climb.step_le_floor]

theorem top_pos : 0 < climb.floor + climb.step := by
  linarith [climb.step_pos, climb.floor_pos]

/-- The label that is a step above the floor. -/
def lift : Outcome :=
  ⟨climb.floor + climb.step, climb.top_pos.le, climb.floor_add_le⟩

/-- The chance of a lift that keeps the mean at the floor. -/
def chance : ℚ :=
  climb.floor / (climb.floor + climb.step)

theorem chance_nonneg : 0 ≤ climb.chance :=
  div_nonneg climb.floor_pos.le climb.top_pos.le

theorem chance_le : climb.chance ≤ 1 :=
  (div_le_one₀ climb.top_pos).mpr (by linarith [climb.step_pos])

theorem chance_mul : climb.chance * (climb.floor + climb.step) = climb.floor :=
  div_mul_cancel₀ _ climb.top_pos.ne'

/-- Two lifts in a row are more likely than not. -/
theorem half_le_chance_sq : 1 / 2 ≤ climb.chance ^ 2 := by
  have atLeast : 4 / 5 ≤ climb.chance := by
    rw [chance, div_le_div_iff₀ (by norm_num) climb.top_pos]
    linarith [climb.step_le_floor]
  nlinarith

/-- Two lifts, a lift that is lost again, and no lift at all. -/
def up : List Outcome := [climb.lift, climb.lift]
def slip : List Outcome := [climb.lift, nought]
def fall : List Outcome := [nought]

/-- After each of its histories the mean of a climb's next label is the floor. -/
theorem excess_climb (history : List Outcome)
    : (climb.chance : K) ^ 2 * excess K climb.floor history climb.up
        + (climb.chance : K) * (1 - climb.chance) * excess K climb.floor history climb.slip
        + (1 - (climb.chance : K)) * excess K climb.floor history fall
      = 0 := by
  have level : (climb.chance : K) * (climb.floor + climb.step) = climb.floor := by
    exact_mod_cast climb.chance_mul
  rcases history with _ | ⟨first, _ | ⟨second, rest⟩⟩
  · simp only [excess, up, slip, fall, lift, nought, List.length_nil, List.take_zero,
      List.drop_zero, if_true, Rat.cast_add, Rat.cast_zero]
    linear_combination level
  · by_cases lifted : climb.lift = first
    · subst lifted
      simp [excess, up, slip, fall, lift, nought]
      linear_combination climb.chance * level
    · simp [excess, up, slip, fall, lifted]
  · simp [excess, up, slip, fall]

/-- The first label is never bet on, and after a lift the bet is twice the step. -/
theorem bets_up (floor : spec.piZero = climb.floor)
    : predictableBet (stateAfter spec []) = 0
      ∧ predictableBet (stateAfter spec [climb.lift]) = 2 * climb.step := by
  constructor
  · have cold : betKappa * (0 - climb.floor) < 0 := by
      have positive := climb.floor_pos
      unfold betKappa
      linarith
    simp only [predictableBet, stateAfter, List.foldl_nil, initialState,
      EProcessState.meanEstimate, floor]
    exact if_pos cold
  · have mean : (stateAfter spec [climb.lift]).meanEstimate = climb.floor + climb.step := by
      simp [EProcessState.meanEstimate, stateAfter, initialState, EProcessState.updated, lift]
    have raw : betKappa * (climb.floor + climb.step - climb.floor) = 2 * climb.step := by
      rw [add_sub_cancel_left, betKappa]
    have room : 2 * climb.step ≤ betC / climb.floor := by
      rw [le_div_iff₀ climb.floor_pos, betC]
      nlinarith [climb.step_pos, climb.step_le, climb.floor_add_le]
    rw [predictableBet, mean, (stateAfter_facts spec _).1, floor, raw, if_pos climb.floor_pos,
      if_neg (by linarith [climb.step_pos]), if_neg (not_lt.mpr room)]

/-- Two lifts raise the wealth. -/
theorem wealth_up (floor : spec.piZero = climb.floor)
    : (stateAfter spec climb.up).wealth = 1 + 2 * climb.step ^ 2 := by
  obtain ⟨cold, warm⟩ := climb.bets_up floor
  have first := wealth_concat spec [] climb.lift
  have second := wealth_concat spec [climb.lift] climb.lift
  rw [List.nil_append, cold, zero_mul, add_zero, mul_one] at first
  rw [List.singleton_append, first, warm, floor] at second
  rw [up, second, lift]
  simp only [stateAfter, List.foldl_nil, initialState]
  ring

end Climb

/-- The outcomes of two candidates, one after the other, and a consultation on each. -/
def jointRun (first second : ι) (firsts seconds : List Outcome) : List (Action ι stores) :=
  firsts.map (Action.update first) ++ seconds.map (Action.update second)
  ++ [Action.evaluate first plainCall {}, .evaluate second plainCall {}]

variable {first second : ι}

theorem streamOf_jointRun (different : first ≠ second) (candidate : ι)
    (firsts seconds : List Outcome)
    : streamOf candidate (jointRun first second firsts seconds : List (Action ι stores))
      = if first = candidate then firsts else if second = candidate then seconds else [] := by
  rw [jointRun, streamOf_append, streamOf_append, streamOf_updates, streamOf_updates]
  by_cases one : first = candidate
  · subst one
    simp [different.symm, streamOf]
  · simp [one, streamOf]

/-- Two climbs coupled so that one of them reaches the top whenever the other one does not. -/
def coupledPoints (K : Type) [Field K] (left right : Climb) (first second : ι)
    : List (List (Action ι stores) × K) :=
  let leftChance : K := left.chance
  let rightChance : K := right.chance
  [(jointRun first second left.up right.up, leftChance ^ 2 + rightChance ^ 2 - 1),
    (jointRun first second left.up right.slip, rightChance * (1 - rightChance)),
    (jointRun first second left.up Climb.fall, 1 - rightChance),
    (jointRun first second left.slip right.up, leftChance * (1 - leftChance)),
    (jointRun first second Climb.fall right.up, 1 - leftChance)]

def coupled (K : Type) [Field K] [LinearOrder K] [IsStrictOrderedRing K] (left right : Climb)
    (first second : ι)
    : Law K (List (Action ι stores)) where
  points := coupledPoints K left right first second
  nonneg := by
    have nonneg : ∀ climb : Climb, 0 ≤ (climb.chance : K) ∧ 0 ≤ 1 - (climb.chance : K)
        ∧ 1 / 2 ≤ (climb.chance : K) ^ 2 := by
      intro climb
      refine ⟨Rat.cast_nonneg.mpr climb.chance_nonneg, ?_, ?_⟩
      · exact_mod_cast sub_nonneg.mpr climb.chance_le
      · have half := Rat.cast_le (K := K).mpr climb.half_le_chance_sq
        push_cast at half
        exact half
    obtain ⟨leftChance, leftRest, leftHalf⟩ := nonneg left
    obtain ⟨rightChance, rightRest, rightHalf⟩ := nonneg right
    simp only [coupledPoints, List.mem_cons, List.not_mem_nil, or_false, forall_eq_or_imp,
      forall_eq]
    refine ⟨by linarith, mul_nonneg rightChance rightRest, rightRest,
      mul_nonneg leftChance leftRest, leftRest⟩
  total := by
    simp only [coupledPoints, List.map_cons, List.map_nil, List.sum_cons, List.sum_nil]
    ring

/-- Neither of two coupled climbs is above its floor on average. -/
theorem coupled_mean_le {left right : Climb} (different : first ≠ second)
    (leftFloor : floors first = left.floor) (rightFloor : floors second = right.floor)
    (candidate : ι) (history : List Outcome)
    : (coupled K left right first second : Law K (List (Action ι stores))).expect
        (fun run => excess K (floors candidate) history (streamOf candidate run)) ≤ 0 := by
  simp only [Law.expect, coupled, coupledPoints, List.map_cons, List.map_nil, List.sum_cons,
    List.sum_nil, streamOf_jointRun different]
  refine le_of_eq ?_
  by_cases one : first = candidate
  · subst one
    simp only [if_true, leftFloor]
    have mean : _ = (0 : K) := left.excess_climb history
    linear_combination mean
  · by_cases two : second = candidate
    · subst two
      simp only [if_neg one, if_true, rightFloor]
      have mean : _ = (0 : K) := right.excess_climb history
      linear_combination mean
    · have idle : excess K (floors candidate) history [] = 0 := by simp [excess]
      simp only [if_neg one, if_neg two, idle]
      ring

/-- Some consultation of coupled climbs accepts, whichever of the runs is drawn. -/
theorem coupled_accepts {left right : Climb} (different : first ≠ second)
    (leftFloor : (family first).piZero = left.floor)
    (rightFloor : (family second).piZero = right.floor) (same : left.step = right.step)
    (leftLevel : (family first).alpha = (1 + 2 * left.step ^ 2)⁻¹)
    (rightLevel : (family second).alpha = (1 + 2 * left.step ^ 2)⁻¹) (run : List (Action ι stores))
    (given : (coupled K left right first second).Gives run)
    : acceptsSome family (fun candidate => initialState (family candidate)) run = true := by
  have top : (0 : ℚ) < 1 + 2 * left.step ^ 2 := by positivity
  have either : ∃ firsts seconds, run = jointRun first second firsts seconds
      ∧ (firsts = left.up ∨ seconds = right.up) := by
    obtain ⟨weight, member⟩ := given
    simp only [coupled, coupledPoints, List.mem_cons, Prod.mk.injEq, List.not_mem_nil,
      or_false] at member
    rcases member with ⟨rfl, _⟩ | ⟨rfl, _⟩ | ⟨rfl, _⟩ | ⟨rfl, _⟩ | ⟨rfl, _⟩
    · exact ⟨_, _, rfl, .inl rfl⟩
    · exact ⟨_, _, rfl, .inl rfl⟩
    · exact ⟨_, _, rfl, .inl rfl⟩
    · exact ⟨_, _, rfl, .inr rfl⟩
    · exact ⟨_, _, rfl, .inr rfl⟩
  have fromStart : ∀ (candidate : ι) (before after : List (Action ι stores)),
      run = before ++ .evaluate candidate plainCall {} :: after
      → (family candidate).alpha = (1 + 2 * left.step ^ 2)⁻¹
      → (stateAfter (family candidate) (streamOf candidate before)).wealth = 1 + 2 * left.step ^ 2
      → acceptsSome family (fun candidate => initialState (family candidate)) run = true := by
    intro candidate before after shape level wealth
    rw [shape]
    refine acceptsSome_of_reached (fun _ => []) ?_ ?_
    · rw [level]
      exact inv_ne_zero top.ne'
    · rw [level, one_div, inv_inv, List.nil_append, wealth]
  obtain ⟨firsts, seconds, rfl, climbed⟩ := either
  rcases climbed with rfl | rfl
  · refine fromStart first (left.up.map (.update first) ++ seconds.map (.update second)) _ rfl
      leftLevel ?_
    rw [streamOf_append, streamOf_updates, streamOf_updates, if_pos rfl, if_neg different.symm,
      List.append_nil, left.wealth_up leftFloor]
  · refine fromStart second (firsts.map (.update first) ++ right.up.map (.update second)
      ++ [.evaluate first plainCall {}]) [] (by simp [jointRun]) rightLevel ?_
    rw [streamOf_append, streamOf_append, streamOf_updates, streamOf_updates, if_neg different,
      if_pos rfl, List.nil_append, streamOf, streamOf, List.append_nil, right.wealth_up rightFloor,
      same]

/-- Below two floors that are strictly between nought and one the guarantee fails. Witness: two
climbs of one step, at the level that two lifts reach.
-/
theorem not_guarantee_of_two (different : first ≠ second)
    (firstInside : 0 < floors first ∧ floors first < 1)
    (secondInside : 0 < floors second ∧ floors second < 1)
    : ¬ FamilyGuarantee K floors stores := by
  obtain ⟨step, positive, belowFirst, belowSecond, roomFirst, roomSecond⟩ :
      ∃ step : ℚ, 0 < step ∧ 4 * step ≤ floors first ∧ 4 * step ≤ floors second
        ∧ 4 * step ≤ 1 - floors first ∧ 4 * step ≤ 1 - floors second := by
    refine ⟨min (min (floors first) (floors second))
      (min (1 - floors first) (1 - floors second)) / 4, ?_, ?_, ?_, ?_, ?_⟩
    · have room : 0 < 1 - floors first ∧ 0 < 1 - floors second :=
        ⟨sub_pos.mpr firstInside.2, sub_pos.mpr secondInside.2⟩
      exact div_pos (lt_min (lt_min firstInside.1 secondInside.1) (lt_min room.1 room.2))
        (by norm_num)
    all_goals rw [mul_div_cancel₀ _ (by norm_num)]
    · exact (min_le_left _ _).trans (min_le_left _ _)
    · exact (min_le_left _ _).trans (min_le_right _ _)
    · exact (min_le_right _ _).trans (min_le_left _ _)
    · exact (min_le_right _ _).trans (min_le_right _ _)
  let left : Climb := ⟨floors first, step, positive, by linarith, belowFirst, by linarith⟩
  let right : Climb := ⟨floors second, step, positive, by linarith, belowSecond, by linarith⟩
  let alpha : ℚ := (1 + 2 * step ^ 2)⁻¹
  let family : ι → CandidateSpec := fun candidate =>
    { evenSpec with piZero := floors candidate, alpha }
  have above : 1 < 1 + 2 * step ^ 2 := by linarith [pow_pos positive 2]
  intro guarantee
  have bounded := guarantee family alpha (inv_pos.mpr (by linarith)) (inv_lt_one_of_one_lt₀ above)
    (fun _ => rfl) (fun _ => rfl)
    { runs := coupled K left right first second
      mean_le := coupled_mean_le different rfl rfl }
  have certain : (coupled K left right first second : Law K (List (Action ι stores))).prob
      (fun run => acceptsSome family (fun candidate => initialState (family candidate)) run = true)
      = 1 := by
    rw [← (coupled K left right first second : Law K (List (Action ι stores))).expect_const 1]
    exact Law.expect_congr fun run given =>
      if_pos (coupled_accepts different (show (family first).piZero = left.floor from rfl)
        (show (family second).piZero = right.floor from rfl) rfl rfl rfl run given)
  rw [certain] at bounded
  have less : (alpha : K) < 1 := by exact_mod_cast inv_lt_one_of_one_lt₀ above
  exact absurd bounded (not_le.mpr less)

/-- The guarantee holds of a family exactly when at most one of its floors is strictly between
nought and one.
-/
theorem family_guarantee_iff (K : Type) [Field K] [LinearOrder K] [IsStrictOrderedRing K]
    (floors : ι → ℚ) (stores : Stores)
    : FamilyGuarantee K floors stores
      ↔ ∀ first second, 0 < floors first ∧ floors first < 1
        → 0 < floors second ∧ floors second < 1 → first = second := by
  constructor
  · intro guarantee first second firstInside secondInside
    by_contra different
    exact not_guarantee_of_two different firstInside secondInside guarantee
  · exact guarantee_of_one

end One

abbrev plainStores : Stores :=
  tables (fun _ => none) mapStore

theorem not_family_guarantee_pair
    : ¬ FamilyGuarantee ℚ (fun _ : Fin 2 => 1 / 2) plainStores := by
  rw [family_guarantee_iff]
  intro one
  exact absurd (one 0 1 (by norm_num) (by norm_num)) (by decide)

/-- An eighth above a floor of one half. -/
def evenClimb : Climb :=
  ⟨1 / 2, 1 / 8, by norm_num, by norm_num, by norm_num, by norm_num⟩

/-- The law of one climb. -/
def climbLaw : Law ℚ (List Outcome) where
  points := [(evenClimb.up, 16 / 25), (evenClimb.slip, 4 / 25), (Climb.fall, 1 / 5)]
  nonneg := by norm_num
  total := by norm_num

/-- Four candidates that climb independently, and a consultation on each. -/
def independentRuns : Law ℚ (List (Action (Fin 4) plainStores)) :=
  climbLaw.bind fun first => climbLaw.bind fun second => climbLaw.bind fun third =>
    climbLaw.map fun fourth =>
      first.map (Action.update 0) ++ second.map (Action.update 1) ++ third.map (Action.update 2)
      ++ fourth.map (Action.update 3)
      ++ [Action.evaluate 0 plainCall {}, .evaluate 1 plainCall {}, .evaluate 2 plainCall {},
        .evaluate 3 plainCall {}]

def evenFamily : Fin 4 → CandidateSpec := fun _ => { evenSpec with alpha := 32 / 33 }

def independentProcess : BelowFloors ℚ evenFamily plainStores where
  runs := independentRuns
  mean_le := by
    intro candidate history
    have one : climbLaw.expect (excess ℚ (1 / 2) history) ≤ 0 := by
      have mean : _ = (0 : ℚ) := evenClimb.excess_climb history
      have chance : evenClimb.chance = 4 / 5 := by norm_num [Climb.chance, evenClimb]
      rw [chance] at mean
      norm_num at mean
      simp only [Law.expect, climbLaw, List.map_cons, List.map_nil, List.sum_cons, List.sum_nil]
      have floor : evenClimb.floor = 1 / 2 := rfl
      rw [floor] at mean
      linarith
    fin_cases candidate <;>
      simpa [independentRuns, Law.expect_bind, Law.expect_map, Law.expect_const, streamOf_append,
        streamOf_updates, streamOf, evenFamily, evenSpec] using one

/-- Four independent candidates with a floor of one half break the guarantee: at a level just below
one, some of them is accepted with a probability above the level.
-/
theorem not_family_guarantee : ¬ FamilyGuarantee ℚ (fun _ : Fin 4 => 1 / 2) plainStores := by
  intro guarantee
  have bounded := guarantee evenFamily (32 / 33) (by norm_num) (by norm_num) (fun _ => rfl)
    (fun _ => rfl) independentProcess
  have exceeded : ¬ independentRuns.prob (fun run => acceptsSome evenFamily
      (fun candidate => initialState (evenFamily candidate)) run = true) ≤ 32 / 33 := by
    decide +kernel
  exact exceeded (by exact_mod_cast bounded)

-- The combined value

section Combined

variable {ι : Type} [DecidableEq ι] {K : Type} [Field K] [LinearOrder K] [IsStrictOrderedRing K]
  {family : ι → CandidateSpec}

/-- The outcomes of a candidate among those of all. -/
def outcomesOf (candidate : ι) (drawn : List (ι × Outcome)) : List Outcome :=
  (drawn.filter fun entry => entry.1 = candidate).map Prod.snd

/-- A process that chooses the next candidate and draws its outcome, both by what all of them did so
far, and by which no candidate is above its floor on average.
-/
structure JointlyBelow (K : Type) [Field K] [LinearOrder K] (family : ι → CandidateSpec) where
  next : List (ι × Outcome) → Law K (ι × Outcome)
  mean_le : ∀ history candidate, (next history).expect (fun entry =>
    if entry.1 = candidate then (entry.2.val - (family candidate).piZero : ℚ) else 0) ≤ 0

/-- The combined value of some candidates. -/
def combinedAfter (family : ι → CandidateSpec) (candidates : List ι) (drawn : List (ι × Outcome))
    : ℚ :=
  combinedEValue (candidates.map fun candidate =>
    stateAfter (family candidate) (outcomesOf candidate drawn))

/-- A candidate's wealth gains nothing on average. Witness: an outcome of another one leaves it. -/
theorem JointlyBelow.wealth_lowers (process : JointlyBelow K family) (candidate : ι)
    (history : List (ι × Outcome))
    : (process.next history).expect (fun entry =>
        wealthAfter K (family candidate) (outcomesOf candidate (history ++ [entry])))
      ≤ wealthAfter K (family candidate) (outcomesOf candidate history) := by
  have positive := (stateAfter_facts (family candidate) (outcomesOf candidate history)).2.2
  generalize same : stateAfter (family candidate) (outcomesOf candidate history) = state at positive
  have step (entry : ι × Outcome)
      : wealthAfter K (family candidate) (outcomesOf candidate (history ++ [entry]))
        = (state.wealth * predictableBet state : ℚ) * (if entry.1 = candidate then
            ((entry.2.val - (family candidate).piZero : ℚ) : K) else 0) + (state.wealth : ℚ) := by
    rw [wealthAfter, outcomesOf, List.filter_append, List.map_append, ← outcomesOf]
    by_cases own : entry.1 = candidate
    · simp only [own, decide_true, List.filter_cons_of_pos, List.filter_nil, List.map_cons,
        List.map_nil, if_true, wealth_concat, same]
      push_cast
      ring
    · simp [own, same]
  simp only [step, Law.expect_add, Law.expect_mul, Law.expect_const]
  have stake : (0 : K) ≤ (state.wealth * predictableBet state : ℚ) :=
    Rat.cast_nonneg.mpr (mul_nonneg positive.le (predictableBet_mem state).1)
  rw [wealthAfter, same]
  exact add_le_of_nonpos_left (mul_nonpos_of_nonneg_of_nonpos stake (process.mean_le history _))

/-- The combined value is one, or a multiple of the joint wealth. -/
theorem cast_combinedAfter (candidates : List ι) (drawn : List (ι × Outcome))
    : (combinedAfter family candidates drawn : K)
      = (if candidates = [] then 1 else 0) + (candidates.length : K)⁻¹ * (candidates.map fun other =>
        wealthAfter K (family other) (outcomesOf other drawn)).sum := by
  rcases eq_or_ne candidates [] with rfl | some
  · simp [combinedAfter, combinedEValue]
  · have total := map_list_sum (Rat.castHom K) (candidates.map fun other =>
      (stateAfter (family other) (outcomesOf other drawn)).eValue)
    rw [List.map_map] at total
    simp only [combinedAfter, combinedEValue, List.map_eq_nil_iff, some, if_false, List.map_map,
      List.length_map, Rat.cast_div, Rat.cast_natCast, zero_add, inv_mul_eq_div]
    exact congrArg (· / (candidates.length : K)) total

/-- The combined value of candidates below their floors seldom reaches a bound at any look, however
they depend on each other.
-/
theorem combined_value_anytime_valid (process : JointlyBelow K family) (candidates : List ι)
    (horizon : Nat) (bound : K)
    : (paths process.next horizon []).prob (fun drawn => ∃ look ≤ horizon,
        bound ≤ (combinedAfter family candidates (drawn.take look) : K)) * bound ≤ 1 := by
  have sums (history : List (ι × Outcome))
      : (process.next history).expect (fun entry => (candidates.map fun other =>
          wealthAfter K (family other) (outcomesOf other (history ++ [entry]))).sum)
        ≤ (candidates.map fun other =>
          wealthAfter K (family other) (outcomesOf other history)).sum := by
    induction candidates with
    | nil => simp [Law.expect_const]
    | cons other rest ih =>
        simp only [List.map_cons, List.sum_cons, Law.expect_add]
        exact add_le_add (process.wealth_lowers other history) ih
  have scale : (0 : K) ≤ (candidates.length : K)⁻¹ := inv_nonneg.mpr (Nat.cast_nonneg _)
  have sinks : Sinks (paths process.next horizon [])
      fun drawn => (combinedAfter family candidates drawn : K) := by
    refine sinks_paths (fun history => ?_) horizon
    simp only [cast_combinedAfter, Law.expect_add, Law.expect_mul, Law.expect_const]
    exact add_le_add_right (mul_le_mul_of_nonneg_left (sums history) scale) _
  refine (sinks.prob_reach_mul_le fun run _ time => ?_).trans_eq ?_
  · rw [cast_combinedAfter]
    refine add_nonneg (by split <;> simp) (mul_nonneg scale (List.sum_nonneg fun value member => ?_))
    obtain ⟨other, _, rfl⟩ := List.mem_map.mp member
    exact (Rat.cast_pos.mpr (stateAfter_facts (family other) _).2.2).le
  · rw [cast_combinedAfter]
    cases candidates with
    | nil => simp
    | cons candidate rest =>
        have one (other : ι) : wealthAfter K (family other) (outcomesOf other []) = 1 := by
          simp [outcomesOf, wealthAfter, stateAfter, initialState]
        simp only [one, List.map_const', List.sum_replicate, nsmul_one, if_neg (List.cons_ne_nil _ _),
          zero_add]
        exact inv_mul_cancel₀ (Nat.cast_ne_zero.mpr (Nat.succ_ne_zero _))

end Combined

/-- One coin for all candidates by turns. -/
def turns : JointlyBelow ℚ evenFamily where
  next history := coin.map fun outcome => (Fin.ofNat 4 history.length, outcome)
  mean_le _ _ := by
    simp only [Law.expect_map]
    split <;> norm_num [Law.expect, coin, evenFamily, evenSpec]

theorem combined_value_anytime_valid_turns
    : (paths turns.next 9 []).prob (fun drawn => ∃ look ≤ (9 : Nat),
        2 ≤ combinedAfter evenFamily [0, 1, 2, 3] (drawn.take look)) * 2 ≤ (1 : ℚ) := by
  exact_mod_cast combined_value_anytime_valid turns [0, 1, 2, 3] 9 2

end Scanipy.Services.Triage

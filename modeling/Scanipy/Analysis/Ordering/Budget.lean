import Scanipy.Library.Metered
import Scanipy.Python.Text

/-! The shared work counter and cooperative deadline of one canonicalization.
The clock is a stream of readings, so every `check` of the source is one reading here;
readings are exact rationals where the source has floats.
-/

namespace Scanipy.Analysis

open Library Python

abbrev NodeId := Int

/-- What the analysis modules raise, with the source's messages. -/
inductive AnalysisError where
  | valueError (message : String)
  | unicodeEncodeError
  | keyError
  | overflowError
  | budgetExhausted
  | canonicalizationDeadlineExceeded
  | emptyWitness
  | witnessNotInCpg (node : NodeId)
  | nonDistributiveSpec (specId : Text)
  /-- The `ValueError` about prior findings, with the values its message renders. -/
  | priorFindingsMismatch (sVersion : Text) (envDigest : Bytes) (runVersion : Text)
    (runDigest : Bytes)
  | assertionError
  /-- A bound of the model's loops was too small; proved never to be raised. -/
  | outOfFuel
  deriving DecidableEq, Repr

def defaultB : Int := 2 ^ 16

def defaultT : Rat := 1 / 5

/-- `clock` gives the successive values of `time.monotonic`; `readings` counts the calls
made so far and is the only field the source does not have.
-/
structure CanonicalizationBudget where
  stateLimit : Nat
  duration : Rat
  clock : Nat → Rat
  startedAt : Rat
  searchStates : Nat := 0
  readings : Nat := 0

abbrev BudgetM := Metered CanonicalizationBudget AnalysisError

/-- `_duration_seconds`; a rational is always finite. -/
def durationSeconds (value : Rat) : Except AnalysisError Rat :=
  if value ≤ 0 then
    .error (.valueError "T must be a finite positive duration in seconds")
  else
    .ok value

namespace CanonicalizationBudget

/-- `CanonicalizationBudget.start`: the first reading is the start time. -/
def start (clock : Nat → Rat) (B : Int) (T : Rat)
    : Except AnalysisError CanonicalizationBudget :=
  if B ≤ 0 then
    .error (.valueError "B must be a positive integer search-state limit")
  else do
    let duration ← durationSeconds T
    .ok { stateLimit := B.toNat, duration, clock, startedAt := clock 0, readings := 1 }

/-- `check`: one clock reading, past which a reached deadline raises. -/
def check : BudgetM Unit := fun budget =>
  let read := { budget with readings := budget.readings + 1 }
  if budget.duration ≤ budget.clock budget.readings - budget.startedAt then
    (.error .canonicalizationDeadlineExceeded, read)
  else
    (.ok (), read)

/-- `enter_state`: exactly `stateLimit` states may be entered. -/
def enterState : BudgetM Unit := do
  check
  fun budget =>
    if budget.searchStates = budget.stateLimit then
      (.error .budgetExhausted, budget)
    else
      (.ok (), { budget with searchStates := budget.searchStates + 1 })

/-- `elapsed_ms`: telemetry, one more reading. -/
def elapsedMs : BudgetM Rat := fun budget =>
  (.ok ((budget.clock budget.readings - budget.startedAt) * 1000),
    { budget with readings := budget.readings + 1 })

/-- No reading of the clock reaches the deadline. -/
def Live (budget : CanonicalizationBudget) : Prop :=
  ∀ reading, budget.clock reading - budget.startedAt < budget.duration

/-- Everything but the two counters is as before. -/
structure SameTerms (before after : CanonicalizationBudget) : Prop where
  stateLimit : after.stateLimit = before.stateLimit
  duration : after.duration = before.duration
  clock : after.clock = before.clock
  startedAt : after.startedAt = before.startedAt

/-- Search states that may still be entered. -/
def remaining (budget : CanonicalizationBudget) : Nat :=
  budget.stateLimit - budget.searchStates

/-- A budget seen as the number of states still allowed; only the deadline may cut a run. -/
def forgetClock : Metered.Erasure CanonicalizationBudget Nat AnalysisError where
  view := remaining
  Sound budget := budget.searchStates ≤ budget.stateLimit
  Live := Live
  Frame := SameTerms
  cut := .canonicalizationDeadlineExceeded
  frame_refl _ := ⟨rfl, rfl, rfl, rfl⟩
  frame_trans first second := ⟨
    second.stateLimit.trans first.stateLimit, second.duration.trans first.duration,
    second.clock.trans first.clock, second.startedAt.trans first.startedAt⟩
  live_of_frame frame := by
    unfold Live
    rw [frame.duration, frame.clock, frame.startedAt]

end CanonicalizationBudget

/-- A clock-free computation over the number of search states still allowed. -/
abbrev Allowance := Metered Nat AnalysisError

/-- Enter one search state. -/
def Allowance.spend : Allowance Unit
  | 0 => (.error .budgetExhausted, 0)
  | left + 1 => (.ok (), left)

/-- A budgeted computation that, deadline aside, computes as `spec` does. -/
abbrev Budgeted {α β : Type} (related : α → β → Prop) (actual : BudgetM α) (spec : Allowance β)
    : Prop :=
  Metered.Refines CanonicalizationBudget.forgetClock related actual spec

/-- A budgeted computation that, deadline aside, has one outcome and enters no state. -/
abbrev Settles {α : Type} (actual : BudgetM α) (outcome : Except AnalysisError α) : Prop :=
  Budgeted Eq actual (Metered.lift outcome)

namespace CanonicalizationBudget

/-- A check is invisible apart from the deadline. -/
theorem check_settles : Settles check (.ok ()) := by
  intro budget sound
  by_cases late : budget.duration ≤ budget.clock budget.readings - budget.startedAt
  · refine .inl ⟨fun live => absurd (live budget.readings) (not_lt.mpr late), ?_⟩
    simp only [check, late, if_true]
    rfl
  · refine .inr ?_
    simp only [check, late, if_false]
    exact ⟨rfl, rfl, sound, ⟨rfl, rfl, rfl, rfl⟩⟩

/-- Entering a state spends one unit of the allowance or exhausts it. -/
theorem enterState_budgeted : Budgeted Eq enterState Allowance.spend := by
  change Budgeted Eq _ (Metered.lift (.ok ()) >>= fun _ => Allowance.spend)
  refine .bind check_settles ?_
  intro _ _ _ budget sound
  have sound : budget.searchStates ≤ budget.stateLimit := sound
  refine .inr ?_
  change Metered.Agree Eq _ (Allowance.spend budget.remaining).1
    ∧ _ = (Allowance.spend budget.remaining).2 ∧ _ ∧ _
  by_cases spent : budget.searchStates = budget.stateLimit
  · have none : budget.remaining = 0 := by simp [remaining, spent]
    rw [none]
    simp only [spent, if_true]
    exact ⟨rfl, none, le_of_eq spent, ⟨rfl, rfl, rfl, rfl⟩⟩
  · have some : budget.remaining = (budget.stateLimit - (budget.searchStates + 1)) + 1 := by
      unfold remaining
      omega
    rw [some]
    simp only [spent, if_false]
    exact ⟨rfl, rfl, by change budget.searchStates + 1 ≤ budget.stateLimit; omega,
      ⟨rfl, rfl, rfl, rfl⟩⟩

/-- The telemetry reading can be any number. -/
theorem elapsedMs_settles : Budgeted (fun _ _ => True) elapsedMs (pure ()) :=
  fun _ sound => .inr ⟨trivial, rfl, sound, ⟨rfl, rfl, rfl, rfl⟩⟩

end CanonicalizationBudget

end Scanipy.Analysis

import Scanipy.Python.Uuid

/-! The worker-callback state machine and its in-memory store. -/

namespace Scanipy.Services.Scan

open Python

inductive JobStatus where
  | running | done | failed
  deriving DecidableEq

inductive TransitionOutcome where
  | applied | duplicate | conflict
  deriving DecidableEq

/-- The recorded state of a job: its status and the digest of the report that set it. -/
structure JobState where
  status : JobStatus
  bodySha256 : Text
  deriving DecidableEq

abbrev JobStates := Dict Uuid JobState

/-- `InMemoryJobStateStore.transition`: the outcome, and the states it leaves. -/
def JobStates.transition (states : JobStates) (jobId : Uuid) (status : JobStatus)
    (bodySha256 : Text) : TransitionOutcome × JobStates :=
  match states.get? jobId with
  | none => (.applied, states.set jobId ⟨status, bodySha256⟩)
  | some prior =>
      if prior.status = status then
        (.duplicate, states)
      else if prior.status = .running ∧ (status = .done ∨ status = .failed) then
        (.applied, states.set jobId ⟨status, bodySha256⟩)
      else
        (.conflict, states)

namespace JobStates

variable {states : JobStates} {jobId : Uuid} {status : JobStatus} {bodySha256 : Text}

/-- What a transition can do: record a new status of its job, or leave every state alone. -/
theorem transition_cases (states : JobStates) (jobId : Uuid) (status : JobStatus)
    (bodySha256 : Text)
    : (states.transition jobId status bodySha256
          = (.applied, states.set jobId ⟨status, bodySha256⟩)
        ∧ ∀ prior, states.get? jobId = some prior
            → prior.status = .running ∧ prior.status ≠ status)
      ∨ ∃ outcome, outcome ≠ .applied
          ∧ states.transition jobId status bodySha256 = (outcome, states) := by
  unfold transition
  cases states.get? jobId with
  | none => exact .inl ⟨rfl, by simp⟩
  | some prior =>
      dsimp only
      split
      next same => exact .inr ⟨.duplicate, by decide, rfl⟩
      next different =>
        split
        next advances =>
          refine .inl ⟨rfl, ?_⟩
          rintro _ ⟨⟩
          exact ⟨advances.1, different⟩
        next => exact .inr ⟨.conflict, by decide, rfl⟩

/-- A terminal state outlives every transition. -/
theorem transition_keeps_terminal {other : Uuid} {state : JobState}
    (recorded : states.get? other = some state) (terminal : state.status ≠ .running)
    : (states.transition jobId status bodySha256).2.get? other = some state := by
  rcases transition_cases states jobId status bodySha256 with ⟨applied, running⟩ | ⟨_, _, kept⟩
  · rw [applied, Dict.get?_set, if_neg, recorded]
    rintro rfl
    exact terminal (running state recorded).1
  · rw [kept]
    exact recorded

/-- The states change only where the outcome is `applied`, and there they do change. -/
theorem transition_applied_iff
    : (states.transition jobId status bodySha256).1 = .applied
      ↔ (states.transition jobId status bodySha256).2.get? jobId ≠ states.get? jobId := by
  rcases transition_cases states jobId status bodySha256
    with ⟨applied, advanced⟩ | ⟨outcome, unapplied, kept⟩
  · simp only [applied, Dict.get?_set, if_true, true_iff]
    intro same
    exact (advanced _ same.symm).2 rfl
  · simp [kept, unapplied]

end JobStates

end Scanipy.Services.Scan

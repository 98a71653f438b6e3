import Mathlib.Data.Nat.Init

/-! Histories: runs of a step relation as sequences of states, with the rules by which a fact
spreads along them, forwards from the start or backwards from the end.
-/

namespace Scanipy.Library

variable {σ : Type}

/-- The first `length` steps of the sequence follow the step relation. -/
def Run (step : σ → σ → Prop) (states : Nat → σ) (length : Nat) : Prop :=
  ∀ i < length, step (states i) (states (i + 1))

namespace Run

variable {step : σ → σ → Prop} {states : Nat → σ} {length : Nat} (run : Run step states length)

include run

/-- What every step keeps holds from its first occurrence on, by induction on the position. -/
theorem forward (holds : σ → Prop)
    (keeps : ∀ before after, step before after → holds before → holds after) {first last : Nat}
    (start : holds (states first)) (ordered : first ≤ last) (bounded : last ≤ length)
    : holds (states last) := by
  induction last, ordered using Nat.le_induction with
  | base => exact start
  | succ last _ ih => exact keeps _ _ (run last bounded) (ih (Nat.le_of_succ_le bounded))

/-- What every step demands of its start, given what holds throughout, holds up to its last
occurrence, by induction downwards.
-/
theorem backward (holds demanded : σ → Prop)
    (demands : ∀ before after, step before after → holds before → demanded after → demanded before)
    {first last : Nat} (throughout : ∀ i, first ≤ i → i < last → holds (states i))
    (finish : demanded (states last)) (ordered : first ≤ last) (bounded : last ≤ length)
    : demanded (states first) := by
  induction ordered using Nat.decreasingInduction with
  | self => exact finish
  | of_succ first before ih =>
      have next := ih fun i after inside => throughout i (Nat.le_of_succ_le after) inside
      exact demands _ _ (run first (Nat.lt_of_lt_of_le before bounded))
        (throughout first (Nat.le_refl _) before) next

end Run

end Scanipy.Library

import Mathlib.Logic.Relation

/-! Ancestors under a relation between an item and the items directly above it: cycles, and the
nearest marked one among an item and its ancestors.
-/

namespace Scanipy.Library.Ancestry

open Relation

variable {α : Type} {above : α → α → Prop} {marked : α → Prop} {item upper : α}

/-- Two different items are directly above one. -/
def Branching (above : α → α → Prop) : Prop :=
  ∃ item left right, above item left ∧ above item right ∧ left ≠ right

/-- An item is among its own ancestors. -/
def Cyclic (above : α → α → Prop) : Prop :=
  ∃ item, TransGen above item item

/-- Every way up from the item ends. -/
def Grounded (above : α → α → Prop) (item : α) : Prop :=
  Acc (fun upper lower => above lower upper) item

/-- The item itself or an ancestor is marked, and all marked ones are this one or above it. -/
def IsNearest (above : α → α → Prop) (marked : α → Prop) (item found : α) : Prop :=
  ReflTransGen above item found
  ∧ marked found
  ∧ ∀ other, ReflTransGen above item other → marked other → ReflTransGen above found other

/-- The nearest marked one among an item and its ancestors, if there is any. -/
def Nearest (above : α → α → Prop) (marked : α → Prop) (item : α) : Option α → Prop
  | some found => IsNearest above marked item found
  | none => ∀ other, ReflTransGen above item other → ¬marked other

theorem rightUnique_of_not_branching (single : ¬Branching above) : Relator.RightUnique above := by
  intro item left right first second
  refine Classical.byContradiction fun different => ?_
  exact single ⟨item, left, right, first, second, different⟩

theorem Grounded.top (top : ∀ upper, ¬above item upper) : Grounded above item :=
  Acc.intro item fun upper step => absurd step (top upper)

/-- One step up is enough where it is the only one. -/
theorem Grounded.step (unique : Relator.RightUnique above) (step : above item upper)
    (grounded : Grounded above upper)
    : Grounded above item := by
  refine Acc.intro item fun other otherStep => ?_
  obtain rfl := unique step otherStep
  exact grounded

/-- What ends does not come back, by induction on the ways up. -/
theorem Grounded.not_above_self (grounded : Grounded above item) : ¬TransGen above item item := by
  induction grounded with
  | intro item _ ih =>
      intro loop
      obtain ⟨upper, step, back⟩ := TransGen.head'_iff.mp loop
      exact ih upper step (TransGen.tail' back step)

theorem not_cyclic_of_grounded (grounded : ∀ item upper, above item upper → Grounded above item)
    : ¬Cyclic above := by
  rintro ⟨item, loop⟩
  obtain ⟨upper, step, _⟩ := TransGen.head'_iff.mp loop
  exact (grounded item upper step).not_above_self loop

theorem Nearest.self (isMarked : marked item) : Nearest above marked item (some item) :=
  ⟨.refl, isMarked, fun _ reached _ => reached⟩

theorem Nearest.top (unmarked : ¬marked item) (top : ∀ upper, ¬above item upper)
    : Nearest above marked item none := by
  intro other reached
  rcases ReflTransGen.cases_head reached with rfl | ⟨upper, step, _⟩
  · exact unmarked
  · exact absurd step (top upper)

/-- From an unmarked item the marked ancestors are those of its only upper neighbour. -/
theorem reached_from_upper (unique : Relator.RightUnique above) (unmarked : ¬marked item)
    (step : above item upper) {other : α} (reached : ReflTransGen above item other)
    (isMarked : marked other)
    : ReflTransGen above upper other := by
  rcases ReflTransGen.cases_head reached with rfl | ⟨first, firstStep, rest⟩
  · exact absurd isMarked unmarked
  · obtain rfl := unique step firstStep
    exact rest

theorem Nearest.step (unique : Relator.RightUnique above) (unmarked : ¬marked item)
    (step : above item upper) {found : Option α} (nearest : Nearest above marked upper found)
    : Nearest above marked item found := by
  cases found with
  | none =>
      intro other reached isMarked
      exact nearest other (reached_from_upper unique unmarked step reached isMarked) isMarked
  | some found =>
      obtain ⟨reaches, isMarked, first⟩ := nearest
      refine ⟨reaches.head step, isMarked, fun other reached otherMarked => ?_⟩
      exact first other (reached_from_upper unique unmarked step reached otherMarked) otherMarked

/-- Without cycles there is one answer: two nearest ones are above each other. -/
theorem Nearest.unique (acyclic : ¬Cyclic above) {left right : Option α}
    (first : Nearest above marked item left) (second : Nearest above marked item right)
    : left = right := by
  cases left with
  | none =>
      cases right with
      | none => rfl
      | some found => exact absurd second.2.1 (first found second.1)
  | some nearest =>
      cases right with
      | none => exact absurd first.2.1 (second nearest first.1)
      | some other =>
          have upwards := first.2.2 other second.1 second.2.1
          have back := second.2.2 nearest first.1 first.2.1
          rcases reflTransGen_iff_eq_or_transGen.mp upwards with same | strict
          · rw [same]
          · exact absurd ⟨nearest, strict.trans_left back⟩ acyclic

end Scanipy.Library.Ancestry

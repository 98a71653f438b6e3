import Mathlib.Data.List.Forall2
import Scanipy.Library.Metered

/-! Outcomes of fallible computations: how a sequence or a loop succeeds. -/

namespace Scanipy.Library

variable {ε α β γ σ : Type}

theorem bind_ok {first : Except ε α} {rest : α → Except ε β} {value : β}
    : (first >>= rest) = .ok value ↔ ∃ middle, first = .ok middle ∧ rest middle = .ok value := by
  cases first with
  | error raised =>
      constructor
      · intro same
        cases same
      · rintro ⟨_, same, _⟩
        cases same
  | ok middle =>
      constructor
      · intro same
        exact ⟨middle, rfl, same⟩
      · rintro ⟨_, same, done⟩
        cases same
        exact done

theorem check_ok {first : Except ε Unit} {rest : Unit → Except ε β} {value : β}
    : (first >>= rest) = .ok value ↔ first = .ok () ∧ rest () = .ok value := by
  rw [bind_ok]
  exact ⟨fun ⟨_, head, tail⟩ => ⟨head, tail⟩, fun ⟨head, tail⟩ => ⟨(), head, tail⟩⟩

theorem ok_bind (value : α) (rest : α → Except ε β)
    : ((.ok value : Except ε α) >>= rest) = rest value :=
  rfl

/-- `if not condition: raise raised`. -/
def demand (condition : Prop) [Decidable condition] (raised : ε) : Except ε Unit :=
  if condition then .ok () else .error raised

@[simp]
theorem demand_ok {condition : Prop} [Decidable condition] {raised : ε} {value : Unit}
    : demand condition raised = .ok value ↔ condition := by
  by_cases holds : condition <;> simp [demand, holds]

/-- A loop succeeds when every round does, by list induction. -/
theorem visit_ok {act : γ → Except ε Unit} {elements : List γ}
    : Metered.visit act elements = .ok () ↔ ∀ element ∈ elements, act element = .ok () := by
  induction elements with
  | nil => simp [Metered.visit, pure, Except.pure]
  | cons head rest ih =>
      simp only [Metered.visit, bind_ok, ih, List.mem_cons, forall_eq_or_imp]
      exact ⟨fun ⟨_, first, others⟩ => ⟨first, others⟩, fun ⟨first, others⟩ => ⟨(), first, others⟩⟩

/-- A loop that keeps its results succeeds with a result for every element, by list
induction.
-/
theorem collect_ok_iff {act : γ → Except ε α} {elements : List γ} {values : List α}
    : Metered.collect act elements = .ok values
      ↔ List.Forall₂ (fun element value => act element = .ok value) elements values := by
  induction elements generalizing values with
  | nil => simp [Metered.collect, pure, Except.pure, eq_comm]
  | cons head rest ih =>
      simp only [Metered.collect, bind_ok, ih, List.forall₂_cons_left_iff]
      constructor
      · rintro ⟨value, first, others, done, same⟩
        exact ⟨value, others, first, done, (Except.ok.inj same).symm⟩
      · rintro ⟨value, others, first, done, same⟩
        exact ⟨value, first, others, done, congrArg Except.ok same.symm⟩

/-- Related lists relate every member of the one to a member of the other, by induction on the
relation.
-/
theorem exists_related_of_mem {agree : α → β → Prop} {left : List α} {right : List β}
    (pairs : List.Forall₂ agree left right) {value : α} (member : value ∈ left)
    : ∃ image ∈ right, agree value image := by
  induction pairs with
  | nil => simp at member
  | cons head _ ih =>
      rcases List.mem_cons.mp member with rfl | later
      · exact ⟨_, List.mem_cons_self, head⟩
      · obtain ⟨image, listed, agrees⟩ := ih later
        exact ⟨image, List.mem_cons_of_mem _ listed, agrees⟩

/-- Every element of a loop that succeeds has its result among the results. -/
theorem exists_result_of_mem {act : γ → Except ε α} {elements : List γ} {values : List α}
    (ran : Metered.collect act elements = .ok values) {element : γ} (member : element ∈ elements)
    : ∃ value ∈ values, act element = .ok value :=
  exists_related_of_mem (collect_ok_iff.mp ran) member

/-- Every result of a loop that succeeds comes from an element. -/
theorem exists_mem_of_result {act : γ → Except ε α} {elements : List γ} {values : List α}
    (ran : Metered.collect act elements = .ok values) {value : α} (member : value ∈ values)
    : ∃ element ∈ elements, act element = .ok value :=
  exists_related_of_mem (collect_ok_iff.mp ran).flip member

theorem collect_ok {act : γ → Except ε α} {value : γ → α} {elements : List γ}
    (each : ∀ element ∈ elements, act element = .ok (value element))
    : Metered.collect act elements = .ok (elements.map value) := by
  rw [collect_ok_iff, List.forall₂_map_right_iff, List.forall₂_same]
  exact each

/-- A loop returns when every round does, by list induction. -/
theorem collect_returns_iff (act : γ → Except ε α) (elements : List γ)
    : (∃ values, Metered.collect act elements = .ok values)
      ↔ ∀ element ∈ elements, ∃ value, act element = .ok value := by
  induction elements with
  | nil => simp [Metered.collect, pure, Except.pure]
  | cons head rest ih =>
      rw [List.forall_mem_cons, ← ih]
      simp only [Metered.collect, bind_ok]
      constructor
      · rintro ⟨_, value, ran, values, collected, _⟩
        exact ⟨⟨value, ran⟩, values, collected⟩
      · rintro ⟨⟨value, ran⟩, values, collected⟩
        exact ⟨_, value, ran, values, collected, rfl⟩

/-- A fold that succeeds took its steps one after another, by list induction. -/
theorem foldlM_ok_induction {step : σ → γ → Except ε σ} {motive : List γ → σ → σ → Prop}
    (nil : ∀ state, motive [] state state)
    (cons : ∀ {item rest before middle after},
      step before item = .ok middle → motive rest middle after → motive (item :: rest) before after)
    {items : List γ} {before after : σ} (done : items.foldlM step before = .ok after)
    : motive items before after := by
  induction items generalizing before with
  | nil =>
      cases done
      exact nil _
  | cons item rest ih =>
      rw [List.foldlM_cons] at done
      obtain ⟨middle, first, others⟩ := bind_ok.mp done
      exact cons first (ih others)

/-- The computation does not raise the error. -/
def Avoids (raised : ε) (computation : Except ε α) : Prop :=
  computation ≠ .error raised

namespace Avoids

variable {raised : ε}

theorem ok (value : α) : Avoids raised (.ok value) :=
  nofun

theorem error {other : ε} (differs : other ≠ raised)
    : Avoids raised (.error other : Except ε α) :=
  fun same => differs (Except.error.inj same)

theorem demand {condition : Prop} [Decidable condition] {other : ε} (differs : other ≠ raised)
    : Avoids raised (Library.demand condition other) := by
  unfold Library.demand
  split
  · exact ok ()
  · exact error differs

/-- A sequence avoids what both of its parts avoid. -/
theorem bind {first : Except ε α} {rest : α → Except ε β} (head : Avoids raised first)
    (tail : ∀ value, first = .ok value → Avoids raised (rest value))
    : Avoids raised (first >>= rest) := by
  cases first with
  | error other => exact error fun same => head (congrArg Except.error same)
  | ok value => exact tail value rfl

/-- A loop avoids what every round avoids, by list induction. -/
theorem visit {act : γ → Except ε Unit} {elements : List γ}
    (each : ∀ element ∈ elements, Avoids raised (act element))
    : Avoids raised (Metered.visit act elements) := by
  induction elements with
  | nil => exact ok ()
  | cons head rest ih =>
      refine bind (each head List.mem_cons_self) fun _ _ => ?_
      exact ih fun element listed => each element (List.mem_cons_of_mem _ listed)

/-- A loop that keeps its results avoids what every round avoids, by list induction. -/
theorem collect {act : γ → Except ε α} {elements : List γ}
    (each : ∀ element ∈ elements, Avoids raised (act element))
    : Avoids raised (Metered.collect act elements) := by
  induction elements with
  | nil => exact ok []
  | cons head rest ih =>
      refine bind (each head List.mem_cons_self) fun _ _ => bind (ih fun element listed => ?_)
        fun _ _ => ok _
      exact each element (List.mem_cons_of_mem _ listed)

theorem foldlM {step : σ → γ → Except ε σ} {items : List γ}
    (each : ∀ item ∈ items, ∀ state, Avoids raised (step state item)) (before : σ)
    : Avoids raised (items.foldlM step before) := by
  induction items generalizing before with
  | nil => exact ok before
  | cons head rest ih =>
      rw [List.foldlM_cons]
      refine bind (each head List.mem_cons_self before) fun middle _ => ?_
      exact ih (fun item listed => each item (List.mem_cons_of_mem _ listed)) middle

end Avoids

end Scanipy.Library

import Mathlib.Init
import Mathlib.Order.Basic

/-! Computations that carry a mutable state through exceptions, and their refinement.
A raised exception keeps the state it was raised in, as a mutated object outlives a `raise`.
-/

namespace Scanipy.Library

/-- A computation over a mutable `σ` that returns an `α` or raises an `ε`; the state
reached is kept in both cases.
-/
def Metered (σ ε α : Type) : Type :=
  σ → Except ε α × σ

namespace Metered

variable {σ τ ε α β γ δ : Type}

instance : Monad (Metered σ ε) where
  pure value := fun state => (.ok value, state)
  bind first rest := fun state =>
    match first state with
    | (.ok value, next) => rest value next
    | (.error raised, next) => (.error raised, next)

/-- Raise `raised`, keeping the current state. -/
def raise (raised : ε) : Metered σ ε α :=
  fun state => (.error raised, state)

/-- Run a stateless fallible computation. -/
def lift (outcome : Except ε α) : Metered σ ε α :=
  fun state => (outcome, state)

/-- Run `body`; on the one exception `caught`, continue with `handler` from the state
reached at the raise. Every other exception passes through.
-/
def except [DecidableEq ε] (caught : ε) (body handler : Metered σ ε α) : Metered σ ε α :=
  fun state =>
    match body state with
    | (.ok value, next) => (.ok value, next)
    | (.error raised, next) =>
        if raised = caught then handler next else (.error raised, next)

instance : MonadExceptOf ε (Metered σ ε) where
  throw := raise
  tryCatch body handler := fun state =>
    match body state with
    | (.ok value, next) => (.ok value, next)
    | (.error raised, next) => handler raised next

theorem pure_apply (value : α) (state : σ)
    : (pure value : Metered σ ε α) state = (.ok value, state) :=
  rfl

theorem bind_ok {first : Metered σ ε α} {rest : α → Metered σ ε β} {state next : σ}
    {value : α} (ran : first state = (.ok value, next))
    : (first >>= rest) state = rest value next := by
  change (match first state with | (.ok v, n) => rest v n | (.error r, n) => (.error r, n)) = _
  rw [ran]

theorem bind_error {first : Metered σ ε α} {rest : α → Metered σ ε β} {state next : σ}
    {raised : ε} (ran : first state = (.error raised, next))
    : (first >>= rest) state = (.error raised, next) := by
  change (match first state with | (.ok v, n) => rest v n | (.error r, n) => (.error r, n)) = _
  rw [ran]

theorem bind_pure_self (first : Metered σ ε α) : (first >>= pure) = first := by
  funext state
  rcases ran : first state with ⟨outcome, next⟩
  cases outcome with
  | error raised => rw [bind_error ran]
  | ok value => rw [bind_ok ran, pure_apply]

/-- A sequence that returns a value ran both of its parts. -/
theorem of_bind_ok {first : Metered σ ε α} {rest : α → Metered σ ε β} {state : σ} {value : β}
    (ran : ((first >>= rest) state).1 = .ok value)
    : ∃ middle next,
        first state = (.ok middle, next) ∧ (first >>= rest) state = rest middle next := by
  rcases head : first state with ⟨outcome, next⟩
  cases outcome with
  | error raised =>
      rw [bind_error head] at ran
      cases ran
  | ok middle => exact ⟨middle, next, rfl, bind_ok head⟩

theorem except_ok [DecidableEq ε] {caught : ε} {body handler : Metered σ ε α}
    {state next : σ} {value : α} (ran : body state = (.ok value, next))
    : Metered.except caught body handler state = (.ok value, next) := by
  simp only [Metered.except, ran]

theorem except_caught [DecidableEq ε] {caught : ε} {body handler : Metered σ ε α}
    {state next : σ} (ran : body state = (.error caught, next))
    : Metered.except caught body handler state = handler next := by
  simp only [Metered.except, ran, if_true]

theorem except_passed [DecidableEq ε] {caught raised : ε} {body handler : Metered σ ε α}
    {state next : σ} (ran : body state = (.error raised, next)) (other : raised ≠ caught)
    : Metered.except caught body handler state = (.error raised, next) := by
  simp only [Metered.except, ran, other, if_false]

-- Forgetting part of the state

/-- How a concrete state `σ` is viewed as an abstract one `τ`, and which exception `cut`
only a state that is not `Live` may raise. A `Frame` step keeps everything the view forgets
and liveness depends on.
-/
structure Erasure (σ τ ε : Type) where
  view : σ → τ
  Sound : σ → Prop
  Live : σ → Prop
  Frame : σ → σ → Prop
  cut : ε
  frame_refl : ∀ state, Frame state state
  frame_trans : ∀ {first second third}, Frame first second → Frame second third → Frame first third
  live_of_frame : ∀ {first second}, Frame first second → (Live second ↔ Live first)

/-- Outcomes agree: related values, or the same exception. -/
def Agree (related : α → β → Prop) : Except ε α → Except ε β → Prop
  | .ok value, .ok other => related value other
  | .error raised, .error other => raised = other
  | _, _ => False

/-- From every sound state, `actual` either is cut short (never when the state is live), or
ends with an outcome and a viewed state that agree with `spec` run on the viewed state.
-/
def Refines (erase : Erasure σ τ ε) (related : α → β → Prop) (actual : Metered σ ε α)
    (spec : Metered τ ε β)
    : Prop :=
  ∀ state,
    erase.Sound state
    → (¬erase.Live state ∧ (actual state).1 = .error erase.cut)
      ∨ (Agree related (actual state).1 (spec (erase.view state)).1
        ∧ erase.view (actual state).2 = (spec (erase.view state)).2
        ∧ erase.Sound (actual state).2
        ∧ erase.Frame state (actual state).2)

variable {erase : Erasure σ τ ε}

/-- A pure value refines a related pure value; no state changes. -/
theorem Refines.pure {related : α → β → Prop} {value : α} {other : β}
    (same : related value other)
    : Refines erase related (pure value) (pure other) :=
  fun state sound => .inr ⟨same, rfl, sound, erase.frame_refl state⟩

/-- A stateless computation refines itself. -/
theorem Refines.lift (outcome : Except ε α)
    : Refines erase Eq (Metered.lift outcome) (Metered.lift outcome) := by
  intro state sound
  refine .inr ⟨?_, rfl, sound, erase.frame_refl state⟩
  cases outcome with
  | error raised => exact (rfl : raised = raised)
  | ok value => exact (rfl : value = value)

/-- Raising the same exception refines. -/
theorem Refines.raise {related : α → β → Prop} (raised : ε)
    : Refines erase related (Metered.raise raised) (Metered.raise raised) :=
  fun state sound => .inr ⟨rfl, rfl, sound, erase.frame_refl state⟩

/-- Sequencing preserves refinement. Witness: a cut first part cuts the whole; otherwise
the second part starts from related values in a state with the same view and liveness.
-/
theorem Refines.bind {related : α → β → Prop} {further : γ → δ → Prop}
    {first : Metered σ ε α} {firstSpec : Metered τ ε β}
    {rest : α → Metered σ ε γ} {restSpec : β → Metered τ ε δ}
    (head : Refines erase related first firstSpec)
    (tail : ∀ value other, related value other → Refines erase further (rest value) (restSpec other))
    : Refines erase further (first >>= rest) (firstSpec >>= restSpec) := by
  intro state sound
  rcases ran : first state with ⟨outcome, next⟩
  rcases specRan : firstSpec (erase.view state) with ⟨specOutcome, specNext⟩
  rcases head state sound with ⟨dead, cut⟩ | ⟨agree, viewed, nextSound, frame⟩
  · rw [ran] at cut
    cases cut
    exact .inl ⟨dead, by rw [bind_error ran]⟩
  · rw [ran, specRan] at agree
    rw [ran, specRan] at viewed
    rw [ran] at nextSound frame
    cases outcome with
    | error raised =>
        cases specOutcome with
        | ok other => exact agree.elim
        | error other =>
            rw [bind_error ran, bind_error specRan]
            exact .inr ⟨agree, viewed, nextSound, frame⟩
    | ok value =>
        cases specOutcome with
        | error other => exact agree.elim
        | ok other =>
            rw [bind_ok ran, bind_ok specRan]
            dsimp only at viewed nextSound frame
            subst viewed
            rcases tail value other agree next nextSound with ⟨dead, cut⟩ | ⟨done, view, last, step⟩
            · exact .inl ⟨fun live => dead ((erase.live_of_frame frame).mpr live), cut⟩
            · exact .inr ⟨done, view, last, erase.frame_trans frame step⟩

/-- A step with a known value may be passed in front of any specification. -/
theorem Refines.step {further : γ → δ → Prop} {first : Metered σ ε α} {value : α}
    {rest : α → Metered σ ε γ} {spec : Metered τ ε δ}
    (head : Refines erase Eq first (Metered.lift (.ok value)))
    (tail : Refines erase further (rest value) spec)
    : Refines erase further (first >>= rest) spec := by
  intro state sound
  rcases ran : first state with ⟨outcome, next⟩
  rcases head state sound with ⟨dead, cut⟩ | ⟨agree, viewed, nextSound, frame⟩
  · rw [ran] at cut
    cases cut
    exact .inl ⟨dead, by rw [bind_error ran]⟩
  · rw [ran] at agree viewed nextSound frame
    have sameView : erase.view next = erase.view state := viewed
    cases outcome with
    | error raised => exact agree.elim
    | ok other =>
        have same : other = value := agree
        subst same
        rw [bind_ok ran, ← sameView]
        rcases tail next nextSound with ⟨dead, cut⟩ | ⟨done, view, last, step⟩
        · exact .inl ⟨fun live => dead ((erase.live_of_frame frame).mpr live), cut⟩
        · exact .inr ⟨done, view, last, erase.frame_trans frame step⟩

/-- A step whose value is only known to be related may be passed, for every such value. -/
theorem Refines.pick {related : α → Unit → Prop} {further : γ → δ → Prop}
    {first : Metered σ ε α} {rest : α → Metered σ ε γ} {spec : Metered τ ε δ}
    (head : Refines erase related first (Pure.pure ()))
    (tail : ∀ value, related value () → Refines erase further (rest value) spec)
    : Refines erase further (first >>= rest) spec := by
  have sequenced : spec = ((Pure.pure () : Metered τ ε Unit) >>= fun _ => spec) := rfl
  rw [sequenced]
  exact .bind head fun value _ same => tail value same

/-- Programs chosen by the viewed state refine each other when they do at every choice. -/
theorem Refines.of_view {related : α → β → Prop} {actual : τ → Metered σ ε α}
    {spec : τ → Metered τ ε β} (each : ∀ view, Refines erase related (actual view) (spec view))
    : Refines erase related (fun state => actual (erase.view state) state)
        (fun view => spec view view) :=
  fun state sound => each (erase.view state) state sound

/-- Handling one exception preserves refinement, provided it is not the cut. -/
theorem Refines.except [DecidableEq ε] {related : α → β → Prop} {caught : ε}
    {body handler : Metered σ ε α} {bodySpec handlerSpec : Metered τ ε β}
    (distinct : erase.cut ≠ caught) (inner : Refines erase related body bodySpec)
    (outer : Refines erase related handler handlerSpec)
    : Refines erase related (Metered.except caught body handler)
        (Metered.except caught bodySpec handlerSpec) := by
  intro state sound
  rcases ran : body state with ⟨outcome, next⟩
  rcases specRan : bodySpec (erase.view state) with ⟨specOutcome, specNext⟩
  rcases inner state sound with ⟨dead, cut⟩ | ⟨agree, viewed, nextSound, frame⟩
  · rw [ran] at cut
    cases cut
    exact .inl ⟨dead, by rw [except_passed ran distinct]⟩
  · rw [ran, specRan] at agree
    rw [ran, specRan] at viewed
    rw [ran] at nextSound frame
    dsimp only at viewed nextSound frame
    subst viewed
    cases outcome with
    | ok value =>
        cases specOutcome with
        | error other => exact agree.elim
        | ok other =>
            rw [except_ok ran, except_ok specRan]
            exact .inr ⟨agree, rfl, nextSound, frame⟩
    | error raised =>
        cases specOutcome with
        | ok other => exact agree.elim
        | error other =>
            have same : raised = other := agree
            subst same
            by_cases hit : raised = caught
            · subst hit
              rw [except_caught ran, except_caught specRan]
              rcases outer next nextSound with ⟨dead, cut⟩ | ⟨done, view, last, step⟩
              · exact .inl ⟨fun live => dead ((erase.live_of_frame frame).mpr live), cut⟩
              · exact .inr ⟨done, view, last, erase.frame_trans frame step⟩
            · rw [except_passed ran hit, except_passed specRan hit]
              exact .inr ⟨rfl, rfl, nextSound, frame⟩

/-- Run `act` on every element in turn, as a `for` loop without a result. -/
def visit {m : Type → Type} [Monad m] (act : γ → m Unit) : List γ → m Unit
  | [] => pure ()
  | head :: rest => do
      act head
      visit act rest

/-- Run `act` on every element in turn and keep the results in order. -/
def collect {m : Type → Type} [Monad m] (act : γ → m α) : List γ → m (List α)
  | [] => pure []
  | head :: rest => do
      let value ← act head
      let values ← collect act rest
      pure (value :: values)

/-- What every specified value satisfies may be used of the related one. -/
theorem Refines.knowing {related : α → β → Prop} {actual : Metered σ ε α} {spec : Metered τ ε β}
    (refined : Refines erase related actual spec) {holds : β → Prop}
    (each : ∀ view other, (spec view).1 = .ok other → holds other)
    : Refines erase (fun value other => related value other ∧ holds other) actual spec := by
  intro state sound
  rcases refined state sound with cut | ⟨agree, rest⟩
  · exact .inl cut
  · refine .inr ⟨?_, rest⟩
    rcases outcome : (actual state).1 with raised | value <;>
      rcases specOutcome : (spec (erase.view state)).1 with other | other <;>
      rw [outcome, specOutcome] at agree
    · exact agree
    · exact agree.elim
    · exact agree.elim
    · exact ⟨agree, each _ other specOutcome⟩

/-- A live state ends with a value whenever the specification does. -/
theorem Refines.returns {related : α → β → Prop} {actual : Metered σ ε α} {spec : Metered τ ε β}
    (refined : Refines erase related actual spec) (state : σ) (sound : erase.Sound state)
    (live : erase.Live state) {other : β} (specRan : (spec (erase.view state)).1 = .ok other)
    : ∃ value, (actual state).1 = .ok value := by
  rcases refined state sound with ⟨dead, _⟩ | ⟨agree, _⟩
  · exact (dead live).elim
  · rw [specRan] at agree
    cases outcome : (actual state).1 with
    | error raised =>
        rw [outcome] at agree
        exact agree.elim
    | ok value => exact ⟨value, rfl⟩

/-- A run that returns a value returned a specified one, live or not. -/
theorem Refines.of_ok {related : α → β → Prop} {actual : Metered σ ε α}
    {spec : Metered τ ε β} (refined : Refines erase related actual spec) {state : σ}
    (sound : erase.Sound state) {value : α} (ran : (actual state).1 = .ok value)
    : ∃ other,
        (spec (erase.view state)).1 = .ok other
        ∧ related value other
        ∧ erase.view (actual state).2 = (spec (erase.view state)).2
        ∧ erase.Sound (actual state).2
        ∧ erase.Frame state (actual state).2 := by
  rcases refined state sound with ⟨_, cut⟩ | ⟨agree, after⟩
  · rw [ran] at cut
    cases cut
  · rw [ran] at agree
    rcases specOutcome : (spec (erase.view state)).1 with raised | other
    · rw [specOutcome] at agree
      exact agree.elim
    · rw [specOutcome] at agree
      exact ⟨other, rfl, agree, after⟩

end Metered

end Scanipy.Library

import Scanipy.Library.Programs

/-! What a computation returns, whatever it does to its state: rules that follow the steps of a
program.
-/

namespace Scanipy.Library

variable {σ ε α β γ : Type}

/-- A value that the computation succeeds with has the property. -/
def Yields (act : Except ε α) (post : α → Prop) : Prop :=
  ∀ ⦃value⦄, act = .ok value → post value

namespace Yields

theorem ok {value : α} {post : α → Prop} (holds : post value)
    : Yields (.ok value : Except ε α) post := by
  intro found same
  cases same
  exact holds

theorem error {raised : ε} {post : α → Prop} : Yields (.error raised : Except ε α) post := by
  intro found same
  cases same

theorem self {act : Except ε α} : Yields act fun value => act = .ok value :=
  fun _ done => done

theorem bind {first : Except ε α} {rest : α → Except ε β} {post : β → Prop}
    (tail : ∀ value, first = .ok value → Yields (rest value) post)
    : Yields (first >>= rest) post := by
  intro value done
  obtain ⟨found, ran, last⟩ := bind_ok.mp done
  exact tail found ran last

end Yields

namespace Metered

/-- Whatever the state, a computation that returns returns a value with the property. -/
def Returns (act : Metered σ ε α) (post : α → Prop) : Prop :=
  ∀ ⦃state value next⦄, act state = (.ok value, next) → post value

namespace Returns

theorem any (act : Metered σ ε α) : Returns act fun _ => True :=
  fun _ _ _ _ => trivial

theorem mono {act : Metered σ ε α} {first second : α → Prop} (returns : Returns act first)
    (weaker : ∀ value, first value → second value)
    : Returns act second :=
  fun _ _ _ done => weaker _ (returns done)

theorem pure {value : α} {post : α → Prop} (holds : post value)
    : Returns (Pure.pure value : Metered σ ε α) post := by
  intro state found next done
  rw [pure_returns] at done
  exact done.1 ▸ holds

theorem lift {outcome : Except ε α} {post : α → Prop} (yields : Yields outcome post)
    : Returns (Metered.lift outcome : Metered σ ε α) post := by
  intro state found next done
  exact yields (lift_returns.mp done).1

theorem bind {first : Metered σ ε α} {rest : α → Metered σ ε β} {middle : α → Prop}
    {post : β → Prop} (head : Returns first middle)
    (tail : ∀ value, middle value → Returns (rest value) post)
    : Returns (first >>= rest) post := by
  intro state value next done
  obtain ⟨found, between, ran, last⟩ := bind_returns.mp done
  exact tail found (head ran) last

/-- What the first part returns does not matter. -/
theorem skip {first : Metered σ ε α} {rest : α → Metered σ ε β} {post : β → Prop}
    (tail : ∀ value, Returns (rest value) post)
    : Returns (first >>= rest) post :=
  bind (any first) fun value _ => tail value

/-- A free step of the computation succeeded from there on. -/
theorem step {outcome : Except ε α} {rest : α → Metered σ ε β} {post : β → Prop}
    (tail : ∀ value, outcome = .ok value → Returns (rest value) post)
    : Returns (Metered.lift outcome >>= rest) post :=
  bind (lift Yields.self) tail

/-- A loop keeps what every round keeps, by list induction. -/
theorem foldlM {act : α → γ → Metered σ ε α} {kept : α → Prop}
    (each : ∀ value element, kept value → Returns (act value element) kept) {elements : List γ}
    {value : α} (holds : kept value)
    : Returns (elements.foldlM act value) kept := by
  induction elements generalizing value with
  | nil => exact pure holds
  | cons head rest ih =>
      rw [List.foldlM_cons]
      exact bind (each value head holds) fun middle after => ih after

end Returns

end Metered

end Scanipy.Library

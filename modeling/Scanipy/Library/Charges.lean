import Mathlib.Algebra.Group.Pi.Basic
import Mathlib.Algebra.GroupWithZero.Nat
import Mathlib.Algebra.BigOperators.Group.List.Basic
import Mathlib.Order.Nat
import Scanipy.Library.Outcome

/-! Computations that pay for their work from meters with ceilings: a payment that does not fit ends
the computation, and nothing is paid back.
-/

namespace Scanipy.Library

/-- What is used of each meter, and how much may be. -/
structure Meter (β : Type) where
  used : β → Nat
  caps : β → Nat

namespace Meter

variable {β : Type}

/-- What is left of a meter. -/
def room (meter : Meter β) (bucket : β) : Nat :=
  meter.caps bucket - meter.used bucket

/-- The costs fit into what is left. -/
def Fits (meter : Meter β) (cost : β → Nat) : Prop :=
  ∀ bucket, cost bucket ≤ meter.room bucket

def pay (meter : Meter β) (cost : β → Nat) : Meter β where
  used bucket := meter.used bucket + cost bucket
  caps := meter.caps

/-- New meters with the ceilings. -/
def start (caps : β → Nat) : Meter β where
  used _ := 0
  caps := caps

end Meter

/-- A computation with meters: a result and the meters after it, or a failure. -/
def Charged (β ε α : Type) : Type :=
  Meter β → Except ε (α × Meter β)

namespace Charged

variable {β ε α γ δ σ : Type}

instance : Monad (Charged β ε) where
  pure value := fun meter => .ok (value, meter)
  bind first rest := fun meter =>
    match first meter with
    | .ok (value, after) => rest value after
    | .error raised => .error raised

/-- A computation that is free. -/
def lift (outcome : Except ε α) : Charged β ε α :=
  fun meter => outcome.map fun value => (value, meter)

/-- A condition of a computation. -/
def need (condition : Prop) [Decidable condition] (raised : ε) : Charged β ε Unit :=
  lift (demand condition raised)

/-- The cost of an amount of one meter. -/
def costOf [DecidableEq β] (bucket : β) (amount : Nat) : β → Nat :=
  fun other => if other = bucket then amount else 0

/-- A payment, which fails with `limit` where it does not fit. -/
def charge [DecidableEq β] (limit : ε) (bucket : β) (amount : Nat) : Charged β ε Unit :=
  fun meter =>
    if amount ≤ meter.room bucket then .ok ((), meter.pay (costOf bucket amount))
    else .error limit

theorem bind_apply (first : Charged β ε α) (rest : α → Charged β ε γ) (meter : Meter β)
    : (first >>= rest) meter
      = match first meter with
        | .ok (value, after) => rest value after
        | .error raised => .error raised :=
  rfl

theorem bind_ok {first : Charged β ε α} {rest : α → Charged β ε γ} {meter : Meter β}
    {outcome : γ × Meter β}
    : (first >>= rest) meter = .ok outcome
      ↔ ∃ value after, first meter = .ok (value, after) ∧ rest value after = .ok outcome := by
  rw [bind_apply]
  cases first meter with
  | error raised =>
      constructor
      · intro same
        cases same
      · rintro ⟨_, _, same, _⟩
        cases same
  | ok pair =>
      constructor
      · intro done
        exact ⟨pair.1, pair.2, rfl, done⟩
      · rintro ⟨_, _, same, done⟩
        cases same
        exact done

theorem lift_ok {outcome : Except ε α} {meter after : Meter β} {value : α}
    : lift outcome meter = .ok (value, after) ↔ outcome = .ok value ∧ after = meter := by
  cases outcome with
  | error raised => simp [lift, Except.map]
  | ok found => simp [lift, Except.map, eq_comm]

/-- Whatever the meters, a computation that returns returns a value with the property. -/
def Returns (act : Charged β ε α) (post : α → Prop) : Prop :=
  ∀ ⦃meter value after⦄, act meter = .ok (value, after) → post value

namespace Returns

theorem any (act : Charged β ε α) : Returns act fun _ => True :=
  fun _ _ _ _ => trivial

theorem mono {act : Charged β ε α} {first second : α → Prop} (returns : Returns act first)
    (weaker : ∀ value, first value → second value)
    : Returns act second :=
  fun _ _ _ done => weaker _ (returns done)

theorem pure {value : α} {post : α → Prop} (holds : post value)
    : Returns (Pure.pure value : Charged β ε α) post := by
  intro meter found after done
  cases done
  exact holds

theorem lift {outcome : Except ε α} {post : α → Prop}
    (holds : ∀ value, outcome = .ok value → post value)
    : Returns (Charged.lift outcome : Charged β ε α) post :=
  fun _ _ _ done => holds _ (lift_ok.mp done).1

theorem need (condition : Prop) [Decidable condition] (raised : ε)
    : Returns (Charged.need condition raised : Charged β ε Unit) fun _ => condition :=
  lift fun _ done => demand_ok.mp done

theorem bind {first : Charged β ε α} {rest : α → Charged β ε γ} {middle : α → Prop}
    {post : γ → Prop} (head : Returns first middle)
    (tail : ∀ value, middle value → Returns (rest value) post)
    : Returns (first >>= rest) post := by
  intro meter value after done
  obtain ⟨found, between, ran, done⟩ := bind_ok.mp done
  exact tail found (head ran) done

/-- What the first part returns does not matter. -/
theorem skip {first : Charged β ε α} {rest : α → Charged β ε γ} {post : γ → Prop}
    (tail : ∀ value, Returns (rest value) post)
    : Returns (first >>= rest) post :=
  bind (any first) fun value _ => tail value

/-- A condition of the computation holds from there on. -/
theorem check {condition : Prop} [Decidable condition] {raised : ε}
    {rest : Unit → Charged β ε γ} {post : γ → Prop}
    (tail : condition → Returns (rest ()) post)
    : Returns (Charged.need condition raised >>= rest) post :=
  bind (need condition raised) fun _ holds => tail holds

end Returns

/-- The computation returns the value exactly where the cost fits, and pays it. -/
def Costs (act : Charged β ε α) (value : α) (cost : β → Nat) : Prop :=
  ∀ meter, (meter.Fits cost → act meter = .ok (value, meter.pay cost))
    ∧ (¬meter.Fits cost → ∃ raised, act meter = .error raised)

namespace Costs

theorem charge [DecidableEq β] (limit : ε) (bucket : β) (amount : Nat)
    : Costs (Charged.charge limit bucket amount) () (costOf bucket amount) := by
  intro meter
  have exact_iff : meter.Fits (costOf bucket amount) ↔ amount ≤ meter.room bucket := by
    constructor
    · intro fits
      simpa [costOf] using fits bucket
    · intro fits other
      by_cases same : other = bucket
      · simpa [costOf, same] using fits
      · simp [costOf, same]
  constructor
  · intro fits
    exact if_pos (exact_iff.mp fits)
  · intro refused
    exact ⟨limit, if_neg (mt exact_iff.mpr refused)⟩

theorem runs {act : Charged β ε α} {value : α} {cost : β → Nat} (costs : Costs act value cost)
    {meter : Meter β} (fits : meter.Fits cost)
    : act meter = .ok (value, meter.pay cost) :=
  (costs meter).1 fits

/-- A computation that returned fitted, and paid its cost. -/
theorem fits_of_ok {act : Charged β ε α} {value found : α} {cost : β → Nat}
    (costs : Costs act value cost) {meter after : Meter β} (done : act meter = .ok (found, after))
    : meter.Fits cost ∧ found = value ∧ after = meter.pay cost := by
  by_cases fits : meter.Fits cost
  · rw [costs.runs fits] at done
    cases done
    exact ⟨fits, rfl, rfl⟩
  · obtain ⟨raised, failed⟩ := (costs meter).2 fits
    rw [failed] at done
    cases done

end Costs

namespace Bounded

end Bounded

end Charged

end Scanipy.Library

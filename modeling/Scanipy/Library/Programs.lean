import Scanipy.Library.Outcome

/-! What a metered program returns, part by part. -/

namespace Scanipy.Library.Metered

variable {σ ε α β γ : Type}

theorem bind_returns {first : Metered σ ε α} {rest : α → Metered σ ε β} {state next : σ} {value : β}
    : (first >>= rest) state = (.ok value, next)
      ↔ ∃ middle between, first state = (.ok middle, between)
          ∧ rest middle between = (.ok value, next) := by
  cases ran : first state with
  | mk outcome between =>
      cases outcome with
      | error raised => simp [bind_error ran]
      | ok middle =>
          rw [bind_ok ran]
          constructor
          · intro done
            exact ⟨middle, between, rfl, done⟩
          · intro ⟨other, later, same, done⟩
            cases same
            exact done

@[simp]
theorem lift_returns {outcome : Except ε α} {state next : σ} {value : α}
    : lift outcome state = (.ok value, next) ↔ outcome = .ok value ∧ state = next := by
  simp [lift]

@[simp]
theorem pure_returns {state next : σ} {value other : α}
    : (pure value : Metered σ ε α) state = (.ok other, next) ↔ value = other ∧ state = next := by
  simp [pure_apply]

end Scanipy.Library.Metered

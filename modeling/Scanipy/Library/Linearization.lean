import Mathlib.Data.List.Nodup

/-! Linearizations: the answers that concurrent calls have received, and the state they left, are
those of the calls run one after another in some order.
-/

namespace Scanipy.Library

variable {ι σ ο : Type}

/-- The calls run one after another: each with its answer, and the state that is left. -/
def sequentially (operate : ι → σ → ο × σ) : List ι → σ → List (ι × ο) × σ
  | [], state => ([], state)
  | call :: rest, state =>
      let (answer, next) := operate call state
      let (answers, last) := sequentially operate rest next
      ((call, answer) :: answers, last)

/-- The answered calls, each once, have the answers and the state of a sequential run. -/
def Linearized (operate : ι → σ → ο × σ) (first : σ) (answered : ι → Option ο) (last : σ) : Prop :=
  ∃ order : List ι, order.Nodup
    ∧ (∀ call, call ∈ order ↔ (answered call).isSome = true)
    ∧ (∀ call answer, answered call = some answer
        ↔ (call, answer) ∈ (sequentially operate order first).1)
    ∧ (sequentially operate order first).2 = last

variable {operate : ι → σ → ο × σ}

/-- One more call is run in the state the earlier ones leave, by induction on them. -/
theorem sequentially_append (order : List ι) (call : ι) (first : σ)
    : sequentially operate (order ++ [call]) first
      = ((sequentially operate order first).1
            ++ [(call, (operate call (sequentially operate order first).2).1)],
          (operate call (sequentially operate order first).2).2) := by
  induction order generalizing first with
  | nil => rfl
  | cons head rest ih => simp [sequentially, ih]

namespace Linearized

variable {first last next : σ} {answered : ι → Option ο}

/-- Before any answer, the empty order. -/
theorem start (state : σ) (silent : ∀ call, answered call = none)
    : Linearized operate state answered state :=
  ⟨[], .nil, by simp [silent], by simp [silent, sequentially], rfl⟩

/-- A call whose answer and effect are the object's own goes last. -/
theorem answer [DecidableEq ι] {call : ι} {answer : ο}
    (linearized : Linearized operate first answered last) (pending : answered call = none)
    (performed : operate call last = (answer, next))
    : Linearized operate first (Function.update answered call (some answer)) next := by
  obtain ⟨order, distinct, members, answers, state⟩ := linearized
  have fresh : call ∉ order := by
    intro member
    simpa [pending] using (members call).mp member
  refine ⟨order ++ [call], ?_, ?_, ?_, ?_⟩
  · exact List.nodup_append'.mpr
      ⟨distinct, List.nodup_singleton call, List.disjoint_singleton.mpr fresh⟩
  · intro other
    by_cases same : other = call
    · simp [same]
    · simp [same, members other]
  · intro other value
    rw [sequentially_append, state, performed]
    by_cases same : other = call
    · subst same
      have unanswered : (other, value) ∉ (sequentially operate order first).1 := by
        intro member
        simpa [pending] using (answers other value).mpr member
      simp [unanswered, eq_comm]
    · simp [same, answers other value]
  · rw [sequentially_append, state, performed]

end Linearized

end Scanipy.Library

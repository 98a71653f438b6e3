import Scanipy.Db.Execution.Keys

/-! Histories of the ledger: calls in any order by any callers, each one transaction, under a clock
that never runs backwards. A call that fails changes nothing.
-/

namespace Scanipy.Db.Execution

open Library Python

variable (sha256 : Bytes → Bytes)

/-- The ledger between two transactions, and the latest time it has seen. -/
structure Moment where
  ledger : Ledger
  now : Instant

/-- The readings of the clock in a transaction do not run backwards and lie between its two
ends.
-/
def Environment.Within (env : Environment) (start finish : Instant) : Prop :=
  (∀ ⦃earlier later⦄, earlier ≤ later → env.clock earlier ≤ env.clock later)
  ∧ ∀ reading, start ≤ env.clock reading ∧ env.clock reading ≤ finish

/-- One call, with the ledger that it leaves. -/
def execute (env : Environment) (ledger : Ledger) (operation : Operation)
    : Except SqlError Reply × Ledger :=
  match perform sha256 env ledger operation with
  | .ok (reply, after) => (.ok reply, after)
  | .error raised => (.error raised, ledger)

/-- A call from one moment to the next. -/
def Step (before : Moment) (operation : Operation) (outcome : Except SqlError Reply)
    (after : Moment) : Prop :=
  ∃ env : Environment, env.Within before.now after.now
    ∧ execute sha256 env before.ledger operation = (outcome, after.ledger)

/-- A run of the system from the empty ledger. -/
structure History where
  moments : Nat → Moment
  calls : Nat → Operation
  outcomes : Nat → Except SqlError Reply
  codebases : List (Uuid × Uuid)
  start : (moments 0).ledger = .empty codebases
  steps : ∀ time, Step sha256 (moments time) (calls time) (outcomes time) (moments (time + 1))

variable {sha256}

/-- The moments between two others. -/
def Between (before after : Moment) (now : Instant) : Prop :=
  before.now ≤ now ∧ now ≤ after.now

variable {before after : Moment} {operation : Operation} {outcome : Except SqlError Reply}

/-- A step succeeds with an operation's result, or changes nothing. -/
theorem Step.cases (step : Step sha256 before operation outcome after)
    : ∃ env : Environment, env.Within before.now after.now
      ∧ ((∃ reply, outcome = .ok reply
          ∧ perform sha256 env before.ledger operation = .ok (reply, after.ledger))
        ∨ ∃ raised, outcome = .error raised ∧ after.ledger = before.ledger) := by
  obtain ⟨env, within, done⟩ := step
  refine ⟨env, within, ?_⟩
  unfold execute at done
  split at done
  · rename_i reply ledger performed
    obtain ⟨answered, same⟩ := Prod.mk.inj done
    exact .inl ⟨reply, answered.symm, same ▸ performed⟩
  · rename_i raised _
    obtain ⟨refused, same⟩ := Prod.mk.inj done
    exact .inr ⟨raised, refused.symm, same.symm⟩

/-- Every step has one of the effects. -/
theorem Step.becomes (step : Step sha256 before operation outcome after)
    : before.ledger.Becomes sha256 (Between before after) after.ledger := by
  obtain ⟨env, ⟨_, within⟩, ⟨reply, _, done⟩ | ⟨_, _, same⟩⟩ := step.cases
  · exact perform_becomes within done
  · rw [same]
    exact .refl

namespace History

variable (history : History sha256)

/-- The ledger at a time of the run. -/
def ledger (time : Nat) : Ledger :=
  (history.moments time).ledger

/-- What holds at the start and is kept by every step holds throughout, by induction on the
time.
-/
theorem invariant (holds : Ledger → Prop)
    (initial : ∀ codebases, holds (.empty codebases))
    (kept : ∀ {during before after}, before.Becomes sha256 during after → holds before
      → holds after) (time : Nat)
    : holds (history.ledger time) := by
  induction time with
  | zero =>
      rw [ledger, history.start]
      exact initial _
  | succ time ih => exact kept (history.steps time).becomes ih

/-- What every step keeps holds from its first time on, by induction on the later time. -/
theorem forward (holds : Ledger → Prop) {first last : Nat} (ordered : first ≤ last)
    (kept : ∀ time, holds (history.ledger time) → holds (history.ledger (time + 1)))
    (initial : holds (history.ledger first))
    : holds (history.ledger last) := by
  induction last, ordered using Nat.le_induction with
  | base => exact initial
  | succ last _ ih => exact kept last ih

theorem keyed (time : Nat) : Keyed sha256 (history.ledger time) :=
  history.invariant (Keyed sha256) keyed_empty (fun step keyed => step.keyed keyed) time

end History

end Scanipy.Db.Execution

import Mathlib.Data.Fintype.Basic
import Scanipy.Library.Linearization
import Scanipy.Services.Scan.Api.JobStates

/-! The job-state store over a database table: each call is a transaction of a few statements, and
the statements of concurrent calls interleave.
-/

namespace Scanipy.Services.Scan

open Python Library

/-- One call of `SqlJobStateStore.transition`. -/
structure TransitionCall where
  jobId : Uuid
  status : JobStatus
  bodySha256 : Text

namespace TransitionCall

def state (call : TransitionCall) : JobState :=
  ⟨call.status, call.bodySha256⟩

/-- The same call of the in-memory store. -/
def inMemory (call : TransitionCall) (states : JobStates) : TransitionOutcome × JobStates :=
  states.transition call.jobId call.status call.bodySha256

variable {call : TransitionCall} {states : JobStates}

theorem inMemory_absent (unrecorded : states.get? call.jobId = none)
    : call.inMemory states = (.applied, states.set call.jobId call.state) := by
  simp [inMemory, JobStates.transition, unrecorded, state]

variable {row : JobState}

theorem inMemory_advances (recorded : states.get? call.jobId = some row)
    (running : row.status = .running) (advances : call.status = .done ∨ call.status = .failed)
    : call.inMemory states = (.applied, states.set call.jobId call.state) := by
  have different : row.status ≠ call.status := by
    rcases advances with same | same <;> simp [running, same]
  rw [running] at different
  simp [inMemory, JobStates.transition, recorded, different, running, advances, state]

theorem inMemory_declines {outcome : TransitionOutcome}
    (recorded : states.get? call.jobId = some row)
    (decided : outcome = .duplicate ∧ row.status = call.status
      ∨ outcome = .conflict ∧ row.status ≠ call.status
        ∧ ¬(row.status = .running ∧ (call.status = .done ∨ call.status = .failed)))
    : call.inMemory states = (outcome, states) := by
  rcases decided with ⟨rfl, same⟩ | ⟨rfl, different, stays⟩
  · simp [inMemory, JobStates.transition, recorded, same]
  · simp [inMemory, JobStates.transition, recorded, different, stays]

end TransitionCall

/-- Where the transaction of a call stands: which statement ran last, with what it read. -/
inductive Phase where
  | ready
  | absent
  | inserted
  | locked (priorStatus : JobStatus)
  | updated
  | returned (outcome : TransitionOutcome)
  | raised
  deriving DecidableEq

/-- The status that a call holding the lock of its row has read. -/
def Phase.seen : Phase → Option JobStatus
  | .locked priorStatus => some priorStatus
  | .updated => some .running
  | _ => none

/-- How many statements the transaction of a call has run at most. -/
def Phase.length : Phase → Nat
  | .ready => 0
  | .absent | .locked _ => 1
  | .inserted | .updated => 2
  | .returned _ | .raised => 3

/-- The committed rows, the row locks, the keys inserted and not yet committed, and the calls. -/
structure JobsTable (ι : Type) where
  rows : JobStates
  locks : Uuid → Option ι
  inserting : Uuid → Option ι
  phases : ι → Phase

namespace JobsTable

variable {ι : Type} [DecidableEq ι]

/-- No call has run a statement. -/
def create (rows : JobStates) : JobsTable ι :=
  ⟨rows, fun _ => none, fun _ => none, fun _ => .ready⟩

def enter (table : JobsTable ι) (caller : ι) (phase : Phase) : JobsTable ι :=
  { table with phases := Function.update table.phases caller phase }

def lock (table : JobsTable ι) (jobId : Uuid) (holder : Option ι) : JobsTable ι :=
  { table with locks := Function.update table.locks jobId holder }

def reserve (table : JobsTable ι) (jobId : Uuid) (holder : Option ι) : JobsTable ι :=
  { table with inserting := Function.update table.inserting jobId holder }

def record (table : JobsTable ι) (call : TransitionCall) : JobsTable ι :=
  { table with rows := table.rows.set call.jobId call.state }

/-- The next statement of a call; `none` where it waits for another call or none is left.
`SELECT ... FOR UPDATE` locks a row that exists; `INSERT` waits for a transaction that has inserted
the key and raises if the key is committed, and the handler then rolls back.
-/
def statement (calls : ι → TransitionCall) (table : JobsTable ι) (caller : ι)
    : Option (JobsTable ι) :=
  let call := calls caller
  match table.phases caller with
  | .ready =>
      match table.rows.get? call.jobId with
      | none => some (table.enter caller .absent)
      | some row =>
          match table.locks call.jobId with
          | none => some ((table.lock call.jobId (some caller)).enter caller (.locked row.status))
          | some _ => none
  | .absent =>
      match table.inserting call.jobId with
      | some _ => none
      | none =>
          match table.rows.get? call.jobId with
          | none => some ((table.reserve call.jobId (some caller)).enter caller .inserted)
          | some _ => some (table.enter caller .raised)
  | .inserted =>
      some (((table.record call).reserve call.jobId none).enter caller (.returned .applied))
  | .locked priorStatus =>
      if priorStatus = call.status then
        some ((table.lock call.jobId none).enter caller (.returned .duplicate))
      else if priorStatus = .running ∧ (call.status = .done ∨ call.status = .failed) then
        some (table.enter caller .updated)
      else
        some ((table.lock call.jobId none).enter caller (.returned .conflict))
  | .updated =>
      some (((table.record call).lock call.jobId none).enter caller (.returned .applied))
  | .returned _ | .raised => none

/-- The outcome a call has returned. -/
def answered (table : JobsTable ι) (caller : ι) : Option TransitionOutcome :=
  match table.phases caller with
  | .returned outcome => some outcome
  | _ => none

/-- A call that has found no row of its job and not yet finished. -/
def Missed (table : JobsTable ι) (caller : ι) : Prop :=
  table.phases caller = .absent ∨ table.phases caller = .inserted

/-- A `SELECT` of a job without a row runs while no other call has found that job without one. -/
def Uncontended (calls : ι → TransitionCall) (table : JobsTable ι) (caller : ι) : Prop :=
  table.phases caller = .ready → table.rows.get? (calls caller).jobId = none
    → ∀ other, (calls other).jobId = (calls caller).jobId → ¬table.Missed other

/-- A run from a table without open calls: the calls whose statements ran, in their order, each
allowed where it ran.
-/
inductive Runs (calls : ι → TransitionCall) (allowed : JobsTable ι → ι → Prop) (rows : JobStates)
    : List ι → JobsTable ι → Prop
  | start : Runs calls allowed rows [] (create rows)
  | statement {schedule : List ι} {table after : JobsTable ι} {caller : ι}
      (earlier : Runs calls allowed rows schedule table) (admitted : allowed table caller)
      (ran : table.statement calls caller = some after)
      : Runs calls allowed rows (schedule ++ [caller]) after

-- What a statement does

variable {calls : ι → TransitionCall} {table after : JobsTable ι} {caller : ι}

/-- The statements of a call, each with the phase it runs in and the table it leaves. -/
inductive Ran (calls : ι → TransitionCall) (table : JobsTable ι) (caller : ι) : JobsTable ι → Prop
  | misses (phase : table.phases caller = .ready)
      (unrecorded : table.rows.get? (calls caller).jobId = none)
      : Ran calls table caller (table.enter caller .absent)
  | locks (phase : table.phases caller = .ready) (row : JobState)
      (recorded : table.rows.get? (calls caller).jobId = some row)
      (free : table.locks (calls caller).jobId = none)
      : Ran calls table caller
          ((table.lock (calls caller).jobId (some caller)).enter caller (.locked row.status))
  | inserts (phase : table.phases caller = .absent)
      (free : table.inserting (calls caller).jobId = none)
      (unrecorded : table.rows.get? (calls caller).jobId = none)
      : Ran calls table caller
          ((table.reserve (calls caller).jobId (some caller)).enter caller .inserted)
  | raises (phase : table.phases caller = .absent)
      (recorded : table.rows.get? (calls caller).jobId ≠ none)
      : Ran calls table caller (table.enter caller .raised)
  | creates (phase : table.phases caller = .inserted)
      : Ran calls table caller
          (((table.record (calls caller)).reserve (calls caller).jobId none).enter caller
            (.returned .applied))
  | declines (priorStatus : JobStatus) (phase : table.phases caller = .locked priorStatus)
      (outcome : TransitionOutcome)
      (decided : outcome = .duplicate ∧ priorStatus = (calls caller).status
        ∨ outcome = .conflict ∧ priorStatus ≠ (calls caller).status
          ∧ ¬(priorStatus = .running
            ∧ ((calls caller).status = .done ∨ (calls caller).status = .failed)))
      : Ran calls table caller
          ((table.lock (calls caller).jobId none).enter caller (.returned outcome))
  | updates (phase : table.phases caller = .locked .running)
      (advances : (calls caller).status = .done ∨ (calls caller).status = .failed)
      : Ran calls table caller (table.enter caller .updated)
  | commits (phase : table.phases caller = .updated)
      : Ran calls table caller
          (((table.record (calls caller)).lock (calls caller).jobId none).enter caller
            (.returned .applied))

/-- A statement that runs is one of these, by the phase of its call. -/
theorem statement_ran (ran : table.statement calls caller = some after)
    : Ran calls table caller after := by
  unfold statement at ran
  extract_lets call at ran
  cases phase : table.phases caller with
  | ready =>
      rw [phase] at ran
      dsimp only at ran
      cases recorded : table.rows.get? call.jobId with
      | none =>
          rw [recorded] at ran
          cases ran
          exact .misses phase recorded
      | some row =>
          rw [recorded] at ran
          dsimp only at ran
          cases free : table.locks call.jobId with
          | some holder => simp [free] at ran
          | none =>
              rw [free] at ran
              cases ran
              exact .locks phase row recorded free
  | absent =>
      rw [phase] at ran
      dsimp only at ran
      cases free : table.inserting call.jobId with
      | some holder => simp [free] at ran
      | none =>
          rw [free] at ran
          dsimp only at ran
          cases recorded : table.rows.get? call.jobId with
          | none =>
              rw [recorded] at ran
              cases ran
              exact .inserts phase free recorded
          | some row =>
              rw [recorded] at ran
              cases ran
              exact .raises phase (by simp [call, recorded])
  | inserted =>
      rw [phase] at ran
      cases ran
      exact .creates phase
  | locked priorStatus =>
      rw [phase] at ran
      dsimp only at ran
      split at ran
      next same =>
        cases ran
        exact .declines priorStatus phase .duplicate (.inl ⟨rfl, same⟩)
      next different =>
        split at ran
        next advances =>
          cases ran
          rw [advances.1] at phase
          exact .updates phase advances.2
        next stays =>
          cases ran
          exact .declines priorStatus phase .conflict (.inr ⟨rfl, different, stays⟩)
  | updated =>
      rw [phase] at ran
      cases ran
      exact .commits phase
  | returned outcome => simp [phase] at ran
  | raised => simp [phase] at ran

@[simp]
theorem phases_enter (other : ι) (phase : Phase)
    : (table.enter caller phase).phases other
      = if other = caller then phase else table.phases other := by
  simp [enter, Function.update_apply]

@[simp]
theorem rows_enter (phase : Phase) : (table.enter caller phase).rows = table.rows := rfl

@[simp]
theorem locks_enter (phase : Phase) : (table.enter caller phase).locks = table.locks := rfl

@[simp]
theorem inserting_enter (phase : Phase)
    : (table.enter caller phase).inserting = table.inserting := rfl

/-- A call is answered by the statement that ends it. -/
theorem answered_enter (other : ι) (phase : Phase)
    : (table.enter caller phase).answered other
      = if other = caller then (match phase with | .returned outcome => some outcome | _ => none)
        else table.answered other := by
  unfold answered
  rw [phases_enter]
  by_cases same : other = caller <;> simp [same]

theorem answered_enter_silent {phase : Phase} (pending : table.answered caller = none)
    (silent : ∀ outcome, phase ≠ .returned outcome)
    : (table.enter caller phase).answered = table.answered := by
  funext other
  rw [answered_enter]
  split
  next same =>
    subst same
    rw [pending]
    cases phase <;> simp_all
  next => rfl

theorem answered_enter_returned (outcome : TransitionOutcome)
    : (table.enter caller (.returned outcome)).answered
      = Function.update table.answered caller (some outcome) := by
  funext other
  rw [answered_enter, Function.update_apply]

-- Uncontended runs

/-- What holds throughout an uncontended run: at most one call at a time has missed a job, its row
is still missing, and a call that has read a row holds the lock of it.
-/
structure Sound (calls : ι → TransitionCall) (table : JobsTable ι) : Prop where
  unraised : ∀ call, table.phases call ≠ .raised
  missed : ∀ call, table.Missed call → table.rows.get? (calls call).jobId = none
  alone : ∀ call other, table.Missed call → table.Missed other
    → (calls call).jobId = (calls other).jobId → call = other
  reserved : ∀ jobId call, table.inserting jobId = some call
    → (calls call).jobId = jobId ∧ table.phases call = .inserted
  held : ∀ call status, (table.phases call).seen = some status
    → table.locks (calls call).jobId = some call
      ∧ ∃ row, table.rows.get? (calls call).jobId = some row ∧ row.status = status
  holder : ∀ jobId call, table.locks jobId = some call
    → (calls call).jobId = jobId ∧ (table.phases call).seen ≠ none
  advances : ∀ call, table.phases call = .updated
    → (calls call).status = .done ∨ (calls call).status = .failed

theorem Sound.create (rows : JobStates) : Sound calls (create rows) := by
  constructor <;> simp [JobsTable.create, Missed, Phase.seen]

/-- A call that has missed its job has no row to find, so its `INSERT` does not raise. -/
theorem Sound.absent (sound : Sound calls table) (phase : table.phases caller = .absent)
    : table.rows.get? (calls caller).jobId = none :=
  sound.missed caller (.inl phase)

/-- Every statement keeps the invariant, by the statement: a new miss is the only one of its job,
a lock is taken from nobody and given up by its holder, and a row is written by the one call that
missed it or by the holder of its lock.
-/
theorem Ran.sound (ran : Ran calls table caller after)
    (uncontended : table.Uncontended calls caller) (sound : Sound calls table)
    : Sound calls after := by
  have raises (phase : table.phases caller = .absent)
      : table.rows.get? (calls caller).jobId = none :=
    sound.absent phase
  have reads := sound.held caller
  obtain ⟨unraised, missed, alone, reserved, held, holder, advances⟩ := sound
  cases ran with
  | misses phase unrecorded =>
      have lone := uncontended phase unrecorded
      constructor <;> simp only [Missed, phases_enter, rows_enter, locks_enter, inserting_enter] at *
        <;> grind [Phase.seen]
  | locks phase row recorded free =>
      constructor <;> simp only [Missed, phases_enter, rows_enter, locks_enter, inserting_enter,
        lock, Function.update_apply] at * <;> grind [Phase.seen]
  | inserts phase free unrecorded =>
      constructor <;> simp only [Missed, phases_enter, rows_enter, locks_enter, inserting_enter,
        reserve, Function.update_apply] at * <;> grind [Phase.seen]
  | raises phase recorded => exact absurd (raises phase) recorded
  | creates phase =>
      constructor <;> simp only [Missed, phases_enter, rows_enter, locks_enter, inserting_enter,
        reserve, record, Function.update_apply, Dict.get?_set] at * <;> grind [Phase.seen]
  | declines priorStatus phase outcome decided =>
      constructor <;> simp only [Missed, phases_enter, rows_enter, locks_enter, inserting_enter,
        lock, Function.update_apply] at * <;> grind [Phase.seen]
  | updates phase advances =>
      constructor <;> simp only [Missed, phases_enter, rows_enter, locks_enter, inserting_enter]
        at * <;> grind [Phase.seen]
  | commits phase =>
      have row := reads .running (by simp [phase, Phase.seen])
      constructor <;> simp only [Missed, phases_enter, rows_enter, locks_enter, inserting_enter,
        lock, record, Function.update_apply, Dict.get?_set] at * <;> grind [Phase.seen]

/-- What one statement does to the rows and the answers: nothing, or what the in-memory store does.
-/
theorem Ran.performs (ran : Ran calls table caller after) (sound : Sound calls table)
    : table.answered caller = none
      ∧ (after.answered = table.answered ∧ after.rows = table.rows
        ∨ ∃ outcome, (calls caller).inMemory table.rows = (outcome, after.rows)
            ∧ after.answered = Function.update table.answered caller (some outcome)) := by
  cases ran with
  | misses phase =>
      have pending : table.answered caller = none := by simp [answered, phase]
      exact ⟨pending, .inl ⟨answered_enter_silent pending (by simp), rfl⟩⟩
  | locks phase row recorded free =>
      have pending : table.answered caller = none := by simp [answered, phase]
      exact ⟨pending, .inl ⟨answered_enter_silent pending (by simp), rfl⟩⟩
  | inserts phase free unrecorded =>
      have pending : table.answered caller = none := by simp [answered, phase]
      exact ⟨pending, .inl ⟨answered_enter_silent pending (by simp), rfl⟩⟩
  | raises phase recorded => exact absurd (sound.absent phase) recorded
  | creates phase =>
      have unrecorded := sound.missed caller (.inr phase)
      exact ⟨by simp [answered, phase], .inr
        ⟨.applied, TransitionCall.inMemory_absent unrecorded, answered_enter_returned _⟩⟩
  | declines priorStatus phase outcome decided =>
      obtain ⟨_, row, recorded, rfl⟩ := sound.held caller priorStatus (by simp [phase, Phase.seen])
      exact ⟨by simp [answered, phase], .inr
        ⟨outcome, TransitionCall.inMemory_declines recorded decided, answered_enter_returned _⟩⟩
  | updates phase advances =>
      have pending : table.answered caller = none := by simp [answered, phase]
      exact ⟨pending, .inl ⟨answered_enter_silent pending (by simp), rfl⟩⟩
  | commits phase =>
      obtain ⟨_, row, recorded, running⟩ := sound.held caller .running (by simp [phase, Phase.seen])
      exact ⟨by simp [answered, phase], .inr
        ⟨.applied, TransitionCall.inMemory_advances recorded running (sound.advances caller phase),
          answered_enter_returned _⟩⟩

theorem Ran.length_lt (ran : Ran calls table caller after)
    : (table.phases caller).length < (after.phases caller).length
      ∧ ∀ other, other ≠ caller → after.phases other = table.phases other := by
  cases ran <;> simp_all [Phase.length, lock, reserve, record]

variable {rows : JobStates} {schedule : List ι}

theorem Runs.sound (run : Runs calls (Uncontended calls) rows schedule table)
    : Sound calls table := by
  induction run with
  | start => exact .create rows
  | statement _ uncontended ran ih => exact (statement_ran ran).sound uncontended ih

theorem Runs.linearized (run : Runs calls (Uncontended calls) rows schedule table)
    : Linearized (fun call => (calls call).inMemory) rows table.answered table.rows := by
  induction run with
  | start => exact .start rows fun _ => rfl
  | statement earlier uncontended ran ih =>
      rcases (statement_ran ran).performs earlier.sound
        with ⟨pending, ⟨same, kept⟩ | ⟨outcome, performed, answers⟩⟩
      · rwa [same, kept]
      · rw [answers]
        exact ih.answer pending performed

theorem Runs.count_le (run : Runs calls (Uncontended calls) rows schedule table) (call : ι)
    : schedule.count call ≤ (table.phases call).length := by
  induction run with
  | start => simp
  | @statement schedule table after caller _ _ ran ih =>
      obtain ⟨longer, others⟩ := (statement_ran ran).length_lt
      rw [List.count_append, List.count_singleton]
      by_cases same : caller = call
      · subst same
        simp only [beq_self_eq_true, if_true]
        omega
      · rw [others call (Ne.symm same)]
        simpa [same] using ih

/-- A call whose transaction holds something can end it. -/
theorem exists_statement_of_open
    (busy : table.phases caller = .inserted ∨ (table.phases caller).seen ≠ none)
    : ∃ after, table.statement calls caller = some after ∧ table.Uncontended calls caller := by
  have started : table.phases caller ≠ .ready := by
    intro ready
    simp [ready, Phase.seen] at busy
  refine (?_ : ∃ after, table.statement calls caller = some after).imp
    fun _ ran => ⟨ran, fun ready => absurd ready started⟩
  cases phase : table.phases caller with
  | inserted => simp [statement, phase]
  | locked priorStatus =>
      simp only [statement, phase]
      split
      · simp
      · split <;> simp
  | updated => simp [statement, phase]
  | _ => simp [phase, Phase.seen] at busy

theorem Sound.exists_statement_of_missed (sound : Sound calls table) (missed : table.Missed caller)
    : ∃ other after, table.statement calls other = some after ∧ table.Uncontended calls other := by
  rcases missed with phase | phase
  · cases free : table.inserting (calls caller).jobId with
    | none =>
        have runs : (table.statement calls caller).isSome := by
          simp [statement, phase, free, sound.absent phase]
        obtain ⟨after, ran⟩ := Option.isSome_iff_exists.mp runs
        exact ⟨caller, after, ran, fun ready => by simp [phase] at ready⟩
    | some other =>
        exact ⟨other, exists_statement_of_open (.inl (sound.reserved _ _ free).2)⟩
  · exact ⟨caller, exists_statement_of_open (.inl phase)⟩

theorem Sound.exists_statement (sound : Sound calls table) {call : ι}
    (unfinished : ∀ outcome, table.phases call ≠ .returned outcome)
    : ∃ other after, table.statement calls other = some after ∧ table.Uncontended calls other := by
  cases phase : table.phases call with
  | ready =>
      cases recorded : table.rows.get? (calls call).jobId with
      | none =>
          by_cases contended : ∃ other, (calls other).jobId = (calls call).jobId ∧ table.Missed other
          · obtain ⟨other, _, missed⟩ := contended
            exact sound.exists_statement_of_missed missed
          · push Not at contended
            have runs : (table.statement calls call).isSome := by
              simp [statement, phase, recorded]
            obtain ⟨after, ran⟩ := Option.isSome_iff_exists.mp runs
            exact ⟨call, after, ran, fun _ _ => contended⟩
      | some row =>
          cases free : table.locks (calls call).jobId with
          | none =>
              have runs : (table.statement calls call).isSome := by
                simp [statement, phase, recorded, free]
              obtain ⟨after, ran⟩ := Option.isSome_iff_exists.mp runs
              exact ⟨call, after, ran, fun _ missing => by simp [recorded] at missing⟩
          | some other =>
              exact ⟨other, exists_statement_of_open (.inr (sound.holder _ _ free).2)⟩
  | absent => exact sound.exists_statement_of_missed (.inl phase)
  | inserted => exact sound.exists_statement_of_missed (.inr phase)
  | locked priorStatus =>
      exact ⟨call, exists_statement_of_open (.inr (by simp [phase, Phase.seen]))⟩
  | updated => exact ⟨call, exists_statement_of_open (.inr (by simp [phase, Phase.seen]))⟩
  | returned outcome => exact absurd phase (unfinished outcome)
  | raised => exact absurd phase (sound.unraised call)

-- Contended runs

/-- A call that has inserted its job's key is the one the table names. -/
def Reserves (calls : ι → TransitionCall) (table : JobsTable ι) : Prop :=
  ∀ call, table.phases call = .inserted → table.inserting (calls call).jobId = some call

/-- Some call has raised or will: it missed a job that now has a row, or one that another call has
missed too.
-/
inductive Doomed (calls : ι → TransitionCall) (table : JobsTable ι) : Prop
  | raised (call : ι) (phase : table.phases call = .raised)
  | late (call : ι) (phase : table.phases call = .absent)
      (recorded : table.rows.get? (calls call).jobId ≠ none)
  | contended (call other : ι) (different : call ≠ other)
      (same : (calls call).jobId = (calls other).jobId)
      (missed : table.Missed call) (missedToo : table.Missed other)

theorem Ran.reserves (ran : Ran calls table caller after) (reserves : Reserves calls table)
    : Reserves calls after := by
  cases ran with
  | inserts phase free unrecorded =>
      simp only [Reserves, phases_enter, inserting_enter, reserve, Function.update_apply] at *
      grind
  | creates phase =>
      simp only [Reserves, phases_enter, inserting_enter, reserve, record, Function.update_apply]
        at *
      grind
  | _ =>
      simp only [Reserves, phases_enter, inserting_enter, lock, record] at *
      grind

/-- Rows are never removed. -/
theorem Ran.rows_ne_none (ran : Ran calls table caller after) {jobId : Uuid}
    (recorded : table.rows.get? jobId ≠ none)
    : after.rows.get? jobId ≠ none := by
  cases ran with
  | creates | commits =>
      simp only [rows_enter, lock, reserve, record, Dict.get?_set]
      split
      · simp
      · exact recorded
  | _ => exact recorded

/-- When one of two calls that missed the same job goes on, the other is too late. -/
theorem Ran.contended (ran : Ran calls table caller after) (reserves : Reserves calls table)
    {other : ι} (different : caller ≠ other) (same : (calls caller).jobId = (calls other).jobId)
    (missed : table.Missed caller) (missedToo : table.Missed other)
    : Doomed calls after := by
  obtain ⟨_, others⟩ := ran.length_lt
  have kept := others other (Ne.symm different)
  cases ran with
  | inserts =>
      refine .contended caller other different same (.inr (by simp)) ?_
      rwa [Missed, kept]
  | raises => exact .raised caller (by simp)
  | creates phase =>
      rcases missedToo with waiting | inserted
      · refine .late other (kept.trans waiting) ?_
        simp [reserve, record, Dict.get?_set, same]
      · have first := reserves caller phase
        rw [same, reserves other inserted] at first
        exact absurd (Option.some.inj first).symm different
  | _ => simp_all [Missed]

theorem Ran.doomed (ran : Ran calls table caller after) (reserves : Reserves calls table)
    (doomed : Doomed calls table)
    : Doomed calls after := by
  obtain ⟨_, others⟩ := ran.length_lt
  cases doomed with
  | raised call phase =>
      refine .raised call ?_
      by_cases same : call = caller
      · subst same
        cases ran <;> simp_all
      · rw [others call same, phase]
  | late call phase recorded =>
      by_cases same : call = caller
      · subst same
        cases ran with
        | inserts _ _ unrecorded => exact absurd unrecorded recorded
        | raises => exact .raised call (by simp)
        | _ => simp_all
      · exact .late call (by rw [others call same, phase]) (ran.rows_ne_none recorded)
  | contended call other different same missed missedToo =>
      by_cases first : call = caller
      · subst first
        exact ran.contended reserves different same missed missedToo
      · by_cases second : other = caller
        · subst second
          exact ran.contended reserves different.symm same.symm missedToo missed
        · refine .contended call other different same ?_ ?_
          · rwa [Missed, others call first]
          · rwa [Missed, others other second]

/-- A contended `SELECT` dooms a call. -/
theorem Ran.doomed_of_contended (ran : Ran calls table caller after)
    (contended : ¬table.Uncontended calls caller)
    : Doomed calls after := by
  simp only [Uncontended, not_forall, not_not] at contended
  obtain ⟨phase, unrecorded, other, same, missed⟩ := contended
  have different : other ≠ caller := by
    rintro rfl
    simp [Missed, phase] at missed
  obtain ⟨_, others⟩ := ran.length_lt
  cases ran with
  | misses =>
      refine .contended caller other different.symm same.symm (.inl (by simp)) ?_
      rwa [Missed, others other different]
  | _ => simp_all

theorem Doomed.unreturned (doomed : Doomed calls table)
    : ∃ call, ∀ outcome, table.phases call ≠ .returned outcome := by
  cases doomed with
  | raised call phase => exact ⟨call, by simp [phase]⟩
  | late call phase => exact ⟨call, by simp [phase]⟩
  | contended call _ _ _ missed =>
      rcases missed with phase | phase
      · exact ⟨call, by simp [phase]⟩
      · exact ⟨call, by simp [phase]⟩

/-- A run is uncontended throughout or has doomed a call. -/
theorem Runs.uncontended_or_doomed {allowed : JobsTable ι → ι → Prop}
    (run : Runs calls allowed rows schedule table)
    : Reserves calls table
      ∧ (Runs calls (Uncontended calls) rows schedule table ∨ Doomed calls table) := by
  induction run with
  | start => exact ⟨by simp [Reserves, JobsTable.create], .inl .start⟩
  | @statement schedule table after caller earlier _ statement ih =>
      have ran := statement_ran statement
      obtain ⟨reserves, uncontended | doomed⟩ := ih
      · refine ⟨ran.reserves reserves, ?_⟩
        by_cases admitted : table.Uncontended calls caller
        · exact .inl (.statement uncontended admitted statement)
        · exact .inr (ran.doomed_of_contended admitted)
      · exact ⟨ran.reserves reserves, .inr (ran.doomed reserves doomed)⟩

/-- Where one statement of an uncontended run leads: `applied` is returned where the rows change,
and a terminal row stays.
-/
theorem Ran.applied_iff (ran : Ran calls table caller after) (sound : Sound calls table)
    : (after.answered caller = some .applied ↔ after.rows ≠ table.rows)
      ∧ ∀ jobId state, table.rows.get? jobId = some state → state.status ≠ .running
          → after.rows.get? jobId = some state := by
  obtain ⟨pending, ⟨answers, kept⟩ | ⟨outcome, performed, answers⟩⟩ := ran.performs sound
  · rw [answers, pending, kept]
    exact ⟨by simp, fun _ _ recorded _ => recorded⟩
  · have rows : ((calls caller).inMemory table.rows).2 = after.rows := by rw [performed]
    have decided : ((calls caller).inMemory table.rows).1 = outcome := by rw [performed]
    constructor
    · rw [answers, Function.update_self, ← decided, ← rows, Option.some_inj]
      unfold TransitionCall.inMemory
      rcases JobStates.transition_cases table.rows (calls caller).jobId (calls caller).status
        (calls caller).bodySha256 with ⟨applied, _⟩ | ⟨declined, unapplied, kept⟩
      · have changed := JobStates.transition_applied_iff.mp (congrArg Prod.fst applied)
        exact ⟨fun _ same => changed (congrArg (Dict.get? · _) same),
          fun _ => congrArg Prod.fst applied⟩
      · simp [kept, unapplied]
    · intro jobId state recorded terminal
      rw [← rows]
      exact JobStates.transition_keeps_terminal recorded terminal

/-- In every uncontended run no call raises, the outcomes and rows are those of the in-memory store
run on the finished calls in some order, each call takes at most three statements and some call can
go on until all have returned, `applied` is returned exactly where the rows change, and a terminal
row stays. A run in which every call has returned was uncontended.
-/
theorem sqlJobStates_linearizable (calls : ι → TransitionCall) (rows : JobStates)
    : (∀ schedule table, Runs calls (Uncontended calls) rows schedule table
        → (∀ call, table.phases call ≠ .raised)
          ∧ Linearized (fun call => (calls call).inMemory) rows table.answered table.rows
          ∧ (∀ call, schedule.count call ≤ 3)
          ∧ (∀ call, (∀ outcome, table.phases call ≠ .returned outcome)
              → ∃ other after, table.statement calls other = some after
                  ∧ table.Uncontended calls other)
          ∧ ∀ caller after, table.statement calls caller = some after
              → (after.answered caller = some .applied ↔ after.rows ≠ table.rows)
                ∧ ∀ jobId state, table.rows.get? jobId = some state → state.status ≠ .running
                    → after.rows.get? jobId = some state)
      ∧ ∀ schedule table, Runs calls (fun _ _ => True) rows schedule table
          → (∀ call, ∃ outcome, table.phases call = .returned outcome)
          → Runs calls (Uncontended calls) rows schedule table := by
  constructor
  · intro schedule table run
    refine ⟨run.sound.unraised, run.linearized, ?_, fun _ => run.sound.exists_statement, ?_⟩
    · intro call
      refine Nat.le_trans (run.count_le call) ?_
      cases table.phases call <;> simp [Phase.length]
    · intro caller after ran
      exact (statement_ran ran).applied_iff run.sound
  · intro schedule table run returned
    rcases run.uncontended_or_doomed.2 with uncontended | doomed
    · exact uncontended
    · obtain ⟨call, unreturned⟩ := doomed.unreturned
      obtain ⟨outcome, phase⟩ := returned call
      exact absurd phase (unreturned outcome)

/-- Two first reports of one job, each of which finds it without a row: the second `INSERT` raises.
-/
theorem first_reports_race
    : ¬∀ (calls : Fin 2 → TransitionCall) (rows : JobStates) (schedule : List (Fin 2))
        (table : JobsTable (Fin 2)), Runs calls (fun _ _ => True) rows schedule table
        → ∀ call, table.phases call ≠ .raised := by
  intro claimed
  let report : TransitionCall := ⟨0, .running, py "00"⟩
  exact claimed (fun _ => report) [] [0, 1, 0, 0, 1] _
    (.statement (.statement (.statement (.statement (.statement .start
      trivial rfl) trivial rfl) trivial rfl) trivial rfl) trivial rfl) 1 rfl

end JobsTable

end Scanipy.Services.Scan

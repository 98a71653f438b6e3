import Scanipy.Tools.Worker.Journal.History

/-! The order that every history of a journal keeps: phases only move forward, what has been closed
stays closed, and calls, spools and cleanups are counted once.
-/

namespace Scanipy.Tools.Worker.Journal

open Library Python

/-- The place of a phase on the way to an exit; what comes after the exit is behind all of them. -/
def Phase.rank : Phase → Nat
  | .reserved => 0
  | .loaded => 1
  | .created => 2
  | .startIntended => 3
  | .started => 4
  | .observed => 5
  | .releaseIntended => 6
  | .released => 7
  | .domainExited => 8
  | .cleanup | .failed | .admitted | .orphaned | .reconciled => 9

namespace Event

/-- The event intends a call of the operation. -/
def Intends (event : Event) (operation : String) : Prop :=
  event.kind = .callIntent ∧ fieldText event.payload "operation" = .ok (py operation)

/-- The event moves the attempt towards an exit. -/
def Advances (event : Event) : Prop :=
  event.kind ∈ [.loaded, .created, .started, .observed, .releaseIntent, .released, .domainExited]
  ∨ event.Intends "container-create" ∨ event.Intends "container-start-attached"

/-- The event ends the attempt. -/
def Ends (event : Event) : Prop :=
  event.kind ∈ [.failed, .admitted, .reconciled]

/-- The event records a complete cleanup. -/
def Completes (event : Event) : Prop :=
  event.kind = .cleanup ∧ field event.payload "state" = .ok (.str (py "complete"))

/-- The call of an intent or of a registration. -/
def namedCall (event : Event) : Except JournalError Text :=
  fieldText event.payload "call_id"

/-- The call of a result. -/
def resultCall (event : Event) : Except JournalError Text := do
  let reference ← field event.payload "call"
  fieldText reference "call_id"

end Event

namespace Step

/-- The event leaves nothing but cleaning up. -/
def Closes (step : Step) : Prop :=
  step.after.phase = .cleanup ∨ step.after.phase = .orphaned ∨ step.event.kind = .recoveryEntered

/-- The event intends a call outside recovery and cleanup. -/
def Ordinary (step : Step) : Prop :=
  step.event.kind = .callIntent ∧ ¬step.before.Closing

instance : DecidablePred Ordinary :=
  fun step => inferInstanceAs (Decidable (step.event.kind = .callIntent ∧ ¬step.before.Closing))

/-- The call and the stream of a collection. -/
def collectedStream (step : Step) : Except JournalError (Text × Text) :=
  step.before.control.collectedKey step.event

/-- The call of the intent is disposed of. -/
def DisposedIn (step : Step) (replay : Replay) : Prop :=
  ∃ callId call, step.event.namedCall = .ok callId ∧ replay.calls.get? callId = some call
    ∧ disposedCall call = .ok true

end Step

/-- The steps of one kind of event. -/
def ofKind (kind : EventKind) (steps : List Step) : List Step :=
  steps.filter fun step => step.event.kind = kind

/-- A complete cleanup lies among the steps, with every call before it disposed of. -/
def CleanedUp (steps : List Step) : Prop :=
  ∃ before, ∃ cleanup : Step, ∃ after, steps = before ++ cleanup :: after
    ∧ cleanup.event.Completes ∧ ∀ intent ∈ ofKind .callIntent before, intent.DisposedIn cleanup.before

/-- The laws that every history keeps. -/
structure Forward (steps : List Step) : Prop where
  /-- The phase never goes back. -/
  phases : steps.Pairwise fun earlier later => earlier.after.phase.rank ≤ later.after.phase.rank
  /-- Nothing moves on after a cleanup, an orphan or a recovery. -/
  closed : steps.Pairwise fun earlier later => earlier.Closes → ¬later.event.Advances
  /-- An orphaned attempt stays unreconciled until it is `reconciled`. -/
  orphaned : steps.Pairwise fun earlier later => earlier.event.kind = .orphaned
    → later.after.phase ∈ [.orphaned, .cleanup, .reconciled]
  /-- Nothing follows the end. -/
  ended : steps.Pairwise fun earlier _ => ¬earlier.event.Ends
  cleaned : steps.Pairwise fun earlier later => ¬(earlier.event.Completes ∧ later.event.Completes)
  ordinary : (steps.filter Step.Ordinary).length ≤ 12
  calls : (ofKind .callIntent steps).length ≤ 16
  /-- Calls are numbered from one on. -/
  numbered : (ofKind .callIntent steps).map (fun step => field step.event.payload "call_sequence")
    = (List.range (ofKind .callIntent steps).length).map fun number => .ok (.int (number + 1))
  results : steps.Pairwise fun earlier later => earlier.event.kind = .callResult
    → later.event.kind = .callResult → earlier.event.resultCall ≠ later.event.resultCall
  registrations : steps.Pairwise fun earlier later => earlier.event.kind = .spoolRegistered
    → later.event.kind = .spoolRegistered → earlier.event.namedCall ≠ later.event.namedCall
  collections : steps.Pairwise fun earlier later => earlier.event.kind = .spoolCollected
    → later.event.kind = .spoolCollected → earlier.collectedStream ≠ later.collectedStream
  /-- What fails or is reconciled after a container was asked for has been cleaned up before. -/
  concluded : ∀ past (step : Step) rest, steps = past ++ step :: rest
    → step.event.kind = .failed ∨ step.event.kind = .reconciled
    → (∃ create ∈ past, create.event.Intends "container-create") → CleanedUp past

theorem Phase.rank_le (phase : Phase) : phase.rank ≤ 9 := by
  cases phase <;> decide

variable {c : Control} {callId : Text} {call : Call}

/-- Only the start of a call moves the phase. -/
theorem Control.intend_phase {operation : Text}
    (starts : operation = py "container-start-attached" → c.phase = .created)
    : (c.intend callId operation call).phase = c.phase
      ∨ c.phase = .created ∧ (c.intend callId operation call).phase = .startIntended := by
  by_cases started : operation = py "container-start-attached"
  · exact .inr ⟨starts started, by simp [intend, started]⟩
  · exact .inl (by simp [intend, started])

variable {event : Event} {after : Control}

/-- An event leaves the phase, moves it forward, closes the attempt or ends it. -/
theorem Move.phase_cases (moved : Move event c after)
    : after.phase = c.phase
      ∨ c.phase.rank < 9 ∧ c.phase.rank ≤ after.phase.rank
      ∨ after.phase ∈ [.orphaned, .cleanup, .reconciled]
      ∨ c.orphaned = false ∧ after.phase ∈ [.failed, .admitted] := by
  cases moved with
  | reserved | settled | registered | collected | recovered => exact .inl rfl
  | intended _ _ _ _ _ _ _ _ starts =>
      refine (Control.intend_phase fun start => (starts start).2.1).imp id fun moved => .inl ?_
      rw [moved.1, moved.2]
      decide
  | loaded _ _ phase | created _ _ phase | started _ _ phase | releaseIntended _ _ phase
  | exited _ _ phase | released _ _ _ phase => exact .inr (.inl (by simp [phase, Phase.rank]))
  | observed _ _ phase =>
      rcases phase with phase | phase
      · exact .inr (.inl (by simp [phase, Phase.rank]))
      · exact .inr (.inl (by simp [phase, Phase.rank]))
  | completed | partlyCleaned | orphaned | reconciled => exact .inr (.inr (.inl (by simp)))
  | admitted _ calm => exact .inr (.inr (.inr ⟨calm.orphaned, by simp⟩))
  | failed _ orphaned => exact .inr (.inr (.inr ⟨orphaned, by simp⟩))

variable {before : Control}

theorem Applied.rank_le (applied : Applied event before after)
    : before.phase.rank ≤ after.phase.rank := by
  obtain ⟨middle, moved, rfl⟩ := applied.moved
  have last : middle.phase ∈ [.cleanup, .orphaned, .reconciled, .failed, .admitted]
      → before.phase.rank ≤ middle.phase.rank := by
    intro listed
    have ranked : middle.phase.rank = 9 := by
      revert listed
      cases middle.phase <;> decide
    exact ranked ▸ before.phase.rank_le
  rcases moved.phase_cases with same | ⟨_, forward⟩ | listed | ⟨_, listed⟩
  · exact same ▸ le_rfl
  · exact forward
  · exact last (by grind)
  · exact last (by grind)

variable {last : Control} {steps : List Step}

theorem Leads.phases (leads : Leads c steps last)
    : steps.Pairwise fun earlier later => earlier.after.phase.rank ≤ later.after.phase.rank :=
  leads.pairwise (fun _ => True) (fun step c => step.after.phase.rank ≤ c.phase.rank) trivial
    (fun _ _ _ => trivial) (fun _ _ => le_rfl) (fun _ _ _ marked applied => marked.trans applied.rank_le)
    fun _ _ marked applied => marked.trans applied.rank_le

/-- The attempt was closed. -/
def Control.Shut (c : Control) : Prop :=
  c.recovery = true ∨ 9 ≤ c.phase.rank

/-- An attempt that is in recovery stays in it. -/
theorem Move.recovery_kept (moved : Move event c after) (recovery : c.recovery = true)
    : after.recovery = true := by
  cases moved with
  | recovered | orphaned => rfl
  | _ => exact recovery

theorem Applied.shut_kept (applied : Applied event before after) (shut : before.Shut)
    : after.Shut := by
  have forward := applied.rank_le
  obtain ⟨middle, moved, rfl⟩ := applied.moved
  exact shut.imp moved.recovery_kept fun ranked => ranked.trans forward

theorem Move.recovered_of (moved : Move event c after) (kind : event.kind = .recoveryEntered)
    : after.recovery = true := by
  cases moved with
  | recovered => rfl
  | _ => simp_all

variable {step : Step}

theorem Step.Applies.shut (applied : step.Applies) (closes : step.Closes)
    : step.after.control.Shut := by
  rcases closes with phase | phase | kind
  · have ranked : step.after.control.phase.rank = 9 := by
      rw [show step.after.control.phase = .cleanup from phase]
      rfl
    exact .inr ranked.ge
  · have ranked : step.after.control.phase.rank = 9 := by
      rw [show step.after.control.phase = .orphaned from phase]
      rfl
    exact .inr ranked.ge
  · obtain ⟨middle, moved, same⟩ := applied.moved
    rw [same]
    exact .inl (moved.recovered_of kind)

/-- Only an attempt that is open moves on. -/
theorem Move.not_advances (moved : Move event c after) (shut : c.Shut)
    : ¬event.Advances := by
  have opened : c.recovery = false → c.phase.rank < 9 → False := by
    intro recovery ranked
    rcases shut with shut | shut
    · rw [recovery] at shut
      cases shut
    · exact absurd ranked (by omega)
  intro advances
  cases moved with
  | loaded _ calm phase | created _ calm phase | started _ calm phase
  | releaseIntended _ calm phase => exact opened calm.recovery (by simp [phase, Phase.rank])
  | observed _ calm phase =>
      refine opened calm.recovery ?_
      rcases phase with phase | phase
      · simp [phase, Phase.rank]
      · simp [phase, Phase.rank]
  | released _ recovery _ phase | exited _ recovery phase =>
      exact opened recovery (by simp [phase, Phase.rank])
  | intended kind _ ran _ _ _ _ creates starts =>
      rcases advances with listed | ⟨_, create⟩ | ⟨_, start⟩
      · rw [kind] at listed
        exact absurd listed (by decide)
      · obtain ⟨closing, phase, -⟩ := creates (Except.ok.inj (ran.symm.trans create))
        exact opened (by simpa using (not_or.mp closing).1) (by simp [phase, Phase.rank])
      · obtain ⟨closing, phase, -⟩ := starts (Except.ok.inj (ran.symm.trans start))
        exact opened (by simpa using (not_or.mp closing).1) (by simp [phase, Phase.rank])
  | _ => simp_all [Event.Advances, Event.Intends]

theorem Leads.closed (leads : Leads c steps last)
    : steps.Pairwise fun earlier later => earlier.Closes → ¬later.event.Advances := by
  refine leads.pairwise (fun _ => True) (fun step c => step.Closes → c.Shut) trivial
    (fun _ _ _ => trivial) (fun _ applied => applied.shut) ?_ ?_
  · exact fun _ _ _ marked applied closes => applied.shut_kept (marked closes)
  · intro _ _ marked applied closes
    obtain ⟨middle, moved, -⟩ := applied.moved
    exact moved.not_advances (marked closes)

/-- An orphaned attempt, up to its reconciliation. -/
structure Control.Stranded (c : Control) : Prop where
  orphaned : c.orphaned = true
  phase : c.phase ∈ [.orphaned, .cleanup, .reconciled]

theorem Move.stranded_of (moved : Move event c after) (kind : event.kind = .orphaned)
    : after.Stranded := by
  cases moved with
  | orphaned => exact ⟨rfl, by simp⟩
  | _ => simp_all

theorem Move.orphaned_kept (moved : Move event c after) (orphaned : c.orphaned = true)
    : after.orphaned = true := by
  cases moved with
  | orphaned => rfl
  | _ => exact orphaned

theorem Move.stranded_kept (moved : Move event c after) (stranded : c.Stranded)
    : after.Stranded := by
  refine ⟨moved.orphaned_kept stranded.orphaned, ?_⟩
  rcases moved.phase_cases with same | ⟨early, _⟩ | listed | ⟨free, _⟩
  · exact same ▸ stranded.phase
  · have ranked : c.phase.rank = 9 := by
      have listed := stranded.phase
      revert listed
      cases c.phase <;> decide
    omega
  · exact listed
  · rw [stranded.orphaned] at free
    cases free

theorem Leads.orphaned (leads : Leads c steps last)
    : steps.Pairwise fun earlier later => earlier.event.kind = .orphaned
        → later.after.phase ∈ [.orphaned, .cleanup, .reconciled] := by
  have kept : ∀ {earlier step : Step}, (earlier.event.kind = .orphaned → step.before.control.Stranded)
      → step.Applies → earlier.event.kind = .orphaned → step.after.control.Stranded := by
    intro earlier step marked applied kind
    obtain ⟨middle, moved, same⟩ := applied.moved
    have stranded := moved.stranded_kept (marked kind)
    exact same ▸ ⟨stranded.orphaned, stranded.phase⟩
  refine leads.pairwise (fun _ => True)
    (fun step c => step.event.kind = .orphaned → c.Stranded) trivial (fun _ _ _ => trivial) ?_
    (fun _ _ _ => kept) fun _ _ marked applied kind => (kept marked applied kind).phase
  intro step applied kind
  obtain ⟨middle, moved, same⟩ := applied.moved
  have stranded := moved.stranded_of kind
  exact same ▸ ⟨stranded.orphaned, stranded.phase⟩

theorem Move.ended_of (moved : Move event c after) (ends : event.Ends)
    : after.phase ∈ [.failed, .admitted, .reconciled] := by
  cases moved with
  | failed | admitted | reconciled => simp
  | _ => simp_all [Event.Ends]

theorem Applied.not_ended (applied : Applied event before after)
    : before.phase ∉ [.failed, .admitted, .reconciled] := by
  simpa using applied.going

theorem Leads.ended {c last : Control} {steps : List Step} (leads : Leads c steps last)
    : steps.Pairwise fun earlier _ => ¬earlier.event.Ends := by
  refine leads.pairwise (fun _ => True)
    (fun step c => step.event.Ends → c.phase ∈ [.failed, .admitted, .reconciled]) trivial
    (fun _ _ _ => trivial) ?_ (fun _ _ _ marked applied ends => absurd (marked ends) applied.not_ended)
    fun _ _ marked applied ends => applied.not_ended (marked ends)
  intro step applied ends
  obtain ⟨middle, moved, same⟩ := applied.moved
  exact same ▸ moved.ended_of ends

/-- A complete cleanup is the first, with every call disposed of. -/
theorem Move.completes (moved : Move event c after) (completes : event.Completes)
    : c.cleanup = none ∧ c.Disposed ∧ after.cleanup ≠ none := by
  obtain ⟨kind, complete⟩ := completes
  cases moved with
  | completed _ _ first disposed => exact ⟨first, disposed, by simp⟩
  | partlyCleaned _ stated other => exact absurd (Except.ok.inj (stated.symm.trans complete)) other
  | _ => simp_all

/-- Only a complete cleanup is remembered. -/
theorem Move.cleanup_cases (moved : Move event c after)
    : after.cleanup = c.cleanup ∨ event.Completes := by
  cases moved with
  | completed kind complete => exact .inr ⟨kind, complete⟩
  | _ => exact .inl rfl

theorem Leads.cleaned (leads : Leads c steps last)
    : steps.Pairwise fun earlier later =>
        ¬(earlier.event.Completes ∧ later.event.Completes) := by
  refine leads.pairwise (fun _ => True) (fun step c => step.event.Completes → c.cleanup ≠ none)
    trivial (fun _ _ _ => trivial) ?_ ?_ ?_
  · intro step applied completes
    obtain ⟨middle, moved, same⟩ := applied.moved
    exact same ▸ (moved.completes completes).2.2
  · intro _ step _ marked applied completes
    obtain ⟨middle, moved, same⟩ := applied.moved
    rcases moved.cleanup_cases with kept | further
    · exact same ▸ kept ▸ marked completes
    · exact same ▸ (moved.completes further).2.2
  · rintro _ step marked applied ⟨completes, further⟩
    obtain ⟨middle, moved, -⟩ := applied.moved
    exact marked completes (moved.completes further).1

variable {kind : EventKind}

/-- Events of one kind whose keys are stored, and were not before, have different keys. -/
theorem Leads.once {κ : Type} (leads : Leads c steps last) {key : Step → κ} (sound : Control → Prop)
    (has : Control → κ → Prop) (start : sound c)
    (soundKept : ∀ {event c after}, Move event c after → sound c → sound after)
    (filed : ∀ {c : Control} {byDigest},
      (sound c → sound { c with byDigest }) ∧ ∀ key, has c key → has { c with byDigest } key)
    (stores : ∀ {step : Step} {after}, Move step.event step.before.control after
      → step.event.kind = kind → ¬has step.before.control (key step) ∧ has after (key step))
    (kept : ∀ {event c after}, Move event c after → sound c → ∀ key, has c key → has after key)
    : steps.Pairwise fun earlier later => earlier.event.kind = kind → later.event.kind = kind
        → key earlier ≠ key later := by
  refine leads.pairwise sound (fun step c => step.event.kind = kind → has c (key step)) start
    ?_ ?_ ?_ ?_
  · intro step sound applied
    obtain ⟨middle, moved, same⟩ := applied.moved
    exact same ▸ filed.1 (soundKept moved sound)
  · intro step applied kind
    obtain ⟨middle, moved, same⟩ := applied.moved
    exact same ▸ filed.2 _ (stores moved kind).2
  · intro earlier step sound marked applied kind
    obtain ⟨middle, moved, same⟩ := applied.moved
    exact same ▸ filed.2 _ (kept moved sound _ (marked kind))
  · intro earlier step marked applied first second same
    obtain ⟨middle, moved, -⟩ := applied.moved
    have stored := marked first
    rw [same] at stored
    exact (stores moved second).1 stored

/-- A new call, in the tables. -/
structure Intended (event : Event) (c after : Control) (callId : Text) (call : Call) : Prop where
  named : event.namedCall = .ok callId
  ran : fieldText event.payload "operation" = .ok call.operation
  fresh : callId ∉ c.named
  numbered : field event.payload "call_sequence" = .ok (.int (c.calls.length + 1))
  few : c.calls.length < 16
  ordinary : ¬c.Closing → c.ordinaryCalls < 12
  pending : call.outcome = none
  calls : after.calls = c.calls.set callId call
  names : after.named = c.named ++ [callId]
  counted : after.ordinaryCalls = if c.Closing then c.ordinaryCalls else c.ordinaryCalls + 1

/-- The table of calls is left, or a call that is open gets its result. -/
structure Settled (event : Event) (c after : Control) : Prop where
  names : after.named = c.named
  counted : after.ordinaryCalls = c.ordinaryCalls
  calls : event.kind ≠ .callResult ∧ after.calls = c.calls
    ∨ ∃ callId call outcome, event.resultCall = .ok callId ∧ c.calls.get? callId = some call
      ∧ call.outcome = none
      ∧ after.calls = c.calls.set callId { call with outcome := some outcome }

/-- What an event can do to the calls. -/
theorem Move.calls_cases (moved : Move event c after)
    : event.kind = .callIntent ∧ (∃ callId call, Intended event c after callId call)
      ∨ event.kind ≠ .callIntent ∧ Settled event c after := by
  cases moved with
  | intended kind named ran fresh numbered few ordinary _ _ runs pending =>
      exact .inl ⟨kind, _, _, named, by rw [ran, runs], fresh, numbered, few,
        fun opened => (ordinary opened).2, pending, rfl, rfl, rfl⟩
  | settled kind refers named found pending =>
      refine .inr ⟨by simp [kind], rfl, rfl, .inr ⟨_, _, _, ?_, found, pending, rfl⟩⟩
      rw [Event.resultCall, refers, ok_bind, named]
  | _ => exact .inr ⟨by simp_all, rfl, rfl, .inl ⟨by simp_all, rfl⟩⟩

/-- Every call has used its identifier. -/
def Control.Named (c : Control) : Prop :=
  ∀ callId ∈ c.calls.keys, callId ∈ c.named

theorem Move.named_kept (moved : Move event c after) (named : c.Named)
    : after.Named := by
  intro callId listed
  rcases moved.calls_cases with ⟨_, other, call, intended⟩ | ⟨_, settled⟩
  · rw [intended.calls, Dict.mem_keys_set] at listed
    rw [intended.names]
    exact List.mem_append.mpr (listed.imp (named callId) (by simp))
  · rw [settled.names]
    rcases settled.calls with ⟨_, same⟩ | ⟨other, call, outcome, _, found, _, set⟩
    · exact named callId (same ▸ listed)
    · rw [set, Dict.mem_keys_set] at listed
      rcases listed with listed | rfl
      · exact named callId listed
      · exact named callId (Dict.mem_keys.mpr ⟨call, found⟩)

/-- A call keeps its operation, and its result once it has one. -/
theorem Move.call_kept (moved : Move event c after) (named : c.Named)
    (found : c.calls.get? callId = some call)
    : ∃ kept, after.calls.get? callId = some kept ∧ kept.operation = call.operation
        ∧ (call.outcome ≠ none → kept = call) := by
  rcases moved.calls_cases with ⟨_, other, fresh, intended⟩ | ⟨_, settled⟩
  · have different : other ≠ callId := by
      rintro rfl
      exact intended.fresh (named other (Dict.mem_keys.mpr ⟨call, found⟩))
    rw [intended.calls, Dict.get?_set, if_neg different]
    exact ⟨call, found, rfl, fun _ => rfl⟩
  · rcases settled.calls with ⟨_, same⟩ | ⟨other, opened, outcome, _, looked, pending, set⟩
    · exact ⟨call, same ▸ found, rfl, fun _ => rfl⟩
    · rw [set, Dict.get?_set]
      by_cases same : other = callId
      · subst same
        obtain rfl : opened = call := Option.some.inj (looked.symm.trans found)
        rw [if_pos rfl]
        exact ⟨_, rfl, rfl, fun done => absurd pending done⟩
      · rw [if_neg same]
        exact ⟨call, found, rfl, fun _ => rfl⟩

/-- The call has a result. -/
def Control.HasResult (c : Control) (callId : Except JournalError Text) : Prop :=
  ∃ name call, callId = .ok name ∧ c.calls.get? name = some call ∧ call.outcome ≠ none

/-- A call gets its result once. -/
theorem Move.results (moved : Move event c after) (kind : event.kind = .callResult)
    : ¬c.HasResult event.resultCall ∧ after.HasResult event.resultCall := by
  rcases moved.calls_cases with ⟨other, _⟩ | ⟨_, settled⟩
  · rw [kind] at other
    cases other
  · rcases settled.calls with ⟨other, _⟩ | ⟨callId, call, outcome, named, found, pending, set⟩
    · exact absurd kind other
    · refine ⟨?_, callId, _, named, by rw [set, Dict.get?_set, if_pos rfl], by simp⟩
      rintro ⟨name, stored, same, looked, done⟩
      obtain rfl := Except.ok.inj (named.symm.trans same)
      obtain rfl := Option.some.inj (looked.symm.trans found)
      exact done pending

/-- A result stays. -/
theorem Move.result_kept (moved : Move event c after) (named : c.Named)
    {callId : Except JournalError Text} (result : c.HasResult callId)
    : after.HasResult callId := by
  obtain ⟨name, call, is, found, done⟩ := result
  obtain ⟨kept, stored, -, unchanged⟩ := moved.call_kept named found
  obtain rfl := unchanged done
  exact ⟨name, kept, is, stored, done⟩

theorem Leads.results (leads : Leads c steps last) (named : c.Named)
    : steps.Pairwise fun earlier later => earlier.event.kind = .callResult
        → later.event.kind = .callResult → earlier.event.resultCall ≠ later.event.resultCall :=
  leads.once Control.Named Control.HasResult named Move.named_kept
    ⟨id, fun _ => id⟩ Move.results fun moved named _ => moved.result_kept named

/-- A spool of the call is registered. -/
def Control.HasRegistration (c : Control) (callId : Except JournalError Text) : Prop :=
  ∃ name ∈ c.registrations.keys, callId = .ok name

/-- The stream of the call is collected. -/
def Control.HasCollection (c : Control) (key : Except JournalError (Text × Text)) : Prop :=
  ∃ stream ∈ c.collections.keys, key = .ok stream

theorem Move.registrations (moved : Move event c after) (kind : event.kind = .spoolRegistered)
    : ¬c.HasRegistration event.namedCall ∧ after.HasRegistration event.namedCall := by
  cases moved with
  | registered _ named fresh =>
      refine ⟨?_, _, Dict.mem_keys_set.mpr (.inr rfl), named⟩
      rintro ⟨name, listed, same⟩
      obtain rfl := Except.ok.inj (named.symm.trans same)
      exact fresh listed
  | _ => simp_all

theorem Move.registrations_kept (moved : Move event c after) {callId : Except JournalError Text}
    (registered : c.HasRegistration callId)
    : after.HasRegistration callId := by
  cases moved with
  | registered =>
      obtain ⟨name, listed, same⟩ := registered
      exact ⟨name, Dict.mem_keys_set.mpr (.inl listed), same⟩
  | _ => exact registered

theorem Leads.registrations (leads : Leads c steps last)
    : steps.Pairwise fun earlier later => earlier.event.kind = .spoolRegistered
        → later.event.kind = .spoolRegistered
        → earlier.event.namedCall ≠ later.event.namedCall :=
  leads.once (fun _ => True) Control.HasRegistration trivial (fun _ _ => trivial)
    ⟨id, fun _ => id⟩ Move.registrations fun moved _ _ => moved.registrations_kept

theorem Move.collections (moved : Move event c after) (kind : event.kind = .spoolCollected)
    : ¬c.HasCollection (c.collectedKey event) ∧ after.HasCollection (c.collectedKey event) := by
  cases moved with
  | collected _ named fresh =>
      refine ⟨?_, _, Dict.mem_keys_set.mpr (.inr rfl), named⟩
      rintro ⟨name, listed, same⟩
      obtain rfl := Except.ok.inj (named.symm.trans same)
      exact fresh listed
  | _ => simp_all

theorem Move.collections_kept (moved : Move event c after) {key : Except JournalError (Text × Text)}
    (collected : c.HasCollection key)
    : after.HasCollection key := by
  cases moved with
  | collected =>
      obtain ⟨name, listed, same⟩ := collected
      exact ⟨name, Dict.mem_keys_set.mpr (.inl listed), same⟩
  | _ => exact collected

theorem Leads.collections (leads : Leads c steps last)
    : steps.Pairwise fun earlier later => earlier.event.kind = .spoolCollected
        → later.event.kind = .spoolCollected
        → earlier.collectedStream ≠ later.collectedStream :=
  leads.once (fun _ => True) Control.HasCollection trivial (fun _ _ => trivial)
    ⟨id, fun _ => id⟩ Move.collections fun moved _ _ => moved.collections_kept

-- What a control says about the past

/-- The numbers of the calls that the steps intend. -/
def numbers (steps : List Step) : List (Except JournalError Json) :=
  (ofKind .callIntent steps).map fun step => field step.event.payload "call_sequence"

/-- The table has the call that the step intends. -/
def Control.HasCall (c : Control) (intent : Step) : Prop :=
  ∃ callId call, intent.event.namedCall = .ok callId ∧ c.calls.get? callId = some call
    ∧ fieldText intent.event.payload "operation" = .ok call.operation

/-- The control counts the calls of the past, has them all and remembers a complete cleanup. -/
structure Recounts (past : List Step) (c : Control) : Prop where
  named : c.Named
  ordinary : (past.filter Step.Ordinary).length = c.ordinaryCalls
  fewOrdinary : c.ordinaryCalls ≤ 12
  calls : (ofKind .callIntent past).length = c.calls.length
  fewCalls : c.calls.length ≤ 16
  numbered : numbers past = (List.range c.calls.length).map fun number => .ok (.int (number + 1))
  recorded : ∀ intent ∈ ofKind .callIntent past, c.HasCall intent
  cleaned : c.cleanup ≠ none → CleanedUp past

variable {past : List Step}

theorem ofKind_append {rest : List Step}
    : ofKind kind (past ++ rest) = ofKind kind past ++ ofKind kind rest :=
  List.filter_append ..

theorem Move.hasCall_kept (moved : Move event c after) (named : c.Named) {intent : Step}
    (recorded : c.HasCall intent)
    : after.HasCall intent := by
  obtain ⟨callId, call, is, found, ran⟩ := recorded
  obtain ⟨kept, stored, operation, -⟩ := moved.call_kept named found
  exact ⟨callId, kept, is, stored, by rw [ran, operation]⟩

/-- A cleanup that completes after calls that are all recorded has disposed of them. -/
theorem Recounts.cleanedUp (recounts : Recounts past step.before.control)
    (completes : step.event.Completes) (disposed : step.before.control.Disposed)
    : CleanedUp (past ++ [step]) := by
  refine ⟨past, step, [], rfl, completes, ?_⟩
  intro intent listed
  obtain ⟨callId, call, is, found, -⟩ := recounts.recorded intent listed
  exact ⟨callId, call, is, found, disposed _ (Dict.mem_of_get? found)⟩

theorem CleanedUp.append (cleaned : CleanedUp past) (rest : List Step)
    : CleanedUp (past ++ rest) := by
  obtain ⟨before, cleanup, after, rfl, completes, disposed⟩ := cleaned
  exact ⟨before, cleanup, after ++ rest, by simp, completes, disposed⟩

/-- Calls outside recovery and cleanup are counted, up to twelve. -/
theorem Move.ordinary_counted (moved : Move step.event step.before.control after)
    : after.ordinaryCalls
        = step.before.control.ordinaryCalls + ([step].filter Step.Ordinary).length
      ∧ (step.before.control.ordinaryCalls ≤ 12 → after.ordinaryCalls ≤ 12) := by
  rcases moved.calls_cases with ⟨kind, callId, call, intended⟩ | ⟨kind, settled⟩
  · rw [intended.counted]
    by_cases closing : step.before.control.Closing
    · have other : ¬step.Ordinary := fun ordinary => ordinary.2 closing
      simp [closing, other]
    · have ordinary : step.Ordinary := ⟨kind, closing⟩
      simp only [if_neg closing, List.filter_cons, List.filter_nil, ordinary]
      exact ⟨rfl, fun _ => intended.ordinary closing⟩
  · have other : ¬step.Ordinary := fun ordinary => kind ordinary.1
    simp [settled.counted, other]

/-- A result leaves the number of calls. -/
theorem Settled.length (settled : Settled event c after)
    : after.calls.length = c.calls.length := by
  rcases settled.calls with ⟨_, same⟩ | ⟨callId, call, outcome, _, found, _, set⟩
  · rw [same]
  · have stored : callId ∈ c.calls.keys := Dict.mem_keys.mpr ⟨call, found⟩
    have keys := Dict.keys_set c.calls callId { call with outcome := some outcome }
    rw [if_pos stored, ← set] at keys
    simpa [Dict.keys] using congrArg List.length keys

/-- A new call adds one. -/
theorem Intended.length (intended : Intended event c after callId call) (named : c.Named)
    : after.calls.length = c.calls.length + 1 := by
  have fresh : callId ∉ c.calls.keys := fun listed => intended.fresh (named callId listed)
  rw [intended.calls, Dict.set_of_not_mem fresh, List.length_append]
  rfl

/-- Calls are counted, up to sixteen, and take their numbers from the count. -/
theorem Move.calls_counted (moved : Move step.event step.before.control after)
    (named : step.before.control.Named)
    : after.calls.length
        = step.before.control.calls.length + (ofKind .callIntent [step]).length
      ∧ (step.before.control.calls.length ≤ 16 → after.calls.length ≤ 16)
      ∧ (List.range step.before.control.calls.length).map (fun number => .ok (.int (number + 1)))
          ++ numbers [step]
        = (List.range after.calls.length).map fun number => .ok (.int (number + 1)) := by
  rcases moved.calls_cases with ⟨kind, callId, call, intended⟩ | ⟨kind, settled⟩
  · have one : ofKind .callIntent [step] = [step] := by simp [ofKind, kind]
    rw [numbers, one, intended.length named]
    refine ⟨rfl, fun _ => intended.few, ?_⟩
    simp [List.range_succ, intended.numbered]
  · have other : ofKind .callIntent [step] = [] := by simp [ofKind, kind]
    rw [numbers, other, settled.length]
    exact ⟨rfl, id, by simp⟩

/-- The call of an intent is recorded. -/
theorem Move.calls_recorded (moved : Move step.event step.before.control after)
    (kind : step.event.kind = .callIntent)
    : after.HasCall step := by
  rcases moved.calls_cases with ⟨_, callId, call, intended⟩ | ⟨other, _⟩
  · exact ⟨callId, call, intended.named, by rw [intended.calls, Dict.get?_set, if_pos rfl],
      intended.ran⟩
  · exact absurd kind other

theorem Recounts.applies (recounts : Recounts past step.before.control) (applied : step.Applies)
    : Recounts (past ++ [step]) step.after.control := by
  obtain ⟨middle, moved, same⟩ := applied.moved
  obtain ⟨ordinary, fewOrdinary⟩ := moved.ordinary_counted
  obtain ⟨calls, fewCalls, numbered⟩ := moved.calls_counted recounts.named
  rw [same]
  refine ⟨moved.named_kept recounts.named, ?_, fewOrdinary recounts.fewOrdinary, ?_,
    fewCalls recounts.fewCalls, ?_, ?_, ?_⟩
  · rw [List.filter_append, List.length_append, recounts.ordinary]
    exact ordinary.symm
  · rw [ofKind_append, List.length_append, recounts.calls]
    exact calls.symm
  · rw [numbers, ofKind_append, List.map_append]
    exact (congrArg (· ++ numbers [step]) recounts.numbered).trans numbered
  · intro intent listed
    rw [ofKind_append] at listed
    rcases List.mem_append.mp listed with earlier | now
    · exact moved.hasCall_kept recounts.named (recounts.recorded intent earlier)
    · obtain ⟨here, kind⟩ := List.mem_filter.mp now
      obtain rfl := List.mem_singleton.mp here
      exact moved.calls_recorded (of_decide_eq_true kind)
  · intro done
    rcases moved.cleanup_cases with kept | completes
    · exact (recounts.cleaned (kept ▸ done)).append [step]
    · exact recounts.cleanedUp completes (moved.completes completes).2.1

/-- The control of every history recounts it. -/
theorem Leads.recounts (leads : Leads .start steps last)
    : Recounts steps last := by
  refine leads.carries ?_ fun past step recounts applied => recounts.applies applied
  refine ⟨?_, rfl, Nat.zero_le _, rfl, Nat.zero_le _, rfl, ?_, fun done => absurd rfl done⟩
  · rintro callId listed
    cases listed
  · rintro intent listed
    cases listed

/-- A failure or a reconciliation finds a complete cleanup, or no container that was asked for. -/
theorem Move.concluded (moved : Move event c after)
    (ends : event.kind = .failed ∨ event.kind = .reconciled)
    : c.cleanup ≠ none ∨ ¬c.HasIntent "container-create" := by
  cases moved with
  | failed _ _ _ cleaned => exact cleaned
  | reconciled _ _ _ cleaned => exact .inl cleaned
  | _ => simp_all

theorem Leads.concluded (leads : Leads .start steps last)
    : ∀ past (step : Step) rest, steps = past ++ step :: rest
        → step.event.kind = .failed ∨ step.event.kind = .reconciled
        → (∃ create ∈ past, create.event.Intends "container-create") → CleanedUp past := by
  rintro past step rest rfl ends ⟨create, listed, kind, ran⟩
  obtain ⟨middle, before, rfl, applied, -⟩ := leads_append.mp leads
  obtain ⟨next, moved, -⟩ := applied.moved
  have recounts := before.recounts
  refine recounts.cleaned ((moved.concluded ends).resolve_right ?_)
  obtain ⟨callId, call, -, found, operation⟩ :=
    recounts.recorded create (List.mem_filter.mpr ⟨listed, decide_eq_true kind⟩)
  have runs : call.operation = py "container-create" :=
    Except.ok.inj (operation.symm.trans ran)
  exact fun without => without ⟨_, Dict.mem_of_get? found, runs⟩

theorem Leads.forward (leads : Leads .start steps last)
    : Forward steps := by
  have recounts := leads.recounts
  refine ⟨leads.phases, leads.closed, leads.orphaned, leads.ended, leads.cleaned, ?_, ?_, ?_,
    leads.results ?_, leads.registrations, leads.collections, leads.concluded⟩
  · exact recounts.ordinary ▸ recounts.fewOrdinary
  · exact recounts.calls ▸ recounts.fewCalls
  · rw [recounts.calls]
    exact recounts.numbered
  · rintro callId listed
    cases listed

/-- The events of a journal that are applied only move forward; where the journal is accepted, these
are all its events, and the last leaves the phase that the report declares.
-/
theorem journalSteps_forward (imports : Imports) (manifest : Bytes) (events : List Bytes)
    (blobs : List EvidenceBlob)
    : Forward (journalSteps imports manifest events blobs)
      ∧ ∀ report, replayJournal imports manifest events blobs = .ok report
        → Metered.collect (decodeJournalRecord imports .event) events = .ok report.events
          ∧ (journalSteps imports manifest events blobs).map (fun step => step.event.record)
            = report.events
          ∧ ((journalSteps imports manifest events blobs).map fun step => step.after.phase).getLast?
            = some report.declaredPhase := by
  obtain ⟨last, leads⟩ := journalSteps_leads manifest events blobs
  refine ⟨leads.forward, fun report accepted => ?_⟩
  obtain ⟨decoded, all, final, leads, nonempty, declared⟩ := replayJournal_history accepted
  refine ⟨decoded, all, ?_⟩
  have phases := congrArg (Option.map Control.phase) (leads.last nonempty)
  rw [← List.getLast?_map, List.map_map] at phases
  rw [declared]
  exact phases

end Scanipy.Tools.Worker.Journal

import Scanipy.Tools.Worker.Journal.Lifecycle

/-! What one event can do to the flags, the calls and the spools of a replay. The rest of a replay
(scopes, digests of errors, counters of bytes) does not decide which events may follow.
-/

namespace Scanipy.Tools.Worker.Journal

open Library Python

/-- The fields of a replay that the order of events depends on. -/
structure Control where
  phase : Phase
  recovery : Bool
  orphaned : Bool
  overrun : Bool
  calls : Dict Text Call
  ordinaryCalls : Nat
  /-- The identifiers of calls that have been used. -/
  named : List Text
  registrations : Dict Text Json
  collections : Dict (Text × Text) Json
  cleanup : Option Text
  domainExit : Option Text
  startId : Option Text
  byDigest : Dict Text Event

/-- The identifiers of one namespace. -/
def namedCalls (ids : PySet (IdNamespace × Text)) : List Text :=
  (ids.filter fun id => id.1 = .call).map Prod.snd

def Replay.control (replay : Replay) : Control where
  phase := replay.phase
  recovery := replay.recovery
  orphaned := replay.orphaned
  overrun := replay.overrun
  calls := replay.calls
  ordinaryCalls := replay.ordinaryCalls
  named := namedCalls replay.ids
  registrations := replay.registrations
  collections := replay.collections
  cleanup := replay.cleanup
  domainExit := replay.domainExit
  startId := replay.startId
  byDigest := replay.byDigest

namespace Control

/-- Only cleaning up is left. -/
def Closing (c : Control) : Prop :=
  c.recovery = true ∨ c.phase = .cleanup ∨ c.phase = .orphaned

instance (c : Control) : Decidable c.Closing :=
  inferInstanceAs (Decidable (_ ∨ _))

/-- Some call runs the operation. -/
def HasIntent (c : Control) (operation : String) : Prop :=
  ∃ entry ∈ c.calls, entry.2.operation = py operation

/-- Nothing went wrong so far: no recovery, no overrun, and every result is healthy. -/
structure Calm (c : Control) : Prop where
  recovery : c.recovery = false
  orphaned : c.orphaned = false
  overrun : c.overrun = false
  healthy : ∀ entry ∈ c.calls, entry.2.outcome.isSome = true → healthy entry.2 = .ok true

/-- Every call is disposed of. -/
def Disposed (c : Control) : Prop :=
  ∀ entry ∈ c.calls, disposedCall entry.2 = .ok true

/-- The call and the stream of a collection, by the registration that it names. -/
def collectedKey (c : Control) (event : Event) : Except JournalError (Text × Text) := do
  let stream ← fieldText event.payload "stream"
  let digest ← fieldText event.payload "registration_event_digest"
  match c.byDigest.get? digest with
  | none => .error (.validation .reference)
  | some registered => do
      let callId ← fieldText registered.payload "call_id"
      .ok (callId, stream)

/-- The table with a new call. -/
def intend (c : Control) (callId operation : Text) (call : Call) : Control :=
  let started : Bool := operation = py "container-start-attached"
  { c with
    calls := c.calls.set callId call
    named := c.named ++ [callId]
    ordinaryCalls := if c.Closing then c.ordinaryCalls else c.ordinaryCalls + 1
    startId := if started then some callId else c.startId
    phase := if started then .startIntended else c.phase }

end Control

/-- What one event can do. -/
inductive Move (event : Event) (c : Control) : Control → Prop
  | reserved (kind : event.kind = .reserved) (first : event.sequence = 1)
      (phase : c.phase = .reserved) : Move event c c
  | intended {callId operation : Text} {call : Call} (kind : event.kind = .callIntent)
      (named : fieldText event.payload "call_id" = .ok callId)
      (ran : fieldText event.payload "operation" = .ok operation)
      (fresh : callId ∉ c.named)
      (numbered : field event.payload "call_sequence" = .ok (.int (c.calls.length + 1)))
      (few : c.calls.length < 16)
      (ordinary : ¬c.Closing → c.Calm ∧ c.ordinaryCalls < 12)
      (creates : operation = py "container-create"
        → ¬c.Closing ∧ c.phase = .loaded ∧ ¬c.HasIntent "container-create")
      (starts : operation = py "container-start-attached"
        → ¬c.Closing ∧ c.phase = .created ∧ c.startId = none)
      (runs : call.operation = operation) (pending : call.outcome = none)
      : Move event c (c.intend callId operation call)
  | settled {reference : Json} {callId : Text} {call : Call} {outcome : CallOutcome}
      {overrun : Bool} (kind : event.kind = .callResult)
      (refers : field event.payload "call" = .ok reference)
      (named : fieldText reference "call_id" = .ok callId)
      (found : c.calls.get? callId = some call) (pending : call.outcome = none)
      (grown : c.overrun = true → overrun = true)
      : Move event c
          { c with calls := c.calls.set callId { call with outcome := some outcome }, overrun }
  | registered {callId : Text} {row : Json} (kind : event.kind = .spoolRegistered)
      (named : fieldText event.payload "call_id" = .ok callId)
      (fresh : callId ∉ c.registrations.keys)
      : Move event c { c with registrations := c.registrations.set callId row }
  | collected {key : Text × Text} {row : Json} {overrun : Bool}
      (kind : event.kind = .spoolCollected) (named : c.collectedKey event = .ok key)
      (fresh : key ∉ c.collections.keys) (grown : c.overrun = true → overrun = true)
      : Move event c { c with collections := c.collections.set key row, overrun }
  | recovered (kind : event.kind = .recoveryEntered) : Move event c { c with recovery := true }
  | loaded (kind : event.kind = .loaded) (calm : c.Calm) (phase : c.phase = .reserved)
      : Move event c { c with phase := .loaded }
  | created (kind : event.kind = .created) (calm : c.Calm) (phase : c.phase = .loaded)
      : Move event c { c with phase := .created }
  | started (kind : event.kind = .started) (calm : c.Calm) (phase : c.phase = .startIntended)
      : Move event c { c with phase := .started }
  | observed (kind : event.kind = .observed) (calm : c.Calm)
      (phase : c.phase = .started ∨ c.phase = .observed)
      : Move event c { c with phase := .observed }
  | releaseIntended (kind : event.kind = .releaseIntent) (calm : c.Calm)
      (phase : c.phase = .observed)
      : Move event c { c with phase := .releaseIntended }
  | released (kind : event.kind = .released) (recovery : c.recovery = false)
      (orphaned : c.orphaned = false) (phase : c.phase = .releaseIntended)
      : Move event c { c with phase := .released }
  | exited (kind : event.kind = .domainExited) (recovery : c.recovery = false)
      (phase : c.phase = .released)
      : Move event c { c with domainExit := some event.digest, phase := .domainExited }
  | completed (kind : event.kind = .cleanup)
      (state : field event.payload "state" = .ok (.str (py "complete")))
      (first : c.cleanup = none) (disposed : c.Disposed)
      : Move event c { c with cleanup := some event.digest, phase := .cleanup }
  | partlyCleaned {state : Json} (kind : event.kind = .cleanup)
      (stated : field event.payload "state" = .ok state) (other : state ≠ .str (py "complete"))
      : Move event c { c with phase := .cleanup }
  | admitted {exit : Text} {exited : Event} {packet digest : Json}
      (kind : event.kind = .admitted) (calm : c.Calm) (phase : c.phase = .cleanup)
      (settled : ∀ entry ∈ c.calls, healthy entry.2 = .ok true) (cleaned : c.cleanup ≠ none)
      (exits : c.domainExit = some exit) (found : c.byDigest.get? exit = some exited)
      (ending : exited.kind = .domainExited)
      (valid : field exited.payload "domain_validation" = .ok (.str (py "valid")))
      (result : field exited.payload "domain_result" = .ok packet)
      (hashed : field packet "sha256" = .ok digest)
      (claimed : field event.payload "result_digest" = .ok digest)
      : Move event c { c with phase := .admitted }
  | failed (kind : event.kind = .failed) (orphaned : c.orphaned = false) (disposed : c.Disposed)
      (cleaned : c.cleanup ≠ none ∨ ¬c.HasIntent "container-create")
      : Move event c { c with phase := .failed }
  | orphaned (kind : event.kind = .orphaned)
      : Move event c { c with orphaned := true, recovery := true, phase := .orphaned }
  | reconciled (kind : event.kind = .reconciled) (orphaned : c.orphaned = true)
      (recovery : c.recovery = true) (cleaned : c.cleanup ≠ none) (disposed : c.Disposed)
      : Move event c { c with phase := .reconciled }

end Scanipy.Tools.Worker.Journal

import Scanipy.Tools.Worker.Journal.Pool

/-! The state of a replay, and the checks that one event makes against it without touching the
pool.
-/

namespace Scanipy.Tools.Worker.Journal

open Library Python

-- State

/-- `DeclaredPhase`. -/
inductive Phase where
  | reserved
  | loaded
  | created
  | startIntended
  | started
  | observed
  | releaseIntended
  | released
  | domainExited
  | cleanup
  | failed
  | admitted
  | orphaned
  | reconciled
  deriving DecidableEq, Repr

/-- The identifiers that may occur once. -/
inductive IdNamespace where
  | call
  | event
  | recovery
  | observation
  | cleanup
  deriving DecidableEq, Repr

/-- The manifest, with the fields that replay reads. -/
structure Manifest where
  record : ParsedJournalRecord
  row : Json
  mode : Text
  artifactDomain : Text
  createdAt : Text
  originHostBootId : Text
  attemptId : Json
  operationId : Json
  storeId : Json
  containerName : Json
  expectedImage : Json
  expectedOci : Json
  request : Json
  input : Json
  launch : Json
  parentBarrier : Json
  metadata : Json
  initialPrerequisite : Json
  authorityInventory : Json

/-- An event, with the fields of its envelope. -/
structure Event where
  record : ParsedJournalRecord
  row : Json
  kind : EventKind
  sequence : Int
  previousEventDigest : Json
  eventId : Text
  recordedAt : Text
  hostBootId : Text
  elapsedMs : Int
  attemptId : Json
  containerId : Json
  observedImage : Json
  observedOci : Json
  payload : Json

/-- The digest that later events refer to. -/
def Event.digest (event : Event) : Text :=
  hex event.record.schemaDigest

/-- The node of the event in the graph of references. -/
def Event.source (event : Event) : Text :=
  hex event.record.sha256

/-- The result of a call. -/
structure CallOutcome where
  result : Json
  view : Stored
  sequence : Int
  ref : Json

/-- A call that has been intended. -/
structure Call where
  intent : Json
  operation : Text
  intentView : Stored
  invocation : Stored
  intentDigest : Text
  sequence : Int
  outcome : Option CallOutcome

/-- `_Replay`, without the manifest and the pool. -/
structure Replay where
  phase : Phase
  recovery : Bool
  orphaned : Bool
  overrun : Bool
  calls : Dict Text Call
  ordinaryCalls : Nat
  byDigest : Dict Text Event
  ids : PySet (IdNamespace × Text)
  prerequisites : Dict Text (Text × Text)
  principal : Option (Json × Json × Json)
  registrations : Dict Text Json
  collections : Dict (Text × Text) Json
  errors : Dict Text Text
  cleanup : Option Text
  domainExit : Option Text
  releaseIntent : Option Text
  lastObserved : Option Text
  orphanEvent : Option Text
  containerId : Json
  observedImage : Json
  observedOci : Json
  startId : Option Text
  startedIdentity : Option (Json × Json)
  startedAt : Option Text
  kernelSamples : Nat
  kernelBytes : Int
  observedBytes : Int
  retainedBytes : Int
  missingOutcome : Nat
  missingOutput : Nat
  unknownRetention : Nat
  currentBoot : Text
  elapsed : Int
  previous : Option Text
  time : Text

/-- The state that `_Replay.__init__` starts from. -/
def Replay.start (m : Manifest) : Replay where
  phase := .reserved
  recovery := false
  orphaned := false
  overrun := false
  calls := []
  ordinaryCalls := 0
  byDigest := []
  ids := []
  prerequisites := []
  principal := none
  registrations := []
  collections := []
  errors := []
  cleanup := none
  domainExit := none
  releaseIntent := none
  lastObserved := none
  orphanEvent := none
  containerId := .null
  observedImage := .null
  observedOci := .null
  startId := none
  startedIdentity := none
  startedAt := none
  kernelSamples := 0
  kernelBytes := 0
  observedBytes := 0
  retainedBytes := 0
  missingOutcome := 0
  missingOutput := 0
  unknownRetention := 0
  currentBoot := m.originHostBootId
  elapsed := 0
  previous := none
  time := m.createdAt

/-- `row[key]`, known to be a text. -/
def fieldText (row : Json) (key : String) : Except JournalError Text := do
  let value ← field row key
  textOf value

/-- `row[key]`, known to be a number. -/
def fieldInt (row : Json) (key : String) : Except JournalError Int := do
  let value ← field row key
  intOf value

/-- The manifest of a decoded record. -/
def manifestOf (record : ParsedJournalRecord) : Except JournalError Manifest := do
  let row ← thaw (limitsOf .manifest) record.document
  .ok {
    record := record
    row := row
    mode := ← fieldText row "mode"
    artifactDomain := ← fieldText row "artifact_domain"
    createdAt := ← fieldText row "created_at"
    originHostBootId := ← fieldText row "origin_host_boot_id"
    attemptId := ← field row "attempt_id"
    operationId := ← field row "operation_id"
    storeId := ← field row "store_id"
    containerName := ← field row "container_name"
    expectedImage := ← field row "expected_image_config_id"
    expectedOci := ← field row "expected_oci_manifest_digest"
    request := ← field row "request"
    input := ← field row "input"
    launch := ← field row "launch"
    parentBarrier := ← field row "parent_barrier"
    metadata := ← field row "metadata"
    initialPrerequisite := ← field row "initial_prerequisite"
    authorityInventory := ← field row "authority_inventory"
  }

/-- The kind of an event; decoding has refused the others. -/
def eventKind (row : Json) : Except JournalError EventKind := do
  let wire ← fieldText row "kind"
  match EventKind.ofWire wire with
  | some kind => .ok kind
  | none => .error (.validation .order)

/-- The event of a decoded record. -/
def eventOf (record : ParsedJournalRecord) : Except JournalError Event := do
  let row ← thaw (limitsOf .event) record.document
  .ok {
    record := record
    row := row
    kind := ← eventKind row
    sequence := ← fieldInt row "sequence"
    previousEventDigest := ← field row "previous_event_digest"
    eventId := ← fieldText row "event_id"
    recordedAt := ← fieldText row "recorded_at"
    hostBootId := ← fieldText row "host_boot_id"
    elapsedMs := ← fieldInt row "elapsed_ms"
    attemptId := ← field row "attempt_id"
    containerId := ← field row "container_id"
    observedImage := ← field row "observed_image_config_id"
    observedOci := ← field row "observed_oci_manifest_digest"
    payload := ← field row "payload"
  }

-- Calls

/-- `row[key] == expected`. -/
def fieldIs (row : Json) (key : String) (expected : Json) : Except JournalError Bool := do
  let value ← field row key
  .ok (value = expected)

/-- The truth of a value. -/
def truthy : Json → Bool
  | .null => false
  | .bool value => value
  | .int value => value ≠ 0
  | .str value => value ≠ []
  | .arr items => !items.isEmpty
  | .obj members => !members.isEmpty

/-- `all(test(item) for item in items)`. -/
def allM {α : Type} (test : α → Except JournalError Bool) : List α → Except JournalError Bool
  | [] => .ok true
  | item :: rest => do
      let holds ← test item
      if holds then allM test rest else .ok false

/-- A stream that was verified to its end. -/
def healthyStream (outcome : Json) (name : String) : Except JournalError Bool := do
  let output ← field outcome name
  if output = .null then .ok false else do
    let custody ← field output "custody"
    let verified ← fieldIs custody "state" (.str (py "verified"))
    if !verified then .ok false else do
      let reported ← field output "reported"
      let eof ← field reported "eof"
      if !truthy eof then .ok false else do
        let truncated ← field reported "truncated"
        .ok (!truthy truncated)

/-- An outcome that exited with zero, cleaned up, and ran what was asked for. -/
def healthyOutcome (result outcome : Json) : Except JournalError Bool := do
  let exited ← fieldIs outcome "reason" (.str (py "exited"))
  if !exited then .ok false else do
    let zero ← fieldIs outcome "returncode" (.int 0)
    if !zero then .ok false else do
      let cleaned ← fieldIs outcome "cleanup" (.str (py "completed"))
      if !cleaned then .ok false else do
        let requested ← field result "requested_invocation"
        let same ← fieldIs outcome "invocation" requested
        if !same then .ok false else allM (healthyStream outcome) ["stdout", "stderr"]

/-- `_Replay.healthy`. -/
def healthy (call : Call) : Except JournalError Bool :=
  match call.outcome with
  | none => .ok false
  | some found => do
      let silent ← fieldIs found.result "error_id" .null
      if !silent then .ok false else do
        let outcome ← field found.result "outcome"
        if outcome = .null then .ok false else healthyOutcome found.result outcome

/-- One call of `_Replay.disposed`. -/
def disposedCall (call : Call) : Except JournalError Bool :=
  match call.outcome with
  | none => .ok false
  | some found => do
      let outcome ← field found.result "outcome"
      if outcome = .null then
        fieldIs found.result "unavailable_reason" (.str (py "validation-refused"))
      else do
        let cleanup ← field outcome "cleanup"
        .ok (cleanup ∈ [.str (py "completed"), .str (py "not_started")])

namespace Replay

/-- `_Replay.disposed`. -/
def disposed (replay : Replay) : Except JournalError Bool :=
  allM disposedCall (replay.calls.map Prod.snd)

/-- `call["intent"]["operation"] == operation` for some call. -/
def HasIntent (replay : Replay) (operation : String) : Prop :=
  ∃ entry ∈ replay.calls, entry.2.operation = py operation

instance (replay : Replay) (operation : String) : Decidable (replay.HasIntent operation) :=
  List.decidableBEx (fun entry : Text × Call => entry.2.operation = py operation) replay.calls

/-- `_Replay.unique`. -/
def unique (replay : Replay) (ns : IdNamespace) (value : Text) : Except JournalError Replay := do
  need ((ns, value) ∉ replay.ids) .conflict
  .ok { replay with ids := replay.ids.add (ns, value) }

/-- `_Replay.prior`. -/
def prior (replay : Replay) (digest : Text) (kind : EventKind) : Except JournalError Event :=
  match replay.byDigest.get? digest with
  | none => .error (.validation .reference)
  | some event => do
      need (event.kind = kind) .reference
      .ok event

/-- `_Replay.call`. -/
def call (replay : Replay) (reference : Json) (operation : Option String)
    : Except JournalError Call := do
  let callId ← fieldText reference "call_id"
  match replay.calls.get? callId with
  | none => .error (.validation .reference)
  | some call => do
      need (∃ outcome ∈ call.outcome, outcome.ref = reference) .reference
      need (∀ wanted ∈ operation, call.operation = py wanted) .reference
      .ok call

/-- `_Replay._expected_pins`. -/
def expectedPins (m : Manifest) (replay : Replay) : Except JournalError Unit :=
  need ((replay.observedImage = .null ∨ replay.observedImage = m.expectedImage)
    ∧ (m.expectedOci = .null ∨ replay.observedOci = .null ∨ replay.observedOci = m.expectedOci))
    .reference

/-- `_Replay._productive`. -/
def productive (m : Manifest) (replay : Replay) : Except JournalError Unit := do
  need (replay.recovery = false ∧ replay.orphaned = false ∧ replay.overrun = false) .order
  expectedPins m replay
  let sound ← allM (fun call : Call => if call.outcome.isNone then .ok true else healthy call)
    (replay.calls.map Prod.snd)
  need (sound = true) .order

/-- `_need(self.healthy(self.call(reference, operation)), "order")`. -/
def needHealthy (replay : Replay) (reference : Json) (operation : Option String)
    : Except JournalError Unit := do
  let call ← replay.call reference operation
  let sound ← healthy call
  need (sound = true) .order

/-- Only cleaning up is left. -/
def Closing (replay : Replay) : Prop :=
  replay.recovery = true ∨ replay.phase = .cleanup ∨ replay.phase = .orphaned

instance (replay : Replay) : Decidable replay.Closing :=
  inferInstanceAs (Decidable (_ ∨ _))

/-- The calls that a phase allows. -/
def needOperation (replay : Replay) (operation : Text) : Except JournalError Unit :=
  if replay.Closing then
    need (operation ∈ ["container-inspect-id", "container-inspect-name", "container-kill",
      "container-wait", "container-remove"].map py) .order
  else if replay.phase = .reserved then
    need (operation ∈ ["daemon-version", "daemon-info", "image-inspect"].map py) .order
  else if operation = py "container-create" then
    need (replay.phase = .loaded ∧ ¬replay.HasIntent "container-create") .order
  else if operation = py "container-start-attached" then
    need (replay.phase = .created ∧ replay.startId = none) .order
  else
    need (operation = py "container-inspect-id"
      ∧ replay.phase ∈ [.loaded, .created, .startIntended, .started, .observed, .releaseIntended,
        .released, .domainExited]) .order

/-- What a call may be aimed at. -/
def needTarget (m : Manifest) (replay : Replay) (operation : Text) (target : Json)
    : Except JournalError Unit := do
  need (operation ≠ py "container-inspect-name"
    ∨ replay.recovery = true ∧ replay.HasIntent "container-create") .order
  if operation ∈ [py "container-create", py "container-inspect-name"] then
    need (target = m.containerName) .reference
  else if operation = py "image-inspect" then
    need (target = m.expectedImage) .reference
  else if operation ∉ [py "daemon-version", py "daemon-info"] then
    need (replay.containerId ≠ .null ∧ target = replay.containerId) .reference
  else
    .ok ()
  need (operation ≠ py "container-remove" ∨ replay.cleanup ≠ none) .order

/-- The call is counted, outside recovery and cleanup. -/
def countOrdinary (m : Manifest) (replay : Replay) : Except JournalError Replay :=
  if replay.Closing then .ok replay else do
    productive m replay
    need (replay.ordinaryCalls < 12) .limit
    .ok { replay with ordinaryCalls := replay.ordinaryCalls + 1 }

/-- The checks of an intent before its invocation is read. -/
def planIntent (m : Manifest) (replay : Replay) (payload : Json) (callId operation : Text)
    : Except JournalError Replay := do
  let counted ← countOrdinary m replay
  let counted ← counted.unique .call callId
  let sequence ← field payload "call_sequence"
  need (sequence = .int (replay.calls.length + 1)) .order
  need (replay.calls.length < 16) .limit
  needOperation replay operation
  let target ← field payload "target"
  needTarget m replay operation target
  .ok counted

end Replay

end Scanipy.Tools.Worker.Journal

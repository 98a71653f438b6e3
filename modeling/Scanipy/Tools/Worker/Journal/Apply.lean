import Scanipy.Tools.Worker.Journal.Replay

/-! Replaying a journal: what every kind of event does to the replay and to the pool, and the
report of the whole.
-/

namespace Scanipy.Tools.Worker.Journal

open Library
open Library.Metered (lift visit)
open Python

section Apply

variable (imports : Imports) (m : Manifest)

/-- The prerequisite is observed by the boundary, and valid beyond it. -/
def needFresh (p : Json) (boundary : Text) : Except JournalError Unit := do
  let since ← fieldText p "observed_at"
  let expiry ← fieldText p "valid_until"
  need (since ≤ boundary ∧ boundary < expiry) .order

/-- The action that the mode of the manifest stands for. -/
def expectedAction : Option Text :=
  (((modes.zip actions).find? fun entry => py entry.1 = m.mode).map fun entry => py entry.2)

/-- The one scope that all prerequisites share. -/
def scopeOf (p : Json) : Except JournalError (Json × Json × Json) := do
  let org ← field p "org_id"
  let principal ← field p "principal_id"
  let action ← field p "action"
  .ok (org, principal, action)

/-- The prerequisite and its inventory become the ones of their observation. -/
def bindPrerequisite (replay : Replay) (p : Json) (identity : Text) (pair : Text × Text)
    : Except JournalError Replay := do
  let action ← fieldText p "action"
  need (some action = expectedAction m) .reference
  let scope ← scopeOf p
  need (∀ earlier ∈ replay.principal, earlier = scope) .conflict
  need (∀ earlier ∈ replay.prerequisites.get? identity, earlier = pair) .conflict
  .ok { replay with
    principal := some scope
    prerequisites := replay.prerequisites.set identity pair }

/-- The roles that the fields of a prerequisite ask for. -/
def requiredRoles (p : Json) : Except JournalError (List Json) := do
  let admission ← field p "admission"
  let execution ← field p "execution_authorization_digest"
  let content ← field p "content_verification_evidence_sha256"
  .ok ((["authentication", "scope"]
    ++ (if admission = .null then [] else ["admission"])
    ++ (if execution = .null then [] else ["execution-authorization", "capture-lease"])
    ++ if content = .null then [] else ["content-verification"]).map fun role => .str (py role))

/-- The field of a prerequisite that names the evidence of a role. -/
def rawField (role : Text) : Option String :=
  ([("authentication", "authentication_evidence_sha256"), ("scope", "scope_evidence_sha256"),
    ("capture-lease", "capture_lease_evidence_sha256"),
    ("content-verification", "content_verification_evidence_sha256")].find?
    fun entry => py entry.1 = role).map Prod.snd

/-- The roles of an inventory's objects. -/
def listedRoles (objects : List Json) : Except JournalError (List Json) :=
  Metered.collect (fun item => field item "role") objects

/-- The digest of an object, where the prerequisite names one. -/
def needRaw (p : Json) (role : Text) (bytes : Json) : Except JournalError Unit :=
  match rawField role with
  | none => .ok ()
  | some name => do
      let named ← field p name
      let digest ← field bytes "sha256"
      need (digest = named) .reference

/-- The role of a text; the others are refused. -/
def roleOf (text : Text) : Except JournalError OwnerRole :=
  match OwnerRole.ofWire text with
  | some role => .ok role
  | none => .error (.validation .schema)

/-- One object of an authority inventory. -/
def ownAuthority (p : Json) (source : Text) (item : Json) : PoolM Unit := do
  let text ← lift (fieldText item "role")
  let bytes ← lift (field item "bytes")
  let role ← lift (roleOf text)
  let _ ← owner imports bytes source role mib
  lift (needRaw p text bytes)

/-- The items of a value that has been checked to be a list. -/
def listOf : Json → Except JournalError (List Json)
  | .arr items => .ok items
  | _ => .error (.python .typeError)

/-- `_Replay.prerequisite`; no boundary is given for an event that repeats an earlier one. -/
def prerequisite (replay : Replay) (reference : Json) (source : Text) (boundary : Option Text)
    : PoolM Replay := do
  let wanted ← lift (field reference "prerequisite")
  let (parsed, p) ← localRecord imports wanted source .prerequisite
  lift (boundary.elim (.ok ()) (needFresh p))
  let listed ← lift (field reference "authority_inventory")
  let (inv, inventory) ← localRecord imports listed source .authorityInventory
  let back ← lift (field inventory "prerequisite")
  lift (need (back = wanted) .reference)
  let _ ← resolve imports back (hex inv.sha256) 16384
  let identity ← lift (fieldText p "observation_id")
  let replay ← lift (bindPrerequisite m replay p identity (hex parsed.sha256, hex inv.sha256))
  charge (token "prerequisite" [identity]) parsed.data.length
  charge (token "authority-inventory" [identity]) inv.data.length
  let admission ← lift (field p "admission")
  if admission ≠ .null then
    obligation .admission (hex parsed.sha256) [py "admission"]
  else
    pure ()
  let required ← lift (requiredRoles p)
  let objects ← lift (field inventory "objects" >>= listOf)
  let roles ← lift (listedRoles objects)
  lift (need (roles = required) .reference)
  visit (ownAuthority imports p (hex inv.sha256)) objects
  pure replay

-- Calls

/-- The invocation has the expected input, and the intent is the one prepared for it. -/
def bindInvocation (payload : Json) (operation : Text) (invocation : Json)
    : Except JournalError Unit := do
  let empty : Json := .obj [(py "sha256", .str (emptyDigest imports)), (py "size", .int 0)]
  let input := if operation = py "container-start-attached" then m.input else empty
  let size ← field invocation "stdin_bytes"
  let digest ← field invocation "stdin_sha256"
  let expectedSize ← field input "size"
  let expectedDigest ← field input "sha256"
  need (size = expectedSize ∧ digest = expectedDigest) .reference
  match imports.prepareCallIntent m.attemptId m.operationId payload invocation with
  | none => .error (.validation .schema)
  | some prepared => do
      let data ← json payload
      need (prepared = data) .reference

/-- The table of calls with a new intent; an attached start moves the phase. -/
def recordIntent (replay : Replay) (event : Event) (callId operation : Text)
    (view intentView : Stored) : Replay :=
  let calls := replay.calls.set callId {
    intent := event.payload
    operation := operation
    intentView := intentView
    invocation := view
    intentDigest := event.digest
    sequence := event.sequence
    outcome := none
  }
  if operation = py "container-start-attached" then
    { replay with calls := calls, startId := some callId, phase := .startIntended }
  else
    { replay with calls := calls }

/-- `_Replay.intent`. -/
def intent (replay : Replay) (event : Event) : PoolM Replay := do
  let callId ← lift (fieldText event.payload "call_id")
  let operation ← lift (fieldText event.payload "operation")
  let replay ← lift (replay.planIntent m event.payload callId operation)
  let reference ← lift (field event.payload "invocation")
  let (view, invocation) ← evidence imports reference event.digest .invocation
  lift (bindInvocation imports m event.payload operation invocation)
  let size ← lift (fieldInt reference "size")
  charge (token "requested-invocation" [callId]) size
  let data ← lift (json event.payload)
  let intentView ← lift (processEvidence imports data .intent)
  pure (recordIntent replay event callId operation view intentView)

/-- The result belongs to the attempt, the call and its intent. -/
def matchResult (call : Call) (payload reference result : Json) : Except JournalError Unit := do
  visit (fun name => do
    let found ← field result name
    let expected ← field call.intent name
    need (found = expected) .reference) ["call_id", "call_sequence", "operation", "target"]
  let attempt ← field result "attempt_id"
  let operation ← field result "operation_id"
  let digest ← field result "intent_event_digest"
  let expected ← field payload "intent_event_digest"
  need (attempt = m.attemptId ∧ operation = m.operationId ∧ digest = expected) .reference
  let requested ← field result "requested_invocation"
  let intended ← field call.intent "invocation"
  need (requested = intended) .reference
  let named ← field reference "operation"
  let ran ← field result "operation"
  need (named = ran) .reference

/-- The error graph of a result. -/
def resultErrors (replay : Replay) (callId : Text) (result : Json) (source : Text)
    : PoolM Replay := do
  let reference ← lift (field result "error_graph")
  if reference = .null then pure replay else do
    let (_, graph) ← evidence imports reference source .error
    let errorId ← lift (fieldText result "error_id")
    let digest ← lift (fieldText reference "sha256")
    let found ← lift (field graph "error_id")
    lift (need (found = .str errorId) .reference)
    lift (need (∀ earlier ∈ replay.errors.get? errorId, earlier = digest) .conflict)
    let size ← lift (fieldInt reference "size")
    charge (token "error" [callId]) size
    pure { replay with errors := replay.errors.set errorId digest }

/-- The most that a stream may hold. -/
def streamMaximum (attached : Bool) (stream : String) : Int :=
  if attached = true ∧ m.mode = py "python-syntax" then
    if stream = "stdout" then 8388608 else 65536
  else if attached = true ∨ stream = "stderr" then 16384
  else 262144

/-- `None` or a number. -/
def optionalInt : Json → Except JournalError (Option Int)
  | .null => .ok none
  | value => do
      let number ← intOf value
      .ok (some number)

/-- The counters of a stream that was reported. -/
def countStream (replay : Replay) (attached : Bool) (maximum : Int) (reported : Json)
    : Except JournalError Replay := do
  let observed ← fieldInt reported "observed_bytes"
  let kept ← field reported "retained_bytes"
  let retained ← optionalInt kept
  let exceeds : Bool := observed > maximum ∨ ∃ number ∈ retained, number > maximum
  .ok { replay with
    observedBytes := if attached then replay.observedBytes else replay.observedBytes + observed
    retainedBytes :=
      if attached then replay.retainedBytes else replay.retainedBytes + retained.getD 0
    unknownRetention :=
      if attached = true ∨ retained ≠ none then replay.unknownRetention
      else replay.unknownRetention + 1
    overrun := replay.overrun || exceeds }

/-- The path of a spooled stream. -/
def streamPath (callId : Text) (stream : String) (path : Json) (source : Text) : PoolM Unit :=
  if path = .null then pure () else do
    let data ← resolve imports path source 4096
    match Text.decode data with
    | none => lift (.error (.validation .schema))
    | some text => do
        lift (checkText text 4096 false)
        charge (token "path" [callId, py stream]) data.length

/-- The bytes of a stream that were kept. -/
def streamCustody (replay : Replay) (callId : Text) (stream : String) (maximum : Int)
    (output : Json) (source : Text) : PoolM Replay := do
  let bytes ← lift (field output "custody" >>= (field · "bytes"))
  if bytes = .null then pure replay else do
    let _ ← resolve imports bytes source (16 * mib)
    let size ← lift (fieldInt bytes "size")
    let spooled ← lift (fieldIs output "kind" (.str (py "spool")))
    if spooled = true then
      lift (match replay.collections.get? (callId, py stream) with
        | none => .error (.validation .reference)
        | some row => do
            let collected ← field row "bytes"
            need (collected = bytes) .reference)
    else
      pure ()
    pure { replay with overrun := replay.overrun || decide (size > maximum) }

/-- One stream of an outcome. -/
def resultStream (callId : Text) (attached : Bool) (outcome : Json) (source : Text)
    (replay : Replay) (stream : String) : PoolM Replay := do
  let output ← lift (field outcome stream)
  if output = .null then
    pure (if attached then replay else { replay with missingOutput := replay.missingOutput + 1 })
  else do
    let maximum := streamMaximum m attached stream
    let reported ← lift (field output "reported")
    let replay ← lift (countStream replay attached maximum reported)
    let path ← lift (field output "path")
    streamPath imports callId stream path source
    streamCustody imports replay callId stream maximum output source

/-- How much of the input was sent. -/
def needSent (outcome actual : Json) : Except JournalError Unit := do
  let sent ← fieldInt outcome "stdin_sent_bytes"
  let whole ← fieldInt actual "stdin_bytes"
  need (sent ≤ whole) .reference
  let cleanup ← field outcome "cleanup"
  let reason ← field outcome "reason"
  need (cleanup ≠ .str (py "completed") ∨ reason ≠ .str (py "exited") ∨ sent = whole) .reference

/-- The outcome of a result. -/
def resultOutcome (replay : Replay) (callId : Text) (result : Json) (source : Text)
    : PoolM Replay := do
  let outcome ← lift (field result "outcome")
  let attached ← lift (fieldIs result "operation" (.str (py "container-start-attached")))
  if outcome = .null then
    pure (if attached then replay else { replay with missingOutcome := replay.missingOutcome + 1 })
  else do
    let reference ← lift (field outcome "invocation")
    let (_, actual) ← evidence imports reference source .invocation
    let size ← lift (fieldInt reference "size")
    charge (token "actual-invocation" [callId]) size
    lift (needSent outcome actual)
    ["stdout", "stderr"].foldlM (resultStream imports m callId attached outcome source) replay

/-- A call without a result, under the digest of its intent. -/
def openCall (replay : Replay) (callId : Text) (digest : Json) (reason : Reason)
    : Except JournalError Call :=
  match replay.calls.get? callId with
  | none => .error (.validation .reference)
  | some call => do
      need (call.outcome.isNone = true ∧ digest = .str call.intentDigest) reason
      .ok call

/-- The table of calls with a result. -/
def recordResult (replay : Replay) (callId : Text) (call : Call) (outcome : CallOutcome) : Replay :=
  { replay with
    overrun := replay.overrun
      || decide (replay.observedBytes > 4 * mib ∨ replay.retainedBytes > 4 * mib)
    calls := replay.calls.set callId { call with outcome := some outcome } }

/-- `_Replay.result`. -/
def result (replay : Replay) (event : Event) : PoolM Replay := do
  let reference ← lift (field event.payload "call")
  let callId ← lift (fieldText reference "call_id")
  let digest ← lift (field event.payload "intent_event_digest")
  let call ← lift (openCall replay callId digest .conflict)
  let stored ← lift (field reference "outcome")
  let (view, result) ← evidence imports stored event.digest .result
  let source ← lift (fieldText stored "sha256")
  lift (matchResult m call event.payload reference result)
  let requested ← lift (field result "requested_invocation")
  let _ ← evidence imports requested source .invocation
  let size ← lift (fieldInt stored "size")
  charge (token "result" [callId]) size
  let replay ← resultErrors imports replay callId result source
  let replay ← resultOutcome imports m replay callId result source
  pure (recordResult replay callId call ⟨result, view, event.sequence, reference⟩)

/-- The limits that a registration has to repeat. -/
def expectedLimits (attached : Bool) : List Int :=
  if attached = true ∧ m.mode = py "python-syntax" then [263244, 8388608, 65536, 8454144]
  else if attached then [2621440, 16384, 16384, 32768]
  else [0, 262144, 16384, 278528]

/-- The registration belongs to the attempt, the call and its intent, with its limits. -/
def matchRegistration (payload row : Json) (callId : Text) (attached : Bool)
    : Except JournalError Unit := do
  let store ← field row "store_id"
  let attempt ← field row "attempt_id"
  let operation ← field row "operation_id"
  need (store = m.storeId) .reference
  need (attempt = m.attemptId) .reference
  need (operation = m.operationId) .reference
  let named ← field row "call_id"
  let digest ← field row "intent_event_digest"
  let expected ← field payload "intent_event_digest"
  need (named = .str callId ∧ digest = expected) .reference
  let limits ← field row "limits"
  let found ← Metered.collect (fun name => field limits name)
    ["stdin_bytes", "stdout_bytes", "stderr_bytes", "combined_output_bytes"]
  need (found = (expectedLimits m attached).map .int) .schema
  if attached then .ok () else do
    let wall ← fieldInt limits "wall_ms"
    let reserve ← field limits "cleanup_reserve_ms"
    need (250 < wall ∧ wall ≤ 2000 ∧ reserve = .int 250) .schema

/-- `_Replay._registration_event`. -/
def registrationEvent (replay : Replay) (event : Event) : PoolM Replay := do
  let callId ← lift (fieldText event.payload "call_id")
  lift (need (callId ∈ replay.calls.keys ∧ callId ∉ replay.registrations.keys) .reference)
  let digest ← lift (field event.payload "intent_event_digest")
  let call ← lift (openCall replay callId digest .order)
  let attached : Bool := call.operation = py "container-start-attached"
  lift (need (attached = false ∨ replay.startedIdentity = none) .order)
  let reference ← lift (field event.payload "registration")
  let (parsed, row) ← localRecord imports reference event.source .spoolRegistration
  lift (matchRegistration m event.payload row callId attached)
  charge (token "registration" [callId]) parsed.data.length
  pure { replay with registrations := replay.registrations.set callId row }

/-- The observation belongs to the attempt, the registration and its stream. -/
def matchObservation (payload row registration : Json) (callId : Text)
    : Except JournalError Unit := do
  let store ← field row "store_id"
  let attempt ← field row "attempt_id"
  let named ← field row "call_id"
  need (store = m.storeId ∧ attempt = m.attemptId ∧ named = .str callId) .reference
  let stream ← field row "stream"
  let expectedStream ← field payload "stream"
  let digest ← field row "registration_event_digest"
  let expectedDigest ← field payload "registration_event_digest"
  need (stream = expectedStream ∧ digest = expectedDigest) .reference
  let before ← field row "before"
  let directory ← field registration "directory"
  visit (fun name => do
    let found ← field before name
    let expected ← field directory name
    need (found = expected) .reference) ["uid", "gid"]

/-- `row["bytes"]["size"]`. -/
def observedSize (row : Json) : Except JournalError Int := do
  let bytes ← field row "bytes"
  fieldInt bytes "size"

/-- The sizes of the streams of one call that have been collected. -/
def collectedSizes (callId : Text) (collections : Dict (Text × Text) Json)
    : Except JournalError (List Int) :=
  Metered.collect observedSize
    ((collections.filter fun entry => entry.1.1 = callId).map Prod.snd)

/-- A stream is too long, or both together are. -/
def exceedsLimits (replay : Replay) (callId stream : Text) (row registration : Json)
    : Except JournalError Bool := do
  let limits ← field registration "limits"
  let size ← observedSize row
  let sizes ← collectedSizes callId replay.collections
  let cap ← fieldInt limits (if stream = py "stdout" then "stdout_bytes" else "stderr_bytes")
  let combined ← fieldInt limits "combined_output_bytes"
  .ok (size > cap ∨ sizes.sum > combined)

/-- The registration behind a collection, and the call it belongs to. -/
def openCollection (replay : Replay) (payload : Json) (stream : Text)
    : Except JournalError (Text × Json) := do
  let digest ← fieldText payload "registration_event_digest"
  let registered ← replay.prior digest .spoolRegistered
  let callId ← fieldText registered.payload "call_id"
  need ((callId, stream) ∉ replay.collections.keys) .conflict
  match replay.calls.get? callId, replay.registrations.get? callId with
  | some call, some registration => do
      need (call.outcome.isNone = true ∨ replay.recovery = true) .order
      .ok (callId, registration)
  | _, _ => .error (.python .keyError)

/-- `_Replay._collection_event`. -/
def collectionEvent (replay : Replay) (event : Event) : PoolM Replay := do
  let stream ← lift (fieldText event.payload "stream")
  let (callId, registration) ← lift (openCollection replay event.payload stream)
  let reference ← lift (field event.payload "observation")
  let (parsed, row) ← localRecord imports reference event.source .spoolObservation
  lift (matchObservation m event.payload row registration callId)
  let bytes ← lift (field row "bytes")
  let _ ← resolve imports bytes (hex parsed.sha256) (16 * mib)
  charge (token "collection" [callId, stream]) parsed.data.length
  let replay := { replay with collections := replay.collections.set (callId, stream) row }
  let exceeds ← lift (exceedsLimits replay callId stream row registration)
  pure { replay with overrun := replay.overrun || exceeds }

end Apply

end Scanipy.Tools.Worker.Journal

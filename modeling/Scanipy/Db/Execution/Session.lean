import Mathlib.Data.Prod.Lex
import Scanipy.Db.Execution.Tables

/-! What the operations of the execution ledger share: the session, the locks with the check of a
live attempt, the stages of a request, and the rows that several operations write. Row-level security
is left out: it hides the rows of other organisations, and every row reached here has the
organisation of its request.
-/

namespace Scanipy.Db.Execution

open Library Python Services.Scan.OccurrenceStore

/-- What a transaction meets: the tenant binding `app.org_id`, its successive readings of
`clock_timestamp()` and `gen_random_uuid()`, and the requests whose row others have locked.
-/
structure Environment where
  organisation : Uuid
  clock : Nat → Instant
  generated : Nat → Uuid
  busy : Uuid → Bool

variable (sha256 : Bytes → Bytes) (env : Environment)

/-- `v1_org`. -/
def checkOrg (org : Uuid) : Except SqlError Unit :=
  require (org = env.organisation) "missing or mismatched tenant binding"

/-- `(value)::uuid` of a text of that shape. -/
def uuidOf (value : Json) : Option Uuid :=
  Uuid.ofText value.chars

/-- An identifier that may be NULL, as a value. -/
def orNull (id : Option Uuid) : Json :=
  match id with
  | some id => .str id.text
  | none => .null

/-- The arguments that every operation of a worker carries. -/
structure Call where
  org : Uuid
  work : Uuid
  attempt : Uuid
  token : Int
  revision : Int

/-- The rows that `v1_lock` returns. -/
structure Locked where
  work : WorkItem
  request : ScanRequest
  capture : Option SourceCapture

/-- `v1_lock` without an attempt. -/
def lockWork (ledger : Ledger) (org work : Uuid) (kind : WorkKind) : Except SqlError Locked := do
  checkOrg env org
  let item ← expectRow (ledger.items.find? fun row => row.orgId = org ∧ row.id = work)
    "work not found or wrong kind"
  require (item.kind = kind) "work not found or wrong kind"
  let request ← strict
    (ledger.requests.find? fun row => row.orgId = org ∧ row.id = item.requestId)
  .ok ⟨item, request,
    ledger.captures.find? fun row => row.orgId = org ∧ row.ownerRequestId = request.id⟩

/-- `v1_lock` with an attempt that need not be live. -/
def lockAttempt (ledger : Ledger) (call : Call) (kind : WorkKind)
    : Except SqlError (Locked × WorkAttempt) := do
  let locked ← lockWork env ledger call.org call.work kind
  let attempt ← expectRow
    (ledger.attempts.find? fun row =>
      row.orgId = call.org ∧ row.workItemId = locked.work.id ∧ row.id = call.attempt)
    "attempt scope or token mismatch"
  require (attempt.kind = kind ∧ attempt.fencingToken = call.token)
    "attempt scope or token mismatch"
  .ok (locked, attempt)

/-- The lease of the attempt on the capture, once there is a capture. -/
def checkConsumer (ledger : Ledger) (call : Call) (kind : WorkKind) (locked : Locked)
    (attempt : WorkAttempt) (now : Instant) : Except SqlError Unit :=
  match locked.capture with
  | none => require (kind = .captureDetection) "identity requires capture"
  | some capture => do
      let consumer ← expectRow
        (ledger.leases.find? fun row => row.orgId = call.org ∧ row.workAttemptId = attempt.id)
        "missing or expired capture consumer"
      require (capture.retentionState = .active ∧ consumer.captureId = capture.id
          ∧ consumer.fencingToken = call.token ∧ consumer.releasedAt = none
          ∧ now < consumer.expiresAt)
        "missing or expired capture consumer"

/-- `v1_lock` with a live attempt. -/
def lockLive (ledger : Ledger) (call : Call) (kind : WorkKind) (now : Instant)
    : Except SqlError (Locked × WorkAttempt) := do
  let (locked, attempt) ← lockAttempt env ledger call kind
  require (locked.work.state = .running ∧ locked.work.activeAttemptId = some attempt.id
      ∧ locked.work.fencingToken = call.token ∧ locked.work.revision = call.revision
      ∧ attempt.state = .running ∧ now < attempt.leaseExpiresAt
      ∧ locked.request.cancellationBytes = none)
    "stale or expired attempt"
  checkConsumer ledger call kind locked attempt now
  .ok (locked, attempt)

/-- The walk of the recursive query from one run: each round adds the run that the last one
supersedes, if it kept no occurrence. A walk longer than the table only repeats runs.
-/
def Ledger.superseded (ledger : Ledger) (request : Uuid) : Nat → DetectorRun → List Uuid
  | 0, run => [run.id]
  | fuel + 1, run =>
      run.id :: match ledger.runs.find? fun earlier =>
          run.supersedesRunId = some earlier.id ∧ earlier.requestId = request
          ∧ earlier.resultCount = 0 with
        | some earlier => ledger.superseded request fuel earlier
        | none => []

/-- `covered`. -/
def Ledger.covered (ledger : Ledger) (request : Uuid) : List Uuid :=
  (ledger.runs.filter fun run => run.requestId = request ∧ run.state = .completed).flatMap
    (ledger.superseded request ledger.runs.length)

/-- `unsuperseded`. -/
def Ledger.unsuperseded (ledger : Ledger) (request : Uuid) : Bool :=
  ledger.runs.any fun run =>
    run.requestId = request ∧ run.state.IsFailure ∧ run.resultSchema ≠ some .cancellation
    ∧ run.id ∉ ledger.covered request

/-- `ident`, for the state of detection. -/
def Ledger.identityStage (ledger : Ledger) (request : Uuid) (detection : WorkState) : WorkState :=
  let items := ledger.items.filter fun item => item.requestId = request ∧ item.kind = .identity
  if items.any (·.state = .failed) then .failed
  else if items.any (·.state = .cancelled) then .cancelled
  else if items.any (·.state = .running) then .running
  else if items.any (·.state = .pending) then .pending
  else if items ≠ [] ∨ detection = .completed then .completed
  else if ledger.requests.any fun row => row.id = request ∧ row.cancellationBytes ≠ none then
    .cancelled
  else .pending

/-- The stage columns of a request. -/
structure Stages where
  capture : WorkState
  detection : WorkState
  identity : WorkState
  deriving DecidableEq

/-- The values that `v1_stages` computes; a request without detection work has none. -/
def Ledger.stages (ledger : Ledger) (request : Uuid) : Option Stages :=
  (ledger.items.find? fun item => item.requestId = request ∧ item.kind = .captureDetection).map
    fun item =>
      let detection := if ledger.unsuperseded request then .failed else item.state
      { capture := if ledger.seals.any (·.requestId = request) then .completed else item.state
        detection
        identity := ledger.identityStage request detection }

def ScanRequest.setStages (request : ScanRequest) (stages : Stages) : ScanRequest :=
  { request with
    revision := request.revision + 1
    captureState := stages.capture
    detectionState := stages.detection
    identityState := stages.identity }

/-- `v1_stages`. -/
def refreshStages (ledger : Ledger) (request : Uuid) : Except SqlError Ledger :=
  match ledger.stages request with
  | some stages =>
      .ok { ledger with
        requests := updateWhere (fun row => row.id = request) (·.setStages stages) ledger.requests }
  | none => .error (.notNullViolation "detection_state")

def CaptureLease.release (lease : CaptureLease) (moment : Instant) (data digest : Bytes)
    : CaptureLease :=
  { lease with
    releasedAt := some moment
    releaseBytes := some data
    releaseDigest := some digest }

/-- `v1_release_all`. -/
def releaseAll (ledger : Ledger) (attempt : Uuid) (token : Int) (reason : String)
    (moment : Instant) : Except SqlError Ledger := do
  let data ← bytesOf (.record [("schema", .str EnvelopeName.leaseRelease.schemaText),
    ("attempt_id", .str attempt.text), ("token", .int token), ("reason", .str (py reason))])
  .ok { ledger with
    leases := updateWhere (fun lease => lease.workAttemptId = attempt ∧ lease.releasedAt = none)
      (·.release moment data (digestOf sha256 .leaseRelease data)) ledger.leases }

/-- The columns that `v1_insert_work` takes from its caller. -/
structure WorkKey where
  org : Uuid
  codebase : Uuid
  request : Uuid
  kind : WorkKind
  occurrence : Option Uuid
  capture : Option Uuid

/-- The payload of new work. -/
def WorkKey.payload (key : WorkKey) (policy : Json) : Json :=
  .record [("schema", .str EnvelopeName.workPayload.schemaText),
    ("request_id", .str key.request.text), ("kind", .str (py key.kind.text)),
    ("occurrence_id", orNull key.occurrence), ("policy", policy)]

/-- The checks of `work_items` on the retry policy. -/
def WorkItem.Budgeted (item : WorkItem) : Prop :=
  (1 ≤ item.maxAttempts ∧ item.maxAttempts ≤ 16)
    ∧ (1 ≤ item.leaseSeconds ∧ item.leaseSeconds ≤ 900)
    ∧ (0 ≤ item.initialBackoffSeconds ∧ item.initialBackoffSeconds ≤ 3600)
    ∧ item.initialBackoffSeconds ≤ item.maxBackoffSeconds ∧ item.maxBackoffSeconds ≤ 86400

instance (item : WorkItem) : Decidable item.Budgeted :=
  inferInstanceAs (Decidable (_ ∧ _))

/-- `v1_insert_work`, with the two defaults that read the clock. -/
def insertWork (ledger : Ledger) (id : Uuid) (key : WorkKey) (retry policy : Json)
    (createdAt nextAttemptAt : Instant) : Except SqlError Ledger := do
  let payload ← bytesOf (key.payload policy)
  let _ ← envelope sha256 .workPayload payload (digestOf sha256 .workPayload payload)
  let retryBytes ← bytesOf retry
  let item : WorkItem :=
    { id
      orgId := key.org
      codebaseId := key.codebase
      requestId := key.request
      kind := key.kind
      occurrenceId := key.occurrence
      captureId := key.capture
      idempotencyKey := py key.kind.text ++ py ":" ++ (key.occurrence.getD key.request).text
      payloadBytes := payload
      payloadDigest := digestOf sha256 .workPayload payload
      retryPolicyBytes := retryBytes
      maxAttempts := (retry.get "max_attempts").integer
      leaseSeconds := (retry.get "lease_seconds").integer
      initialBackoffSeconds := (retry.get "initial_backoff_seconds").integer
      maxBackoffSeconds := (retry.get "max_backoff_seconds").integer
      createdAt
      state := .pending
      activeAttemptId := none
      fencingToken := 0
      nextAttemptAt
      revision := 0
      terminalBytes := none
      terminalDigest := none }
  demand item.Budgeted (.checkViolation "work_items_check")
  checkUnique (∀ other ∈ ledger.items, other.id ≠ id) "work_items_pkey"
  checkUnique (∀ other ∈ ledger.items,
      ¬(other.orgId = item.orgId ∧ other.idempotencyKey = item.idempotencyKey))
    "work_items_org_id_idempotency_key_key"
  checkUnique (∀ other ∈ ledger.items,
      item.occurrenceId = none ∨ other.occurrenceId ≠ item.occurrenceId)
    "work_items_occurrence_id_key"
  checkUnique (∀ other ∈ ledger.items,
      item.kind = .captureDetection → other.kind = .captureDetection
        → other.requestId ≠ item.requestId)
    "execution_one_detection_work"
  .ok { ledger with items := ledger.items ++ [item] }

/-- A new lease of an attempt on a capture. -/
def insertLease (ledger : Ledger) (id : Uuid) (capture : Uuid) (attempt : WorkAttempt)
    (acquiredAt expiresAt : Instant) : Except SqlError Ledger := do
  checkUnique (∀ other ∈ ledger.leases, other.id ≠ id) "capture_leases_pkey"
  checkUnique (∀ other ∈ ledger.leases, other.workAttemptId ≠ attempt.id)
    "capture_leases_work_attempt_id_key"
  .ok { ledger with
    leases := ledger.leases ++
      [{ id
         orgId := attempt.orgId
         codebaseId := attempt.codebaseId
         requestId := attempt.requestId
         captureId := capture
         workItemId := attempt.workItemId
         workAttemptId := attempt.id
         fencingToken := attempt.fencingToken
         acquiredAt
         expiresAt
         releasedAt := none
         releaseBytes := none
         releaseDigest := none }] }

end Scanipy.Db.Execution

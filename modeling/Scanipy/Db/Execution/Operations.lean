import Scanipy.Db.Execution.Session

/-! The operations of the execution ledger, each as one transaction: an error leaves the ledger as
it was. NULL arguments and elements, which every operation refuses, are left out, as are arrays that
are not one-dimensional (`v1_byte_array`).
-/

namespace Scanipy.Db.Execution

open Library Python Services.Scan.OccurrenceStore

variable (sha256 : Bytes → Bytes) (env : Environment)

-- Requests

structure CreateRequest where
  org : Uuid
  codebase : Uuid
  data : Bytes
  digest : Bytes
  policyBytes : Bytes
  policyDigest : Bytes

structure RequestReply where
  requestId : Uuid
  workItemId : Option Uuid
  revision : Int
  replayed : Bool
  deriving DecidableEq

/-- The new row of `create_request_v1`. -/
def CreateRequest.row (call : CreateRequest) (value : Json) (id lineage : Uuid)
    (createdAt : Instant) : ScanRequest :=
  { id
    orgId := call.org
    codebaseId := call.codebase
    lineageId := lineage
    predecessorRequestId := uuidOf (value.get "predecessor_request_id")
    idempotencyKey := (value.get "idempotency_key").chars
    requestBytes := call.data
    requestDigest := call.digest
    plannedPolicyBytes := call.policyBytes
    plannedPolicyDigest := call.policyDigest
    createdAt
    revision := 0
    captureState := .pending
    detectionState := .pending
    identityState := .pending
    activeDetectionWorkId := none
    cancellationBytes := none }

/-- A condition on an identifier that may be NULL is decided at that identifier. -/
instance (id : Option Uuid) (condition : Uuid → Prop) [DecidablePred condition]
    : Decidable (∀ named ∈ id, condition named) :=
  match id with
  | none => isTrue (by simp)
  | some named => decidable_of_iff (condition named) (by simp)

/-- `create_request_v1` where no request has the key. The row is stored with what its UPDATE after
the insertion of the work sets.
-/
def insertRequest (ledger : Ledger) (call : CreateRequest) (value : Json)
    : Except SqlError (RequestReply × Ledger) := do
  let lineage ← strict (uuidOf (value.get "lineage_id"))
  let request := call.row value (env.generated 0) lineage (env.clock 0)
  let work := env.generated 1
  checkUnique (∀ other ∈ ledger.requests, other.id ≠ request.id) "scan_requests_pkey"
  demand ((call.org, call.codebase) ∈ ledger.codebases)
    (.foreignKeyViolation "scan_requests_org_id_codebase_id_fkey")
  demand (∀ predecessor ∈ request.predecessorRequestId, ∃ other ∈ ledger.requests,
      other.orgId = call.org ∧ other.codebaseId = call.codebase ∧ other.lineageId = lineage
      ∧ other.id = predecessor)
    (.foreignKeyViolation "scan_requests_org_id_codebase_id_lineage_id_predecessor_fkey")
  let ledger ← insertWork sha256
    { ledger with
      requests := ledger.requests ++
        [{ request with activeDetectionWorkId := some work, revision := 1 }] }
    work ⟨call.org, call.codebase, request.id, .captureDetection, none, none⟩
    (value.get "retry_policy") (value.get "identity_policy") (env.clock 1) (env.clock 2)
  .ok (⟨request.id, some work, 1, false⟩, ledger)

/-- `create_request_v1`. -/
def createRequest (ledger : Ledger) (call : CreateRequest)
    : Except SqlError (RequestReply × Ledger) := do
  checkOrg env call.org
  let value ← envelope sha256 .request call.data call.digest
  let policy ← envelope sha256 .plannedPolicy call.policyBytes call.policyDigest
  require (value.get "requested_policy_digest" = .str (hex call.policyDigest)
      ∧ value.get "identity_policy" = policy.get "identity_policy")
    "requested policy binding mismatch"
  require (uuidOf (value.get "org_id") = some call.org
      ∧ uuidOf (value.get "codebase_id") = some call.codebase)
    "typed request scope mismatch"
  match ledger.requests.find? fun row =>
      row.orgId = call.org ∧ row.idempotencyKey = (value.get "idempotency_key").chars with
  | none => insertRequest sha256 env ledger call value
  | some row => do
      require (row.codebaseId = call.codebase ∧ row.requestBytes = call.data
          ∧ row.requestDigest = call.digest ∧ row.plannedPolicyBytes = call.policyBytes
          ∧ row.plannedPolicyDigest = call.policyDigest)
        "idempotency conflict"
      .ok (⟨row.id, row.activeDetectionWorkId, row.revision, true⟩, ledger)

structure CancelRequest where
  org : Uuid
  request : Uuid
  revision : Int
  data : Bytes
  digest : Bytes

structure CancelReply where
  requestId : Uuid
  revision : Int
  replayed : Bool
  deriving DecidableEq

/-- The end of a run with a result. -/
def DetectorRun.finish (run : DetectorRun) (state : RunState) (moment : Instant)
    (schema : EnvelopeName) (data digest : Bytes) : DetectorRun :=
  { run with
    state
    terminalAt := some moment
    resultSchema := some schema
    resultBytes := some data
    resultDigest := some digest }

def WorkAttempt.finish (attempt : WorkAttempt) (state : AttemptState) (moment : Instant)
    (schema : EnvelopeName) (data digest : Bytes) : WorkAttempt :=
  { attempt with
    state
    terminalAt := some moment
    resultSchema := some schema
    resultBytes := some data
    resultDigest := some digest }

def WorkItem.cancel (item : WorkItem) (data digest : Bytes) : WorkItem :=
  { item with
    state := .cancelled
    activeAttemptId := none
    revision := item.revision + 1
    terminalBytes := some data
    terminalDigest := some digest }

/-- The rows of a request that is cancelled. -/
def Ledger.cancelRows (ledger : Ledger) (request : Uuid) (moment : Instant) (data digest : Bytes)
    : Ledger :=
  { ledger with
    runs := updateWhere (fun run => run.requestId = request ∧ run.state.IsOpen)
      (·.finish .interrupted moment .cancellation data digest) ledger.runs
    attempts :=
      updateWhere (fun attempt => attempt.requestId = request ∧ attempt.state = .running)
        (·.finish .cancelled moment .cancellation data digest) ledger.attempts
    items := updateWhere (fun item => item.requestId = request ∧ item.state.IsOpen)
      (·.cancel data digest) ledger.items
    requests := updateWhere (fun row => row.id = request)
      (fun row => { row with revision := row.revision + 1, cancellationBytes := some data })
      ledger.requests }

/-- The leases of running attempts, one attempt after another. -/
def releaseAttempts (reason : String) (moment : Instant)
    : List WorkAttempt → Ledger → Except SqlError Ledger
  | [], ledger => .ok ledger
  | attempt :: rest, ledger => do
      let ledger ← releaseAll sha256 ledger attempt.id attempt.fencingToken reason moment
      releaseAttempts reason moment rest ledger

/-- `cancel_request_v1`. -/
def cancelRequest (ledger : Ledger) (call : CancelRequest)
    : Except SqlError (CancelReply × Ledger) := do
  checkOrg env call.org
  let value ← envelope sha256 .cancellation call.data call.digest
  require (uuidOf (value.get "request_id") = some call.request) "cancellation scope mismatch"
  let row ← expectRow
    (ledger.requests.find? fun row => row.orgId = call.org ∧ row.id = call.request)
    "request not found"
  match row.cancellationBytes with
  | some stored => do
      require (stored = call.data) "cancellation replay conflict"
      .ok (⟨row.id, row.revision, true⟩, ledger)
  | none => do
      require (row.revision = call.revision) "request revision conflict"
      let running := ledger.attempts.filter fun attempt =>
        attempt.requestId = call.request ∧ attempt.state = .running
      let released ← releaseAttempts sha256 "request-cancelled" (env.clock 0) running ledger
      let ended ← refreshStages
        (released.cancelRows call.request (env.clock 0) call.data call.digest) call.request
      let row ← strict (ended.requests.find? fun row => row.id = call.request)
      .ok (⟨row.id, row.revision, false⟩, ended)

structure ClaimRetirement where
  org : Uuid
  capture : Uuid
  revision : Int

structure RetirementClaim where
  captureId : Uuid
  storageObjectId : Uuid
  storageReference : Text
  fencingToken : Int
  revision : Int
  leaseExpiresAt : Option Instant
  deriving DecidableEq

def SourceCapture.claimCleanup (capture : SourceCapture) (moment : Instant) : SourceCapture :=
  { capture with
    retentionState := .retiring
    cleanupToken := capture.cleanupToken + 1
    cleanupExpiresAt := some (moment + seconds 300)
    revision := capture.revision + 1 }

/-- The condition under which a capture may be claimed for cleanup. -/
def checkRetirable (ledger : Ledger) (capture : SourceCapture) (moment : Instant)
    : Except SqlError Unit :=
  if capture.retentionState = .active then do
    require (capture.retainUntil ≤ moment) "capture retention has not elapsed"
    require (¬∃ lease ∈ ledger.leases, lease.captureId = capture.id ∧ lease.releasedAt = none
        ∧ moment < lease.expiresAt)
      "capture has live consumer"
    require (¬∃ item ∈ ledger.items, item.requestId = capture.ownerRequestId ∧ item.state.IsOpen)
      "capture has nonterminal work"
  else
    require (∃ expiry ∈ capture.cleanupExpiresAt, expiry ≤ moment) "cleanup claim is still live"

/-- `claim_retirement_v1`. -/
def claimRetirement (ledger : Ledger) (call : ClaimRetirement)
    : Except SqlError (RetirementClaim × Ledger) := do
  checkOrg env call.org
  let capture ← expectRow
    (ledger.captures.find? fun row => row.orgId = call.org ∧ row.id = call.capture)
    "capture not found"
  let moment := env.clock 0
  require (capture.revision = call.revision ∧ capture.retentionState ≠ .retired)
    "capture revision/state conflict"
  checkRetirable ledger capture moment
  let claimed := capture.claimCleanup moment
  .ok (⟨claimed.id, claimed.storageObjectId, claimed.storageReference, claimed.cleanupToken,
      claimed.revision, claimed.cleanupExpiresAt⟩,
    { ledger with
      captures := updateWhere (fun row => row.id = call.capture) (·.claimCleanup moment)
        ledger.captures })

structure FinishRetirement where
  org : Uuid
  capture : Uuid
  revision : Int
  data : Bytes
  digest : Bytes

structure RetirementReply where
  captureId : Uuid
  revision : Int
  replayed : Bool
  deriving DecidableEq

def SourceCapture.retire (capture : SourceCapture) (data digest : Bytes) : SourceCapture :=
  { capture with
    retentionState := .retired
    cleanupExpiresAt := none
    retirementBytes := some data
    retirementDigest := some digest
    revision := capture.revision + 1 }

/-- `finish_retirement_v1`. -/
def finishRetirement (ledger : Ledger) (call : FinishRetirement)
    : Except SqlError (RetirementReply × Ledger) := do
  checkOrg env call.org
  let value ← envelope sha256 .retirement call.data call.digest
  let capture ← expectRow
    (ledger.captures.find? fun row => row.orgId = call.org ∧ row.id = call.capture)
    "capture not found"
  require (uuidOf (value.get "capture_id") = some capture.id
      ∧ uuidOf (value.get "storage_object_id") = some capture.storageObjectId)
    "retirement object mismatch"
  if capture.retentionState = .retired then do
    require (capture.retirementBytes = some call.data
        ∧ capture.retirementDigest = some call.digest)
      "retirement replay conflict"
    .ok (⟨capture.id, capture.revision, true⟩, ledger)
  else do
    require (capture.retentionState = .retiring ∧ capture.revision = call.revision
        ∧ capture.cleanupToken = (value.get "token").integer
        ∧ ∃ expiry ∈ capture.cleanupExpiresAt, env.clock 0 < expiry)
      "stale cleanup claim"
    .ok (⟨capture.id, capture.revision + 1, false⟩,
      { ledger with
        captures := updateWhere (fun row => row.id = call.capture)
          (·.retire call.data call.digest) ledger.captures })

-- Attempts

structure Claim where
  org : Uuid
  kind : WorkKind
  work : Option Uuid
  data : Bytes
  digest : Bytes

structure ClaimReply where
  workItemId : Uuid
  requestId : Uuid
  kind : WorkKind
  occurrenceId : Option Uuid
  attemptId : Uuid
  attemptNumber : Int
  fencingToken : Int
  revision : Int
  leaseExpiresAt : Instant
  captureId : Option Uuid
  payload : Json
  deriving DecidableEq

/-- The new attempt of `v1_claim`. -/
def Claim.attempt (call : Claim) (value : Json) (work : WorkItem) (id : Uuid) (now : Instant)
    : WorkAttempt :=
  { id
    orgId := call.org
    codebaseId := work.codebaseId
    requestId := work.requestId
    workItemId := work.id
    kind := call.kind
    attemptNumber := work.fencingToken + 1
    fencingToken := work.fencingToken + 1
    assignmentId := (value.get "assignment_id").chars
    policyBytes := call.data
    policyDigest := call.digest
    startedAt := now
    leaseExpiresAt := now + seconds work.leaseSeconds
    state := .running
    terminalAt := none
    resultSchema := none
    resultBytes := none
    resultDigest := none }

def WorkItem.start (item : WorkItem) (attempt : WorkAttempt) : WorkItem :=
  { item with
    state := .running
    activeAttemptId := some attempt.id
    fencingToken := attempt.fencingToken
    revision := item.revision + 1 }

/-- The rows of a claimed item. -/
def Ledger.startAttempt (ledger : Ledger) (attempt : WorkAttempt) : Ledger :=
  { ledger with
    attempts := ledger.attempts ++ [attempt]
    items := updateWhere (fun item => item.id = attempt.workItemId) (·.start attempt) ledger.items }

/-- The lease of a new attempt, once there is a capture. -/
def leaseCapture (ledger : Ledger) (id : Uuid) (capture : Option SourceCapture)
    (attempt : WorkAttempt) (now : Instant) : Except SqlError Ledger :=
  match capture with
  | some capture => insertLease ledger id capture.id attempt now attempt.leaseExpiresAt
  | none => .ok ledger

/-- `v1_claim` for the item that it has locked. -/
def claimItem (ledger : Ledger) (call : Claim) (value : Json) (locked : Locked) (now : Instant)
    : Except SqlError (ClaimReply × Ledger) := do
  let work := locked.work
  require (locked.request.cancellationBytes = none) "request cancelled"
  require (work.leaseSeconds = (value.get "lease_seconds").integer) "lease policy mismatch"
  let policy ← storedJson locked.request.plannedPolicyBytes
  let runner := policy.get (call.kind.text ++ "_runner")
  require (runner.get "code_policy_digest" = value.get "code_policy_digest"
      ∧ runner.get "environment_policy_digest" = value.get "environment_policy_digest")
    "runner policy binding mismatch"
  require (work.fencingToken < work.maxAttempts) "attempt budget exhausted"
  require (∀ capture ∈ locked.capture, capture.retentionState = .active) "capture not active"
  let attempt := call.attempt value work (env.generated 0) now
  checkUnique (∀ other ∈ ledger.attempts, other.id ≠ attempt.id) "work_attempts_pkey"
  checkUnique (∀ other ∈ ledger.attempts, ¬(other.workItemId = work.id
      ∧ (other.attemptNumber = attempt.attemptNumber
        ∨ other.fencingToken = attempt.fencingToken)))
    "work_attempts_work_item_id_key"
  let started := ledger.startAttempt attempt
  let leased ← leaseCapture started (env.generated 1) locked.capture attempt now
  let ended ← refreshStages leased work.requestId
  let payload ← storedJson work.payloadBytes
  .ok (⟨work.id, work.requestId, call.kind, work.occurrenceId, attempt.id, attempt.attemptNumber,
      attempt.fencingToken, work.revision + 1, attempt.leaseExpiresAt, locked.capture.map (·.id),
      payload⟩, ended)

/-- The loop of `v1_claim` over its candidates; `reading` counts the locks taken. -/
def claimCandidates (ledger : Ledger) (call : Claim) (value : Json)
    : List WorkItem → Nat → Except SqlError (Option ClaimReply × Ledger)
  | [], _ => .ok (none, ledger)
  | candidate :: rest, reading =>
      if env.busy candidate.requestId then claimCandidates ledger call value rest reading
      else do
        let locked ← lockWork env ledger call.org candidate.id call.kind
        let now := env.clock reading
        if locked.work.state ≠ .pending ∨ now < locked.work.nextAttemptAt then
          claimCandidates ledger call value rest (reading + 1)
        else do
          let (reply, ended) ← claimItem env ledger call value locked now
          .ok (some reply, ended)

/-- `v1_claim`. -/
def claim (ledger : Ledger) (call : Claim) : Except SqlError (Option ClaimReply × Ledger) := do
  checkOrg env call.org
  let value ← envelope sha256 .attemptPolicy call.data call.digest
  let candidates := ledger.items.filter fun item =>
    item.orgId = call.org ∧ item.kind = call.kind ∧ item.state = .pending
    ∧ item.nextAttemptAt ≤ env.clock 0 ∧ (call.work = none ∨ call.work = some item.id)
  claimCandidates env ledger call value
    (sortedBy (fun item => toLex (item.createdAt, item.id)) candidates) 1

structure RenewReply where
  attemptId : Uuid
  revision : Int
  leaseExpiresAt : Instant
  deriving DecidableEq

/-- `UPDATE work_items SET revision=revision+1`. -/
def Ledger.touch (ledger : Ledger) (work : Uuid) : Ledger :=
  { ledger with
    items := updateWhere (fun item => item.id = work)
      (fun item => { item with revision := item.revision + 1 }) ledger.items }

/-- The rows of a renewed attempt. -/
def Ledger.extend (ledger : Ledger) (attempt : Uuid) (expiry : Instant) : Ledger :=
  { ledger with
    attempts := updateWhere (fun row => row.id = attempt)
      (fun row => { row with leaseExpiresAt := expiry }) ledger.attempts
    leases := updateWhere (fun lease => lease.workAttemptId = attempt ∧ lease.releasedAt = none)
      (fun lease => { lease with expiresAt := expiry }) ledger.leases }

/-- `v1_renew`. -/
def renew (ledger : Ledger) (call : Call) (kind : WorkKind)
    : Except SqlError (RenewReply × Ledger) := do
  let (locked, attempt) ← lockLive env ledger call kind (env.clock 0)
  let expiry := env.clock 0 + seconds locked.work.leaseSeconds
  .ok (⟨attempt.id, locked.work.revision + 1, expiry⟩,
    (ledger.extend attempt.id expiry).touch locked.work.id)

/-- `acquire`, `renew` and `release`, the last with its evidence. -/
inductive LeaseAction where
  | acquire
  | renew
  | release (data digest : Bytes)

structure LeaseReply where
  leaseId : Uuid
  replayed : Bool
  revision : Int
  deriving DecidableEq

/-- `v1_capture_lease` of an attempt that has to be live. -/
def changeLease (ledger : Ledger) (call : Call) (kind : WorkKind) (action : LeaseAction)
    (now : Instant) : Except SqlError (LeaseReply × Ledger) := do
  let (locked, attempt) ← lockLive env ledger call kind now
  let consumer ← expectRow (ledger.leases.find? fun lease => lease.workAttemptId = attempt.id)
    "capture has not been registered"
  match action with
  | .acquire => .ok (⟨consumer.id, true, call.revision⟩, ledger)
  | .renew =>
      .ok (⟨consumer.id, false, locked.work.revision + 1⟩,
        { ledger with
          leases := updateWhere (fun lease => lease.id = consumer.id)
            (fun lease => { lease with expiresAt := attempt.leaseExpiresAt }) ledger.leases }.touch
              locked.work.id)
  | .release data digest =>
      .ok (⟨consumer.id, false, locked.work.revision + 1⟩,
        { ledger with
          leases := updateWhere (fun lease => lease.id = consumer.id)
            (·.release now data digest) ledger.leases }.touch locked.work.id)

/-- `v1_capture_lease`. -/
def captureLease (ledger : Ledger) (call : Call) (kind : WorkKind) (action : LeaseAction)
    : Except SqlError (LeaseReply × Ledger) := do
  let (locked, attempt) ← lockAttempt env ledger call kind
  match action with
  | .acquire | .renew => changeLease env ledger call kind action (env.clock 1)
  | .release data digest => do
      let value ← envelope sha256 .leaseRelease data digest
      require (uuidOf (value.get "attempt_id") = some call.attempt
          ∧ (value.get "token").integer = call.token)
        "release consumer mismatch"
      match (ledger.leases.find? fun lease => lease.workAttemptId = attempt.id).filter
          fun lease => lease.releasedAt ≠ none with
      | some consumer => do
          require (consumer.releaseBytes = some data ∧ consumer.releaseDigest = some digest)
            "release replay conflict"
          .ok (⟨consumer.id, true, locked.work.revision⟩, ledger)
      | none => changeLease env ledger call kind action (env.clock 1)

-- The capture and its seal

structure Registration where
  data : Bytes
  digest : Bytes
  inventory : Bytes
  inventoryDigest : Bytes
  content : Bytes
  contentDigest : Bytes
  spec : Bytes
  detectors : List Bytes
  rules : List Bytes
  authorityEvidence : Bytes

structure SealReply where
  captureId : Uuid
  sealId : Uuid
  replayed : Bool
  deriving DecidableEq

/-- The digests that bindings, rules and accepted content name, position by position. -/
def checkDigests (named accepted : List Json) (blobs : List Bytes) (reason : String)
    : Except SqlError Unit :=
  Metered.visit
    (fun entry : Json × Nat =>
      require ((blobs[entry.2]?.map fun blob => Json.str (hex (sha256 blob))) = some entry.1
          ∧ accepted[entry.2]? = some entry.1)
        reason)
    named.zipIdx

/-- The checks of `register_capture_and_seal_v1` before its lock: the seal, the inventory and the
accepted content.
-/
def checkRegistration (call : Registration) : Except SqlError (Json × Json) := do
  let value ← envelope sha256 .scanSeal call.data call.digest
  let inventory ← envelope sha256 .sourceInventory call.inventory call.inventoryDigest
  let accepted ← envelope sha256 .acceptedContent call.content call.contentDigest
  let detectorDigests := (accepted.get "detector_sha256s").items
  let ruleDigests := (accepted.get "rule_sha256s").items
  let bindings := (value.get "bindings").items
  require (call.spec.length + ((call.detectors ++ call.rules).map List.length).sum ≤ maxEnvelope
      ∧ call.authorityEvidence.length ≤ maxEnvelope)
    "accepted bytes size limit"
  require (accepted.get "spec_sha256" = .str (hex (sha256 call.spec))
      ∧ value.get "accepted_content_digest" = .str (hex call.contentDigest)
      ∧ value.get "inventory_digest" = .str (hex call.inventoryDigest)
      ∧ value.get "acceptance_evidence_digest" = .str (hex (sha256 call.authorityEvidence)))
    "accepted/inventory digest mismatch"
  require (call.detectors.length = bindings.length
      ∧ call.detectors.length = detectorDigests.length
      ∧ call.rules.length = ruleDigests.length)
    "accepted content inventory mismatch"
  checkDigests sha256 (bindings.map (·.get "detector_content_digest")) detectorDigests
    call.detectors "detector bytes mismatch"
  let sealedRules := bindings.flatMap fun binding => (binding.get "rules").items
  checkDigests sha256 (sealedRules.map (·.get "content_digest")) ruleDigests call.rules
    "rule bytes mismatch"
  require (sealedRules.length = call.rules.length) "extra rule content"
  require (∀ file ∈ (value.get "intended_files").items,
      ∃ listed ∈ (inventory.get "files").items, listed.get "path" = file)
    "intended file outside capture inventory"
  .ok (value, inventory)

/-- The new capture. -/
def Registration.capture (call : Registration) (value : Json) (work : WorkItem) (id storage : Uuid)
    (moment : Instant) : SourceCapture :=
  { id
    orgId := work.orgId
    codebaseId := work.codebaseId
    ownerRequestId := work.requestId
    resolvedCommit := (value.get "resolved_commit").chars
    treeDigest := (value.get "tree_digest").chars
    inventoryBytes := call.inventory
    inventoryDigest := call.inventoryDigest
    storageObjectId := storage
    storageReference := (value.get "storage_reference").chars
    createdAt := moment
    retainSeconds := (value.get "retain_seconds").integer
    retainUntil := moment + seconds (value.get "retain_seconds").integer
    retentionState := .active
    cleanupToken := 0
    cleanupExpiresAt := none
    retirementBytes := none
    retirementDigest := none
    revision := 0 }

/-- The new seal. -/
def Registration.row (call : Registration) (value : Json) (work : WorkItem) (id capture : Uuid)
    (moment : Instant) : ScanSeal :=
  { id
    orgId := work.orgId
    codebaseId := work.codebaseId
    requestId := work.requestId
    captureId := capture
    sealBytes := call.data
    sealDigest := call.digest
    sVersion := (value.get "s_version").chars
    acceptedContentBytes := call.content
    acceptedContentDigest := call.contentDigest
    acceptedSpecBytes := call.spec
    acceptedDetectorBytes := call.detectors
    acceptedRuleBytes := call.rules
    acceptanceEvidenceBytes := call.authorityEvidence
    acceptanceEvidenceDigest := sha256 call.authorityEvidence
    createdAt := moment }

/-- The capture of a request is completed by hand. -/
def Ledger.captured (ledger : Ledger) (request : Uuid) : Ledger :=
  { ledger with
    requests := updateWhere (fun row => row.id = request)
      (fun row => { row with captureState := .completed, revision := row.revision + 1 })
      ledger.requests }

/-- `register_capture_and_seal_v1` of a request without a seal. -/
def insertCapture (ledger : Ledger) (call : Registration) (value : Json) (work : WorkItem)
    (attempt : WorkAttempt) (moment : Instant) : Except SqlError (SealReply × Ledger) := do
  let storage ← strict (uuidOf (value.get "storage_object_id"))
  let capture := call.capture value work (env.generated 0) storage moment
  let sealed := call.row sha256 value work (env.generated 1) capture.id moment
  checkUnique (∀ other ∈ ledger.captures, other.id ≠ capture.id
      ∧ other.ownerRequestId ≠ capture.ownerRequestId
      ∧ other.storageObjectId ≠ capture.storageObjectId
      ∧ other.storageReference ≠ capture.storageReference)
    "source_captures"
  checkUnique (∀ other ∈ ledger.seals, other.id ≠ sealed.id ∧ other.requestId ≠ sealed.requestId)
    "scan_seals"
  let leased ← insertLease
    { ledger with captures := ledger.captures ++ [capture], seals := ledger.seals ++ [sealed] }
    (env.generated 2) capture.id attempt moment attempt.leaseExpiresAt
  .ok (⟨capture.id, sealed.id, false⟩, leased.captured work.requestId)

/-- `register_capture_and_seal_v1`. -/
def registerCaptureAndSeal (ledger : Ledger) (call : Call) (registration : Registration)
    : Except SqlError (SealReply × Ledger) := do
  let (value, _) ← checkRegistration sha256 registration
  let (locked, attempt) ← lockLive env ledger call .captureDetection (env.clock 0)
  require (uuidOf (value.get "request_id") = some locked.work.requestId) "seal request mismatch"
  let requested ← storedJson locked.request.requestBytes
  let plan ← storedJson locked.request.plannedPolicyBytes
  require (value.get "s_version" = requested.get "requested_s_version")
    "requested S_version mismatch"
  require (value.get "planned_policy_digest" = .str (hex locked.request.plannedPolicyDigest)
      ∧ value.get "bindings" = plan.get "bindings")
    "sealed planned-policy mismatch"
  match ledger.seals.find? fun row =>
      row.orgId = call.org ∧ row.requestId = locked.work.requestId with
  | none => insertCapture sha256 env ledger registration value locked.work attempt (env.clock 0)
  | some old => do
      require (old.sealBytes = registration.data ∧ old.sealDigest = registration.digest
          ∧ old.acceptedContentBytes = registration.content
          ∧ old.acceptedSpecBytes = registration.spec
          ∧ old.acceptedDetectorBytes = registration.detectors
          ∧ old.acceptedRuleBytes = registration.rules
          ∧ old.acceptanceEvidenceBytes = registration.authorityEvidence)
        "conflicting seal replay"
      .ok (⟨old.captureId, old.id, true⟩, ledger)

-- Detector runs

structure RunReply where
  runId : Uuid
  completed : Bool
  occurrenceIds : List Uuid
  replayed : Bool
  deriving DecidableEq

/-- `WHERE detector_run_id = run ORDER BY tool_ordinal`. -/
def Ledger.occurrencesOf (ledger : Ledger) (run : Uuid) : List DetectionOccurrence :=
  sortedBy (·.toolOrdinal) (ledger.occurrences.filter fun row => row.detectorRunId = run)

/-- A run of the request that is not completed and yet kept an occurrence. -/
def Ledger.keptPartial (ledger : Ledger) (request : Uuid) : Prop :=
  ∃ run ∈ ledger.runs, run.requestId = request ∧ run.state ≠ .completed
    ∧ ∃ occurrence ∈ ledger.occurrences, occurrence.detectorRunId = run.id

instance (ledger : Ledger) (request : Uuid) : Decidable (ledger.keptPartial request) :=
  inferInstanceAs (Decidable (∃ run ∈ ledger.runs, _))

/-- `failed_leaves`. -/
def Ledger.failedLeaves (ledger : Ledger) (request : Uuid) (key : Text) : List DetectorRun :=
  ledger.runs.filter fun run =>
    run.requestId = request ∧ run.detectorBindingKey = key ∧ run.state.IsFailure
    ∧ run.resultCount = 0 ∧ ¬∃ child ∈ ledger.runs, child.supersedesRunId = some run.id

/-- The new run of `begin_detector_run_v1`. -/
def newRun (value : Json) (sealed : ScanSeal) (attempt : WorkAttempt) (id : Uuid)
    (superseded : Option Uuid) (data digest : Bytes) (now : Instant) : DetectorRun :=
  { id
    orgId := sealed.orgId
    codebaseId := sealed.codebaseId
    requestId := sealed.requestId
    captureId := sealed.captureId
    sealId := sealed.id
    workItemId := attempt.workItemId
    workAttemptId := attempt.id
    detectorBindingKey := (value.get "binding_key").chars
    runOrdinal := (value.get "run_ordinal").integer
    supersedesRunId := superseded
    inputBytes := data
    inputDigest := digest
    createdAt := now
    state := .running
    terminalAt := none
    resultSchema := none
    resultBytes := none
    resultDigest := none
    stdout := none
    stderr := none
    failurePrefix := none
    resultCount := 0
    inventoryDigest := none }

/-- `begin_detector_run_v1` of a binding that no run has completed. -/
def startRun (ledger : Ledger) (value : Json) (sealed : ScanSeal) (attempt : WorkAttempt)
    (data digest : Bytes) (now : Instant) : Except SqlError (RunReply × Ledger) := do
  let key := (value.get "binding_key").chars
  require (¬ledger.keptPartial sealed.requestId)
    "retained partial observations require new request"
  match ledger.runs.find? fun run =>
      run.workAttemptId = attempt.id ∧ run.detectorBindingKey = key
      ∧ run.runOrdinal = (value.get "run_ordinal").integer with
  | some existing => do
      require (existing.inputBytes = data ∧ existing.inputDigest = digest)
        "run invocation replay conflict"
      require existing.state.IsOpen
        "terminal failed/interrupted run cannot begin again; read retained failure and allocate a new run"
      .ok (⟨existing.id, false, [], true⟩, ledger)
  | none => do
      require (¬∃ run ∈ ledger.runs, run.requestId = sealed.requestId
          ∧ run.detectorBindingKey = key ∧ run.state.IsOpen)
        "binding already executing"
      let leaves := ledger.failedLeaves sealed.requestId key
      require (leaves.length ≤ 1) "ambiguous failure-chain leaves"
      let run := newRun value sealed attempt (env.generated 0) (leaves.head?.map (·.id)) data
        digest now
      checkUnique (∀ other ∈ ledger.runs, other.id ≠ run.id
          ∧ (run.supersedesRunId = none ∨ other.supersedesRunId ≠ run.supersedesRunId))
        "detector_runs"
      .ok (⟨run.id, false, [], false⟩, { ledger with runs := ledger.runs ++ [run] })

/-- The binding of a seal with a key. -/
def sealedBinding (sealed : ScanSeal) (key : Json) : Except SqlError (Option Json) := do
  let value ← storedJson sealed.sealBytes
  .ok ((value.get "bindings").items.find? fun binding => binding.get "key" = key)

/-- `begin_detector_run_v1`. -/
def beginDetectorRun (ledger : Ledger) (call : Call) (data digest : Bytes)
    : Except SqlError (RunReply × Ledger) := do
  let value ← envelope sha256 .runInput data digest
  let (locked, attempt) ← lockLive env ledger call .captureDetection (env.clock 0)
  let sealed ← expectRow
    (ledger.seals.find? fun row => row.orgId = call.org ∧ row.requestId = locked.work.requestId)
    "detector requires immutable seal"
  let found ← sealedBinding sealed (value.get "binding_key")
  let binding ← expectRow found "sealed execution policy mismatch"
  require (binding.get "tool_policy_digest" = value.get "tool_policy_digest"
      ∧ binding.get "code_policy_digest" = value.get "code_policy_digest"
      ∧ binding.get "environment_policy_digest" = value.get "environment_policy_digest")
    "sealed execution policy mismatch"
  match ledger.runs.find? fun run =>
      run.orgId = call.org ∧ run.requestId = sealed.requestId
      ∧ run.detectorBindingKey = (value.get "binding_key").chars ∧ run.state = .completed with
  | some existing => do
      require (existing.sealId = sealed.id ∧ existing.captureId = sealed.captureId)
        "completed binding scope mismatch"
      .ok (⟨existing.id, true, (ledger.occurrencesOf existing.id).map (·.id), true⟩, ledger)
  | none => startRun env ledger value sealed attempt data digest (env.clock 0)

structure Batch where
  run : Uuid
  data : Bytes
  digest : Bytes
  stdout : Bytes
  stderr : Bytes
  rawResults : List Bytes
  witnesses : List (Option Bytes)

structure BatchReply where
  runId : Uuid
  occurrenceIds : List Uuid
  identityWorkIds : List Uuid
  replayed : Bool
  deriving DecidableEq

/-- `MAX_OCCURRENCE`. -/
def maxOccurrence : Nat := 16777216

/-- `MAX_BATCH`. -/
def maxBatch : Nat := 67108864

/-- The digest of a witness, NULL without one. -/
def witnessDigest (witness : Option Bytes) : Json :=
  match witness with
  | some bytes => .str (hex (sha256 bytes))
  | none => .null

/-- The raw bytes of one occurrence. -/
def checkRaw (call : Batch) (entry : Json × Nat) : Except SqlError Unit := do
  let raw ← expectRow call.rawResults[entry.2]? "occurrence raw byte limit"
  let witness := call.witnesses[entry.2]?.join
  require (raw.length + (witness.map List.length).getD 0 ≤ maxOccurrence)
    "occurrence raw byte limit"
  require (entry.1.get "raw_sha256" = .str (hex (sha256 raw))
      ∧ entry.1.get "witness_sha256" = witnessDigest sha256 witness)
    "occurrence raw digest mismatch"

/-- The checks of `retain_detection_batch_v1` before its lock. -/
def checkRawBatch (call : Batch) : Except SqlError Json := do
  let value ← envelope sha256 .detectionBatch call.data call.digest
  require (uuidOf (value.get "run_id") = some call.run) "typed run mismatch"
  let occurrences := (value.get "occurrences").items
  require (call.rawResults.length = occurrences.length
      ∧ call.witnesses.length = call.rawResults.length)
    "raw occurrence inventory mismatch"
  require (call.stdout.length + call.stderr.length + (call.rawResults.map List.length).sum
      + (call.witnesses.map fun witness => (witness.map List.length).getD 0).sum ≤ maxBatch)
    "batch raw byte limit"
  require (value.get "stdout_sha256" = .str (hex (sha256 call.stdout))
      ∧ value.get "stderr_sha256" = .str (hex (sha256 call.stderr)))
    "raw stream digest mismatch"
  Metered.visit (checkRaw sha256 call) occurrences.zipIdx
  .ok value

/-- A terminal run answers the same batch again, and no other. -/
def replayBatch (ledger : Ledger) (call : Batch) (run : DetectorRun)
    : Except SqlError (BatchReply × Ledger) := do
  require (run.resultSchema = some .detectionBatch ∧ run.resultBytes = some call.data
      ∧ run.resultDigest = some call.digest ∧ run.stdout = some call.stdout
      ∧ run.stderr = some call.stderr)
    "terminal batch replay conflict"
  let works ← Metered.collect
    (fun occurrence : DetectionOccurrence => do
      let index := occurrence.toolOrdinal.toNat
      require (call.rawResults[index]? = some occurrence.rawResultBytes
          ∧ call.witnesses[index]?.join = occurrence.witnessBytes)
        "raw batch replay conflict"
      strict (ledger.items.find? fun item => item.occurrenceId = some occurrence.id))
    (ledger.occurrencesOf run.id)
  .ok (⟨run.id, (ledger.occurrencesOf run.id).map (·.id), works.map (·.id), true⟩, ledger)

/-- `v->'coverage'->name @> planned AND planned @> v->'coverage'->name`. -/
def SameMembers (left right : List Json) : Prop :=
  (∀ member ∈ left, member ∈ right) ∧ ∀ member ∈ right, member ∈ left

instance (left right : List Json) : Decidable (SameMembers left right) :=
  inferInstanceAs (Decidable (_ ∧ _))

/-- What a batch has to meet of its binding. -/
def checkSealedBinding (value sealed binding : Json) : Except SqlError Unit := do
  let tool := value.get "tool_identity"
  let code := value.get "code_identity"
  require (tool.get "policy_digest" = binding.get "tool_policy_digest"
      ∧ code.get "policy_digest" = binding.get "code_policy_digest")
    "observed tool/code policy mismatch"
  require (tool.get "artifact_digest" = binding.get "expected_tool_digest"
      ∧ code.get "artifact_digest" = binding.get "expected_code_digest"
      ∧ value.get "detector_env_digest" = binding.get "expected_image_digest")
    "missing or mismatched actual detector artifact pins"
  let coverage := value.get "coverage"
  let completed := value.get "status" = .str (py "completed")
  require (completed
      → SameMembers (coverage.get "files").items (sealed.get "intended_files").items)
    "incomplete intended file coverage"
  require (completed
      → SameMembers (coverage.get "rules").items
          ((binding.get "rules").items.map (·.get "rule_id")))
    "incomplete intended rule coverage"
  Metered.visit
    (fun item : Json => do
      require (item.get "engine" ∈ (binding.get "engines").items) "unsealed child engine"
      require (∃ rule ∈ (binding.get "rules").items, rule.get "rule_id" = item.get "rule_id")
        "unsealed rule")
    (value.get "occurrences").items

/-- `deterministic-core` or `oracle-passthrough`. -/
def partitionOf (engine : Json) : String :=
  if engine = .str (py "ifds") ∨ engine = .str (py "ide") then "deterministic-core"
  else "oracle-passthrough"

/-- The new occurrence of one result. -/
def Batch.occurrence (call : Batch) (value binding rule item : Json) (sVersion : Text)
    (run : DetectorRun) (id : Uuid) (raw : Bytes) (witness : Option Bytes) (metadata : Bytes)
    (moment : Instant) : DetectionOccurrence :=
  { id
    orgId := run.orgId
    codebaseId := run.codebaseId
    requestId := run.requestId
    captureId := run.captureId
    detectorRunId := call.run
    adapterResultKey := (item.get "result_key").chars
    duplicateOrdinal := (item.get "duplicate_ordinal").integer
    toolOrdinal := (item.get "tool_ordinal").integer
    rawResultBytes := raw
    rawResultDigest := sha256 raw
    witnessBytes := witness
    witnessDigest := witness.map sha256
    engine := (item.get "engine").chars
    origin := partitionOf (item.get "engine")
    determinismPartition := partitionOf (item.get "engine")
    detectorId := (binding.get "detector_id").chars
    classId := (binding.get "class_id").chars
    language := (binding.get "language").chars
    ruleId := (item.get "rule_id").chars
    ruleSemanticDigest := (rule.get "semantic_digest").chars
    sVersion
    envDigest := (value.get "detector_env_digest").chars
    fullEnvDigest := value.get "full_env_digest"
    cwe := item.get "cwe"
    severity := (item.get "severity").chars
    message := (item.get "message").chars
    physicalLocation := item.get "location"
    metadataBytes := metadata
    createdAt := moment }

/-- What the loop over the occurrences of a batch reads. -/
structure BatchSource where
  call : Batch
  value : Json
  binding : Json
  requested : Json
  sVersion : Text
  run : DetectorRun
  moment : Instant

/-- One round of the loop: an occurrence and its identity work. -/
def insertOccurrence (source : BatchSource) (ledger : Ledger) (item : Json) (index : Nat)
    : Except SqlError (Uuid × Uuid × Ledger) := do
  let rule ← strict ((source.binding.get "rules").items.find? fun rule =>
    rule.get "rule_id" = item.get "rule_id")
  let raw ← strict source.call.rawResults[index]?
  let metadata ← bytesOf item
  let run := source.run
  let row := source.call.occurrence sha256 source.value source.binding rule item source.sVersion
    run (env.generated (2 * index)) raw source.call.witnesses[index]?.join metadata source.moment
  checkUnique (∀ other ∈ ledger.occurrences, other.id ≠ row.id
      ∧ (other.detectorRunId = row.detectorRunId → other.toolOrdinal ≠ row.toolOrdinal
        ∧ ¬(other.adapterResultKey = row.adapterResultKey
          ∧ other.duplicateOrdinal = row.duplicateOrdinal)))
    "detection_occurrences"
  let work := env.generated (2 * index + 1)
  let ledger ← insertWork sha256 { ledger with occurrences := ledger.occurrences ++ [row] } work
    ⟨run.orgId, run.codebaseId, run.requestId, .identity, some row.id, some run.captureId⟩
    (source.requested.get "retry_policy") (source.requested.get "identity_policy")
    (env.clock (2 * index + 2)) (env.clock (2 * index + 3))
  .ok (row.id, work, ledger)

/-- The loop over the occurrences, from a position on. -/
def insertOccurrences (source : BatchSource)
    : List Json → Nat → Ledger → Except SqlError (List Uuid × List Uuid × Ledger)
  | [], _, ledger => .ok ([], [], ledger)
  | item :: rest, index, ledger => do
      let (id, work, ledger) ← insertOccurrence sha256 env source ledger item index
      let (ids, works, ledger) ← insertOccurrences source rest (index + 1) ledger
      .ok (id :: ids, work :: works, ledger)

/-- The state that a batch gives its run. -/
def batchState (value : Json) : RunState :=
  if value.get "status" = .str (py "completed") then .completed else .failed

/-- The end of a run with its batch. -/
def DetectorRun.retain (run : DetectorRun) (call : Batch) (value : Json) (moment : Instant)
    : DetectorRun :=
  { run.finish (batchState value) moment .detectionBatch call.data call.digest with
    stdout := some call.stdout
    stderr := some call.stderr
    resultCount := call.rawResults.length
    inventoryDigest := some (value.get "inventory_digest").chars }

/-- `retain_detection_batch_v1` of an open run. -/
def retainBatch (ledger : Ledger) (call : Call) (batch : Batch) (value : Json) (run : DetectorRun)
    (moment : Instant) : Except SqlError (BatchReply × Ledger) := do
  let _ ← lockLive env ledger call .captureDetection moment
  let sealed ← strict (ledger.seals.find? fun row => row.id = run.sealId)
  let sealedValue ← storedJson sealed.sealBytes
  let found ← sealedBinding sealed (.str run.detectorBindingKey)
  let binding ← strict found
  checkSealedBinding value sealedValue binding
  let request ← strict (ledger.requests.find? fun row => row.id = run.requestId)
  let requested ← storedJson request.requestBytes
  let (ids, works, inserted) ← insertOccurrences sha256 env
    ⟨batch, value, binding, requested, sealed.sVersion, run, moment⟩
    (value.get "occurrences").items 0 ledger
  let state := batchState value
  checkUnique (state = .completed → ∀ other ∈ inserted.runs, other.id = batch.run
      ∨ ¬(other.requestId = run.requestId ∧ other.detectorBindingKey = run.detectorBindingKey
        ∧ other.state = .completed))
    "execution_completed_binding"
  let ended ← refreshStages
    { inserted with
      runs := updateWhere (fun row => row.id = batch.run) (·.retain batch value moment)
        inserted.runs }
    run.requestId
  .ok (⟨batch.run, ids, works, false⟩, ended)

/-- `retain_detection_batch_v1`. -/
def retainDetectionBatch (ledger : Ledger) (call : Call) (batch : Batch)
    : Except SqlError (BatchReply × Ledger) := do
  let value ← checkRawBatch sha256 batch
  let _ ← lockAttempt env ledger call .captureDetection
  let run ← expectRow
    (ledger.runs.find? fun row =>
      row.orgId = call.org ∧ row.id = batch.run ∧ row.workItemId = call.work
      ∧ row.workAttemptId = call.attempt)
    "detector run scope mismatch"
  let requested ← storedJson run.inputBytes
  require ((value.get "actual_invocation").get "argv" = requested.get "argv"
      ∧ (value.get "actual_invocation").get "cwd" = requested.get "cwd")
    "actual invocation differs from immutable run input"
  if run.state.IsOpen then retainBatch sha256 env ledger call batch value run (env.clock 1)
  else replayBatch ledger batch run

structure Failure where
  run : Uuid
  data : Bytes
  digest : Bytes
  failurePrefix : Bytes

structure FailureReply where
  runId : Uuid
  replayed : Bool
  deriving DecidableEq

/-- `MAX_FAILURE_PREFIX`. -/
def maxFailurePrefix : Nat := 65536

/-- The checks of `fail_detector_run_v1` before its lock. -/
def checkFailure (call : Failure) : Except SqlError Unit := do
  let value ← envelope sha256 .runFailure call.data call.digest
  let digest := Json.str (hex (sha256 call.failurePrefix))
  let count := value.get "observed_byte_count"
  require (call.failurePrefix.length ≤ maxFailurePrefix ∧ value.get "prefix_sha256" = digest)
    "failed-run prefix bound/digest"
  require (count = .null ∨ call.failurePrefix.length ≤ count.integer) "observed count below prefix"
  require (value.get "truncated" = .bool true ∨ count = .int call.failurePrefix.length)
    "untruncated evidence requires exact count"
  require (value.get "observed_full_sha256" = .null ∨ value.get "truncated" = .bool true
      ∨ value.get "observed_full_sha256" = digest)
    "full digest mismatch"

/-- The end of a run with a failure. -/
def DetectorRun.fail (run : DetectorRun) (failure : Failure) (moment : Instant) : DetectorRun :=
  { run.finish .failed moment .runFailure failure.data failure.digest with
    failurePrefix := some failure.failurePrefix }

/-- `fail_detector_run_v1`. -/
def failDetectorRun (ledger : Ledger) (call : Call) (failure : Failure)
    : Except SqlError (FailureReply × Ledger) := do
  checkFailure sha256 failure
  let _ ← lockAttempt env ledger call .captureDetection
  let run ← expectRow
    (ledger.runs.find? fun row =>
      row.orgId = call.org ∧ row.id = failure.run ∧ row.workItemId = call.work
      ∧ row.workAttemptId = call.attempt)
    "failed run scope mismatch"
  if run.state.IsOpen then do
    let _ ← lockLive env ledger call .captureDetection (env.clock 1)
    let ended ← refreshStages
      { ledger with
        runs := updateWhere (fun row => row.id = run.id) (·.fail failure (env.clock 1))
          ledger.runs }
      run.requestId
    .ok (⟨run.id, false⟩, ended)
  else do
    require (run.resultSchema = some .runFailure ∧ run.resultBytes = some failure.data
        ∧ run.resultDigest = some failure.digest
        ∧ run.failurePrefix = some failure.failurePrefix)
      "failed-run replay conflict"
    .ok (⟨run.id, true⟩, ledger)

end Scanipy.Db.Execution

import Scanipy.Db.Execution.Operations

/-! The end of an attempt in the execution ledger (`v1_finish`), and the operations as one type.
-/

namespace Scanipy.Db.Execution

open Library Python Services.Scan.OccurrenceStore

variable (sha256 : Bytes → Bytes) (env : Environment)

structure Ending where
  data : Bytes
  digest : Bytes
  expire : Bool

structure FinishReply where
  attemptId : Uuid
  attemptState : AttemptState
  workState : WorkState
  revision : Int
  replayed : Bool
  deriving DecidableEq

/-- `v->>'status'` of an attempt result, as the state of the attempt and of its work. -/
def isCompleted (value : Json) : Prop :=
  value.get "status" = .str (py "completed")

instance (value : Json) : Decidable (isCompleted value) :=
  inferInstanceAs (Decidable (_ = _))

/-- `CASE WHEN p_expire THEN 'interrupted' ELSE v->>'status' END`. -/
def endState (value : Json) (expire : Bool) : AttemptState :=
  if expire then .interrupted
  else if isCompleted value then .completed else .failed

/-- The keys of the completed runs of a request, in order. -/
def Ledger.completedKeys (ledger : Ledger) (request : Uuid) : List Text :=
  sorted ((ledger.runs.filter fun run => run.requestId = request ∧ run.state = .completed).map
    (·.detectorBindingKey))

/-- The keys of the bindings of a seal, in order. -/
def bindingKeys (sealed : Json) : List Text :=
  sorted ((sealed.get "bindings").items.map fun binding => (binding.get "key").chars)

/-- A completed detection has run its whole inventory. -/
def checkInventory (ledger : Ledger) (value : Json) (request : Uuid) : Except SqlError Unit := do
  let sealed ← expectRow (ledger.seals.find? fun row => row.requestId = request)
    "detection completion requires seal"
  let content ← storedJson sealed.sealBytes
  require (ledger.completedKeys request = bindingKeys content)
    "planned detector inventory incomplete"
  let completed := ledger.runs.filter fun run =>
    run.requestId = request ∧ run.state = .completed
  require (SameMembers (completed.map fun run => .str run.id.text)
      (value.get "completed_run_ids").items)
    "completed run acknowledgement mismatch"
  require (¬∃ run ∈ ledger.runs, run.requestId = request ∧ run.state.IsOpen)
    "unsettled detector run"
  require (¬ledger.keptPartial request) "partial retained run prevents complete inventory"

/-- A completed identity has the descriptors that its policy asks for. -/
def checkDescriptors (value : Json) (work : WorkItem) : Except SqlError Unit := do
  let payload ← storedJson work.payloadBytes
  let policy := payload.get "policy"
  let identity := value.get "identity"
  require (identity ≠ .null) "identity completion requires descriptors"
  if policy.get "mode" = .str (py "required") then
    require (isCompleted (identity.get "cpg_order") ∧ isCompleted (identity.get "slice"))
      "required identity incomplete"
  else
    require ((identity.get "cpg_order").get "status" = .str (py "not-applicable")
        ∧ (identity.get "slice").get "status" = .str (py "not-applicable")
        ∧ value.get "identity_policy_reason" = policy.get "reason"
        ∧ policy.get "reason" ≠ .null)
      "not-applicable identity policy mismatch"

/-- What a completed attempt has to show. The runner's members are not NULL. -/
def checkCompletion (ledger : Ledger) (value : Json) (kind : WorkKind) (locked : Locked)
    : Except SqlError Unit := do
  require (value.get "actual_code_digest" ≠ .null ∧ value.get "actual_env_digest" ≠ .null)
    "completion requires actual execution evidence"
  let policy ← storedJson locked.request.plannedPolicyBytes
  let runner := policy.get (kind.text ++ "_runner")
  require (value.get "actual_code_digest" = runner.get "expected_code_digest"
      ∧ value.get "actual_env_digest" = runner.get "expected_image_digest")
    "missing or mismatched actual runner artifact pins"
  match kind with
  | .captureDetection => checkInventory ledger value locked.work.requestId
  | .identity => checkDescriptors value locked.work

/-- What an attempt may report by its kind. -/
def checkReport (value : Json) (kind : WorkKind) : Except SqlError Unit :=
  match kind with
  | .captureDetection =>
      require (value.get "identity" = .null) "detection attempt cannot claim identity result"
  | .identity =>
      require ((value.get "completed_run_ids").items = [])
        "identity cannot complete detector runs"

/-- The open runs of a failed detection are interrupted with it. -/
def Ledger.interruptRuns (ledger : Ledger) (attempt : Uuid) (moment : Instant)
    (data digest : Bytes) : Ledger :=
  { ledger with
    runs := updateWhere (fun run => run.workAttemptId = attempt ∧ run.state.IsOpen)
      (·.finish .interrupted moment .attemptResult data digest) ledger.runs }

/-- `retry_allowed`. -/
def retryAllowed (ledger : Ledger) (value : Json) (kind : WorkKind) (work : WorkItem)
    (attempt : WorkAttempt) : Prop :=
  ¬isCompleted value ∧ value.get "retryable" = .bool true
    ∧ attempt.attemptNumber < work.maxAttempts
    ∧ ¬(kind = .captureDetection ∧ ledger.keptPartial work.requestId)

instance (ledger : Ledger) (value : Json) (kind : WorkKind) (work : WorkItem)
    (attempt : WorkAttempt) : Decidable (retryAllowed ledger value kind work attempt) :=
  inferInstanceAs (Decidable (_ ∧ _))

/-- `least(max_backoff_seconds, initial_backoff_seconds*(2^(attempt_number-1))::int)`. -/
def WorkItem.delay (item : WorkItem) (attemptNumber : Int) : Int :=
  min item.maxBackoffSeconds (item.initialBackoffSeconds * 2 ^ (attemptNumber - 1).toNat)

/-- The work after an attempt: pending for a retry, or terminal. -/
def WorkItem.settle (item : WorkItem) (state : WorkState) (attemptNumber : Int) (moment : Instant)
    (data digest : Bytes) : WorkItem :=
  if state = .pending then
    { item with
      state := .pending
      activeAttemptId := none
      revision := item.revision + 1
      nextAttemptAt := moment + seconds (item.delay attemptNumber)
      terminalBytes := none
      terminalDigest := none }
  else
    { item with
      state
      activeAttemptId := none
      revision := item.revision + 1
      terminalBytes := some data
      terminalDigest := some digest }

/-- `new_state`. -/
def settledState (ledger : Ledger) (value : Json) (kind : WorkKind) (work : WorkItem)
    (attempt : WorkAttempt) : WorkState :=
  if retryAllowed ledger value kind work attempt then .pending
  else if isCompleted value then .completed else .failed

def AttemptState.text : AttemptState → String
  | running => "running"
  | completed => "completed"
  | failed => "failed"
  | interrupted => "interrupted"
  | cancelled => "cancelled"

/-- The rows of an attempt that ends. -/
def endAttempt (ledger : Ledger) (ending : Ending) (value : Json) (kind : WorkKind)
    (work : WorkItem) (attempt : WorkAttempt) (moment : Instant)
    : Except SqlError (FinishReply × Ledger) := do
  let settled :=
    if kind = .captureDetection ∧ ¬isCompleted value then
      ledger.interruptRuns attempt.id moment ending.data ending.digest
    else ledger
  let state := settledState settled value kind work attempt
  let result := endState value ending.expire
  let released ← releaseAll sha256
    { settled with
      attempts := updateWhere (fun row => row.id = attempt.id)
        (·.finish result moment .attemptResult ending.data ending.digest) settled.attempts }
    attempt.id attempt.fencingToken
    ("attempt-" ++ if ending.expire then "expired" else result.text) moment
  let ended ← refreshStages
    { released with
      items := updateWhere (fun item => item.id = work.id)
        (·.settle state attempt.attemptNumber moment ending.data ending.digest) released.items }
    work.requestId
  require (kind = .captureDetection → isCompleted value →
      ∃ row ∈ ended.requests, row.id = work.requestId ∧ row.detectionState = .completed)
    "unsuperseded detector failure prevents completion"
  .ok (⟨attempt.id, result, state, work.revision + 1, false⟩, ended)

/-- A terminal attempt answers the same result again, and no other. -/
def replayEnding (ledger : Ledger) (ending : Ending) (value : Json) (work : WorkItem)
    (attempt : WorkAttempt) : Except SqlError (FinishReply × Ledger) := do
  require (attempt.resultBytes = some ending.data ∧ attempt.resultDigest = some ending.digest
      ∧ attempt.state = endState value ending.expire)
    "terminal attempt replay conflict"
  .ok (⟨attempt.id, attempt.state, work.state, work.revision, true⟩, ledger)

/-- The lease of the attempt that is to expire has run out. -/
def checkExpired (call : Call) (value : Json) (work : WorkItem) (attempt : WorkAttempt)
    (now : Instant) : Except SqlError Unit :=
  require (work.state = .running ∧ work.activeAttemptId = some attempt.id
      ∧ work.fencingToken = call.token ∧ work.revision = call.revision
      ∧ attempt.leaseExpiresAt ≤ now ∧ ¬isCompleted value)
    "attempt is not expired/current"

/-- The evidence of a completed attempt; a failed one needs none. -/
def checkStatus (ledger : Ledger) (value : Json) (kind : WorkKind) (locked : Locked)
    : Except SqlError Unit :=
  if isCompleted value then checkCompletion ledger value kind locked else .ok ()

/-- `v1_finish` of a running attempt, at the moment that its lock read. -/
def endRunning (ledger : Ledger) (ending : Ending) (value : Json) (kind : WorkKind)
    (locked : Locked) (attempt : WorkAttempt) (moment : Instant)
    : Except SqlError (FinishReply × Ledger) := do
  checkReport value kind
  checkStatus ledger value kind locked
  endAttempt sha256 ledger ending value kind locked.work attempt moment

/-- `v1_finish`. -/
def finish (ledger : Ledger) (call : Call) (kind : WorkKind) (ending : Ending)
    : Except SqlError (FinishReply × Ledger) := do
  let value ← envelope sha256 .attemptResult ending.data ending.digest
  let (locked, attempt) ← lockAttempt env ledger call kind
  if attempt.state ≠ .running then replayEnding ledger ending value locked.work attempt
  else if ending.expire then do
    checkExpired call value locked.work attempt (env.clock 0)
    endRunning sha256 ledger ending value kind locked attempt (env.clock 0)
  else do
    let (locked, attempt) ← lockLive env ledger call kind (env.clock 1)
    endRunning sha256 ledger ending value kind locked attempt (env.clock 1)

/-- A call of one of the functions that roles may execute. -/
inductive Operation where
  | createRequest (call : CreateRequest)
  | cancelRequest (call : CancelRequest)
  | claimRetirement (call : ClaimRetirement)
  | finishRetirement (call : FinishRetirement)
  | claim (call : Claim)
  | renew (call : Call) (kind : WorkKind)
  | captureLease (call : Call) (kind : WorkKind) (action : LeaseAction)
  | registerCaptureAndSeal (call : Call) (registration : Registration)
  | beginDetectorRun (call : Call) (data digest : Bytes)
  | retainDetectionBatch (call : Call) (batch : Batch)
  | failDetectorRun (call : Call) (failure : Failure)
  | finish (call : Call) (kind : WorkKind) (ending : Ending)

inductive Reply where
  | request (reply : RequestReply)
  | cancelled (reply : CancelReply)
  | retirement (reply : RetirementClaim)
  | retired (reply : RetirementReply)
  | claimed (reply : Option ClaimReply)
  | renewed (reply : RenewReply)
  | lease (reply : LeaseReply)
  | sealed (reply : SealReply)
  | run (reply : RunReply)
  | batch (reply : BatchReply)
  | failure (reply : FailureReply)
  | finished (reply : FinishReply)
  deriving DecidableEq

/-- One call, as one transaction. -/
def perform (ledger : Ledger) : Operation → Except SqlError (Reply × Ledger)
  | .createRequest call => (createRequest sha256 env ledger call).map (.map .request id)
  | .cancelRequest call => (cancelRequest sha256 env ledger call).map (.map .cancelled id)
  | .claimRetirement call => (claimRetirement env ledger call).map (.map .retirement id)
  | .finishRetirement call => (finishRetirement sha256 env ledger call).map (.map .retired id)
  | .claim call => (claim sha256 env ledger call).map (.map .claimed id)
  | .renew call kind => (renew env ledger call kind).map (.map .renewed id)
  | .captureLease call kind action =>
      (captureLease sha256 env ledger call kind action).map (.map .lease id)
  | .registerCaptureAndSeal call registration =>
      (registerCaptureAndSeal sha256 env ledger call registration).map (.map .sealed id)
  | .beginDetectorRun call data digest =>
      (beginDetectorRun sha256 env ledger call data digest).map (.map .run id)
  | .retainDetectionBatch call batch =>
      (retainDetectionBatch sha256 env ledger call batch).map (.map .batch id)
  | .failDetectorRun call failure =>
      (failDetectorRun sha256 env ledger call failure).map (.map .failure id)
  | .finish call kind ending => (finish sha256 env ledger call kind ending).map (.map .finished id)

end Scanipy.Db.Execution

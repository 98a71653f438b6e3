import Scanipy.Db.Execution.Validation
import Scanipy.Library.Tables

/-! The tables of the execution ledger.
Columns whose value a CHECK fixes (the schema names, the algorithms, the unused stages) are left
out, as is `error_reference`, which no operation touches. So are the constraints that the operations
meet by themselves: a refusal less only adds steps.
-/

namespace Scanipy.Db.Execution

open Library Python Services.Scan.OccurrenceStore

/-- A `timestamptz`, in microseconds. -/
abbrev Instant := Int

/-- `make_interval(secs => seconds)`. -/
def seconds (count : Int) : Int :=
  count * 1000000

inductive WorkKind where
  | captureDetection
  | identity
  deriving DecidableEq, Repr

def WorkKind.text : WorkKind → String
  | captureDetection => "capture_detection"
  | identity => "identity"

/-- The states of a work item, and of the stages of a request. -/
inductive WorkState where
  | pending
  | running
  | completed
  | failed
  | cancelled
  deriving DecidableEq, Repr

inductive AttemptState where
  | running
  | completed
  | failed
  | interrupted
  | cancelled
  deriving DecidableEq, Repr

inductive RunState where
  | pending
  | running
  | completed
  | failed
  | interrupted
  deriving DecidableEq, Repr

inductive RetentionState where
  | active
  | retiring
  | retired
  deriving DecidableEq, Repr

/-- `state IN ('pending','running')`. -/
def WorkState.IsOpen (state : WorkState) : Prop :=
  state = .pending ∨ state = .running

instance (state : WorkState) : Decidable state.IsOpen :=
  inferInstanceAs (Decidable (_ ∨ _))

def RunState.IsOpen (state : RunState) : Prop :=
  state = .pending ∨ state = .running

instance (state : RunState) : Decidable state.IsOpen :=
  inferInstanceAs (Decidable (_ ∨ _))

/-- `state IN ('failed','interrupted')`. -/
def RunState.IsFailure (state : RunState) : Prop :=
  state = .failed ∨ state = .interrupted

instance (state : RunState) : Decidable state.IsFailure :=
  inferInstanceAs (Decidable (_ ∨ _))

-- Rows

structure ScanRequest where
  id : Uuid
  orgId : Uuid
  codebaseId : Uuid
  lineageId : Uuid
  predecessorRequestId : Option Uuid
  idempotencyKey : Text
  requestBytes : Bytes
  requestDigest : Bytes
  plannedPolicyBytes : Bytes
  plannedPolicyDigest : Bytes
  createdAt : Instant
  revision : Int
  captureState : WorkState
  detectionState : WorkState
  identityState : WorkState
  activeDetectionWorkId : Option Uuid
  cancellationBytes : Option Bytes
  deriving DecidableEq

structure SourceCapture where
  id : Uuid
  orgId : Uuid
  codebaseId : Uuid
  ownerRequestId : Uuid
  resolvedCommit : Text
  treeDigest : Text
  inventoryBytes : Bytes
  inventoryDigest : Bytes
  storageObjectId : Uuid
  storageReference : Text
  createdAt : Instant
  retainSeconds : Int
  retainUntil : Instant
  retentionState : RetentionState
  cleanupToken : Int
  cleanupExpiresAt : Option Instant
  retirementBytes : Option Bytes
  retirementDigest : Option Bytes
  revision : Int
  deriving DecidableEq

structure ScanSeal where
  id : Uuid
  orgId : Uuid
  codebaseId : Uuid
  requestId : Uuid
  captureId : Uuid
  sealBytes : Bytes
  sealDigest : Bytes
  sVersion : Text
  acceptedContentBytes : Bytes
  acceptedContentDigest : Bytes
  acceptedSpecBytes : Bytes
  acceptedDetectorBytes : List Bytes
  acceptedRuleBytes : List Bytes
  acceptanceEvidenceBytes : Bytes
  acceptanceEvidenceDigest : Bytes
  createdAt : Instant
  deriving DecidableEq

structure WorkItem where
  id : Uuid
  orgId : Uuid
  codebaseId : Uuid
  requestId : Uuid
  kind : WorkKind
  occurrenceId : Option Uuid
  captureId : Option Uuid
  idempotencyKey : Text
  payloadBytes : Bytes
  payloadDigest : Bytes
  retryPolicyBytes : Bytes
  maxAttempts : Int
  leaseSeconds : Int
  initialBackoffSeconds : Int
  maxBackoffSeconds : Int
  createdAt : Instant
  state : WorkState
  activeAttemptId : Option Uuid
  fencingToken : Int
  nextAttemptAt : Instant
  revision : Int
  terminalBytes : Option Bytes
  terminalDigest : Option Bytes
  deriving DecidableEq

structure WorkAttempt where
  id : Uuid
  orgId : Uuid
  codebaseId : Uuid
  requestId : Uuid
  workItemId : Uuid
  kind : WorkKind
  attemptNumber : Int
  fencingToken : Int
  assignmentId : Text
  policyBytes : Bytes
  policyDigest : Bytes
  startedAt : Instant
  leaseExpiresAt : Instant
  state : AttemptState
  terminalAt : Option Instant
  resultSchema : Option EnvelopeName
  resultBytes : Option Bytes
  resultDigest : Option Bytes
  deriving DecidableEq

structure DetectorRun where
  id : Uuid
  orgId : Uuid
  codebaseId : Uuid
  requestId : Uuid
  captureId : Uuid
  sealId : Uuid
  workItemId : Uuid
  workAttemptId : Uuid
  detectorBindingKey : Text
  runOrdinal : Int
  supersedesRunId : Option Uuid
  inputBytes : Bytes
  inputDigest : Bytes
  createdAt : Instant
  state : RunState
  terminalAt : Option Instant
  resultSchema : Option EnvelopeName
  resultBytes : Option Bytes
  resultDigest : Option Bytes
  stdout : Option Bytes
  stderr : Option Bytes
  failurePrefix : Option Bytes
  resultCount : Nat
  inventoryDigest : Option Text
  deriving DecidableEq

structure DetectionOccurrence where
  id : Uuid
  orgId : Uuid
  codebaseId : Uuid
  requestId : Uuid
  captureId : Uuid
  detectorRunId : Uuid
  adapterResultKey : Text
  duplicateOrdinal : Int
  toolOrdinal : Int
  rawResultBytes : Bytes
  rawResultDigest : Bytes
  witnessBytes : Option Bytes
  witnessDigest : Option Bytes
  engine : Text
  origin : String
  determinismPartition : String
  detectorId : Text
  classId : Text
  language : Text
  ruleId : Text
  ruleSemanticDigest : Text
  sVersion : Text
  envDigest : Text
  fullEnvDigest : Json
  cwe : Json
  severity : Text
  message : Text
  physicalLocation : Json
  metadataBytes : Bytes
  createdAt : Instant
  deriving DecidableEq

structure CaptureLease where
  id : Uuid
  orgId : Uuid
  codebaseId : Uuid
  requestId : Uuid
  captureId : Uuid
  workItemId : Uuid
  workAttemptId : Uuid
  fencingToken : Int
  acquiredAt : Instant
  expiresAt : Instant
  releasedAt : Option Instant
  releaseBytes : Option Bytes
  releaseDigest : Option Bytes
  deriving DecidableEq

/-- The schema `scanipy_execution`, and the keys of `public.codebases` that it refers to. -/
structure Ledger where
  codebases : List (Uuid × Uuid)
  requests : List ScanRequest
  captures : List SourceCapture
  seals : List ScanSeal
  items : List WorkItem
  attempts : List WorkAttempt
  runs : List DetectorRun
  occurrences : List DetectionOccurrence
  leases : List CaptureLease
  deriving DecidableEq

/-- The schema after its migrations. -/
def Ledger.empty (codebases : List (Uuid × Uuid)) : Ledger :=
  ⟨codebases, [], [], [], [], [], [], [], []⟩

/-- A key of a new row is not stored. -/
def checkUnique (condition : Prop) [Decidable condition] (constraint : String)
    : Except SqlError Unit :=
  demand condition (.uniqueViolation constraint)

/-- `SELECT ... INTO STRICT`. -/
def strict {ρ : Type} : Option ρ → Except SqlError ρ
  | some row => .ok row
  | none => .error .noDataFound

@[simp]
theorem strict_ok {ρ : Type} {found : Option ρ} {row : ρ}
    : strict found = .ok row ↔ found = some row := by
  cases found <;> simp [strict]

/-- A selected row is there, or the transaction ends with the reason. -/
def expectRow {ρ : Type} (found : Option ρ) (reason : String) : Except SqlError ρ :=
  match found with
  | some row => .ok row
  | none => .error (.raised reason)

@[simp]
theorem expectRow_ok {ρ : Type} {found : Option ρ} {reason : String} {row : ρ}
    : expectRow found reason = .ok row ↔ found = some row := by
  cases found <;> simp [expectRow]

/-- `convert_from(stored,'UTF8')::jsonb` of an envelope that the ledger holds. -/
def storedJson (data : Bytes) : Except SqlError Json := do
  let text ← convertFrom data
  parseJson text

end Scanipy.Db.Execution

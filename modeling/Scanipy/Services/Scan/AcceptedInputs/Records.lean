import Scanipy.Services.Scan.AcceptedInputs.Documents

/-! The immutable records of the verifier, and their form on the wire. -/

namespace Scanipy.Services.Scan.AcceptedInputs

open Library Python

/-- An optional value on the wire. -/
def orNull {α : Type} (write : α → Json) : Option α → Json
  | some value => write value
  | none => .null

def ofUuid (id : Uuid) : Json :=
  .str id.text

/-- `UUID(value)` for a text of that shape. -/
def uuidOf (value : Json) : Uuid :=
  (Uuid.ofText value.chars).getD 0

/-- A member that may be null. -/
def optional {α : Type} (read : Json → α) : Json → Option α
  | .null => none
  | value => some (read value)

/-- `_validate_record` against a dictionary of rules: the types of the members hold by
construction.
-/
def validateRecord (document : Json) (rules : List (String × Shape)) : Except VerificationError Unit := do
  shape document (.object rules)
  checkScope document

structure InstalledTrust where
  deploymentId : Uuid
  registryId : Uuid
  scope : Text
  orgId : Option Uuid
  rootSpkiSha256 : Text
  administratorActorId : Uuid
  schema : Text
  deriving DecidableEq

namespace InstalledTrust

def fields (trust : InstalledTrust) : List (String × Json) :=
  [("deployment_id", ofUuid trust.deploymentId), ("registry_id", ofUuid trust.registryId),
    ("scope", .str trust.scope), ("org_id", orNull ofUuid trust.orgId),
    ("root_spki_sha256", .str trust.rootSpkiSha256),
    ("administrator_actor_id", ofUuid trust.administratorActorId), ("schema", .str trust.schema)]

/-- `record_dict(trust)`. -/
def recordDict (trust : InstalledTrust) : Json :=
  .record trust.fields

/-- `InstalledTrust.__post_init__`. -/
def postInit (trust : InstalledTrust) : Except VerificationError Unit :=
  validateDocument trust.recordDict .installedTrust

/-- The members of a dictionary of that shape. -/
def ofMembers (value : Json) : InstalledTrust where
  deploymentId := uuidOf (value.get "deployment_id")
  registryId := uuidOf (value.get "registry_id")
  scope := (value.get "scope").chars
  orgId := optional uuidOf (value.get "org_id")
  rootSpkiSha256 := (value.get "root_spki_sha256").chars
  administratorActorId := uuidOf (value.get "administrator_actor_id")
  schema := (value.get "schema").chars

/-- `decode_record(value, InstalledTrust, SHAPES[INSTALLED_TRUST])`. -/
def decode (value : Json) : Except VerificationError InstalledTrust := do
  shape value (schemaShape .installedTrust)
  (ofMembers value).postInit
  .ok (ofMembers value)

end InstalledTrust

structure BundleExpectation where
  registryId : Uuid
  bundleId : Uuid
  scope : Text
  orgId : Option Uuid
  sVersion : Text
  acceptedContentDigest : Text
  deriving DecidableEq

namespace BundleExpectation

def fields (expected : BundleExpectation) : List (String × Json) :=
  [("registry_id", ofUuid expected.registryId), ("bundle_id", ofUuid expected.bundleId),
    ("scope", .str expected.scope), ("org_id", orNull ofUuid expected.orgId),
    ("S_version", .str expected.sVersion),
    ("accepted_content_digest", .str expected.acceptedContentDigest)]

def recordDict (expected : BundleExpectation) : Json :=
  .record expected.fields

def postInit (expected : BundleExpectation) : Except VerificationError Unit :=
  validateRecord expected.recordDict bundleExpectationFields

def ofMembers (value : Json) : BundleExpectation where
  registryId := uuidOf (value.get "registry_id")
  bundleId := uuidOf (value.get "bundle_id")
  scope := (value.get "scope").chars
  orgId := optional uuidOf (value.get "org_id")
  sVersion := (value.get "S_version").chars
  acceptedContentDigest := (value.get "accepted_content_digest").chars

def decode (value : Json) : Except VerificationError BundleExpectation := do
  shape value (.object bundleExpectationFields)
  (ofMembers value).postInit
  .ok (ofMembers value)

end BundleExpectation

structure AdmissionExpectation where
  checkpointDigest : Text
  checkpointGeneration : Int
  admissionEpoch : Uuid
  policyDigest : Text
  policyRevision : Int
  deriving DecidableEq

namespace AdmissionExpectation

def fields (expected : AdmissionExpectation) : List (String × Json) :=
  [("checkpoint_digest", .str expected.checkpointDigest),
    ("checkpoint_generation", .int expected.checkpointGeneration),
    ("admission_epoch", ofUuid expected.admissionEpoch), ("policy_digest", .str expected.policyDigest),
    ("policy_revision", .int expected.policyRevision)]

def recordDict (expected : AdmissionExpectation) : Json :=
  .record expected.fields

def postInit (expected : AdmissionExpectation) : Except VerificationError Unit :=
  validateRecord expected.recordDict admissionExpectationFields

def ofMembers (value : Json) : AdmissionExpectation where
  checkpointDigest := (value.get "checkpoint_digest").chars
  checkpointGeneration := (value.get "checkpoint_generation").integer
  admissionEpoch := uuidOf (value.get "admission_epoch")
  policyDigest := (value.get "policy_digest").chars
  policyRevision := (value.get "policy_revision").integer

def decode (value : Json) : Except VerificationError AdmissionExpectation := do
  shape value (.object admissionExpectationFields)
  (ofMembers value).postInit
  .ok (ofMembers value)

end AdmissionExpectation

structure ExecutionBinding where
  orgId : Uuid
  codebaseId : Uuid
  requestId : Uuid
  captureId : Uuid
  sealId : Uuid
  workItemId : Uuid
  workAttemptId : Uuid
  detectorRunId : Uuid
  captureLeaseId : Uuid
  authorizationEventId : Uuid
  fencingToken : Int
  workRevision : Int
  runInputDigest : Text
  requestedPolicyDigest : Text
  attemptPolicyDigest : Text
  authorizationDigest : Text
  leaseExpiresAt : Text
  captureLeaseExpiresAt : Text
  deriving DecidableEq

namespace ExecutionBinding

def fields (binding : ExecutionBinding) : List (String × Json) :=
  [("org_id", ofUuid binding.orgId), ("codebase_id", ofUuid binding.codebaseId),
    ("request_id", ofUuid binding.requestId), ("capture_id", ofUuid binding.captureId),
    ("seal_id", ofUuid binding.sealId), ("work_item_id", ofUuid binding.workItemId),
    ("work_attempt_id", ofUuid binding.workAttemptId),
    ("detector_run_id", ofUuid binding.detectorRunId),
    ("capture_lease_id", ofUuid binding.captureLeaseId),
    ("authorization_event_id", ofUuid binding.authorizationEventId),
    ("fencing_token", .int binding.fencingToken), ("work_revision", .int binding.workRevision),
    ("run_input_digest", .str binding.runInputDigest),
    ("requested_policy_digest", .str binding.requestedPolicyDigest),
    ("attempt_policy_digest", .str binding.attemptPolicyDigest),
    ("authorization_digest", .str binding.authorizationDigest),
    ("lease_expires_at", .str binding.leaseExpiresAt),
    ("capture_lease_expires_at", .str binding.captureLeaseExpiresAt)]

def recordDict (binding : ExecutionBinding) : Json :=
  .record binding.fields

def postInit (binding : ExecutionBinding) : Except VerificationError Unit :=
  validateRecord binding.recordDict executionBindingFields

def ofMembers (value : Json) : ExecutionBinding where
  orgId := uuidOf (value.get "org_id")
  codebaseId := uuidOf (value.get "codebase_id")
  requestId := uuidOf (value.get "request_id")
  captureId := uuidOf (value.get "capture_id")
  sealId := uuidOf (value.get "seal_id")
  workItemId := uuidOf (value.get "work_item_id")
  workAttemptId := uuidOf (value.get "work_attempt_id")
  detectorRunId := uuidOf (value.get "detector_run_id")
  captureLeaseId := uuidOf (value.get "capture_lease_id")
  authorizationEventId := uuidOf (value.get "authorization_event_id")
  fencingToken := (value.get "fencing_token").integer
  workRevision := (value.get "work_revision").integer
  runInputDigest := (value.get "run_input_digest").chars
  requestedPolicyDigest := (value.get "requested_policy_digest").chars
  attemptPolicyDigest := (value.get "attempt_policy_digest").chars
  authorizationDigest := (value.get "authorization_digest").chars
  leaseExpiresAt := (value.get "lease_expires_at").chars
  captureLeaseExpiresAt := (value.get "capture_lease_expires_at").chars

def decode (value : Json) : Except VerificationError ExecutionBinding := do
  shape value (.object executionBindingFields)
  (ofMembers value).postInit
  .ok (ofMembers value)

end ExecutionBinding

namespace LedgerExpectation

end LedgerExpectation

end Scanipy.Services.Scan.AcceptedInputs

import Scanipy.Services.Scan.AcceptedInputs.Codec
import Scanipy.Services.Scan.AcceptedInputs.Shapes

/-! The finite inventory of accepted-input documents: the shape of every schema and the relations
between the fields.
-/

namespace Scanipy.Services.Scan.AcceptedInputs

open Library Python

/-- The keys of `SHAPES`. -/
inductive SchemaId where
  | installedTrust
  | sManifest
  | detector
  | semanticBinding
  | policy
  | approval
  | inventory
  | adoption
  | publication
  | admission
  | sealed
  | live
  | publicationInput
  | sealAuthorization
  | execution
  | denial
  | runtime
  | result
  deriving DecidableEq, Repr

/-- The identifier of a schema. -/
def SchemaId.name : SchemaId → String
  | installedTrust => "scanipy-registry-installed-trust/1"
  | sManifest => "scanipy-accepted-s-manifest/1"
  | detector => "scanipy-accepted-detector/1"
  | semanticBinding => "scanipy-rule-semantics-binding/1"
  | policy => "scanipy-accepted-trust-policy/1"
  | approval => "scanipy-accepted-approval/1"
  | inventory => "scanipy-accepted-evidence-inventory/1"
  | adoption => "scanipy-operator-adoption/1"
  | publication => "scanipy-accepted-publication/1"
  | admission => "scanipy-registry-admission/1"
  | sealed => "scanipy-sealed-acceptance/1"
  | live => "scanipy-registry-current-authority/1"
  | publicationInput => "scanipy-publication-input/1"
  | sealAuthorization => "scanipy-capture-seal-authorization/1"
  | execution => "scanipy-execution-authorization/1"
  | denial => "scanipy-execution-denial/1"
  | runtime => "scanipy-accepted-verifier-runtime/1"
  | result => "scanipy-accepted-verifier-result/1"

/-- `SIGNATURE_PROFILE`. -/
def signatureProfile : String := "scanipy-registry-rsa-pss-sha256/1"

/-- `RULE`. -/
def ruleSchema : String := "scanipy-bound-rule-set/1"

/-- `MODEL`. -/
def modelSchema : String := "scanipy-operation-models/1"

/-- `SEMANTICS`. -/
def semantics : String := "scanipy-scalar-ifds/1"

/-- `PROJECTION`. -/
def projection : String := "scanipy-java-python-scalar-flow/1"

/-- `SOURCE_SYNTAX`. -/
def sourceSyntax : String := "scanipy-source-syntax/1"

/-- `FAILURE_CODES`. -/
def failureCodes : List String :=
  ["invalid-input", "unsupported-schema", "content-mismatch", "untrusted-root", "signature-invalid",
    "grant-denied", "policy-stale", "policy-expired", "checkpoint-denied", "scope-mismatch",
    "ledger-mismatch", "fence-stale", "runtime-unsupported", "internal-error"]

/-- `CLASSES`. -/
def classes : List String :=
  ["injection", "path-traversal", "ssrf", "deserialization", "xss", "crypto-misuse", "authn-authz",
    "secrets", "dep-cve", "memory-safety"]

/-- `MODES`. -/
def modes : List String :=
  ["publication-preflight", "historical", "execution"]

-- Shapes

/-- The same shape under several names, as `dict.fromkeys` gives. -/
def fromKeys (names : List String) (rule : Shape) : List (String × Shape) :=
  names.map fun name => (name, rule)

/-- `SCOPE`. -/
def scopeFields : List (String × Shape) :=
  [("scope", .literals ["global", "customer"]), ("org_id", .nullable .uuid)]

/-- `NAMESPACE`. -/
def namespaceFields : List (String × Shape) :=
  ("registry_id", .uuid) :: scopeFields

/-- `PROFILE`. -/
def profileShape : Shape :=
  .object [("language", .literals ["python", "java"]), ("projection_profile", .literals [projection]),
    ("source_syntax_schema", .literals [sourceSyntax])]

/-- `MODEL_MEMBER`. -/
def modelMember : Shape :=
  .object [("artifact_id", .id), ("version", .version), ("schema", .literals [modelSchema]),
    ("raw_sha256", .digest)]

/-- `RULE_MEMBER`. -/
def ruleMember : Shape :=
  .object [("rule_id", .id), ("artifact_id", .id), ("version", .version),
    ("schema", .literals [ruleSchema]), ("raw_sha256", .digest), ("semantics", .literals [semantics]),
    ("projection_profile", .literals [projection]), ("model_artifact_id", .id),
    ("model_raw_sha256", .digest), ("semantic_descriptor_digest", .digest)]

/-- `DETECTOR_MEMBER`. -/
def detectorMember : Shape :=
  .object [("detector_id", .id), ("detector_version", .version),
    ("detector_schema", .literals [SchemaId.detector.name]), ("detector_sha256", .digest),
    ("class_id", .literals classes), ("language_profiles", .array profileShape 1 2),
    ("engine", .literals ["ifds"]), ("rules", .array ruleMember 1 maxValues)]

/-- `OBJECT`. -/
def objectShape : Shape :=
  .object [("role", .token), ("schema", .nullable .id), ("length", .count), ("raw_sha256", .digest)]

/-- `GRANT`. -/
def grantFields : List (String × Shape) :=
  [("grant_id", Shape.uuid), ("key_id", .token), ("key_version", .positive), ("spki_sha256", .digest),
    ("signature_profile", .literals [signatureProfile]), ("issuer_actor_id", .uuid),
    ("capability", .literals ["publish-builtin"])]
  ++ scopeFields
  ++ [("not_before", Shape.second), ("not_after", .second),
    ("status", .literals ["active", "retired", "revoked"]), ("status_changed_at", .nullable .second)]

/-- `BUNDLE_EXPECTATION`. -/
def bundleExpectationFields : List (String × Shape) :=
  namespaceFields
  ++ [("bundle_id", Shape.uuid), ("S_version", .version), ("accepted_content_digest", .digest)]

/-- `ADMISSION_EXPECTATION`. -/
def admissionExpectationFields : List (String × Shape) :=
  [("checkpoint_digest", .digest), ("checkpoint_generation", .positive), ("admission_epoch", .uuid),
    ("policy_digest", .digest), ("policy_revision", .positive)]

/-- `EXECUTION_BINDING`. -/
def executionBindingFields : List (String × Shape) :=
  fromKeys ["org_id", "codebase_id", "request_id", "capture_id", "seal_id", "work_item_id",
    "work_attempt_id", "detector_run_id", "capture_lease_id", "authorization_event_id"] .uuid
  ++ [("fencing_token", Shape.positive), ("work_revision", .count)]
  ++ fromKeys ["run_input_digest", "requested_policy_digest", "attempt_policy_digest",
    "authorization_digest"] .digest
  ++ [("lease_expires_at", Shape.instant), ("capture_lease_expires_at", .instant)]

/-- `AUTHORITY_COMMON`. -/
def authorityCommonFields : List (String × Shape) :=
  [("event_id", Shape.uuid), ("operation_key", .uuid)] ++ namespaceFields
  ++ fromKeys ["codebase_id", "request_id", "bundle_id", "approval_event_id", "policy_event_id",
    "admission_event_id", "admission_epoch", "work_item_id", "work_attempt_id", "capture_id",
    "seal_id", "capture_lease_id"] .uuid
  ++ fromKeys ["request_binding_digest", "accepted_content_digest", "requested_policy_digest",
    "policy_digest", "checkpoint_digest", "attempt_policy_digest", "resolver_artifact_digest"] .digest
  ++ [("policy_revision", Shape.positive), ("checkpoint_generation", .positive),
    ("fencing_token", .positive), ("work_revision", .count),
    ("work_kind", .literals ["capture_detection", "identity"]), ("lease_expires_at", .instant),
    ("capture_lease_expires_at", .instant)]

/-- `TARGET`. -/
def targetFields : List (String × Shape) :=
  [("purpose", .literals ["detector-run", "identity-attempt"]), ("detector_run_id", .nullable .uuid),
    ("run_input_digest", .nullable .digest), ("occurrence_id", .nullable .uuid),
    ("previous_authorization_id", .nullable .uuid)]

/-- `CHECKS`. -/
def checksFields : List (String × Shape) :=
  [("accepted_content_digest", Shape.digest), ("approval_event_id", .uuid),
    ("approval_statement_digest", .digest)]
  ++ fromKeys ["publication_receipt_digest", "qualified_rule_digest",
    "execution_authorization_digest", "current_policy_digest", "checkpoint_digest"] (.nullable .digest)
  ++ [("current_policy_revision", Shape.nullable .positive), ("checkpoint_generation", .nullable .positive),
    ("admission_epoch", .nullable .uuid), ("verified_at", .instant),
    ("permission_expires_at", .nullable .instant)]

/-- `SHAPES[schema]` without its member `schema`. -/
def schemaFields : SchemaId → List (String × Shape)
  | .installedTrust =>
      namespaceFields
      ++ [("deployment_id", .uuid), ("root_spki_sha256", .digest), ("administrator_actor_id", .uuid)]
  | .sManifest =>
      namespaceFields
      ++ [("bundle_id", .uuid), ("S_version", .version), ("detectors", .array detectorMember 1 maxValues),
        ("models", .array modelMember 1 maxValues)]
  | .detector =>
      [("id", .id), ("version", .version), ("class_id", .literals classes), ("cwes", .array .cwe 1 64),
        ("languages", .array (.literals ["python", "java"]) 1 2), ("frameworks", .array .id 0 32),
        ("engine", .literals ["ifds"]),
        ("severity_default", .literals ["low", "medium", "high", "critical"]),
        ("rule_ids", .array .id 1 maxValues), ("profiles", .array profileShape 1 2)]
  | .semanticBinding =>
      [("rule_raw_sha256", .digest), ("model_raw_sha256", .digest), ("semantics", .literals [semantics]),
        ("projection_profile", .literals [projection])]
  | .policy =>
      namespaceFields
      ++ [("event_id", .uuid), ("revision", .positive), ("previous_policy_digest", .nullable .digest),
        ("valid_from", .second), ("expires_at", .second), ("grants", .array (.object grantFields) 0 64)]
  | .approval =>
      namespaceFields
      ++ [("event_id", .uuid), ("publication_key", .uuid), ("bundle_id", .uuid),
        ("S_version", .version), ("accepted_content_digest", .digest),
        ("approval_kind", .literals ["builtin-operator"]), ("issuer_actor_id", .uuid),
        ("grant_id", .uuid), ("key_id", .token), ("key_version", .positive), ("spki_sha256", .digest),
        ("signature_profile", .literals [signatureProfile]), ("trust_policy_digest", .digest),
        ("issued_at", .second), ("evidence_inventory_digest", .digest), ("proposal_id", .enum [.null])]
  | .inventory =>
      [("approval_kind", .literals ["builtin-operator"]), ("objects", .array objectShape 1 1)]
  | .adoption =>
      namespaceFields
      ++ [("decision_id", .uuid), ("actor_id", .uuid), ("action", .literals ["adopt-builtin"]),
        ("bundle_id", .uuid), ("accepted_content_digest", .digest), ("decided_at", .second),
        ("reason", .reason), ("proposal_id", .enum [.null])]
  | .publication =>
      namespaceFields
      ++ [("approval_event_id", .uuid), ("publication_key", .uuid), ("bundle_id", .uuid)]
      ++ fromKeys ["approval_statement_digest", "approval_signature_sha256",
        "evidence_inventory_digest", "accepted_content_digest", "policy_digest", "checkpoint_digest",
        "publisher_artifact_digest"] .digest
      ++ [("policy_revision", .positive), ("checkpoint_generation", .positive),
        ("admission_epoch", .uuid), ("published_at", .instant), ("publisher_actor_id", .uuid)]
  | .admission =>
      namespaceFields
      ++ [("event_id", .uuid), ("deployment_id", .uuid), ("generation", .positive),
        ("previous_checkpoint_digest", .nullable .digest), ("admission_epoch", .uuid),
        ("action", .literals ["admit", "block"]), ("policy_revision", .positive),
        ("policy_digest", .digest), ("issued_at", .second), ("expires_at", .second),
        ("administrator_actor_id", .uuid), ("reason", .reason)]
  | .sealed =>
      fromKeys ["registry_id", "request_id", "org_id", "codebase_id", "bundle_id",
        "approval_event_id", "admission_epoch"] .uuid
      ++ fromKeys ["accepted_content_digest", "publication_policy_digest", "current_policy_digest",
        "checkpoint_digest", "verifier_artifact_digest"] .digest
      ++ [("current_policy_revision", .positive), ("checkpoint_generation", .positive),
        ("resolved_at", .instant), ("objects", .array objectShape 15 15)]
  | .live => namespaceFields ++ admissionExpectationFields ++ [("objects", .array objectShape 4 4)]
  | .publicationInput => bundleExpectationFields ++ [("objects", .array objectShape 10 10)]
  | .sealAuthorization => authorityCommonFields ++ [("authorized_at", .instant)]
  | .execution =>
      authorityCommonFields ++ targetFields
      ++ [("authorized_at", .instant), ("action", .literals ["initial", "renew"])]
  | .denial =>
      authorityCommonFields ++ targetFields
      ++ [("observed_at", .instant), ("reason", .literals ["grant-revoked", "grant-expired",
        "policy-expired", "unsupported-authority", "missing-runtime-pin", "scope-conflict"])]
  | .runtime =>
      [("implementation", .literals ["cpython"]), ("python_version", .version),
        ("python_executable", .path), ("python_executable_sha256", .digest), ("worker_script", .path),
        ("worker_script_sha256", .digest), ("application_root", .path),
        ("application_artifact_digest", .digest), ("stdlib_roots", .array .path 1 4),
        ("dependency_roots", .array .path 1 4), ("dependency_artifact_digest", .digest),
        ("verifier_artifact_digest", .digest), ("work_root", .path),
        ("resource_profile", .literals ["scanipy-verifier-limits/1"])]
  | .result =>
      [("operation_id", .nullable .uuid), ("request_sha256", .nullable .digest),
        ("mode", .nullable (.literals modes)), ("status", .literals ["verified", "rejected"]),
        ("failure_code", .nullable (.literals failureCodes)),
        ("checks", .nullable (.object checksFields))]

/-- `SHAPES[schema]`. -/
def schemaShape (schema : SchemaId) : Shape :=
  .object (schemaFields schema ++ [("schema", Shape.literals [schema.name])])

/-- `SEALED_ROLES`. -/
def sealedRoles : List (String × Option SchemaId) :=
  [("approval-statement", some .approval), ("approval-signature", none), ("issuer-spki", none),
    ("publication-receipt", some .publication), ("publication-policy", some .policy),
    ("publication-policy-signature", none), ("publication-checkpoint", some .admission),
    ("publication-checkpoint-signature", none), ("current-policy", some .policy),
    ("current-policy-signature", none), ("trust-root-spki", none),
    ("approval-evidence-inventory", some .inventory), ("operator-adoption", some .adoption),
    ("admission-checkpoint", some .admission), ("admission-checkpoint-signature", none)]

/-- `PUBLICATION_ROLES`. -/
def publicationRoles : List (String × Option SchemaId) :=
  sealedRoles.filter fun role =>
    !(["publication-receipt", "publication-policy", "publication-policy-signature",
      "publication-checkpoint", "publication-checkpoint-signature"].contains role.1)

/-- `LIVE_ROLES`. -/
def liveRoles : List (String × Option SchemaId) :=
  sealedRoles.filter fun role =>
    ["current-policy", "current-policy-signature", "admission-checkpoint",
      "admission-checkpoint-signature"].contains role.1

/-- A role and its schema as a descriptor names them. -/
def describedRole (role : String × Option SchemaId) : Json × Json :=
  (.str (py role.1), match role.2 with
    | some schema => .str (py schema.name)
    | none => .null)

-- Relations between fields

/-- `unique`. -/
def unique {α : Type} [DecidableEq α] (values : List α) : Except VerificationError Unit :=
  demand values.Nodup .invalidInput

/-- `scoped`. -/
def checkScope (value : Json) : Except VerificationError Unit :=
  match value with
  | .obj members =>
      if py "scope" ∈ members.map Prod.fst then
        demand (value.get "scope" = .str (py "global") ↔ value.get "org_id" = .null) .scopeMismatch
      else .ok ()
  | _ => .ok ()

/-- The first moment is before the second. -/
def before (first second : Json) (microseconds : Bool) : Except VerificationError Unit := do
  let first ← utc first microseconds
  let second ← utc second microseconds
  demand (first.micros < second.micros) .invalidInput

/-- A grant of a policy. -/
def checkGrant (policy grant : Json) : Except VerificationError Unit := do
  checkScope grant
  demand (grant.get "scope" = policy.get "scope" ∧ grant.get "org_id" = policy.get "org_id")
    .scopeMismatch
  before (grant.get "not_before") (grant.get "not_after") false
  demand (grant.get "status" = .str (py "active") ↔ grant.get "status_changed_at" = .null)
    .invalidInput

def checkPolicy (value : Json) : Except VerificationError Unit := do
  demand (value.get "revision" = .int 1 ↔ value.get "previous_policy_digest" = .null) .invalidInput
  before (value.get "valid_from") (value.get "expires_at") false
  let grants := (value.get "grants").items
  unique (grants.map fun grant => grant.get "grant_id")
  unique (grants.map fun grant => (grant.get "key_id", grant.get "key_version"))
  Metered.visit (checkGrant value) grants

def checkAdmission (value : Json) : Except VerificationError Unit := do
  demand (value.get "generation" = .int 1 ↔ value.get "previous_checkpoint_digest" = .null)
    .invalidInput
  let expires ← utc (value.get "expires_at") false
  let issued ← utc (value.get "issued_at") false
  demand (issued.micros < expires.micros ∧ expires.micros ≤ issued.micros + 604800 * 1000000)
    .invalidInput

def checkDetector (value : Json) : Except VerificationError Unit := do
  Metered.visit (fun name => unique (value.get name).items)
    ["cwes", "languages", "frameworks", "rule_ids"]
  demand ((value.get "profiles").items.map (fun profile => profile.get "language")
    = (value.get "languages").items) .invalidInput

/-- A member of the detectors of a manifest. -/
def checkDetectorMember (detector : Json) : Except VerificationError Unit := do
  unique ((detector.get "language_profiles").items.map fun profile => profile.get "language")
  unique ((detector.get "rules").items.map fun rule => rule.get "rule_id")
  unique ((detector.get "rules").items.map fun rule => rule.get "artifact_id")

def checkManifest (value : Json) : Except VerificationError Unit := do
  let detectors := (value.get "detectors").items
  let models := (value.get "models").items
  unique (detectors.map fun detector => detector.get "detector_id")
  Metered.visit checkDetectorMember detectors
  unique (models.map fun model => (model.get "artifact_id", model.get "version"))
  unique (models.map fun model => model.get "raw_sha256")
  let modelKeys : List (Json × Json) := models.map fun model => (model.get "artifact_id", model.get "raw_sha256")
  let used : List (Json × Json) := detectors.flatMap fun detector => (detector.get "rules").items.map fun rule =>
    (rule.get "model_artifact_id", rule.get "model_raw_sha256")
  demand ((∀ key ∈ used, key ∈ modelKeys) ∧ ∀ key ∈ modelKeys, key ∈ used) .contentMismatch

/-- The descriptors of a frame have its roles. -/
def checkRoles (value : Json) (roles : List (String × Option SchemaId))
    : Except VerificationError Unit :=
  demand ((value.get "objects").items.map (fun item => (item.get "role", item.get "schema"))
    = roles.map describedRole) .invalidInput

/-- The target of an authorization. -/
def checkTarget (value : Json) : Except VerificationError Unit := do
  let detector := value.get "purpose" = .str (py "detector-run")
  demand (value.get "work_kind" = .str (py "capture_detection") ↔ detector) .invalidInput
  demand (value.get "detector_run_id" ≠ .null ↔ detector) .invalidInput
  demand (value.get "run_input_digest" ≠ .null ↔ detector) .invalidInput
  demand (value.get "occurrence_id" = .null ↔ detector) .invalidInput

/-- An authorization begins before its leases end. -/
def checkLeases (value : Json) : Except VerificationError Unit := do
  before (value.get "authorized_at") (value.get "lease_expires_at") true
  before (value.get "authorized_at") (value.get "capture_lease_expires_at") true

def checkRuntime (value : Json) : Except VerificationError Unit := do
  demand ((py "3.11.").isPrefixOf (value.get "python_version").chars = true) .runtimeUnsupported
  unique ((value.get "stdlib_roots").items ++ [value.get "application_root"]
    ++ (value.get "dependency_roots").items)

/-- `validate_checks`. -/
def validateChecks (value mode : Json) : Except VerificationError Unit := do
  shape value (.object checksFields)
  demand (mode ∈ modes.map fun name => Json.str (py name)) .invalidInput
  Metered.visit (fun name =>
      demand (value.get name ≠ .null ↔ mode ≠ .str (py "historical")) .invalidInput)
    ["current_policy_digest", "current_policy_revision", "checkpoint_digest",
      "checkpoint_generation", "admission_epoch"]
  demand (value.get "publication_receipt_digest" ≠ .null ↔ mode ≠ .str (py "publication-preflight"))
    .invalidInput
  Metered.visit (fun name =>
      demand (value.get name ≠ .null ↔ mode = .str (py "execution")) .invalidInput)
    ["qualified_rule_digest", "execution_authorization_digest", "permission_expires_at"]
  if mode = .str (py "execution") then
    before (value.get "verified_at") (value.get "permission_expires_at") true
  else .ok ()

/-- The result of a verification. -/
def checkResult (value : Json) : Except VerificationError Unit := do
  let verified := value.get "status" = .str (py "verified")
  demand ((value.get "checks" ≠ .null ↔ verified) ∧ (value.get "failure_code" = .null ↔ verified))
    .invalidInput
  if value.get "status" = .str (py "verified") then do
    demand (∀ name ∈ ["operation_id", "request_sha256", "mode"], value.get name ≠ .null) .invalidInput
    validateChecks (value.get "checks") (value.get "mode")
  else
    demand (value.get "operation_id" = .null ↔ value.get "mode" = .null) .invalidInput

/-- The branch of `validate_document` for the schema. -/
def checkRelations (value : Json) : SchemaId → Except VerificationError Unit
  | .policy => checkPolicy value
  | .admission => checkAdmission value
  | .detector => checkDetector value
  | .sManifest => checkManifest value
  | .sealed => checkRoles value sealedRoles
  | .publicationInput => checkRoles value publicationRoles
  | .live => checkRoles value liveRoles
  | .inventory =>
      demand ((value.get "objects").items.map (fun item => (item.get "role", item.get "schema"))
        = [describedRole ("operator-adoption", some .adoption)]) .invalidInput
  | .sealAuthorization => do
      demand (value.get "work_kind" = .str (py "capture_detection")) .invalidInput
      checkLeases value
  | .execution => do
      checkTarget value
      demand (value.get "action" = .str (py "initial")
        ↔ value.get "previous_authorization_id" = .null) .invalidInput
      checkLeases value
  | .denial => checkTarget value
  | .runtime => checkRuntime value
  | .result => checkResult value
  | .installedTrust | .semanticBinding | .approval | .adoption | .publication => .ok ()

/-- `validate_document`. -/
def validateDocument (value : Json) (schema : SchemaId) : Except VerificationError Unit := do
  shape value (schemaShape schema)
  checkScope value
  checkRelations value schema

/-- `metadata_limit`. -/
def metadataLimit : SchemaId → Nat
  | .policy => maxPolicy
  | .installedTrust => 4096
  | .sManifest => maxContent
  | _ => maxObject

/-- `decode_document`. -/
def decodeDocument (data : Bytes) (schema : SchemaId) (canonical : Bool)
    : Except VerificationError Json := do
  let value ← parseJson data (metadataLimit schema) canonical
  validateDocument value schema
  .ok value

end Scanipy.Services.Scan.AcceptedInputs

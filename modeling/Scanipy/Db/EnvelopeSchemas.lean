import Scanipy.Python.JsonFields

/-! The closed shape vocabulary of storage envelopes, version 1. -/

namespace Scanipy.Services.Scan.OccurrenceStore

open Python

/-- The shape notation: `$nullable`, `$enum`, `$array`, dictionaries, and the names of scalar
kinds; `int` stands for `int:low:high`.
-/
inductive Shape where
  | nullable (inner : Shape)
  | enum (values : List Json)
  | array (item : Shape)
  | object (fields : List (String × Shape))
  | bool
  | nat
  | positive
  | int (low high : Int)
  | text
  | nonempty
  | digest
  | env
  | commit
  | uuid
  | path

/-- `enum` of strings. -/
def Shape.literals (values : List String) : Shape :=
  .enum (values.map fun value => .str (py value))

/-- The text of a scalar shape, which names it in errors. -/
def specOf : Shape → String
  | .bool => "bool"
  | .nat => "nat"
  | .positive => "positive"
  | .int low high => "int:" ++ toString low ++ ":" ++ toString high
  | .text => "text"
  | .nonempty => "nonempty"
  | .digest => "digest"
  | .env => "env"
  | .commit => "commit"
  | .uuid => "uuid"
  | .path => "path"
  | .nullable _ | .enum _ | .array _ | .object _ => ""

/-- `PREFIX`. -/
def envelopePrefix : String := "scanipy-execution/"

/-- `TREE_ALGORITHM`. -/
def treeAlgorithm : String := "sha256-length-prefixed-path-and-content-v1"

/-- `MAX_ENVELOPE`. -/
def maxEnvelope : Nat := 1048576

/-- `MAX_COUNT`. -/
def maxCount : Nat := 10000

/-- `MAX_DEPTH`. -/
def maxDepth : Nat := 32

/-- `ENGINES`. -/
def engines : List String :=
  ["ifds", "ide", "semgrep", "cpg-query", "external"]

/-- `ANNOTATION`. -/
def artifactAnnotation : String := "canonical iff fingerprint_class = strong"

/-- The keys of `SCHEMAS`. -/
inductive EnvelopeName where
  | retryPolicy
  | plannedPolicy
  | request
  | sourceInventory
  | scanSeal
  | acceptedContent
  | workPayload
  | attemptPolicy
  | runInput
  | occurrenceInventory
  | detectionBatch
  | runFailure
  | attemptResult
  | leaseRelease
  | cancellation
  | retirement
  deriving DecidableEq, Repr

namespace EnvelopeName

def text : EnvelopeName → String
  | retryPolicy => "retry-policy"
  | plannedPolicy => "planned-policy"
  | request => "request"
  | sourceInventory => "source-inventory"
  | scanSeal => "seal"
  | acceptedContent => "accepted-content"
  | workPayload => "work-payload"
  | attemptPolicy => "attempt-policy"
  | runInput => "run-input"
  | occurrenceInventory => "occurrence-inventory"
  | detectionBatch => "detection-batch"
  | runFailure => "run-failure"
  | attemptResult => "attempt-result"
  | leaseRelease => "lease-release"
  | cancellation => "cancellation"
  | retirement => "retirement"

def all : List EnvelopeName :=
  [retryPolicy, plannedPolicy, request, sourceInventory, scanSeal, acceptedContent, workPayload,
    attemptPolicy, runInput, occurrenceInventory, detectionBatch, runFailure, attemptResult,
    leaseRelease, cancellation, retirement]

/-- `SCHEMAS.get(name)`, by its key. -/
def ofText (name : Text) : Option EnvelopeName :=
  all.find? fun known => py known.text == name

/-- `PREFIX + name + "/1"`. -/
def schemaText (name : EnvelopeName) : Text :=
  py envelopePrefix ++ py name.text ++ py "/1"

end EnvelopeName

/-- `schema(name, **fields)`. -/
def schema (name : EnvelopeName) (fields : List (String × Shape)) : List (String × Shape) :=
  ("schema", .enum [.str name.schemaText]) :: fields

/-- `RETRY`. -/
def retryFields : List (String × Shape) :=
  schema .retryPolicy
    [("max_attempts", .int 1 16), ("lease_seconds", .int 1 900),
      ("initial_backoff_seconds", .int 0 3600), ("max_backoff_seconds", .int 0 86400)]

/-- `IDENTITY_POLICY`. -/
def identityPolicyFields : List (String × Shape) :=
  [("mode", .literals ["required", "not-applicable"]), ("policy_id", .nonempty),
    ("policy_digest", .digest), ("reason", .nullable .nonempty)]

/-- `RULE`. -/
def ruleFields : List (String × Shape) :=
  [("rule_id", .nonempty), ("semantic_digest", .digest), ("content_digest", .digest)]

/-- `BINDING`. -/
def bindingFields : List (String × Shape) :=
  [("key", .nonempty), ("detector_id", .nonempty), ("engines", .array (.literals engines)),
    ("adapter_policy_digest", .digest), ("class_id", .nonempty), ("language", .nonempty),
    ("rules", .array (.object ruleFields)), ("detector_content_digest", .digest),
    ("tool_policy_digest", .digest), ("code_policy_digest", .digest),
    ("environment_policy_digest", .digest), ("expected_tool_digest", .nullable .digest),
    ("expected_code_digest", .nullable .digest), ("expected_image_digest", .nullable .env)]

/-- `RUNNER`. -/
def runnerFields : List (String × Shape) :=
  [("code_policy_digest", .digest), ("environment_policy_digest", .digest),
    ("expected_code_digest", .nullable .digest), ("expected_image_digest", .nullable .env)]

/-- `LOCATION`. -/
def locationFields : List (String × Shape) :=
  [("status", .literals ["known", "partial", "unknown"]), ("path", .nullable .path),
    ("start_line", .nullable .positive), ("start_column", .nullable .positive),
    ("end_line", .nullable .positive), ("end_column", .nullable .positive)]

/-- `OCCURRENCE`. -/
def occurrenceFields : List (String × Shape) :=
  [("result_key", .nonempty), ("duplicate_ordinal", .nat), ("tool_ordinal", .nat),
    ("engine", .literals engines), ("rule_id", .nonempty), ("cwe", .nullable .nonempty),
    ("severity", .literals ["info", "low", "medium", "high", "critical"]), ("message", .text),
    ("location", .object locationFields), ("raw_sha256", .digest),
    ("witness_sha256", .nullable .digest)]

/-- `ARTIFACT`. -/
def artifactFields : List (String × Shape) :=
  [("status", .literals ["completed", "pending", "running", "failed", "not-applicable"]),
    ("digest", .nullable .digest), ("fingerprint_class", .nullable (.literals ["strong", "weak"])),
    ("namespace", .nullable .nonempty), ("annotation", .literals [ artifactAnnotation])]

/-- `IDENTITY`. -/
def identityFields : List (String × Shape) :=
  [("schema_version", .enum [.int 2]), ("cpg_order", .object artifactFields),
    ("slice", .object artifactFields)]

/-- `ACTUAL_IDENTITY`. -/
def actualIdentityFields : List (String × Shape) :=
  [("policy_digest", .digest), ("artifact_digest", .digest), ("evidence_digest", .digest)]

/-- `ERROR`. -/
def errorFields : List (String × Shape) :=
  [("code", .nonempty), ("message", .text)]

/-- `SCHEMAS`. -/
def schemaFields : EnvelopeName → List (String × Shape)
  | .retryPolicy => retryFields
  | .plannedPolicy =>
      schema .plannedPolicy
        [("bindings", .array (.object bindingFields)),
          ("capture_detection_runner", .object runnerFields),
          ("identity_runner", .object runnerFields),
          ("identity_policy", .object identityPolicyFields)]
  | .request =>
      schema .request
        [("org_id", .uuid), ("codebase_id", .uuid), ("lineage_id", .uuid),
          ("predecessor_request_id", .nullable .uuid), ("idempotency_key", .nonempty),
          ("source_selector", .object [("kind", .literals ["git-ref"]), ("value", .nonempty)]),
          ("requested_s_version", .nonempty), ("requested_policy_digest", .digest),
          ("retry_policy", .object retryFields), ("identity_policy", .object identityPolicyFields)]
  | .sourceInventory =>
      schema .sourceInventory
        [("files", .array (.object [("path", .path), ("size", .nat), ("sha256", .digest)]))]
  | .scanSeal =>
      schema .scanSeal
        [("request_id", .uuid), ("resolved_commit", .commit),
          ("commit_algorithm", .literals ["git-sha1"]),
          ("tree_algorithm", .literals [treeAlgorithm]), ("tree_digest", .digest),
          ("inventory_digest", .digest), ("storage_object_id", .uuid),
          ("storage_reference", .nonempty), ("retain_seconds", .int 0 315360000),
          ("s_version", .nonempty), ("planned_policy_digest", .digest),
          ("accepted_content_digest", .digest), ("acceptance_evidence_digest", .digest),
          ("intended_files", .array .path), ("bindings", .array (.object bindingFields))]
  | .acceptedContent =>
      schema .acceptedContent
        [("spec_sha256", .digest), ("detector_sha256s", .array .digest),
          ("rule_sha256s", .array .digest)]
  | .workPayload =>
      schema .workPayload
        [("request_id", .uuid), ("kind", .literals ["capture_detection", "identity"]),
          ("occurrence_id", .nullable .uuid), ("policy", .object identityPolicyFields)]
  | .attemptPolicy =>
      schema .attemptPolicy
        [("assignment_id", .nonempty), ("code_policy_digest", .digest),
          ("environment_policy_digest", .digest), ("lease_seconds", .int 1 900)]
  | .runInput =>
      schema .runInput
        [("binding_key", .nonempty), ("run_ordinal", .nat), ("argv", .array .text),
          ("cwd", .nonempty), ("tool_policy_digest", .digest), ("code_policy_digest", .digest),
          ("environment_policy_digest", .digest)]
  | .occurrenceInventory =>
      schema .occurrenceInventory [("occurrences", .array (.object occurrenceFields))]
  | .detectionBatch =>
      schema .detectionBatch
        [("run_id", .uuid), ("status", .literals ["completed", "failed"]),
          ("tool_identity", .object actualIdentityFields),
          ("code_identity", .object actualIdentityFields),
          ("actual_invocation", .object [("argv", .array .text), ("cwd", .nonempty)]),
          ("detector_env_digest", .env), ("full_env_digest", .nullable .env),
          ("coverage",
            .object
              [("status", .literals ["complete", "partial", "failed"]), ("files", .array .path),
                ("rules", .array .nonempty), ("errors", .array (.object errorFields))]),
          ("stdout_sha256", .digest), ("stderr_sha256", .digest),
          ("occurrences", .array (.object occurrenceFields)), ("inventory_digest", .digest)]
  | .runFailure =>
      schema .runFailure
        [("code", .nonempty), ("message", .text), ("prefix_sha256", .digest),
          ("observed_byte_count", .nullable .nat), ("truncated", .bool),
          ("observed_full_sha256", .nullable .digest)]
  | .attemptResult =>
      schema .attemptResult
        [("status", .literals ["completed", "failed"]), ("retryable", .bool),
          ("error", .nullable (.object errorFields)), ("actual_code_digest", .nullable .digest),
          ("actual_env_digest", .nullable .env), ("completed_run_ids", .array .uuid),
          ("identity", .nullable (.object identityFields)),
          ("identity_policy_reason", .nullable .nonempty)]
  | .leaseRelease =>
      schema .leaseRelease
        [("attempt_id", .uuid), ("token", .positive), ("reason", .nonempty)]
  | .cancellation => schema .cancellation [("request_id", .uuid), ("reason", .nonempty)]
  | .retirement =>
      schema .retirement
        [("capture_id", .uuid), ("storage_object_id", .uuid), ("token", .positive),
          ("reason", .nonempty), ("evidence_digest", .digest)]

/-- `SCHEMAS[name]`, which `v1_shapes` holds too. -/
def schemaShape (name : EnvelopeName) : Shape :=
  .object (schemaFields name)

end Scanipy.Services.Scan.OccurrenceStore

import Scanipy.Analysis.ArtifactIdentity

/-! Occurrences and inventories: the records that continuity compares, each with the check
that its constructor makes.
-/

namespace Scanipy.Services.Continuity

open Analysis Library Python

/-- `str.isspace` of one character. -/
def IsSpace (point : CodePoint) : Prop :=
  (0x09 ≤ point.val ∧ point.val ≤ 0x0D) ∨ (0x1C ≤ point.val ∧ point.val ≤ 0x20)
  ∨ point.val = 0x85 ∨ point.val = 0xA0 ∨ point.val = 0x1680
  ∨ (0x2000 ≤ point.val ∧ point.val ≤ 0x200A) ∨ point.val = 0x2028 ∨ point.val = 0x2029
  ∨ point.val = 0x202F ∨ point.val = 0x205F ∨ point.val = 0x3000

instance (point : CodePoint) : Decidable (IsSpace point) :=
  inferInstanceAs (Decidable (_ ∨ _))

/-- What `_text` accepts. -/
def IsText (value : Text) : Prop :=
  (∃ point ∈ value, ¬IsSpace point) ∧ value.length ≤ 2048 ∧ ∀ point ∈ value, 32 ≤ point.val

instance (value : Text) : Decidable (IsText value) :=
  @instDecidableAnd _ _ (List.decidableBEx (fun point => ¬IsSpace point) value)
    (@instDecidableAnd _ _ _ (List.decidableBAll (fun point : CodePoint => 32 ≤ point.val) value))

/-- `_text`. -/
def checkText (value : Text) (field : String) : Except PyError Unit :=
  raiseUnless (IsText value) (field ++ " must be nonempty bounded text without control characters")

/-- `_SHA256.fullmatch`. -/
def IsDigest (value : Text) : Prop :=
  value.take 7 = py "sha256:" ∧ IsHex 64 (value.drop 7)

instance (value : Text) : Decidable (IsDigest value) :=
  inferInstanceAs (Decidable (_ ∧ IsHex 64 (value.drop 7)))

/-- `_digest`. -/
def checkDigest (value : Text) (field : String) : Except PyError Unit :=
  raiseUnless (IsDigest value) (field ++ " must be sha256:<64 lowercase hex>")

/-- `_references`. -/
def checkReferences (values : List Text) (required : Bool) : Except PyError Unit := do
  raiseUnless ((required = true → values ≠ []) ∧ values.length ≤ 64)
    "evidence/references must be a bounded immutable tuple"
  Metered.visit (fun value => checkText value "reference") values
  raiseUnless values.Nodup "duplicate evidence/reference"

/-- `"*" in value`. -/
def HasWildcard (value : Text) : Prop :=
  ∃ point ∈ value, point.val = 0x2A

instance (value : Text) : Decidable (HasWildcard value) :=
  List.decidableBEx (fun point : CodePoint => point.val = 0x2A) value

/-- The content hashed for an encodable value under a namespace. -/
def hashed (ns : String) (value : Json) : Bytes :=
  pyb ns ++ pyb "\n" ++ value.dumps.utf8

/-- `_hash`: the digest of the canonical JSON of a value under a namespace. -/
def hashJson (sha256 : Bytes → Bytes) (ns : String) (value : Json) : Except PyError Text :=
  match value.dumps.encode with
  | none => .error .unicodeEncodeError
  | some encoded => .ok (py "sha256:" ++ hex (sha256 (pyb ns ++ pyb "\n" ++ encoded)))

/-- A text or `None`. -/
def optionalText : Option Text → Json
  | none => .null
  | some value => .str value

def textArray (values : List Text) : Json :=
  .arr (values.map Json.str)

/-- The two origins of a finding; `CohortKey` refuses every other text. -/
inductive Origin where
  | deterministicCore
  | oraclePassthrough
  deriving DecidableEq, Repr

def Origin.text : Origin → Text
  | .deterministicCore => py "deterministic-core"
  | .oraclePassthrough => py "oracle-passthrough"

/-- `CohortKey.__post_init__`, the fields in their order. -/
def cohortPostInit (orgId codebaseId repositoryId lineageId engine detectorId vulnerabilityClass
    language ruleSemanticDigest sVersion : Text)
    : Except PyError Unit := do
  checkText orgId "org_id"
  checkText codebaseId "codebase_id"
  checkText repositoryId "repository_id"
  checkText lineageId "lineage_id"
  checkText engine "engine"
  checkText detectorId "detector_id"
  checkText vulnerabilityClass "vulnerability_class"
  checkText language "language"
  checkText ruleSemanticDigest "rule_semantic_digest"
  checkText sVersion "s_version"
  checkDigest ruleSemanticDigest "rule_semantic_digest"

/-- `CohortKey`. -/
structure CohortKey where
  orgId : Text
  codebaseId : Text
  repositoryId : Text
  lineageId : Text
  origin : Origin
  engine : Text
  detectorId : Text
  vulnerabilityClass : Text
  language : Text
  ruleSemanticDigest : Text
  sVersion : Text
  accepted : cohortPostInit orgId codebaseId repositoryId lineageId engine detectorId
    vulnerabilityClass language ruleSemanticDigest sVersion = .ok ()
  deriving DecidableEq

/-- `asdict(cohort)`. -/
def CohortKey.json (cohort : CohortKey) : Json :=
  .obj [
    (py "org_id", .str cohort.orgId),
    (py "codebase_id", .str cohort.codebaseId),
    (py "repository_id", .str cohort.repositoryId),
    (py "lineage_id", .str cohort.lineageId),
    (py "origin", .str cohort.origin.text),
    (py "engine", .str cohort.engine),
    (py "detector_id", .str cohort.detectorId),
    (py "vulnerability_class", .str cohort.vulnerabilityClass),
    (py "language", .str cohort.language),
    (py "rule_semantic_digest", .str cohort.ruleSemanticDigest),
    (py "s_version", .str cohort.sVersion)]

/-- A text without wildcard. -/
def checkExactText (value : Text) (field message : String) : Except PyError Unit := do
  checkText value field
  raiseUnless (¬HasWildcard value) message

/-- One field of a binding. -/
def checkBindingText (value : Text) (field : String) : Except PyError Unit :=
  checkExactText value field "identity compatibility has no wildcard"

/-- `IdentityBinding.__post_init__`. -/
def bindingPostInit (identityPolicyDigest modelProfile normalizationProfile budgetPolicy
    observedFullEnvironmentManifestDigest analysisCodeRevision analysisCodeContentDigest : Text)
    : Except PyError Unit := do
  checkBindingText identityPolicyDigest "identity_policy_digest"
  checkBindingText modelProfile "model_profile"
  checkBindingText normalizationProfile "normalization_profile"
  checkBindingText budgetPolicy "budget_policy"
  checkBindingText observedFullEnvironmentManifestDigest "observed_full_environment_manifest_digest"
  checkBindingText analysisCodeRevision "analysis_code_revision"
  checkBindingText analysisCodeContentDigest "analysis_code_content_digest"
  checkDigest identityPolicyDigest "identity binding digest"
  checkDigest observedFullEnvironmentManifestDigest "identity binding digest"
  checkDigest analysisCodeContentDigest "identity binding digest"
  raiseUnless (IsHex 40 analysisCodeRevision) "analysis_code_revision must be 40 lowercase hex"

/-- `IdentityBinding`. -/
structure IdentityBinding where
  identityPolicyDigest : Text
  modelProfile : Text
  normalizationProfile : Text
  budgetPolicy : Text
  observedFullEnvironmentManifestDigest : Text
  analysisCodeRevision : Text
  analysisCodeContentDigest : Text
  accepted : bindingPostInit identityPolicyDigest modelProfile normalizationProfile budgetPolicy
    observedFullEnvironmentManifestDigest analysisCodeRevision analysisCodeContentDigest = .ok ()
  deriving DecidableEq

/-- `asdict(binding)`. -/
def IdentityBinding.json (binding : IdentityBinding) : Json :=
  .obj [
    (py "identity_policy_digest", .str binding.identityPolicyDigest),
    (py "model_profile", .str binding.modelProfile),
    (py "normalization_profile", .str binding.normalizationProfile),
    (py "budget_policy", .str binding.budgetPolicy),
    (py "observed_full_environment_manifest_digest",
      .str binding.observedFullEnvironmentManifestDigest),
    (py "analysis_code_revision", .str binding.analysisCodeRevision),
    (py "analysis_code_content_digest", .str binding.analysisCodeContentDigest)]

/-- `IdentityObservation.__post_init__`. -/
def observationPostInit (artifact : ArtifactIdentity) (evidenceRefs : List Text)
    (failureReason : Option Text)
    : Except PyError Unit := do
  checkReferences evidenceRefs (artifact.status = .completed ∨ artifact.status = .failed)
  Metered.visit (fun reason => checkText reason "identity failure reason") failureReason.toList
  raiseUnless (artifact.status = .failed → failureReason ≠ none)
    "failed identity requires its actual failure reason"
  raiseUnless (artifact.status = .completed → failureReason = none)
    "completed identity cannot carry a failure reason"

/-- `IdentityObservation`. -/
structure IdentityObservation where
  artifact : ArtifactIdentity
  evidenceRefs : List Text
  failureReason : Option Text
  accepted : observationPostInit artifact evidenceRefs failureReason = .ok ()
  deriving DecidableEq

/-- `asdict(observation)`. -/
def IdentityObservation.json (observation : IdentityObservation) : Json :=
  .obj [
    (py "artifact", .obj [
      (py "status", .str observation.artifact.status.text),
      (py "digest", optionalText observation.artifact.digest),
      (py "fingerprint_class", optionalText observation.artifact.fingerprintClass),
      (py "namespace", optionalText observation.artifact.ns)]),
    (py "evidence_refs", textArray observation.evidenceRefs),
    (py "failure_reason", optionalText observation.failureReason)]

/-- `OccurrenceView.__post_init__`. -/
def occurrencePostInit (occurrenceId scanId captureId sourceTreeDigest rawResultDigest
    scanLocalSinkBinding : Text)
    : Except PyError Unit := do
  checkText occurrenceId "occurrence identifier"
  checkText scanId "occurrence identifier"
  checkText captureId "occurrence identifier"
  checkText scanLocalSinkBinding "occurrence identifier"
  checkDigest sourceTreeDigest "source_tree_digest"
  checkDigest rawResultDigest "raw_result_digest"

/-- `OccurrenceView`. -/
structure OccurrenceView where
  occurrenceId : Text
  scanId : Text
  captureId : Text
  sourceTreeDigest : Text
  cohort : CohortKey
  rawResultDigest : Text
  scanLocalSinkBinding : Text
  duplicateAmbiguity : Bool
  graph : IdentityObservation
  sliced : IdentityObservation
  binding : Option IdentityBinding
  accepted : occurrencePostInit occurrenceId scanId captureId sourceTreeDigest rawResultDigest
    scanLocalSinkBinding = .ok ()
  deriving DecidableEq

/-- `asdict(occurrence)`. -/
def OccurrenceView.json (occurrence : OccurrenceView) : Json :=
  .obj [
    (py "occurrence_id", .str occurrence.occurrenceId),
    (py "scan_id", .str occurrence.scanId),
    (py "capture_id", .str occurrence.captureId),
    (py "source_tree_digest", .str occurrence.sourceTreeDigest),
    (py "cohort", occurrence.cohort.json),
    (py "raw_result_digest", .str occurrence.rawResultDigest),
    (py "scan_local_sink_binding", .str occurrence.scanLocalSinkBinding),
    (py "duplicate_ambiguity", .bool occurrence.duplicateAmbiguity),
    (py "graph", occurrence.graph.json),
    (py "sliced", occurrence.sliced.json),
    (py "binding",
      match occurrence.binding with
      | none => .null
      | some binding => binding.json)]

/-- `occurrence_digest`. -/
def occurrenceDigest (sha256 : Bytes → Bytes) (occurrence : OccurrenceView) : Except PyError Text :=
  hashJson sha256 "scanipy-continuity-occurrence-view/1" occurrence.json

inductive DetectionState where
  | pending
  | running
  | completed
  | failed
  deriving DecidableEq, Repr

def DetectionState.text : DetectionState → Text
  | .pending => py "pending"
  | .running => py "running"
  | .completed => py "completed"
  | .failed => py "failed"

/-- The content that `inventory_digest` covers. -/
def inventoryJson (scanId captureId sourceTreeDigest : Text) (cohort : CohortKey)
    (detectionState : DetectionState) (sealed : Bool) (sealedOccurrenceIds : List Text)
    (occurrences : List OccurrenceView) (evidenceRefs : List Text)
    : Json :=
  .obj [
    (py "scan_id", .str scanId),
    (py "capture_id", .str captureId),
    (py "source_tree_digest", .str sourceTreeDigest),
    (py "cohort", cohort.json),
    (py "detection_state", .str detectionState.text),
    (py "sealed", .bool sealed),
    (py "sealed_occurrence_ids", textArray (sorted sealedOccurrenceIds)),
    (py "occurrences",
      .arr ((sortedBy OccurrenceView.occurrenceId occurrences).map OccurrenceView.json)),
    (py "evidence_refs", textArray (sorted evidenceRefs))]

/-- `inventory_digest`. -/
def inventoryDigest (sha256 : Bytes → Bytes) (scanId captureId sourceTreeDigest : Text)
    (cohort : CohortKey) (detectionState : DetectionState) (sealed : Bool)
    (sealedOccurrenceIds : List Text) (occurrences : List OccurrenceView) (evidenceRefs : List Text)
    : Except PyError Text :=
  hashJson sha256 "scanipy-continuity-inventory/1"
    (inventoryJson scanId captureId sourceTreeDigest cohort detectionState sealed
      sealedOccurrenceIds occurrences evidenceRefs)

/-- `DetectionInventory.__post_init__`. -/
def inventoryPostInit (sha256 : Bytes → Bytes) (scanId captureId sourceTreeDigest : Text)
    (cohort : CohortKey) (detectionState : DetectionState) (sealed : Bool)
    (sealedOccurrenceIds : List Text) (occurrences : List OccurrenceView) (evidenceRefs : List Text)
    (contentDigest : Text)
    : Except PyError Unit := do
  checkText scanId "inventory identifier"
  checkText captureId "inventory identifier"
  checkDigest sourceTreeDigest "inventory source tree"
  checkDigest contentDigest "inventory digest"
  checkReferences evidenceRefs sealed
  Metered.visit (fun id => checkText id "sealed occurrence id") sealedOccurrenceIds
  Metered.visit
    (fun occurrence : OccurrenceView =>
      raiseUnless
        (occurrence.scanId = scanId ∧ occurrence.captureId = captureId
          ∧ occurrence.sourceTreeDigest = sourceTreeDigest ∧ occurrence.cohort = cohort)
        "occurrence is outside inventory scope/capture")
    occurrences
  raiseUnless ((occurrences.map OccurrenceView.occurrenceId).Nodup ∧ sealedOccurrenceIds.Nodup)
    "duplicate occurrence inventory entry"
  raiseUnless
    (occurrences.map OccurrenceView.occurrenceId ⊆ sealedOccurrenceIds
      ∧ sealedOccurrenceIds ⊆ occurrences.map OccurrenceView.occurrenceId)
    "exact occurrence inventory mismatch"
  let expected ← inventoryDigest sha256 scanId captureId sourceTreeDigest cohort detectionState
    sealed sealedOccurrenceIds occurrences evidenceRefs
  raiseUnless (contentDigest = expected) "inventory content digest mismatch"

/-- `DetectionInventory`. -/
structure DetectionInventory (sha256 : Bytes → Bytes) where
  scanId : Text
  captureId : Text
  sourceTreeDigest : Text
  cohort : CohortKey
  detectionState : DetectionState
  sealed : Bool
  sealedOccurrenceIds : List Text
  occurrences : List OccurrenceView
  evidenceRefs : List Text
  contentDigest : Text
  accepted : inventoryPostInit sha256 scanId captureId sourceTreeDigest cohort detectionState
    sealed sealedOccurrenceIds occurrences evidenceRefs contentDigest = .ok ()

/-- The occurrences of an inventory have distinct ids and belong to its scan. -/
theorem DetectionInventory.closed {sha256 : Bytes → Bytes} (inventory : DetectionInventory sha256)
    : (inventory.occurrences.map OccurrenceView.occurrenceId).Nodup
      ∧ ∀ occurrence ∈ inventory.occurrences,
          occurrence.scanId = inventory.scanId ∧ occurrence.cohort = inventory.cohort := by
  have accepted := inventory.accepted
  simp only [inventoryPostInit, check_ok, raiseUnless_ok, visit_ok]
    at accepted
  obtain ⟨_, _, _, _, _, _, within, ⟨distinct, _⟩, _⟩ := accepted
  exact ⟨distinct, fun occurrence member =>
    ⟨(within occurrence member).1, (within occurrence member).2.2.2⟩⟩

end Scanipy.Services.Continuity

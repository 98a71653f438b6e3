import Scanipy.Analysis.Ifds.BoundedJson
import Scanipy.Python.JsonFields
import Scanipy.Python.Patterns
import Scanipy.Python.Uuid

/-! Qualified rule keys and their exact wire form. -/

namespace Scanipy.Analysis.Ifds

open Library Python

/-- `QUALIFIED_RULE_SCHEMA`. -/
def qualifiedRuleSchema : Text := py "scanipy-qualified-rule/1"

/-- The fields of a `QualifiedRuleKey`. -/
structure QualifiedRuleKey where
  registryId : Text
  bundleId : Text
  scope : Text
  orgId : Option Text
  sVersion : Text
  acceptedContentDigest : Text
  detectorId : Text
  detectorVersion : Text
  detectorRawSha256 : Text
  ruleId : Text
  ruleArtifactId : Text
  ruleArtifactVersion : Text
  ruleRawSha256 : Text
  modelArtifactId : Text
  modelArtifactVersion : Text
  modelRawSha256 : Text
  semanticDescriptorDigest : Text
  schema : Text
  deriving DecidableEq

/-- A bounded text that a test admits. -/
def boundedText (maximum : Nat) (admits : Text → Bool) (refused : BoundRuleError) (value : Text)
    : Except BoundRuleError Unit := do
  checkedString maximum value
  demand (admits value = true) refused

/-- `_identifier`. -/
def identifier : Text → Except BoundRuleError Unit :=
  boundedText 128 isIdentifier .invalidId

/-- `_digest`. -/
def digest : Text → Except BoundRuleError Unit :=
  boundedText 64 (fullmatch hexPattern) .invalidDigest

/-- `_version`. -/
def version : Text → Except BoundRuleError Unit :=
  boundedText 32 isVersion .invalidVersion

/-- `_uuid`. -/
def uuid : Text → Except BoundRuleError Unit :=
  boundedText 36 (fun value => (Uuid.ofText value).isSome) .invalidUuid

/-- The scope of a key and its organization. -/
def keyScope (scope : Text) (orgId : Option Text) : Except BoundRuleError Unit := do
  demand (scope = py "global" ∨ scope = py "customer") .invalidScope
  if scope = py "global" then
    demand (orgId = none) .invalidScope
  else
    match orgId with
    | none => .error .invalidString
    | some id => uuid id

/-- `QualifiedRuleKey.__post_init__`. -/
def QualifiedRuleKey.postInit (key : QualifiedRuleKey) : Except BoundRuleError Unit := do
  demand (key.schema = qualifiedRuleSchema) .unknownKeySchema
  uuid key.registryId
  uuid key.bundleId
  keyScope key.scope key.orgId
  Metered.visit version
    [key.sVersion, key.detectorVersion, key.ruleArtifactVersion, key.modelArtifactVersion]
  Metered.visit digest
    [key.acceptedContentDigest, key.detectorRawSha256, key.ruleRawSha256, key.modelRawSha256,
      key.semanticDescriptorDigest]
  Metered.visit identifier
    [key.detectorId, key.ruleId, key.ruleArtifactId, key.modelArtifactId]

/-- The text, or null. -/
def orNull : Option Text → Json
  | some value => .str value
  | none => .null

/-- The fields in their order. -/
def QualifiedRuleKey.fields (key : QualifiedRuleKey) : List (String × Json) :=
  [ ("registry_id", .str key.registryId),
    ("bundle_id", .str key.bundleId),
    ("scope", .str key.scope),
    ("org_id", orNull key.orgId),
    ("S_version", .str key.sVersion),
    ("accepted_content_digest", .str key.acceptedContentDigest),
    ("detector_id", .str key.detectorId),
    ("detector_version", .str key.detectorVersion),
    ("detector_raw_sha256", .str key.detectorRawSha256),
    ("rule_id", .str key.ruleId),
    ("rule_artifact_id", .str key.ruleArtifactId),
    ("rule_artifact_version", .str key.ruleArtifactVersion),
    ("rule_raw_sha256", .str key.ruleRawSha256),
    ("model_artifact_id", .str key.modelArtifactId),
    ("model_artifact_version", .str key.modelArtifactVersion),
    ("model_raw_sha256", .str key.modelRawSha256),
    ("semantic_descriptor_digest", .str key.semanticDescriptorDigest),
    ("schema", .str key.schema)]

/-- The names of the fields. -/
def keyNames : List String :=
  ["registry_id", "bundle_id", "scope", "org_id", "S_version", "accepted_content_digest",
    "detector_id", "detector_version", "detector_raw_sha256", "rule_id", "rule_artifact_id",
    "rule_artifact_version", "rule_raw_sha256", "model_artifact_id", "model_artifact_version",
    "model_raw_sha256", "semantic_descriptor_digest", "schema"]

/-- `canonical_json`. -/
def canonicalJson (value : Json) : Except BoundRuleError Bytes :=
  match value.dumps.encode with
  | some data => .ok data
  | none => .error .invalidJson

/-- The limits of `decode_qualified_rule_key`. -/
def keyLimits : JsonLimits :=
  ⟨16384, 4, 64, 16384⟩

/-- `_closed(value, keyNames)`. -/
def closedKey (value : Json) : Except BoundRuleError Unit :=
  match value with
  | .obj members => demand (HasKeys members keyNames) .invalidFields
  | _ => .error .invalidFields

/-- `_checked_string(value)`. -/
def checkedText (value : Json) : Except BoundRuleError Text :=
  match value with
  | .str characters => do
      checkedString 16384 characters
      .ok characters
  | _ => .error .invalidString

/-- `None if value is None else _checked_string(value)`. -/
def checkedTextOrNull (value : Json) : Except BoundRuleError (Option Text) :=
  match value with
  | .null => .ok none
  | _ => do
      let characters ← checkedText value
      .ok (some characters)

/-- The key that a row holds. -/
def keyOfRow (row : Json) : Except BoundRuleError QualifiedRuleKey := do
  let registryId ← checkedText (row.get "registry_id")
  let bundleId ← checkedText (row.get "bundle_id")
  let scope ← checkedText (row.get "scope")
  let orgId ← checkedTextOrNull (row.get "org_id")
  let sVersion ← checkedText (row.get "S_version")
  let acceptedContentDigest ← checkedText (row.get "accepted_content_digest")
  let detectorId ← checkedText (row.get "detector_id")
  let detectorVersion ← checkedText (row.get "detector_version")
  let detectorRawSha256 ← checkedText (row.get "detector_raw_sha256")
  let ruleId ← checkedText (row.get "rule_id")
  let ruleArtifactId ← checkedText (row.get "rule_artifact_id")
  let ruleArtifactVersion ← checkedText (row.get "rule_artifact_version")
  let ruleRawSha256 ← checkedText (row.get "rule_raw_sha256")
  let modelArtifactId ← checkedText (row.get "model_artifact_id")
  let modelArtifactVersion ← checkedText (row.get "model_artifact_version")
  let modelRawSha256 ← checkedText (row.get "model_raw_sha256")
  let semanticDescriptorDigest ← checkedText (row.get "semantic_descriptor_digest")
  let schema ← checkedText (row.get "schema")
  let key : QualifiedRuleKey := {
    registryId, bundleId, scope, orgId, sVersion, acceptedContentDigest, detectorId,
    detectorVersion, detectorRawSha256, ruleId, ruleArtifactId, ruleArtifactVersion,
    ruleRawSha256, modelArtifactId, modelArtifactVersion, modelRawSha256,
    semanticDescriptorDigest, schema }
  key.postInit
  .ok key

/-- `decode_qualified_rule_key`. -/
def decodeQualifiedRuleKey (data : Bytes) : Except BoundRuleError QualifiedRuleKey := do
  let row ← decodeBoundedJson data keyLimits
  closedKey row
  let written ← canonicalJson row
  demand (written = data) .noncanonicalKey
  keyOfRow row

variable {value : Json} {characters : Text}

theorem checkedText_ok
    : checkedText value = .ok characters
      ↔ value = .str characters ∧ CheckedString 16384 characters := by
  cases value <;> simp [checkedText, check_ok, checkedString_ok]
  rename_i found
  constructor
  · rintro ⟨checked, rfl⟩
    exact ⟨rfl, checked⟩
  · rintro ⟨rfl, checked⟩
    exact ⟨checked, rfl⟩

variable {found : Option Text}

theorem orNull_eq_str_iff
    : orNull found = .str characters ↔ found = some characters := by
  cases found <;> simp [orNull]

theorem checkedTextOrNull_ok
    : checkedTextOrNull value = .ok found
      ↔ value = orNull found ∧ ∀ characters, found = some characters → CheckedString 16384 characters := by
  by_cases null : value = .null
  · subst null
    cases found <;> simp [checkedTextOrNull, orNull]
  · have read : checkedTextOrNull value
        = checkedText value >>= fun characters => .ok (some characters) := by
      cases value <;> first | rfl | exact absurd rfl null
    rw [read, bind_ok]
    cases found <;> simp [checkedText_ok, orNull, null]

variable {key : QualifiedRuleKey}

/-- A row holds a key when it has its values, its texts are checked, and the key is accepted. -/
theorem keyOfRow_ok {row : Json}
    : keyOfRow row = .ok key
      ↔ (∀ field ∈ key.fields, row.get field.1 = field.2
            ∧ ∀ characters, field.2 = .str characters → CheckedString 16384 characters)
        ∧ key.postInit = .ok () := by
  simp only [keyOfRow, bind_ok, checkedText_ok, checkedTextOrNull_ok,
    QualifiedRuleKey.fields, List.forall_mem_cons, List.not_mem_nil, false_imp_iff, implies_true,
    Json.str.injEq, forall_eq', orNull_eq_str_iff, and_true]
  constructor
  · rintro ⟨_, registry, _, bundle, _, scope, _, org, _, version, _, content, _, detector, _,
      detectorVersion, _, detectorRaw, _, rule, _, artifact, _, artifactVersion, _, ruleRaw, _,
      model, _, modelVersion, _, modelRaw, _, descriptor, _, schema, _, posted, done⟩
    cases done
    exact ⟨⟨registry, bundle, scope, org, version, content, detector, detectorVersion, detectorRaw,
      rule, artifact, artifactVersion, ruleRaw, model, modelVersion, modelRaw, descriptor, schema⟩,
      posted⟩
  · rintro ⟨⟨registry, bundle, scope, org, version, content, detector, detectorVersion, detectorRaw,
      rule, artifact, artifactVersion, ruleRaw, model, modelVersion, modelRaw, descriptor, schema⟩,
      posted⟩
    exact ⟨_, registry, _, bundle, _, scope, _, org, _, version, _, content, _, detector, _,
      detectorVersion, _, detectorRaw, _, rule, _, artifact, _, artifactVersion, _, ruleRaw, _,
      model, _, modelVersion, _, modelRaw, _, descriptor, _, schema, _, posted, rfl⟩

theorem closedKey_ok
    : closedKey value = .ok () ↔ ∃ members, value = .obj members ∧ HasKeys members keyNames := by
  cases value <;> simp [closedKey]

theorem QualifiedRuleKey.names_fields (key : QualifiedRuleKey)
    : key.fields.map Prod.fst = keyNames :=
  rfl

theorem CheckedString.mono {smaller larger : Nat} (checked : CheckedString smaller characters)
    (le : smaller ≤ larger)
    : CheckedString larger characters :=
  ⟨checked.1, checked.2.1, checked.2.2.trans le⟩

/-- A field is a text or null. -/
theorem scalar_field {field : String × Json} (listed : field ∈ key.fields)
    : field.2 = .null ∨ ∃ characters, field.2 = .str characters := by
  have optional : orNull key.orgId = .null ∨ ∃ characters, orNull key.orgId = .str characters := by
    cases key.orgId <;> simp [orNull]
  revert field
  simp only [QualifiedRuleKey.fields, List.forall_mem_cons, List.not_mem_nil, false_imp_iff,
    implies_true, optional, Json.str.injEq, exists_eq', or_true, and_true]

theorem keyNames_checked : ∀ name ∈ keyNames, CheckedString 128 (py name) := by
  have table : ∀ name ∈ keyNames, checkedString 128 (py name) = .ok () := by
    simp only [keyNames, List.forall_mem_cons, List.not_mem_nil, false_imp_iff, implies_true, py,
      toList_literal]
    decide +kernel
  exact fun name listed => checkedString_ok.mp (table name listed)

end Scanipy.Analysis.Ifds

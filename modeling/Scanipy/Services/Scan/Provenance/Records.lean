import Scanipy.Analysis.ArtifactIdentity
import Scanipy.Analysis.Ordering.Search
import Scanipy.Python.JsonAscii
import Scanipy.Python.Uuid

/-! Provenance records and the bytes that their signatures cover. Two records have the same
bytes exactly when they agree up to the spelling of their texts: JSON escapes a character
beyond U+FFFF as its pair of surrogates.
-/

namespace Scanipy.Services.Scan.Provenance

open Analysis Library Python

-- Records

/-- `RecordType`. -/
inductive RecordType where
  | chain
  | repartition
  | attestation
  | specAcceptance
  | witnessUpdate
  deriving DecidableEq, Repr

def RecordType.text : RecordType → Text
  | .chain => py "chain"
  | .repartition => py "repartition"
  | .attestation => py "attestation"
  | .specAcceptance => py "spec-acceptance"
  | .witnessUpdate => py "witness-update"

/-- `Origin`. -/
inductive Origin where
  | deterministicCore
  | oraclePassthrough
  deriving DecidableEq, Repr

def Origin.text : Origin → Text
  | .deterministicCore => py "deterministic-core"
  | .oraclePassthrough => py "oracle-passthrough"

/-- `SignatureAlg`. -/
inductive SignatureAlg where
  | rsassaPssSha256
  | rsassaPssSha384
  deriving DecidableEq, Repr

/-- `ClaimLabel`. -/
inductive ClaimLabel where
  | conditionalTheorem
  | empirical
  | staged
  | unconditional
  deriving DecidableEq, Repr

def ClaimLabel.text : ClaimLabel → Text
  | .conditionalTheorem => py "CONDITIONAL_THEOREM"
  | .empirical => py "EMPIRICAL"
  | .staged => py "STAGED"
  | .unconditional => py "UNCONDITIONAL"

/-- `PreconditionStatus`. -/
inductive PreconditionStatus where
  | closedWorld
  | degraded
  | fullReparse
  deriving DecidableEq, Repr

def PreconditionStatus.text : PreconditionStatus → Text
  | .closedWorld => py "closed-world"
  | .degraded => py "degraded"
  | .fullReparse => py "full-reparse"

/-- `DetectorEngine`. -/
inductive DetectorEngine where
  | ifds
  | ide
  | semgrep
  | cpgQuery
  | external
  deriving DecidableEq, Repr

def DetectorEngine.text : DetectorEngine → Text
  | .ifds => py "ifds"
  | .ide => py "ide"
  | .semgrep => py "semgrep"
  | .cpgQuery => py "cpg-query"
  | .external => py "external"

def fingerprintClassText : FingerprintClass → Text
  | .strong => py "strong"
  | .weak => py "weak"

/-- `dict[str, object]`, with its members in key order: the order of insertion is no part of the
value of a dictionary.
-/
structure JsonObject where
  members : List (Text × Json)
  canonical : (Json.obj members).Canonical
  deriving DecidableEq

/-- `ProvenanceRecord`. -/
structure ProvenanceRecord where
  id : Uuid
  parentRecordId : Option Uuid
  recordType : RecordType
  scanId : Uuid
  findingId : Option Uuid
  orgId : Uuid
  codebaseId : Uuid
  commitSha : Text
  scmProvider : Text
  snapshotId : Uuid
  snapshotDigest : Text
  preconditionStatus : Option PreconditionStatus
  sVersion : Text
  envDigest : Text
  cpgOrderHash : Option Bytes
  cpgOrderHashAnnotation : Text
  fingerprintClass : Option FingerprintClass
  witnessBlobUri : Option Text
  sliceFingerprint : Option Bytes
  ruleId : Option Text
  specId : Option Text
  detectorId : Option Text
  detectorEngine : Option DetectorEngine
  sarifHash : Option Bytes
  origin : Option Origin
  determinismPartition : Option Origin
  repartitionReason : Option Text
  repartitionOracleId : Option Uuid
  claimLabel : ClaimLabel
  recordSchemaVersion : Int := 1
  artifactIdentity : Option JsonObject := none
  deriving DecidableEq

/-- `SignedProvenanceRecord`. -/
structure SignedProvenanceRecord where
  record : ProvenanceRecord
  canonicalBytes : Bytes
  kmsKeyArn : Text
  kmsKeyVersion : Text
  signature : Bytes
  signatureAlg : SignatureAlg
  deriving DecidableEq

/-- A field that may be `None`. -/
def orNull {α : Type} (write : α → Json) : Option α → Json
  | none => .null
  | some value => write value

/-- `_canonical_value` of an identifier. -/
def ofUuid (id : Uuid) : Json :=
  .str id.text

/-- `_canonical_value` of bytes. -/
def ofBytes (data : Bytes) : Json :=
  .str (hex data)

/-- The fields of a record as `_canonical_value` maps them, in the order of the class. -/
def fields (record : ProvenanceRecord) : List (String × Json) :=
  [("id", ofUuid record.id),
    ("parent_record_id", orNull ofUuid record.parentRecordId),
    ("record_type", .str record.recordType.text),
    ("scan_id", ofUuid record.scanId),
    ("finding_id", orNull ofUuid record.findingId),
    ("org_id", ofUuid record.orgId),
    ("codebase_id", ofUuid record.codebaseId),
    ("commit_sha", .str record.commitSha),
    ("scm_provider", .str record.scmProvider),
    ("snapshot_id", ofUuid record.snapshotId),
    ("snapshot_digest", .str record.snapshotDigest),
    ("precondition_status", orNull (fun status => .str status.text) record.preconditionStatus),
    ("S_version", .str record.sVersion),
    ("env_digest", .str record.envDigest),
    ("cpg_order_hash", orNull ofBytes record.cpgOrderHash),
    ("cpg_order_hash_annotation", .str record.cpgOrderHashAnnotation),
    ("fingerprint_class", orNull (fun verdict => .str (fingerprintClassText verdict)) record.fingerprintClass),
    ("witness_blob_uri", orNull .str record.witnessBlobUri),
    ("slice_fingerprint", orNull ofBytes record.sliceFingerprint),
    ("rule_id", orNull .str record.ruleId),
    ("spec_id", orNull .str record.specId),
    ("detector_id", orNull .str record.detectorId),
    ("detector_engine", orNull (fun engine => .str engine.text) record.detectorEngine),
    ("sarif_hash", orNull ofBytes record.sarifHash),
    ("origin", orNull (fun origin => .str origin.text) record.origin),
    ("determinism_partition", orNull (fun origin => .str origin.text) record.determinismPartition),
    ("repartition_reason", orNull .str record.repartitionReason),
    ("repartition_oracle_id", orNull ofUuid record.repartitionOracleId),
    ("claim_label", .str record.claimLabel.text),
    ("record_schema_version", .int record.recordSchemaVersion),
    ("artifact_identity", orNull (fun identity => .obj identity.members) record.artifactIdentity)]

/-- The checks of a version 2 record. -/
def checkIdentity (record : ProvenanceRecord) : Except PyError Unit := do
  raiseUnless (record.fingerprintClass = none)
    "v2 records must not assert an ambiguous shared class"
  let (graph, sliced) ← validateIdentityMetadata
    (orNull (fun identity => .obj identity.members) record.artifactIdentity)
  raiseUnless
    (record.origin = some .deterministicCore →
      graph.status = .completed ∧ sliced.status = .completed ∧ record.preconditionStatus ≠ none)
    "core records require computed graph, slice, and precondition evidence"
  raiseUnless
    (graph.digest = record.cpgOrderHash.map hex ∧ sliced.digest = record.sliceFingerprint.map hex)
    "signed artifact metadata does not match record digests"

/-- The fields that version 1 leaves out. -/
def unsignedFields : List String :=
  ["record_schema_version", "artifact_identity"]

/-- What is signed, before it is written. -/
def payload (record : ProvenanceRecord) : Json :=
  .obj (((fields record).filter fun field =>
    record.recordSchemaVersion = 2 ∨ field.1 ∉ unsignedFields).map fun field =>
      (py field.1, field.2))

/-- `canonical_record_bytes`. -/
def canonicalRecordBytes (record : ProvenanceRecord) : Except PyError Bytes := do
  raiseUnless (record.recordSchemaVersion = 1 ∨ record.recordSchemaVersion = 2)
    "unsupported provenance record schema version"
  raiseUnless (record.recordSchemaVersion = 1 → record.artifactIdentity = none)
    "v1 signed records cannot carry unsigned artifact metadata"
  (if record.recordSchemaVersion = 2 then checkIdentity record else .ok ()) >>= fun _ =>
  .ok (payload record).dumpsAscii.utf8

-- Records up to their spelling

/-- The texts of an object by their code units. -/
def JsonObject.units (object : JsonObject) : JsonObject where
  members := Json.unitsMembers object.members
  canonical := Json.canonical_units (.obj object.members) object.canonical

/-- The record with every text by its UTF-16 code units. -/
def ProvenanceRecord.units (record : ProvenanceRecord) : ProvenanceRecord :=
  { record with
    commitSha := record.commitSha.units
    scmProvider := record.scmProvider.units
    snapshotDigest := record.snapshotDigest.units
    sVersion := record.sVersion.units
    envDigest := record.envDigest.units
    cpgOrderHashAnnotation := record.cpgOrderHashAnnotation.units
    witnessBlobUri := record.witnessBlobUri.map Text.units
    ruleId := record.ruleId.map Text.units
    specId := record.specId.map Text.units
    detectorId := record.detectorId.map Text.units
    repartitionReason := record.repartitionReason.map Text.units
    artifactIdentity := record.artifactIdentity.map JsonObject.units }

/-- Two records differ at most in how their texts spell characters beyond U+FFFF. -/
def SpelledAlike (left right : ProvenanceRecord) : Prop :=
  left.units = right.units

/-- The names of the fields, in the order of the class. -/
def fieldNames : List String :=
  ["id", "parent_record_id", "record_type", "scan_id", "finding_id", "org_id", "codebase_id",
    "commit_sha", "scm_provider", "snapshot_id", "snapshot_digest", "precondition_status",
    "S_version", "env_digest", "cpg_order_hash", "cpg_order_hash_annotation", "fingerprint_class",
    "witness_blob_uri", "slice_fingerprint", "rule_id", "spec_id", "detector_id",
    "detector_engine", "sarif_hash", "origin", "determinism_partition", "repartition_reason",
    "repartition_oracle_id", "claim_label", "record_schema_version", "artifact_identity"]

theorem map_fst_fields (record : ProvenanceRecord) : (fields record).map Prod.fst = fieldNames :=
  rfl

theorem fieldNames_nodup : fieldNames.Nodup := by
  decide +kernel

theorem fieldNames_ascii
    : (fieldNames.all fun name => name.toList.all fun char => char.toNat.blt 0x80) = true := by
  simp only [fieldNames, List.all_cons, List.all_nil, toList_literal]
  decide +kernel

theorem units_orNull {α : Type} {write : α → Json} {respell : α → α}
    (each : ∀ value, (write value).units = write (respell value)) (value : Option α)
    : (orNull write value).units = orNull write (value.map respell) := by
  cases value with
  | none => rfl
  | some value => exact each value

@[simp]
theorem units_ofUuid (id : Uuid) : (ofUuid id).units = ofUuid id :=
  congrArg Json.str (Text.units_of_ascii (Uuid.text_ascii id))

@[simp]
theorem units_ofBytes (data : Bytes) : (ofBytes data).units = ofBytes data :=
  congrArg Json.str (Text.units_of_ascii (hex_ascii data))

/-- A value that is written in ASCII keeps its spelling. -/
theorem units_orNull_id {α : Type} {write : α → Json}
    (each : ∀ value, (write value).units = write value) (value : Option α)
    : (orNull write value).units = orNull write value := by
  cases value with
  | none => rfl
  | some value => exact each value

theorem units_literals
    : (∀ value : RecordType, value.text.units = value.text)
      ∧ (∀ value : PreconditionStatus, value.text.units = value.text)
      ∧ (∀ value : FingerprintClass, (fingerprintClassText value).units = fingerprintClassText value)
      ∧ (∀ value : DetectorEngine, value.text.units = value.text)
      ∧ (∀ value : Origin, value.text.units = value.text)
      ∧ ∀ value : ClaimLabel, value.text.units = value.text := by
  refine ⟨?_, ?_, ?_, ?_, ?_, ?_⟩ <;> intro value <;> cases value <;> decide

/-- The fields of the code units are the code units of the fields. -/
theorem fields_units (record : ProvenanceRecord)
    : fields record.units = (fields record).map fun field => (field.1, field.2.units) := by
  obtain ⟨types, statuses, classes, engines, origins, labels⟩ := units_literals
  have literal {α : Type} {text : α → Text} (each : ∀ value, (text value).units = text value)
      (value : Option α)
      : (orNull (fun value => .str (text value)) value).units
        = orNull (fun value => .str (text value)) value :=
    @units_orNull_id α (fun value => .str (text value)) (fun value => congrArg Json.str (each value))
      value
  have texts (value : Option Text)
      : (orNull .str value).units = orNull .str (value.map Text.units) :=
    @units_orNull Text .str Text.units (fun _ => rfl) value
  have identity (value : Option JsonObject)
      : (orNull (fun object => .obj object.members) value).units
        = orNull (fun object => .obj object.members) (value.map JsonObject.units) :=
    @units_orNull JsonObject (fun object => .obj object.members) JsonObject.units (fun _ => rfl) value
  simp only [fields, ProvenanceRecord.units, List.map_cons, List.map_nil, Json.units,
    units_ofUuid, units_orNull_id units_ofUuid, units_orNull_id units_ofBytes, types, labels,
    literal statuses, literal classes, literal engines, literal origins, texts, identity]

theorem orNull_injective {α : Type} {write : α → Json} (injective : Function.Injective write)
    (written : ∀ value, write value ≠ .null)
    : Function.Injective (orNull write) := by
  intro left right same
  cases left with
  | none =>
      cases right with
      | none => rfl
      | some value => exact absurd same.symm (written value)
  | some value =>
      cases right with
      | none => exact absurd same (written value)
      | some other => exact congrArg some (injective same)

theorem ofUuid_injective : Function.Injective ofUuid :=
  fun _ _ same => Uuid.text_injective (Json.str.inj same)

theorem ofBytes_injective : Function.Injective ofBytes :=
  fun _ _ same => hex_injective (Json.str.inj same)

theorem literals_injective
    : Function.Injective RecordType.text
      ∧ Function.Injective PreconditionStatus.text
      ∧ Function.Injective fingerprintClassText
      ∧ Function.Injective DetectorEngine.text
      ∧ Function.Injective Origin.text
      ∧ Function.Injective ClaimLabel.text := by
  refine ⟨?_, ?_, ?_, ?_, ?_, ?_⟩ <;> intro left right same <;> cases left <;> cases right <;>
    first | rfl | exact absurd same (by decide)

theorem members_injective : Function.Injective fun object : JsonObject => Json.obj object.members := by
  intro left right same
  cases left
  cases right
  cases same
  rfl

/-- A record is determined by its fields as they are written. -/
theorem fields_injective : Function.Injective fields := by
  obtain ⟨types, statuses, classes, engines, origins, labels⟩ := literals_injective
  have literal {α : Type} {text : α → Text} (injective : Function.Injective text)
      : Function.Injective (orNull fun value => .str (text value)) :=
    orNull_injective (fun _ _ same => injective (Json.str.inj same)) (fun _ same => Json.noConfusion same)
  have ids := orNull_injective ofUuid_injective (fun _ same => Json.noConfusion same)
  have blobs := orNull_injective ofBytes_injective (fun _ same => Json.noConfusion same)
  have texts := orNull_injective (fun _ _ same => Json.str.inj same) (fun _ same => Json.noConfusion same)
  have identities := orNull_injective members_injective (fun _ same => Json.noConfusion same)
  intro left right same
  simp only [fields, List.cons.injEq, Prod.mk.injEq, true_and, and_true, ofUuid_injective.eq_iff,
    ids.eq_iff, blobs.eq_iff, texts.eq_iff, identities.eq_iff, Json.str.injEq, Json.int.injEq,
    types.eq_iff, labels.eq_iff, (literal statuses).eq_iff, (literal classes).eq_iff,
    (literal engines).eq_iff, (literal origins).eq_iff] at same
  cases left
  cases right
  simp only [ProvenanceRecord.mk.injEq]
  exact same

/-- Neither an array nor an object. -/
def IsScalar : Json → Prop
  | .arr _ | .obj _ => False
  | _ => True

theorem isScalar_orNull {α : Type} {write : α → Json} (each : ∀ value, IsScalar (write value))
    (value : Option α)
    : IsScalar (orNull write value) := by
  cases value with
  | none => trivial
  | some value => exact each value

/-- The metadata is the only field that nests. -/
theorem fields_cases (record : ProvenanceRecord)
    : ∀ field ∈ fields record,
        IsScalar field.2
        ∨ ∃ object ∈ record.artifactIdentity, field.2 = .obj object.members := by
  have ids := @isScalar_orNull Uuid ofUuid fun _ => trivial
  have blobs := @isScalar_orNull Bytes ofBytes fun _ => trivial
  have texts {α : Type} (text : α → Text) := @isScalar_orNull α (fun value => .str (text value))
    fun _ => trivial
  simp only [fields, List.forall_mem_cons, List.not_mem_nil, false_implies, implies_true, and_true]
  refine ⟨.inl trivial, .inl (ids _), .inl trivial, .inl trivial, .inl (ids _), .inl trivial,
    .inl trivial, .inl trivial, .inl trivial, .inl trivial, .inl trivial, .inl (texts _ _),
    .inl trivial, .inl trivial, .inl (blobs _), .inl trivial, .inl (texts _ _), .inl (texts id _),
    .inl (blobs _), .inl (texts id _), .inl (texts id _), .inl (texts id _), .inl (texts _ _),
    .inl (blobs _), .inl (texts _ _), .inl (texts _ _), .inl (texts id _), .inl (ids _),
    .inl trivial, .inl trivial, ?_⟩
  cases record.artifactIdentity with
  | none => exact .inl trivial
  | some object => exact .inr ⟨object, rfl, rfl⟩

-- Equal bytes

variable {value : Json} {key : String}

theorem item_ok {members : Dict Text Json} (found : item members key = .ok value)
    : members.get? (py key) = some value := by
  unfold item at found
  split at found
  · exact Except.ok.inj found ▸ ‹_›
  · cases found

theorem textItem_ok {members : Dict Text Json} {text : Option Text}
    (found : textItem members key = .ok text)
    : ∃ value, members.get? (py key) = some value ∧ IsScalar value := by
  obtain ⟨value, read, kept⟩ := bind_ok.mp found
  refine ⟨value, item_ok read, ?_⟩
  cases value with
  | arr _ => cases kept
  | obj _ => cases kept
  | _ => trivial

theorem IsScalar.basicKeys (scalar : IsScalar value) : value.BasicKeys := by
  cases value with
  | arr _ => cases scalar
  | obj _ => cases scalar
  | _ => trivial

theorem IsScalar.canonical (scalar : IsScalar value) : value.Canonical := by
  cases value with
  | arr _ => cases scalar
  | obj _ => cases scalar
  | _ => trivial

/-- ASCII names have no character beyond U+FFFF. -/
theorem py_basic {names : List String}
    (ascii : (names.all fun name => name.toList.all fun char => char.toNat.blt 0x80) = true)
    {name : String} (listed : name ∈ names)
    : ∀ point ∈ py name, point.val < 0x10000 := by
  intro point member
  obtain ⟨char, inside, rfl⟩ := List.mem_map.mp member
  have low := Nat.blt_eq.mp (List.all_eq_true.mp (List.all_eq_true.mp ascii name listed) char inside)
  exact lt_of_le_of_lt (Nat.mod_le _ _) (lt_trans low (by omega))

theorem descriptorKeys_ascii
    : (descriptorKeys.all fun name => name.toList.all fun char => char.toNat.blt 0x80) = true := by
  decide

theorem metadataKeys_ascii
    : (metadataKeys.all fun name => name.toList.all fun char => char.toNat.blt 0x80) = true := by
  decide

/-- What a key looks up is the value of every member under it. -/
theorem value_of_get? {members : Dict Text Json} (distinct : (members.map Prod.fst).Nodup)
    {member : Text × Json} (listed : member ∈ members) {key : Text} (same : member.1 = key)
    (found : members.get? key = some value)
    : member.2 = value := by
  have looked := Dict.get?_of_mem distinct (show (member.1, member.2) ∈ members from listed)
  rw [same, found] at looked
  exact (Option.some.inj looked).symm

theorem basicKeys_of_artifactFromDict (canonical : value.Canonical) {identity : ArtifactIdentity}
    (read : artifactFromDict value = .ok identity)
    : value.BasicKeys := by
  cases value with
  | obj members =>
      have distinct := (Json.distinct_of_canonical _ canonical).1
      rw [artifactFromDict, check_ok, raiseUnless_ok] at read
      obtain ⟨shape, read⟩ := read
      obtain ⟨literal, found, read⟩ := bind_ok.mp read
      rw [check_ok, raiseUnless_ok] at read
      obtain ⟨rfl, read⟩ := read
      obtain ⟨_, status, read⟩ := bind_ok.mp read
      obtain ⟨_, digest, read⟩ := bind_ok.mp read
      obtain ⟨_, verdict, read⟩ := bind_ok.mp read
      obtain ⟨_, ns, _⟩ := bind_ok.mp read
      have scalar {key : String} {text : Option Text} (found : textItem members key = .ok text)
          {member : Text × Json} (listed : member ∈ members) (same : member.1 = py key)
          : IsScalar member.2 := by
        obtain ⟨value, looked, leaf⟩ := textItem_ok found
        rw [value_of_get? distinct listed same looked]
        exact leaf
      refine Json.basicKeysMembers_iff.mpr fun member listed => ?_
      obtain ⟨name, among, same⟩ := List.mem_map.mp (shape.1 member listed)
      refine ⟨same ▸ py_basic descriptorKeys_ascii among, IsScalar.basicKeys ?_⟩
      simp only [descriptorKeys, List.mem_cons, List.not_mem_nil, or_false] at among
      rcases among with rfl | rfl | rfl | rfl | rfl
      · exact scalar status listed same.symm
      · exact scalar digest listed same.symm
      · exact scalar verdict listed same.symm
      · exact scalar ns listed same.symm
      · rw [value_of_get? distinct listed same.symm (item_ok found)]
        trivial
  | _ => trivial

theorem basicKeys_of_validate {object : JsonObject} {identities : ArtifactIdentity × ArtifactIdentity}
    (valid : validateIdentityMetadata (.obj object.members) = .ok identities)
    : (Json.obj object.members).BasicKeys := by
  have distinct := (Json.distinct_of_canonical _ object.canonical).1
  have nested := Json.canonicalMembers_iff.mp object.canonical.2
  rw [validateIdentityMetadata, check_ok, raiseUnless_ok] at valid
  obtain ⟨shape, valid⟩ := valid
  obtain ⟨version, found, valid⟩ := bind_ok.mp valid
  rw [check_ok, raiseUnless_ok] at valid
  obtain ⟨rfl, valid⟩ := valid
  obtain ⟨graph, foundGraph, valid⟩ := bind_ok.mp valid
  obtain ⟨_, readGraph, valid⟩ := bind_ok.mp valid
  obtain ⟨sliced, foundSlice, valid⟩ := bind_ok.mp valid
  obtain ⟨_, readSlice, _⟩ := bind_ok.mp valid
  refine Json.basicKeysMembers_iff.mpr fun member listed => ?_
  obtain ⟨name, among, same⟩ := List.mem_map.mp (shape.1 member listed)
  refine ⟨same ▸ py_basic metadataKeys_ascii among, ?_⟩
  simp only [metadataKeys, List.mem_cons, List.not_mem_nil, or_false] at among
  rcases among with rfl | rfl | rfl
  · rw [value_of_get? distinct listed same.symm (item_ok found)]
    trivial
  · have value := value_of_get? distinct listed same.symm (item_ok foundGraph)
    exact value ▸ basicKeys_of_artifactFromDict (value ▸ nested member listed) readGraph
  · have value := value_of_get? distinct listed same.symm (item_ok foundSlice)
    exact value ▸ basicKeys_of_artifactFromDict (value ▸ nested member listed) readSlice

variable {record : ProvenanceRecord} {bytes : Bytes}

/-- When a record has bytes, and which. -/
theorem canonicalRecordBytes_ok
    : canonicalRecordBytes record = .ok bytes
      ↔ ((record.recordSchemaVersion = 1 ∧ record.artifactIdentity = none)
          ∨ (record.recordSchemaVersion = 2 ∧ checkIdentity record = .ok ()))
        ∧ bytes = (payload record).dumpsAscii.utf8 := by
  simp only [canonicalRecordBytes, check_ok, raiseUnless_ok, Except.ok.injEq]
  constructor
  · rintro ⟨version, unsigned, checked, rfl⟩
    refine ⟨?_, rfl⟩
    rcases version with first | second
    · exact .inl ⟨first, unsigned first⟩
    · rw [if_pos second] at checked
      exact .inr ⟨second, checked⟩
  · rintro ⟨⟨first, unsigned⟩ | ⟨second, checked⟩, rfl⟩
    · refine ⟨.inl first, fun _ => unsigned, ?_, rfl⟩
      rw [if_neg (by omega)]
    · refine ⟨.inr second, fun first => by omega, ?_, rfl⟩
      rw [if_pos second, checked]

/-- The members of what is signed. -/
def members (record : ProvenanceRecord) : List (Text × Json) :=
  (fields record).map fun field => (py field.1, field.2)

theorem payload_of_two (version : record.recordSchemaVersion = 2)
    : payload record = .obj (members record) := by
  rw [payload, List.filter_eq_self.mpr (by simp [version])]
  rfl

theorem payload_of_one (version : record.recordSchemaVersion = 1)
    : payload record = .obj ((members record).take 29) := by
  have kept : (fields record).filter (fun field => record.recordSchemaVersion = 2
      ∨ field.1 ∉ unsignedFields) = (fields record).take 29 := by
    simp [fields, unsignedFields, version]
  rw [payload, kept, List.map_take]
  rfl

theorem length_members (record : ProvenanceRecord) : (members record).length = 31 :=
  rfl

theorem keys_members (record : ProvenanceRecord)
    : (members record).map Prod.fst = fieldNames.map py := by
  rw [members, List.map_map, ← map_fst_fields record, List.map_map]
  rfl

theorem keys_nodup (record : ProvenanceRecord) : ((members record).map Prod.fst).Nodup := by
  rw [keys_members]
  refine fieldNames_nodup.map fun left right same => ?_
  exact String.toList_injective (List.map_injective_iff.mpr charPoint_injective same)

theorem members_canonical (record : ProvenanceRecord)
    : ∀ member ∈ members record, member.2.Canonical := by
  intro member listed
  obtain ⟨field, among, rfl⟩ := List.mem_map.mp listed
  rcases fields_cases record field among with scalar | ⟨object, _, same⟩
  · exact scalar.canonical
  · rw [same]
    exact object.canonical

theorem members_basicKeys
    (identity : ∀ object ∈ record.artifactIdentity, (Json.obj object.members).BasicKeys)
    : ∀ member ∈ members record,
        (∀ point ∈ member.1, point.val < 0x10000) ∧ member.2.BasicKeys := by
  intro member listed
  obtain ⟨field, among, rfl⟩ := List.mem_map.mp listed
  refine ⟨py_basic fieldNames_ascii ?_, ?_⟩
  · rw [← map_fst_fields record]
    exact List.mem_map_of_mem among
  · rcases fields_cases record field among with scalar | ⟨object, present, same⟩
    · exact scalar.basicKeys
    · rw [same]
      exact identity object present

/-- The members of the code units, once the keys are sorted. -/
theorem members_units (record : ProvenanceRecord)
    : (Json.unitsMembers (members record)).map (fun member => (member.1, member.2.sortKeys))
      = members record.units := by
  rw [Json.unitsMembers_eq, List.map_map, members, members, fields_units, List.map_map,
    List.map_map]
  refine List.map_congr_left fun field among => ?_
  have canonical := members_canonical record (py field.1, field.2) (List.mem_map_of_mem among)
  exact congrArg (Prod.mk (py field.1))
    (Json.sortKeys_of_canonical _ (Json.canonical_units _ canonical))

/-- The number of fields that are signed. -/
def signedCount (record : ProvenanceRecord) : Nat :=
  if record.recordSchemaVersion = 2 then 31 else 29

/-- What a signed record has written, and that it reads back up to its spelling. -/
theorem payload_of_bytes (written : canonicalRecordBytes record = .ok bytes)
    : payload record = .obj ((members record).take (signedCount record))
      ∧ bytes = (payload record).dumpsAscii.utf8
      ∧ (payload record).Distinct
      ∧ (payload record).BasicKeys := by
  obtain ⟨version, same⟩ := canonicalRecordBytes_ok.mp written
  have shape : payload record = .obj ((members record).take (signedCount record)) := by
    rcases version with ⟨first, _⟩ | ⟨second, _⟩
    · rw [payload_of_one first, signedCount, if_neg (by omega)]
    · rw [payload_of_two second, signedCount, if_pos second,
        List.take_of_length_le (by rw [length_members])]
  have identity : ∀ object ∈ record.artifactIdentity, (Json.obj object.members).BasicKeys := by
    intro object present
    rw [Option.mem_def] at present
    rcases version with ⟨_, absent⟩ | ⟨_, checked⟩
    · rw [absent] at present
      cases present
    · simp only [checkIdentity, check_ok, present] at checked
      obtain ⟨identities, valid, _⟩ := bind_ok.mp checked.2
      exact basicKeys_of_validate valid
  refine ⟨shape, same, ?_, ?_⟩
  · rw [shape]
    refine ⟨?_, Json.distinctMembers_iff.mpr fun member listed => ?_⟩
    · rw [List.map_take]
      exact (keys_nodup record).sublist (List.take_sublist _ _)
    · exact Json.distinct_of_canonical _ (members_canonical record member (List.mem_of_mem_take listed))
  · rw [shape]
    exact Json.basicKeysMembers_iff.mpr fun member listed =>
      members_basicKeys identity member (List.mem_of_mem_take listed)

/-- What is not signed is the same in every signed record of a version. -/
theorem drop_members (version : (record.recordSchemaVersion = 1 ∧ record.artifactIdentity = none)
      ∨ (record.recordSchemaVersion = 2 ∧ checkIdentity record = .ok ()))
    : (members record.units).drop (signedCount record)
      = if signedCount record = 31 then []
        else [(py "record_schema_version", .int 1), (py "artifact_identity", .null)] := by
  rcases version with ⟨first, unsigned⟩ | ⟨second, _⟩
  · have count : signedCount record = 29 := if_neg (by omega)
    have rest : (members record.units).drop 29
        = [(py "record_schema_version", .int record.recordSchemaVersion),
          (py "artifact_identity",
            orNull (fun object => .obj object.members)
              (record.artifactIdentity.map JsonObject.units))] := rfl
    rw [count, if_neg (by omega), rest, first, unsigned]
    rfl
  · have count : signedCount record = 31 := if_pos second
    rw [count, if_pos rfl]
    exact List.drop_of_length_le (by rw [length_members])

variable {left right : ProvenanceRecord}

theorem fields_eq_of_members (same : members left = members right)
    : fields left = fields right := by
  refine List.map_injective_iff.mpr (fun one other equal => ?_) same
  obtain ⟨names, values⟩ := Prod.mk.inj equal
  refine Prod.ext ?_ values
  exact String.toList_injective (List.map_injective_iff.mpr charPoint_injective names)

/-- Records with the same bytes differ at most in their spelling.
Witness: the bytes determine the sorted members by their code units; their number tells the
version, and version 1 leaves out only what is the same in every version 1 record.
-/
theorem spelledAlike_of_bytes (leftBytes : canonicalRecordBytes left = .ok bytes)
    (rightBytes : canonicalRecordBytes right = .ok bytes)
    : SpelledAlike left right := by
  obtain ⟨leftShape, leftSame, leftDistinct, leftKeys⟩ := payload_of_bytes leftBytes
  obtain ⟨rightShape, rightSame, rightDistinct, rightKeys⟩ := payload_of_bytes rightBytes
  have texts := Text.utf8_injective (leftSame.symm.trans rightSame)
  have sorted := (Json.dumpsAscii_eq_iff leftDistinct rightDistinct leftKeys rightKeys).mp texts
  rw [leftShape, rightShape, Json.units, Json.units, Json.unitsMembers_eq,
    Json.unitsMembers_eq] at sorted
  have counts : signedCount left = signedCount right := by
    have lengths := Json.length_eq_of_sortKeys sorted
    simp only [List.length_map, List.length_take, length_members] at lengths
    unfold signedCount at lengths ⊢
    split_ifs at lengths ⊢ <;> omega
  have versions := (canonicalRecordBytes_ok.mp leftBytes).1
  have otherVersions := (canonicalRecordBytes_ok.mp rightBytes).1
  have keys (record : ProvenanceRecord) (count : Nat)
      : (((members record).take count).map fun member => (member.1, member.2.units)).map Prod.fst
        = (fieldNames.map py).take count := by
    rw [List.map_map, ← keys_members record, List.map_take]
    rfl
  rw [counts] at sorted
  have same := Json.members_eq_of_sortKeys ((keys left _).trans (keys right _).symm)
    (by rw [keys, ← keys_members left]; exact (keys_nodup left).sublist (List.take_sublist _ _))
    sorted
  rw [List.map_take, List.map_take, List.map_take, List.map_take, ← Json.unitsMembers_eq,
    ← Json.unitsMembers_eq, members_units, members_units] at same
  refine fields_injective (fields_eq_of_members ?_)
  rw [← List.take_append_drop (signedCount right) (members left.units),
    ← List.take_append_drop (signedCount right) (members right.units), same]
  rw [← counts, drop_members versions, counts, drop_members otherVersions]

end Scanipy.Services.Scan.Provenance

import Scanipy.Tools.Worker.Journal.Schemas

/-! Journal records and their bytes: events, decoding and encoding. A record has exactly one byte
form.
-/

namespace Scanipy.Tools.Worker.Journal

open Library Python

section Records

variable (imports : Imports)

-- Events

/-- The fields that every event carries. -/
def needEnvelope (row : Json) : Except JournalError Unit := do
  needKeys row ["schema", "attempt_id", "sequence", "previous_event_digest", "event_id", "kind",
    "recorded_at", "host_boot_id", "elapsed_ms", "operation_id", "mode", "request_digest",
    "installation_id", "installation_generation", "installation_sha256",
    "controller_profile_sha256", "domain_profile_sha256", "inventory_sha256", "inventory_digest",
    "program_digest", "expected_image_config_id", "expected_oci_manifest_digest",
    "observed_image_config_id", "observed_oci_manifest_digest", "container_name", "container_id",
    "payload"]
  checkEach row ["attempt_id", "event_id", "host_boot_id", "operation_id", "installation_id"]
    needUuid
  let sequence ← needInt (← field row "sequence") 1 128
  let previous ← field row "previous_event_digest"
  unlessNone needHex previous
  need (previous = .null ↔ sequence = 1) .schema
  check row "recorded_at" needUtc
  check row "elapsed_ms" needNatural
  check row "mode" (needChoice · (modes.map py))
  check row "installation_generation" needPositive
  checkEach row ["request_digest", "installation_sha256", "controller_profile_sha256",
    "domain_profile_sha256", "inventory_sha256", "inventory_digest", "program_digest"] needHex
  check row "expected_image_config_id" needImage
  checkEach row ["expected_oci_manifest_digest", "observed_image_config_id",
    "observed_oci_manifest_digest"] (unlessNone needImage)
  needContainerName row
  check row "container_id" (unlessNone needHex)

/-- What a terminal or orphaned attempt reports. -/
def needFailure (payload : Json) : Except JournalError Unit := do
  needKeys payload ["phase", "code", "calls", "kernel", "primary_error_id",
    "cleanup_event_digest"]
  check payload "phase" (needChoice · (failurePhases.map py))
  check payload "code" (needChoice · (failures.map py))
  check payload "calls" (items 16 (needCallRef imports))
  check payload "kernel" (unlessNone (needRef imports 65536))
  check payload "primary_error_id" (unlessNone needUuid)
  check payload "cleanup_event_digest" (unlessNone needHex)

/-- The payload of an event, by its kind. -/
def needPayload (row payload : Json) : EventKind → Except JournalError Unit
  | .reserved => do
      needKeys payload ["launch_sha256", "launch_bytes_ref", "input", "manifest"]
      check payload "launch_sha256" needHex
      check payload "launch_bytes_ref" (needRef imports 65536)
      let launched ← field (← field payload "launch_bytes_ref") "sha256"
      check payload "launch_sha256" (equals launched)
      check payload "input" (needRef imports 2621440)
      check payload "manifest" (needRef imports 16384)
  | .loaded => do
      needKeys payload ["metadata", "measurement_elapsed_ms", "cli_file", "socket",
        "daemon_calls", "image_inspect_call", "create_prerequisite"]
      check payload "metadata" (needMetadata imports)
      check payload "measurement_elapsed_ms" needNatural
      check payload "cli_file" needFile
      let socket ← field payload "socket"
      needKeys socket ["path", "device", "inode", "uid", "gid", "mode"]
      check socket "path" needPath
      checkEach socket ["device", "inode", "uid", "gid"] needNatural
      check socket "mode" (needInt · 0 4095)
      let daemons ← needList (← field payload "daemon_calls") 2 2
      Metered.visit (needCallRef imports) daemons
      check payload "image_inspect_call" (needCallRef imports)
      check payload "create_prerequisite" (needPrerequisiteRef imports)
  | .created => do
      needKeys payload ["create_call", "inspect_call", "config_digest"]
      check payload "create_call" (needCallRef imports)
      check payload "inspect_call" (needCallRef imports)
      check payload "config_digest" needHex
  | .started => do
      needKeys payload ["start_call_id", "pid", "start_ticks", "control_path"]
      check payload "start_call_id" needUuid
      check payload "pid" needPositive
      check payload "start_ticks" needPositive
      check payload "control_path" needPath
  | .observed => do
      needKeys payload ["sample", "inspect_call", "prerequisite", "observation_id"]
      check payload "sample" (needKernel imports)
      check payload "inspect_call" (needCallRef imports)
      check payload "prerequisite" (needPrerequisiteRef imports)
      check payload "observation_id" needUuid
  | .releaseIntent => do
      needKeys payload ["release", "prerequisite", "observed_event_digest"]
      check payload "release" (needRef imports 16384)
      check payload "prerequisite" (needPrerequisiteRef imports)
      check payload "observed_event_digest" needHex
  | .released => do
      needKeys payload ["release", "prerequisite", "published_at", "release_intent_event_digest"]
      check payload "release" (needRef imports 16384)
      check payload "prerequisite" (needPrerequisiteRef imports)
      check payload "release_intent_event_digest" needHex
      check payload "published_at" needUtc
  | .domainExited => do
      needKeys payload ["start_call", "container_inspect_call", "domain_result",
        "domain_validation"]
      check payload "start_call" (needCallRef imports)
      check payload "container_inspect_call" (needCallRef imports)
      let validation ← needChoice (← field payload "domain_validation")
        [py "valid", py "rejected", py "invalid"]
      let result ← field payload "domain_result"
      need (validation = py "invalid" ∨ result ≠ .null) .schema
      let mode ← field row "mode"
      unlessNone (needRef imports (if mode = .str (py "python-syntax") then 8 * mib else 16384))
        result
  | .cleanup => do
      needKeys payload ["state", "calls", "final_inspect_call", "cgroup_empty", "client_reaped",
        "parent_lease_action", "invocation_slot", "cleanup_id"]
      check payload "state" (needChoice · [py "complete", py "incomplete"])
      check payload "calls" (items 16 (needCallRef imports))
      check payload "final_inspect_call" (unlessNone (needCallRef imports))
      check payload "cgroup_empty" (unlessNone needBool)
      check payload "client_reaped" needBool
      check payload "parent_lease_action" (equals (.str (py "none")))
      check payload "invocation_slot" (equals (.str (py "held")))
      check payload "cleanup_id" needUuid
  | .admitted => do
      needKeys payload ["result_digest", "prerequisite", "cleanup_event_digest",
        "parent_lease_action", "invocation_slot", "domain_exited_event_digest"]
      checkEach payload ["result_digest", "cleanup_event_digest", "domain_exited_event_digest"]
        needHex
      check payload "prerequisite" (needPrerequisiteRef imports)
      check payload "parent_lease_action" (equals (.str (py "none")))
      check payload "invocation_slot" (equals (.str (py "released")))
  | .failed => needFailure imports payload
  | .orphaned => needFailure imports payload
  | .callIntent => do
      let data ← json payload
      let _ ← processEvidence imports data .intent
      .ok ()
  | .callResult => do
      needKeys payload ["intent_event_digest", "call"]
      check payload "intent_event_digest" needHex
      check payload "call" (needCallRef imports)
  | .spoolRegistered => do
      needKeys payload ["intent_event_digest", "call_id", "registration"]
      check payload "intent_event_digest" needHex
      check payload "call_id" needUuid
      check payload "registration" (needRef imports 4096)
  | .spoolCollected => do
      needKeys payload ["registration_event_digest", "stream", "observation"]
      check payload "registration_event_digest" needHex
      check payload "stream" (needChoice · [py "stdout", py "stderr"])
      check payload "observation" (needRef imports 4096)
  | .recoveryEntered => do
      needKeys payload ["recovery_id", "writer_id", "reason", "prior_head_digest"]
      check payload "recovery_id" needUuid
      check payload "writer_id" needUuid
      check payload "reason" (needChoice · [py "writer-restart", py "boot-change",
        py "clock-uncertain", py "abandoned-handle", py "orphan-resume"])
      check payload "prior_head_digest" needHex
  | .reconciled => do
      needKeys payload ["orphan_event_digest", "cleanup_event_digest", "disposition",
        "parent_lease_action", "invocation_slot"]
      check payload "orphan_event_digest" needHex
      check payload "cleanup_event_digest" needHex
      check payload "disposition" (equals (.str (py "failed")))
      check payload "parent_lease_action" (equals (.str (py "none")))
      check payload "invocation_slot" (equals (.str (py "released")))

/-- `_event`. -/
def needEvent (row : Json) : Except JournalError Unit := do
  needEnvelope row
  let kind ← needText (← field row "kind") 32
  let payload ← field row "payload"
  match EventKind.ofWire kind with
  | some kind => needPayload imports row payload kind
  | none => .error (.validation .schema)

/-- The checks of each kind of record. -/
def needKind (row : Json) : RecordKind → Except JournalError Unit
  | .root => needRoot row
  | .authorityInventory => needAuthorityInventory imports row
  | .prerequisite => needPrerequisite row
  | .manifest => needManifest imports row
  | .event => needEvent imports row
  | .refusal => needRefusal imports row
  | .spoolRegistration => needRegistration row
  | .spoolObservation => needSpoolObservation imports row
  | .publicationIntent => needPublication row

/-- `_local`. -/
def needLocal (kind : RecordKind) (row : Json) : Except JournalError Unit := do
  let schema := ((membersOf row).find? fun member => member.1 = py "schema").map Prod.snd
  need (∃ name ∈ schemas kind, schema = some (.str (py name))) .schema
  needKind imports row kind

/-- `ParsedJournalRecord`. -/
structure ParsedJournalRecord where
  kind : RecordKind
  schema : Text
  data : Bytes
  sha256 : Bytes
  schemaDigest : Bytes
  document : Stored

/-- The tighter limit of call intents and results. -/
def needShortCall (kind : RecordKind) (document : Json) (data : Bytes) : Except JournalError Unit :=
  if kind = .event then do
    let event ← field document "kind"
    need (event ∉ [.str (py "call-intent"), .str (py "call-result")] ∨ data.length ≤ 8192) .limit
  else
    .ok ()

/-- `decode_journal_record`. -/
def decodeJournalRecord (kind : RecordKind) (data : Bytes)
    : Except JournalError ParsedJournalRecord := do
  let document ← decode data (limitsOf kind)
  needLocal imports kind document
  needShortCall kind document data
  let schema ← textOf (← field document "schema")
  .ok {
    kind := kind
    schema := schema
    data := data
    sha256 := imports.sha256 data
    schemaDigest := imports.sha256 (schema.utf8 ++ pyb "\n" ++ data)
    document := freeze document
  }

/-- `encode_journal_record`: the text is decoded again before it is returned. -/
def encodeJournalRecord (kind : RecordKind) (document : Stored) : Except JournalError Bytes := do
  let value ← thaw (limitsOf kind) document
  need (IsObject value) .schema
  let data ← json value
  let _ ← decodeJournalRecord imports kind data
  .ok data

end Records

-- One byte form

section ByteForm

variable {imports : Imports}

/-- What a decoded record consists of. -/
structure Decoded (imports : Imports) (kind : RecordKind) (data : Bytes) (value : Json)
    (record : ParsedJournalRecord) : Prop where
  fits : Fits (limitsOf kind) value
  written : value.dumps.utf8 = data
  accepted : needLocal imports kind value = .ok ()
  short : needShortCall kind value data = .ok ()
  schema : field value "schema" = .ok (.str record.schema)
  kind : record.kind = kind
  bytes : record.data = data
  sha256 : record.sha256 = imports.sha256 data
  schemaDigest : record.schemaDigest = imports.sha256 (record.schema.utf8 ++ pyb "\n" ++ data)
  document : record.document = freeze value

variable {value : Json}

theorem textOf_ok {text : Text} : textOf value = .ok text ↔ value = .str text := by
  cases value <;> simp [textOf]

variable {kind : RecordKind} {data : Bytes}

theorem decodeJournalRecord_ok {record : ParsedJournalRecord}
    : decodeJournalRecord imports kind data = .ok record
      ↔ ∃ value, Decoded imports kind data value record := by
  simp only [decodeJournalRecord, bind_ok, decode_ok, textOf_ok]
  constructor
  · rintro ⟨value, ⟨fits, written⟩, _, accepted, _, short, found, schema, text, rfl, done⟩
    cases done
    exact ⟨value, fits, written, accepted, short, schema, rfl, rfl, rfl, rfl, rfl⟩
  · rintro ⟨value, fits, written, accepted, short, schema, kinds, bytes, digest, domain, document⟩
    refine ⟨value, ⟨fits, written⟩, _, accepted, _, short, _, schema, record.schema, rfl, ?_⟩
    cases record
    simp_all

/-- The record that the canonical text of an accepted value is read as. -/
def recordOf (imports : Imports) (kind : RecordKind) (schema : Text) (value : Json)
    : ParsedJournalRecord where
  kind := kind
  schema := schema
  data := value.dumps.utf8
  sha256 := imports.sha256 value.dumps.utf8
  schemaDigest := imports.sha256 (schema.utf8 ++ pyb "\n" ++ value.dumps.utf8)
  document := freeze value

theorem decodeJournalRecord_dumps {schema : Text} (isObject : IsObject value)
    (thaws : thaw (limitsOf kind) (freeze value) = .ok value)
    (accepted : needLocal imports kind value = .ok ())
    (short : needShortCall kind value value.dumps.utf8 = .ok ())
    (found : field value "schema" = .ok (.str schema))
    : decodeJournalRecord imports kind value.dumps.utf8 = .ok (recordOf imports kind schema value) := by
  obtain ⟨_, clean, bytes, counts⟩ := thaw_ok.mp thaws
  exact decodeJournalRecord_ok.mpr ⟨value, ⟨isObject, clean, bytes, counts⟩, rfl, accepted,
    short, found, rfl, rfl, rfl, rfl, rfl⟩

/-- An encoded document is the frozen form of the value that is decoded again. -/
theorem encodeJournalRecord_ok_iff {document : Stored}
    : encodeJournalRecord imports kind document = .ok data
      ↔ ∃ record, decodeJournalRecord imports kind data = .ok record
          ∧ record.document = document := by
  simp only [encodeJournalRecord, bind_ok, need_ok_iff, thaw_ok]
  constructor
  · rintro ⟨value, ⟨frozen, clean, _, _⟩, _, _, written, dumped, record, decoded, done⟩
    cases done
    refine ⟨record, decoded, ?_⟩
    obtain ⟨again, ran⟩ := decodeJournalRecord_ok.mp decoded
    rw [json_ok_iff clean.encodable, ← ran.written] at dumped
    have same := Json.dumps_injective clean.canonical ran.fits.clean.canonical
      (Text.utf8_injective dumped)
    rw [ran.document, ← same, frozen]
  · rintro ⟨record, decoded, same⟩
    obtain ⟨value, ran⟩ := decodeJournalRecord_ok.mp decoded
    have dumped := (json_ok_iff ran.fits.clean.encodable).mpr ran.written
    exact ⟨value, ⟨ran.document.symm.trans same, ran.fits.clean, ran.fits.bytes, ran.fits.values⟩,
      (), ran.fits.isObject, data, dumped, record, decoded, rfl⟩

/-- A record has exactly one byte form: what is encoded decodes to the same document, what is
decoded encodes to the same bytes, and different bytes never decode to one document.
-/
theorem record_bytes_unique (imports : Imports) (kind : RecordKind)
    : (∀ document data, encodeJournalRecord imports kind document = .ok data
        → ∃ record, decodeJournalRecord imports kind data = .ok record
            ∧ record.document = document)
      ∧ (∀ data record, decodeJournalRecord imports kind data = .ok record
        → encodeJournalRecord imports kind record.document = .ok data)
      ∧ (∀ left right first second, decodeJournalRecord imports kind left = .ok first
        → decodeJournalRecord imports kind right = .ok second → first.document = second.document
        → left = right) := by
  refine ⟨fun document data encoded => encodeJournalRecord_ok_iff.mp encoded,
    fun data record decoded => encodeJournalRecord_ok_iff.mpr ⟨record, decoded, rfl⟩, ?_⟩
  intro left right first second leftDecoded rightDecoded same
  have leftEncoded := encodeJournalRecord_ok_iff.mpr ⟨first, leftDecoded, rfl⟩
  have rightEncoded := encodeJournalRecord_ok_iff.mpr ⟨second, rightDecoded, rfl⟩
  rw [same, rightEncoded] at leftEncoded
  exact (Except.ok.inj leftEncoded).symm

/-- The root of a diagnostic store. -/
def rootDocument : Json :=
  .obj [(py "artifact_domain", .str (py "diagnostic")),
    (py "deployment_id", .str (py "00000000-0000-0000-0000-000000000001")),
    (py "evidence_root", .str (py "/var/evidence")),
    (py "format", .str (py "scanipy-runtime-journal/1")),
    (py "host_work_root", .str (py "/var/work")),
    (py "owner_gid", .int 1000),
    (py "owner_uid", .int 1000),
    (py "schema", .str (py "scanipy-runtime-evidence-root/1")),
    (py "store_id", .str (py "00000000-0000-0000-0000-000000000002"))]

def rootData : Bytes :=
  rootDocument.dumps.utf8

/-- The digests of the root; no process evidence is supplied. -/
def rootImports : Imports where
  sha256 := tableHash [
    (rootData, 0x26b7a5b8ca6963fec11280cbd5f402bfd5eb66cb3dcccb8b79c115e560d5ae91),
    (pyb "scanipy-runtime-evidence-root/1\n" ++ rootData,
      0xd0bc664b3fc8e425e233b6f5c32c204150e405c93e1e451b9bdacc1aa74745ce)]
  decodeCallIntent := fun _ => none
  decodeCallRef := fun _ => none
  decodeCallResult := fun _ => none
  decodeInvocation := fun _ => none
  decodeErrorGraph := fun _ => none
  prepareCallIntent := fun _ _ _ _ => none

theorem rootDocument_thaws : thaw (limitsOf .root) (freeze rootDocument) = .ok rootDocument := by
  decide +kernel

theorem rootDocument_accepted (imports : Imports)
    : needLocal imports .root rootDocument = .ok () := by
  have checked : needRoot rootDocument = .ok () := by decide +kernel
  have schema : ∃ name ∈ schemas .root,
      ((membersOf rootDocument).find? fun member => member.1 = py "schema").map Prod.snd
        = some (.str (py name)) := by
    decide +kernel
  simp only [needLocal, check_ok, need_ok_iff]
  exact ⟨schema, checked⟩

/-- The root is read from its text and written back to it. -/
theorem record_bytes_unique_root
    : ∃ record, decodeJournalRecord rootImports .root rootData = .ok record
        ∧ encodeJournalRecord rootImports .root record.document = .ok rootData := by
  have schema : field rootDocument "schema"
      = .ok (.str (py "scanipy-runtime-evidence-root/1")) := by
    decide +kernel
  have isObject : IsObject rootDocument := trivial
  have decoded := decodeJournalRecord_dumps isObject rootDocument_thaws
    (rootDocument_accepted rootImports) rfl schema
  exact ⟨_, decoded, (record_bytes_unique rootImports .root).2.1 rootData _ decoded⟩

end ByteForm

end Scanipy.Tools.Worker.Journal

import Scanipy.Tools.Worker.Journal.Lexical

/-! The schemas of journal records: every field that a record of each kind has to carry, and the
checks that stay inside one record.
-/

namespace Scanipy.Tools.Worker.Journal

open Library Python

-- Kinds

/-- `JournalRecordKind`. -/
inductive RecordKind where
  | root
  | manifest
  | event
  | refusal
  | authorityInventory
  | prerequisite
  | spoolRegistration
  | spoolObservation
  | publicationIntent
  deriving DecidableEq, Repr

/-- `_SCHEMAS`. -/
def schemas : RecordKind → List String
  | .root => ["scanipy-runtime-evidence-root/1"]
  | .manifest => ["scanipy-runtime-attempt-manifest/1"]
  | .event => ["scanipy-local-runtime-event/1", "scanipy-diagnostic-runtime-event/1"]
  | .refusal => ["scanipy-local-runtime-refusal/1"]
  | .authorityInventory => ["scanipy-runtime-prerequisite-evidence/1"]
  | .prerequisite => ["scanipy-local-launch-prerequisite/1"]
  | .spoolRegistration => ["scanipy-runtime-spool-registration/1"]
  | .spoolObservation => ["scanipy-runtime-spool-observation/1"]
  | .publicationIntent => ["scanipy-runtime-publication-intent/1"]

/-- `_LIMITS`. -/
def limitsOf : RecordKind → Limits
  | .root => ⟨4096, 2, 32⟩
  | .manifest => ⟨16384, 6, 256⟩
  | .event => ⟨65536, 16, 4096⟩
  | .refusal => ⟨16384, 6, 256⟩
  | .authorityInventory => ⟨16384, 6, 256⟩
  | .prerequisite => ⟨16384, 16, 1024⟩
  | .spoolRegistration => ⟨4096, 4, 96⟩
  | .spoolObservation => ⟨4096, 5, 128⟩
  | .publicationIntent => ⟨4096, 3, 64⟩

/-- The kinds of events. -/
inductive EventKind where
  | reserved
  | loaded
  | created
  | started
  | observed
  | releaseIntent
  | released
  | domainExited
  | cleanup
  | admitted
  | failed
  | orphaned
  | callIntent
  | callResult
  | spoolRegistered
  | spoolCollected
  | recoveryEntered
  | reconciled
  deriving DecidableEq, Repr

namespace EventKind

def wire : EventKind → String
  | .reserved => "reserved"
  | .loaded => "loaded"
  | .created => "created"
  | .started => "started"
  | .observed => "observed"
  | .releaseIntent => "release-intent"
  | .released => "released"
  | .domainExited => "domain-exited"
  | .cleanup => "cleanup"
  | .admitted => "admitted"
  | .failed => "failed"
  | .orphaned => "orphaned"
  | .callIntent => "call-intent"
  | .callResult => "call-result"
  | .spoolRegistered => "spool-registered"
  | .spoolCollected => "spool-collected"
  | .recoveryEntered => "recovery-entered"
  | .reconciled => "reconciled"

def all : List EventKind :=
  [.reserved, .loaded, .created, .started, .observed, .releaseIntent, .released, .domainExited,
    .cleanup, .admitted, .failed, .orphaned, .callIntent, .callResult, .spoolRegistered,
    .spoolCollected, .recoveryEntered, .reconciled]

def ofWire (text : Text) : Option EventKind :=
  all.find? fun kind => py kind.wire = text

end EventKind

/-- `_MODES`. -/
def modes : List String :=
  ["verifier-publication", "verifier-historical", "verifier-execution", "python-syntax"]

/-- `_ACTIONS`, in the order of the modes. -/
def actions : List String :=
  ["publish-builtin-preflight", "audit-historical", "verify-execution", "parse-python"]

/-- `_AUTH`. -/
def authorities : List String :=
  ["authentication", "scope", "admission", "execution-authorization", "capture-lease",
    "content-verification"]

/-- `_META`. -/
def metadataRoles : List String :=
  ["installation", "controller-profile", "domain-profile", "inventory"]

/-- `_PHASES`. -/
def failurePhases : List String :=
  ["load", "authority", "reserve", "create", "inspect", "start", "release", "execute", "retain",
    "cleanup", "admit", "recover"]

/-- `_FAILURES`. -/
def failures : List String :=
  ["installation-unavailable", "metadata-invalid", "artifact-mismatch", "unsafe-path", "limit",
    "deadline", "authority-unavailable", "authority-stale", "image-unavailable",
    "config-mismatch", "kernel-unavailable", "kernel-mismatch", "spawn-failed",
    "transport-failed", "protocol-invalid", "domain-rejected", "evidence-failed",
    "cleanup-incomplete", "ambiguous-create", "ambiguous-start", "ambiguous-release",
    "cancelled", "unsupported"]

/-- `_QUOTA`. -/
def quota : List (String × Int) :=
  [("retained_bytes", 33554432), ("metadata_bytes", 524288),
    ("nonattached_output_bytes", 4194304), ("kernel_bytes", 1048576), ("cli_calls", 16),
    ("kernel_samples", 16), ("cleanup_cli_slots", 4), ("cleanup_metadata_bytes", 131072),
    ("cleanup_retained_bytes", 2097152), ("terminal_metadata_bytes", 65536)]

/-- `_MIB`. -/
def mib : Nat :=
  1048576

/-- What the journal takes from `hashlib` and from `process_evidence`, whose errors are
`ProcessEvidenceError`s.
-/
structure Imports where
  sha256 : Bytes → Bytes
  decodeCallIntent : Bytes → Option Stored
  decodeCallRef : Bytes → Option Stored
  decodeCallResult : Bytes → Option Stored
  decodeInvocation : Bytes → Option Stored
  decodeErrorGraph : Bytes → Option Stored
  /-- `prepare_call_intent` on the binding of an attempt, an operation and an intent, and on the
  planned invocation: the payload. -/
  prepareCallIntent : (attempt operation intent invocation : Json) → Option Bytes

/-- The kinds of process evidence. -/
inductive EvidenceKind where
  | intent
  | ref
  | result
  | invocation
  | error
  deriving DecidableEq, Repr

section Checks

variable (imports : Imports)

/-- `_pe`. -/
def processEvidence (data : Bytes) (kind : EvidenceKind) : Except JournalError Stored :=
  let decoded :=
    match kind with
    | .intent => imports.decodeCallIntent data
    | .ref => imports.decodeCallRef data
    | .result => imports.decodeCallResult data
    | .invocation => imports.decodeInvocation data
    | .error => imports.decodeErrorGraph data
  match decoded with
  | some view => .ok view
  | none => .error (.validation .schema)

/-- `_EMPTY`. -/
def emptyDigest : Text :=
  hex (imports.sha256 [])

-- Parts of records

/-- A check of one field. -/
def check {α : Type} (row : Json) (key : String) (test : Json → Except JournalError α)
    : Except JournalError Unit := do
  let value ← field row key
  let _ ← test value
  .ok ()

/-- One check of several fields, in order. -/
def checkEach {α : Type} (row : Json) (keys : List String) (test : Json → Except JournalError α)
    : Except JournalError Unit :=
  Metered.visit (fun key => check row key test) keys

/-- A check of a field that may be `None`. -/
def unlessNone {α : Type} (test : Json → Except JournalError α) (value : Json)
    : Except JournalError Unit :=
  if value = .null then .ok () else do
    let _ ← test value
    .ok ()

/-- A check of every item of a list. -/
def items {α : Type} (cap : Nat) (test : Json → Except JournalError α) (value : Json)
    : Except JournalError Unit := do
  let found ← needList value cap 0
  Metered.visit (fun item => do
    let _ ← test item
    .ok ()) found

/-- `value == literal`. -/
def equals (expected : Json) (value : Json) : Except JournalError Unit :=
  need (value = expected) .schema

/-- The members of a dictionary. -/
def membersOf : Json → List (Text × Json)
  | .obj members => members
  | _ => []

/-- The text of a value that has been checked to be one. -/
def textOf : Json → Except JournalError Text
  | .str text => .ok text
  | _ => .error (.python .typeError)

/-- The number of a value that has been checked to be one. -/
def intOf : Json → Except JournalError Int
  | .int number => .ok number
  | _ => .error (.python .typeError)

/-- `_ref`: the size and the key agree with the digest. -/
def needRef (cap : Nat) (value : Json) : Except JournalError Unit := do
  needKeys value ["sha256", "size", "key"]
  let digest ← needHex (← field value "sha256")
  let size ← needInt (← field value "size") 0 cap
  need ((← field value "key") = .str (py "blobs/" ++ digest)) .schema
  need (size ≠ 0 ∨ digest = emptyDigest imports) .schema

/-- `_file`. -/
def needFile (value : Json) : Except JournalError Unit := do
  needKeys value ["device", "inode", "uid", "gid", "mode", "nlink", "size", "mtime_ns", "ctime_ns"]
  Metered.visit (fun member => do
    let low := if member.1 ∈ [py "mtime_ns", py "ctime_ns"] then minInt else 0
    let high := if member.1 = py "mode" then 4095 else maxInt
    let _ ← needInt member.2 low high
    .ok ()) (membersOf value)

/-- One entry of the metadata, under its role. -/
def needMetadataEntry (role : String) (row : Json) : Except JournalError Unit := do
  needKeys row ["role", "path", "blob", "observation"]
  check row "role" (equals (.str (py role)))
  check row "path" needPath
  check row "blob" (needRef imports (32 * mib))
  check row "observation" needFile
  let observed ← field (← field row "observation") "size"
  let stored ← field (← field row "blob") "size"
  need (observed = stored) .schema

/-- `_metadata`. -/
def needMetadata (value : Json) : Except JournalError Unit := do
  let rows ← needList value 4 4
  Metered.visit (fun entry => needMetadataEntry imports entry.1 entry.2) (metadataRoles.zip rows)

/-- `_prerequisite_ref`. -/
def needPrerequisiteRef (value : Json) : Except JournalError Unit := do
  needKeys value ["prerequisite", "authority_inventory"]
  check value "prerequisite" (needRef imports 16384)
  check value "authority_inventory" (needRef imports 16384)

/-- A number without a sign. -/
def needNatural (value : Json) : Except JournalError Int :=
  needInt value 0 maxInt

/-- A positive number. -/
def needPositive (value : Json) : Except JournalError Int :=
  needInt value 1 maxInt

/-- A limit of a control group: a number or `max`. -/
def needQuantity (value : Json) : Except JournalError Unit :=
  match value with
  | .str text => need (text = py "max") .schema
  | _ => do
      let _ ← needNatural value
      .ok ()

/-- A mount of a kernel sample. -/
def needMount (mount : Json) : Except JournalError Unit := do
  needKeys mount ["target", "source", "fstype", "readonly", "nosuid", "nodev", "noexec",
    "propagation", "total_bytes", "total_inodes"]
  let target ← needText (← field mount "target") 4096
  if target ≠ py "/" then check mount "target" needPath else .ok ()
  check mount "source" (needText · 4096)
  check mount "fstype" needId
  check mount "propagation" needId
  checkEach mount ["readonly", "nosuid", "nodev", "noexec"] needBool
  checkEach mount ["total_bytes", "total_inodes"] (unlessNone needNatural)

/-- The control group of a kernel sample. -/
def needCgroup (cgroup : Json) : Except JournalError Unit := do
  needKeys cgroup ["path", "device", "inode", "memory_max", "swap_max", "pids_max",
    "cpu_quota_us", "cpu_period_us", "populated"]
  check cgroup "path" needPath
  check cgroup "populated" needBool
  checkEach cgroup ["device", "inode", "cpu_period_us"] needNatural
  checkEach cgroup ["memory_max", "swap_max", "pids_max", "cpu_quota_us"] needQuantity

/-- The namespaces of a kernel sample. -/
def needNamespaces (namespaces : Json) : Except JournalError Unit := do
  needKeys namespaces ["pid_inode", "net_inode", "cgroup_inode", "ipc_inode", "mount_inode",
    "user_inode"]
  Metered.visit (fun member => do
    let _ ← needPositive member.2
    .ok ()) (membersOf namespaces)

/-- The network of a kernel sample. -/
def needNetwork (network : Json) : Except JournalError Unit := do
  needKeys network ["interface_names", "nonloopback_routes"]
  check network "interface_names" (items 32 (needText · 64))
  check network "nonloopback_routes" needNatural

/-- The credentials of a kernel sample. -/
def needSecurity (security : Json) : Except JournalError Unit := do
  needKeys security ["uid", "gid", "groups", "nnp", "cap_inheritable", "cap_permitted",
    "cap_effective", "cap_bounding", "cap_ambient", "seccomp_mode", "apparmor_label"]
  checkEach security ["uid", "gid", "cap_inheritable", "cap_permitted", "cap_effective",
    "cap_bounding", "cap_ambient"] needNatural
  check security "nnp" (needInt · 0 1)
  check security "seccomp_mode" (needInt · 0 2)
  check security "apparmor_label" (needText · 4096)
  check security "groups" (items 32 needNatural)

/-- `_kernel`. -/
def needKernel (value : Json) : Except JournalError Unit := do
  needKeys value ["observed_at", "pid", "start_ticks", "host_boot_id", "cgroup", "namespaces",
    "network", "security", "mounts", "raw"]
  check value "observed_at" needUtc
  check value "pid" needPositive
  check value "start_ticks" needPositive
  check value "host_boot_id" needUuid
  check value "cgroup" needCgroup
  check value "namespaces" needNamespaces
  check value "network" needNetwork
  check value "security" needSecurity
  check value "mounts" (items 64 needMount)
  check value "raw" (items 16 (needRef imports 65536))

/-- `_call_ref`. -/
def needCallRef (value : Json) : Except JournalError Unit := do
  let data ← json value
  let _ ← processEvidence imports data .ref
  .ok ()

-- Records

/-- The checks of a root. -/
def needRoot (row : Json) : Except JournalError Unit := do
  needKeys row ["schema", "deployment_id", "store_id", "artifact_domain", "owner_uid", "owner_gid",
    "evidence_root", "host_work_root", "format"]
  check row "deployment_id" needUuid
  check row "store_id" needUuid
  check row "artifact_domain" (needChoice · [py "operational", py "diagnostic"])
  check row "owner_uid" (needInt · 1 2147483647)
  check row "owner_gid" (needInt · 1 2147483647)
  let evidence ← needPath (← field row "evidence_root")
  let work ← needPath (← field row "host_work_root")
  need (evidence ≠ work ∧ (work ++ py "/").isPrefixOf evidence = false
    ∧ (evidence ++ py "/").isPrefixOf work = false) .schema
  check row "format" (equals (.str (py "scanipy-runtime-journal/1")))

/-- The objects of an authority inventory: their roles come in order, their sizes add up. -/
def needAuthorities : Option Nat → Int → List Json → Except JournalError Int
  | _, total, [] => .ok total
  | previous, total, item :: rest => do
      needKeys item ["role", "bytes"]
      let role ← needChoice (← field item "role") (authorities.map py)
      let index := (authorities.map py).idxOf role
      need (∀ earlier ∈ previous, earlier < index) .schema
      check item "bytes" (needRef imports mib)
      let size ← intOf (← field (← field item "bytes") "size")
      needAuthorities (some index) (total + size) rest

/-- The checks of an authority inventory. -/
def needAuthorityInventory (row : Json) : Except JournalError Unit := do
  needKeys row ["schema", "prerequisite", "objects"]
  check row "prerequisite" (needRef imports 16384)
  let objects ← needList (← field row "objects") 6 0
  let total ← needAuthorities imports none 0 objects
  need (total ≤ mib) .limit

/-- The checks of a prerequisite. -/
def needPrerequisite (row : Json) : Except JournalError Unit := do
  needKeys row ["schema", "reader_id", "observation_id", "observed_at", "valid_until",
    "principal_id", "org_id", "action", "authentication_evidence_sha256",
    "scope_evidence_sha256", "admission", "execution_authorization_digest",
    "capture_lease_evidence_sha256", "content_verification_evidence_sha256"]
  checkEach row ["reader_id", "principal_id"] needId
  checkEach row ["observation_id", "org_id"] needUuid
  let until_ ← needUtc (← field row "valid_until")
  let since ← needUtc (← field row "observed_at")
  need (since < until_ ∧ until_ ≤ since + 60000000) .schema
  let action ← needChoice (← field row "action") (actions.map py)
  checkEach row ["authentication_evidence_sha256", "scope_evidence_sha256"] needHex
  let admission ← field row "admission"
  need (admission = .null ↔ action = py "audit-historical") .schema
  need (admission = .null ∨ IsObject admission) .schema
  Metered.visit (fun name => do
    let value ← field row name
    let required : Prop := action = py "parse-python"
      ∨ action = py "verify-execution" ∧ name ≠ "content_verification_evidence_sha256"
    need (value ≠ .null ↔ required) .schema
    unlessNone needHex value)
    ["execution_authorization_digest", "capture_lease_evidence_sha256",
      "content_verification_evidence_sha256"]

/-- `"scanipy-runtime-" + row["attempt_id"].replace("-", "")`. -/
def needContainerName (row : Json) : Except JournalError Unit := do
  let attempt ← textOf (← field row "attempt_id")
  check row "container_name"
    (equals (.str (py "scanipy-runtime-" ++ attempt.filter fun point => point.val ≠ 0x2D)))

/-- `_manifest`. -/
def needManifest (row : Json) : Except JournalError Unit := do
  needKeys row ["schema", "store_id", "deployment_id", "attempt_id", "operation_id", "mode",
    "artifact_domain", "created_at", "origin_host_boot_id", "origin_writer_id", "request", "input",
    "launch", "initial_prerequisite", "authority_inventory", "parent_barrier", "installation_id",
    "installation_generation", "installation_sha256", "controller_profile_sha256",
    "domain_profile_sha256", "inventory_sha256", "inventory_digest", "program_digest",
    "expected_image_config_id", "expected_oci_manifest_digest", "container_name", "metadata",
    "quota_plan"]
  checkEach row ["store_id", "deployment_id", "attempt_id", "operation_id", "origin_host_boot_id",
    "origin_writer_id", "installation_id"] needUuid
  let mode ← needChoice (← field row "mode") (modes.map py)
  check row "artifact_domain" (needChoice · [py "operational", py "diagnostic"])
  check row "created_at" needUtc
  check row "installation_generation" needPositive
  checkEach row ["installation_sha256", "controller_profile_sha256", "domain_profile_sha256",
    "inventory_sha256", "inventory_digest", "program_digest"] needHex
  checkEach row ["request", "launch"] (needRef imports 65536)
  check row "input" (needRef imports (if mode = py "python-syntax" then 263244 else 2621440))
  checkEach row ["initial_prerequisite", "authority_inventory"] (needRef imports 16384)
  let barrier ← field row "parent_barrier"
  need (barrier ≠ .null ↔ mode ∈ (modes.drop 2).map py) .schema
  unlessNone (needRef imports 16384) barrier
  check row "expected_image_config_id" needImage
  check row "expected_oci_manifest_digest" (unlessNone needImage)
  needContainerName row
  check row "metadata" (needMetadata imports)
  let metadata ← needList (← field row "metadata") 4 4
  Metered.visit (fun entry => do
    let digest ← field (← field entry.1 "blob") "sha256"
    check row entry.2 (equals digest))
    (metadata.zip ["installation_sha256", "controller_profile_sha256", "domain_profile_sha256",
      "inventory_sha256"])
  let plan ← field row "quota_plan"
  needKeys plan (quota.map Prod.fst)
  Metered.visit (fun entry => do
    let planned ← needNatural (← field plan entry.1)
    need (planned = entry.2) .schema) quota

/-- `_registration`. -/
def needRegistration (row : Json) : Except JournalError Unit := do
  needKeys row ["schema", "store_id", "attempt_id", "operation_id", "call_id",
    "intent_event_digest", "relative_directory", "directory", "files", "input_mode", "limits"]
  checkEach row ["store_id", "attempt_id", "operation_id", "call_id"] needUuid
  check row "intent_event_digest" needHex
  let call ← textOf (← field row "call_id")
  check row "relative_directory" (equals (.str (py "call-spools/" ++ call)))
  let directory ← field row "directory"
  needKeys directory ["device", "inode", "uid", "gid", "mode"]
  checkEach directory ["device", "uid", "gid"] needNatural
  check directory "inode" needPositive
  let mode ← needNatural (← field directory "mode")
  need (mode = 448) .schema
  let files ← needList (← field row "files") 2 2
  Metered.visit (fun entry => do
    needKeys entry.2 ["stream", "name"]
    check entry.2 "stream" (equals (.str (py entry.1)))
    check entry.2 "name" (equals (.str (py entry.1 ++ py ".bin"))))
    (["stdout", "stderr"].zip files)
  check row "input_mode" (equals (.str (py "finite-one-shot")))
  let limits ← field row "limits"
  needKeys limits ["stdin_bytes", "stdout_bytes", "stderr_bytes", "combined_output_bytes",
    "wall_ms", "cleanup_reserve_ms"]
  Metered.visit (fun entry => check limits entry.1 (needInt · 0 entry.2))
    [("stdin_bytes", (4 * mib : Int)), ("stdout_bytes", 16 * mib), ("stderr_bytes", mib),
      ("combined_output_bytes", 17 * mib)]
  let wall ← needInt (← field limits "wall_ms") 1 30000
  check limits "cleanup_reserve_ms" (needInt · 1 (min 5000 (wall - 1)))
  let combined ← intOf (← field limits "combined_output_bytes")
  let stdout ← intOf (← field limits "stdout_bytes")
  let stderr ← intOf (← field limits "stderr_bytes")
  need (combined ≤ stdout + stderr) .schema

/-- `re.fullmatch(r"events/[0-9]{6}\.json", destination)`. -/
def eventPattern : List (CodePoint → Bool) :=
  literally "events/" ++ List.replicate 6 isDigit ++ literally ".json"

/-- The destination of a published object, by its role. -/
def needDestination (role digest destination : Text) : Except JournalError Unit := do
  if role = py "blob" then
    need (destination = py "blobs/" ++ digest) .schema
  else if role = py "manifest" ∨ role = py "refusal" then
    need (destination = role ++ py ".json") .schema
  else if role = py "event" then
    need (fullmatch eventPattern destination = true) .schema
    let number := digitsAt destination 7 6
    need (1 ≤ number ∧ number ≤ 128) .schema
  else
    need ((py "spool-registrations/").isPrefixOf destination = true
      ∧ (py ".json").isSuffixOf destination = true) .schema
    let _ ← needUuid (.str ((destination.take (destination.length - 5)).drop 20))

/-- `_publication`. -/
def needPublication (row : Json) : Except JournalError Unit := do
  needKeys row ["schema", "publication_id", "store_id", "scope_kind", "scope_id", "role",
    "destination", "size", "sha256", "expected_previous_event_digest"]
  checkEach row ["publication_id", "store_id", "scope_id"] needUuid
  let scope ← needChoice (← field row "scope_kind") [py "attempt", py "refusal"]
  let role ← needChoice (← field row "role")
    [py "blob", py "manifest", py "event", py "spool-registration", py "refusal"]
  check row "size" (needInt · 0 (32 * mib))
  let digest ← needHex (← field row "sha256")
  let destination ← needText (← field row "destination") 128
  needDestination role digest destination
  let allowed := if scope = py "refusal" then ["blob", "refusal"]
    else ["blob", "manifest", "event", "spool-registration"]
  need (role ∈ allowed.map py) .schema
  let previous ← field row "expected_previous_event_digest"
  unlessNone needHex previous
  need (previous = .null ∨ scope = py "attempt") .schema

/-- The checks of a refusal. -/
def needRefusal (row : Json) : Except JournalError Unit := do
  needKeys row ["schema", "refusal_id", "recorded_at", "host_boot_id", "elapsed_ms",
    "operation_id", "requested_mode", "phase", "code", "anchor", "input", "available_evidence",
    "primary_error_id"]
  checkEach row ["refusal_id", "host_boot_id"] needUuid
  check row "recorded_at" needUtc
  check row "elapsed_ms" needNatural
  check row "operation_id" (unlessNone needUuid)
  check row "requested_mode" (unlessNone (needChoice · (modes.map py)))
  check row "phase" (needChoice · [py "load", py "authority", py "reserve"])
  check row "code" (needChoice · (failures.map py))
  check row "anchor" (unlessNone fun anchor => do
    needKeys anchor ["deployment_id", "installation_id", "generation", "installation_sha256"]
    checkEach anchor ["deployment_id", "installation_id"] needUuid
    check anchor "generation" needPositive
    check anchor "installation_sha256" needHex)
  check row "input" (unlessNone fun input => do
    needKeys input ["size", "sha256"]
    check input "size" needNatural
    check input "sha256" needHex)
  check row "available_evidence" (items 16 (needRef imports (8 * mib)))
  check row "primary_error_id" (unlessNone needUuid)

/-- The checks of a spool observation. -/
def needSpoolObservation (row : Json) : Except JournalError Unit := do
  needKeys row ["schema", "store_id", "attempt_id", "call_id", "stream",
    "registration_event_digest", "observed_at", "before", "after", "bytes"]
  checkEach row ["store_id", "attempt_id", "call_id"] needUuid
  check row "stream" (needChoice · [py "stdout", py "stderr"])
  check row "registration_event_digest" needHex
  check row "observed_at" needUtc
  check row "before" needFile
  check row "after" needFile
  let before ← field row "before"
  check row "after" (equals before)
  check row "bytes" (needRef imports (16 * mib))
  let size ← field (← field row "bytes") "size"
  check before "size" (equals size)
  check before "mode" (equals (.int 384))
  check before "nlink" (equals (.int 1))

end Checks

end Scanipy.Tools.Worker.Journal

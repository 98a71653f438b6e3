import Scanipy.Tools.Worker.Journal.Apply

/-! The events that move an attempt from its reservation to its end, and the replay of a whole
journal.
-/

namespace Scanipy.Tools.Worker.Journal

open Library
open Library.Metered (lift visit)
open Python

section Lifecycle

variable (imports : Imports) (m : Manifest)

-- Lifecycle events

/-- The checks of a reservation; it is the first event. -/
def reserve (replay : Replay) (event : Event) : Except JournalError Replay := do
  need (event.sequence = 1 ∧ replay.phase = .reserved) .order
  let manifest ← field event.payload "manifest"
  let digest ← field manifest "sha256"
  let size ← field manifest "size"
  need (digest = .str (hex m.record.sha256) ∧ size = .int m.record.data.length) .reference
  let launch ← field event.payload "launch_bytes_ref"
  let input ← field event.payload "input"
  need (launch = m.launch ∧ input = m.input) .reference
  need (event.hostBootId = m.originHostBootId ∧ m.createdAt ≤ event.recordedAt) .reference
  need (event.containerId = .null) .reference
  .ok replay

/-- The writer has changed; only cleaning up is left. -/
def enterRecovery (replay : Replay) (event : Event) : Except JournalError Replay := do
  let head ← field event.payload "prior_head_digest"
  need (some head = replay.previous.map .str) .reference
  let recoveryId ← fieldText event.payload "recovery_id"
  let replay ← replay.unique .recovery recoveryId
  .ok { replay with recovery := true }

/-- The guards of `loaded` before its prerequisite. -/
def needLoadable (replay : Replay) (payload : Json) : Except JournalError Unit := do
  replay.productive m
  let metadata ← field payload "metadata"
  need (replay.phase = .reserved ∧ metadata = m.metadata) .order
  let daemons ← field payload "daemon_calls" >>= listOf
  visit (fun entry => replay.needHealthy entry.1 (some entry.2))
    (daemons.zip ["daemon-version", "daemon-info"])
  let inspect ← field payload "image_inspect_call"
  replay.needHealthy inspect (some "image-inspect")
  need (replay.observedImage = m.expectedImage
    ∧ (m.expectedOci = .null ∨ replay.observedOci = m.expectedOci)) .reference

def load (replay : Replay) (event : Event) : PoolM Replay := do
  lift (needLoadable m replay event.payload)
  let reference ← lift (field event.payload "create_prerequisite")
  let replay ← prerequisite imports m replay reference event.source (some event.recordedAt)
  pure { replay with phase := .loaded }

def create (replay : Replay) (event : Event) : Except JournalError Replay := do
  replay.productive m
  need (replay.phase = .loaded ∧ replay.containerId ≠ .null) .order
  let created ← field event.payload "create_call"
  replay.needHealthy created (some "container-create")
  let inspected ← field event.payload "inspect_call"
  replay.needHealthy inspected (some "container-inspect-id")
  .ok { replay with phase := .created }

def start (replay : Replay) (event : Event) : Except JournalError Replay := do
  replay.productive m
  let called ← field event.payload "start_call_id"
  need (replay.phase = .startIntended ∧ some called = replay.startId.map .str) .order
  let pid ← field event.payload "pid"
  let ticks ← field event.payload "start_ticks"
  .ok { replay with
    startedIdentity := some (pid, ticks)
    startedAt := some event.recordedAt
    phase := .started }

/-- The guards of `observed` before the kernel sample is counted. -/
def needObservable (replay : Replay) (event : Event) (sample : Json)
    : Except JournalError Replay := do
  replay.productive m
  need (replay.phase = .started ∨ replay.phase = .observed) .order
  let inspected ← field event.payload "inspect_call"
  replay.needHealthy inspected (some "container-inspect-id")
  let observationId ← fieldText event.payload "observation_id"
  let replay ← replay.unique .observation observationId
  let pid ← field sample "pid"
  let ticks ← field sample "start_ticks"
  let boot ← field sample "host_boot_id"
  need (replay.startedIdentity = some (pid, ticks) ∧ boot = .str event.hostBootId) .reference
  let observedAt ← fieldText sample "observed_at"
  need ((∃ started ∈ replay.startedAt, started ≤ observedAt) ∧ observedAt ≤ event.recordedAt) .order
  .ok replay

/-- `_Replay._kernel_refs`. -/
def kernelRefs (replay : Replay) (sample : Json) (source : Text) : PoolM Replay := do
  lift (need (replay.kernelSamples + 1 ≤ 16) .limit)
  let raw ← lift (field sample "raw" >>= listOf)
  visit (fun reference => do
    let _ ← owner imports reference source .kernelRaw 65536
    pure ()) raw
  let sizes ← lift (Metered.collect (fun reference => fieldInt reference "size") raw)
  let bytes := replay.kernelBytes + sizes.sum
  lift (need (bytes ≤ mib) .limit)
  pure { replay with kernelSamples := replay.kernelSamples + 1, kernelBytes := bytes }

def observe (replay : Replay) (event : Event) : PoolM Replay := do
  let sample ← lift (field event.payload "sample")
  let replay ← lift (needObservable m replay event sample)
  let replay ← kernelRefs imports replay sample event.source
  let reference ← lift (field event.payload "prerequisite")
  let replay ← prerequisite imports m replay reference event.source (some event.recordedAt)
  pure { replay with lastObserved := some event.digest, phase := .observed }

/-- The guards of `release-intent`. -/
def needReleasable (replay : Replay) (payload : Json) : Except JournalError Unit := do
  replay.productive m
  let observed ← field payload "observed_event_digest"
  need (replay.phase = .observed ∧ replay.releaseIntent = none
    ∧ some observed = replay.lastObserved.map .str) .order

def intendRelease (replay : Replay) (event : Event) : PoolM Replay := do
  lift (needReleasable m replay event.payload)
  let reference ← lift (field event.payload "prerequisite")
  let replay ← prerequisite imports m replay reference event.source (some event.recordedAt)
  let packet ← lift (field event.payload "release")
  let _ ← owner imports packet event.source .releasePacket 16384
  pure { replay with releaseIntent := some event.digest, phase := .releaseIntended }

/-- The guards of `released`: it acknowledges an earlier intent, so results that failed since then
do not matter.
-/
def needReleased (replay : Replay) (event : Event) : Except JournalError Unit := do
  need (replay.recovery = false ∧ replay.orphaned = false) .order
  replay.expectedPins m
  let digest ← fieldText event.payload "release_intent_event_digest"
  need (replay.phase = .releaseIntended ∧ some digest = replay.releaseIntent) .order
  let intended ← replay.prior digest .releaseIntent
  let packet ← field event.payload "release"
  let expectedPacket ← field intended.payload "release"
  let reference ← field event.payload "prerequisite"
  let expectedReference ← field intended.payload "prerequisite"
  need (expectedPacket = packet ∧ expectedReference = reference) .reference
  let publishedAt ← fieldText event.payload "published_at"
  need (intended.recordedAt ≤ publishedAt ∧ publishedAt ≤ event.recordedAt) .order

def release (replay : Replay) (event : Event) : PoolM Replay := do
  lift (needReleased m replay event)
  let reference ← lift (field event.payload "prerequisite")
  let replay ← prerequisite imports m replay reference event.source none
  let packet ← lift (field event.payload "release")
  let _ ← owner imports packet event.source .releasePacket 16384
  pure { replay with phase := .released }

/-- The guards of `domain-exited`. -/
def needExited (replay : Replay) (payload : Json) : Except JournalError Unit := do
  need (replay.recovery = false ∧ replay.phase = .released) .order
  let started ← field payload "start_call"
  let _ ← replay.call started (some "container-start-attached")
  let inspected ← field payload "container_inspect_call"
  let _ ← replay.call inspected (some "container-inspect-id")
  .ok ()

def exitDomain (replay : Replay) (event : Event) : PoolM Replay := do
  lift (needExited replay event.payload)
  let packet ← lift (field event.payload "domain_result")
  if packet ≠ .null then
    let _ ← owner imports packet event.source .domainResult
      (if m.mode = py "python-syntax" then 8 * mib else 16384)
  else
    pure ()
  pure { replay with domainExit := some event.digest, phase := .domainExited }

/-- The guards of a complete cleanup. -/
def needComplete (replay : Replay) (payload : Json) : Except JournalError Unit := do
  let reaped ← field payload "client_reaped"
  need (replay.cleanup = none ∧ truthy reaped = true) .order
  let disposed ← replay.disposed
  need (disposed = true) .order
  if replay.containerId ≠ .null then do
    let empty ← field payload "cgroup_empty"
    let inspected ← field payload "final_inspect_call"
    need (empty = .bool true ∧ inspected ≠ .null) .reference
    replay.needHealthy inspected none
  else
    need (¬replay.HasIntent "container-create") .order

def cleanUp (replay : Replay) (event : Event) : Except JournalError Replay := do
  let cleanupId ← fieldText event.payload "cleanup_id"
  let replay ← replay.unique .cleanup cleanupId
  let calls ← field event.payload "calls" >>= listOf
  visit (fun reference => do
    let _ ← replay.call reference none
    .ok ()) calls
  let inspected ← field event.payload "final_inspect_call"
  if inspected ≠ .null then do
    let _ ← replay.call inspected (some "container-inspect-id")
    .ok ()
  else
    .ok ()
  let state ← field event.payload "state"
  if state = .str (py "complete") then do
    needComplete replay event.payload
    .ok { replay with cleanup := some event.digest, phase := .cleanup }
  else
    .ok { replay with phase := .cleanup }

/-- The guards of `admitted` before its prerequisite. -/
def needAdmissible (replay : Replay) (payload : Json) : Except JournalError Unit := do
  replay.productive m
  let cleanup ← field payload "cleanup_event_digest"
  let exit ← fieldText payload "domain_exited_event_digest"
  need (replay.phase = .cleanup ∧ some cleanup = replay.cleanup.map .str
    ∧ replay.domainExit = some exit) .order
  let sound ← allM healthy (replay.calls.map Prod.snd)
  need (sound = true) .order
  let exited ← replay.prior exit .domainExited
  let validation ← field exited.payload "domain_validation"
  let packet ← field exited.payload "domain_result"
  need (validation = .str (py "valid") ∧ packet ≠ .null) .order
  let digest ← field packet "sha256"
  let claimed ← field payload "result_digest"
  need (claimed = digest) .reference

def admitRun (replay : Replay) (event : Event) : PoolM Replay := do
  lift (needAdmissible m replay event.payload)
  let reference ← lift (field event.payload "prerequisite")
  let replay ← prerequisite imports m replay reference event.source (some event.recordedAt)
  pure { replay with phase := .admitted }

/-- The calls that a failed or orphaned attempt names, one of which has its primary error. -/
def needReferenced (replay : Replay) (payload : Json) : Except JournalError Unit := do
  let references ← field payload "calls" >>= listOf
  let referenced ← Metered.collect (fun reference => replay.call reference none) references
  let primary ← field payload "primary_error_id"
  if primary = .null then .ok () else do
    let errors ← Metered.collect (fun call : Call =>
      match call.outcome with
      | none => .error (.python .typeError)
      | some outcome => field outcome.result "error_id") referenced
    need (primary ∈ errors) .reference

/-- The kernel bytes that a failed or orphaned attempt keeps. -/
def keepKernel (replay : Replay) (payload : Json) (source : Text) : PoolM Replay := do
  let kernel ← lift (field payload "kernel")
  if kernel = .null then pure replay else do
    let _ ← owner imports kernel source .kernelRaw 65536
    let size ← lift (fieldInt kernel "size")
    let bytes := replay.kernelBytes + size
    lift (need (bytes ≤ mib) .limit)
    pure { replay with kernelBytes := bytes }

/-- The cleanup that a failed or orphaned attempt names. -/
def needPriorCleanup (replay : Replay) (payload : Json) : Except JournalError Unit := do
  let digest ← field payload "cleanup_event_digest"
  if digest = .null then .ok () else do
    let digest ← textOf digest
    let _ ← replay.prior digest .cleanup
    .ok ()

/-- The guards of `failed`. -/
def needFailed (replay : Replay) (payload : Json) : Except JournalError Unit := do
  need (replay.orphaned = false) .order
  let disposed ← replay.disposed
  need (disposed = true) .order
  need (replay.cleanup ≠ none ∨ ¬replay.HasIntent "container-create") .order
  let digest ← field payload "cleanup_event_digest"
  need (replay.cleanup = none ∨ some digest = replay.cleanup.map .str) .reference

def fail (replay : Replay) (event : Event) : PoolM Replay := do
  lift (needReferenced replay event.payload)
  let replay ← keepKernel imports replay event.payload event.source
  lift (needPriorCleanup replay event.payload)
  lift (needFailed replay event.payload)
  pure { replay with phase := .failed }

def orphan (replay : Replay) (event : Event) : PoolM Replay := do
  lift (needReferenced replay event.payload)
  let replay ← keepKernel imports replay event.payload event.source
  lift (needPriorCleanup replay event.payload)
  pure { replay with
    orphaned := true
    recovery := true
    orphanEvent := some event.digest
    phase := .orphaned }

def reconcile (replay : Replay) (event : Event) : Except JournalError Replay := do
  need (replay.orphaned = true ∧ replay.recovery = true ∧ replay.cleanup ≠ none) .order
  let disposed ← replay.disposed
  need (disposed = true) .order
  let orphaned ← field event.payload "orphan_event_digest"
  let cleanup ← field event.payload "cleanup_event_digest"
  need (some orphaned = replay.orphanEvent.map .str ∧ some cleanup = replay.cleanup.map .str)
    .reference
  .ok { replay with phase := .reconciled }

/-- `_IDENTITIES`, without the digest of the request. -/
def identities : List String :=
  ["operation_id", "mode", "installation_id", "installation_generation", "installation_sha256",
    "controller_profile_sha256", "domain_profile_sha256", "inventory_sha256", "inventory_digest",
    "program_digest", "expected_image_config_id", "expected_oci_manifest_digest",
    "container_name"]

/-- The event repeats the identity of the attempt. -/
def needIdentity (requestDigest : Text) (event : Event) : Except JournalError Unit := do
  let schema := if m.artifactDomain = py "diagnostic" then "scanipy-diagnostic-runtime-event/1"
    else "scanipy-local-runtime-event/1"
  need (event.record.schema = py schema ∧ event.attemptId = m.attemptId) .reference
  visit (fun name => do
    let found ← field event.row name
    let expected ← field m.row name
    need (found = expected) .reference) identities
  let request ← field event.row "request_digest"
  need (request = .str requestDigest) .reference

/-- The container that the event names. -/
def bindContainer (replay : Replay) (event : Event) : Except JournalError Replay :=
  if replay.containerId ≠ .null then do
    need (event.containerId = replay.containerId) .reference
    .ok replay
  else if event.containerId ≠ .null then do
    need (replay.HasIntent "container-create") .reference
    .ok { replay with containerId := event.containerId }
  else
    .ok replay

/-- The checks that every event passes. -/
def admitEvent (requestDigest : Text) (replay : Replay) (event : Event)
    : Except JournalError Replay := do
  need (replay.phase ≠ .failed ∧ replay.phase ≠ .admitted ∧ replay.phase ≠ .reconciled) .order
  need (event.sequence = replay.byDigest.length + 1
    ∧ event.previousEventDigest = replay.previous.elim .null .str) .order
  needIdentity m requestDigest event
  let replay ← replay.unique .event event.eventId
  need (replay.elapsed ≤ event.elapsedMs) .order
  need ((event.hostBootId = replay.currentBoot ∧ replay.time ≤ event.recordedAt)
    ∨ event.kind = .recoveryEntered ∨ event.kind = .orphaned) .order
  let replay ← bindContainer { replay with
    currentBoot := event.hostBootId
    time := event.recordedAt
    elapsed := event.elapsedMs } event
  need (replay.observedImage = .null ∨ event.observedImage ≠ .null) .reference
  need (replay.observedOci = .null ∨ event.observedOci ≠ .null) .reference
  .ok { replay with observedImage := event.observedImage, observedOci := event.observedOci }

/-- What each kind of event does. -/
def handle (replay : Replay) (event : Event) : PoolM Replay :=
  match event.kind with
  | .reserved => lift (reserve m replay event)
  | .callIntent => intent imports m replay event
  | .callResult => result imports m replay event
  | .spoolRegistered => registrationEvent imports m replay event
  | .spoolCollected => collectionEvent imports m replay event
  | .recoveryEntered => lift (enterRecovery replay event)
  | .loaded => load imports m replay event
  | .created => lift (create m replay event)
  | .started => lift (start m replay event)
  | .observed => observe imports m replay event
  | .releaseIntent => intendRelease imports m replay event
  | .released => release imports m replay event
  | .domainExited => exitDomain imports m replay event
  | .cleanup => lift (cleanUp replay event)
  | .admitted => admitRun imports m replay event
  | .failed => fail imports replay event
  | .orphaned => orphan imports replay event
  | .reconciled => lift (reconcile replay event)

/-- `_Replay.apply`. -/
def apply (requestDigest : Text) (replay : Replay) (event : Event) : PoolM Replay := do
  let replay ← lift (admitEvent m requestDigest replay event)
  lift (need (event.kind = .reserved ∨ event.sequence > 1) .order)
  let replay ← handle imports m replay event
  pure { replay with
    byDigest := replay.byDigest.set event.digest event
    previous := some event.digest }

-- The whole journal

/-- The blobs of the metadata, under their roles and caps. -/
def seedMetadata (source : Text) : PoolM Unit := do
  let rows ← lift (listOf m.metadata)
  visit (fun entry : (OwnerRole × Nat) × Json => do
    let blob ← lift (field entry.2 "blob")
    let _ ← owner imports blob source entry.1.1 entry.1.2
    pure ())
    ([(.installation, 65536), (.controllerProfile, 131072), (.domainProfile, 65536),
      (.runtimeInventory, 8 * mib)].zip rows)

/-- `_Replay._seed`: the state before the first event, and the digest of the request. -/
def seed : PoolM (Text × Replay) := do
  let source := hex m.record.sha256
  seedMetadata imports m source
  let request ← owner imports m.request source .modeRequest 65536
  let digest ← hash imports request (some (py "scanipy-local-runtime-request/1"))
  let _ ← owner imports m.input source .modeInput
    (if m.mode = py "python-syntax" then 263244 else 2621440)
  let _ ← owner imports m.launch source .launchPacket 65536
  if m.parentBarrier ≠ .null then
    let _ ← owner imports m.parentBarrier source .parentBarrier 16384
  else
    pure ()
  let reference : Json := .obj [(py "authority_inventory", m.authorityInventory),
    (py "prerequisite", m.initialPrerequisite)]
  let replay ← prerequisite imports m (Replay.start m) reference source (some m.createdAt)
  pure (hex digest, replay)

/-- The state after the given events. -/
def replayEvents (events : List Event) : PoolM Replay := do
  let (requestDigest, replay) ← seed imports m
  events.foldlM (apply imports m requestDigest) replay

/-- `ReplayedCall`. -/
structure ReplayedCall where
  intentEventSequence : Int
  resultEventSequence : Option Int
  intent : Stored
  result : Option Stored

/-- `StructuralAccounting`. -/
structure StructuralAccounting where
  suppliedBlobBytes : Nat
  suppliedRecordBytes : Nat
  logicalMetadataBytes : Int
  callCount : Nat
  kernelSampleCount : Nat
  nonattachedObservedBytes : Int
  nonattachedKnownRetainedBytes : Int
  nonattachedMissingOutcomeCount : Nat
  nonattachedMissingOutputCount : Nat
  nonattachedUnknownRetentionCount : Nat
  kernelRawBytes : Int

/-- `JournalStructureReport`. -/
structure JournalStructureReport where
  manifest : ParsedJournalRecord
  events : List ParsedJournalRecord
  declaredPhase : Phase
  recoveryOnlyRecorded : Bool
  everOrphanedRecorded : Bool
  calls : List ReplayedCall
  blobs : List EvidenceBlob
  opaqueOwnerValues : List OpaqueOwnerValue
  accounting : StructuralAccounting

/-- The calls of a report. -/
def Replay.replayedCalls (replay : Replay) : List ReplayedCall :=
  replay.calls.map fun entry => {
    intentEventSequence := entry.2.sequence
    resultEventSequence := entry.2.outcome.map fun outcome => outcome.sequence
    intent := entry.2.intentView
    result := entry.2.outcome.map fun outcome => outcome.view
  }

/-- The report of a replay that has ended. -/
def reportOf (events : List ParsedJournalRecord) (replay : Replay) (pool : Pool)
    (opaqueOwnerValues : List OpaqueOwnerValue) : JournalStructureReport where
  manifest := m.record
  events := events
  declaredPhase := replay.phase
  recoveryOnlyRecorded := replay.recovery
  everOrphanedRecorded := replay.orphaned
  calls := replay.replayedCalls
  blobs := pool.copies
  opaqueOwnerValues := opaqueOwnerValues
  accounting := {
    suppliedBlobBytes := pool.supplied
    suppliedRecordBytes := m.record.data.length + (events.map fun event => event.data.length).sum
    logicalMetadataBytes := pool.metadata
    callCount := replay.calls.length
    kernelSampleCount := replay.kernelSamples
    nonattachedObservedBytes := replay.observedBytes
    nonattachedKnownRetainedBytes := replay.retainedBytes
    nonattachedMissingOutcomeCount := replay.missingOutcome
    nonattachedMissingOutputCount := replay.missingOutput
    nonattachedUnknownRetentionCount := replay.unknownRetention
    kernelRawBytes := replay.kernelBytes
  }

/-- What `replay_journal` decodes and opens before the first event is applied. -/
structure Opened where
  manifest : Manifest
  events : List Event
  pool : Pool

/-- The records of a journal, decoded, beside the pool of its blobs. -/
def openJournal (manifest : Bytes) (events : List Bytes) (blobs : List EvidenceBlob)
    : Except JournalError Opened := do
  need (manifest.length ≤ 16384) .limit
  need (events.length ≤ 128) .limit
  need (0 < events.length) .order
  visit (fun data : Bytes => need (data.length ≤ 65536) .limit) events
  let recordSize := manifest.length + (events.map List.length).sum
  let pool ← openPool imports blobs recordSize 256
  let parsed ← decodeJournalRecord imports .manifest manifest
  let parsedEvents ← Metered.collect (decodeJournalRecord imports .event) events
  need (∀ record ∈ parsed :: parsedEvents, hex record.sha256 ∉ pool.blobs.keys) .conflict
  let m ← manifestOf parsed
  let decoded ← Metered.collect eventOf parsedEvents
  .ok ⟨m, decoded, pool⟩

/-- The state and the pool after the first events of a journal, with all its blobs. -/
def replayPrefix (manifest : Bytes) (events : List Bytes) (blobs : List EvidenceBlob) (count : Nat)
    : Except JournalError (Replay × Pool) := do
  let opened ← openJournal imports manifest events blobs
  match replayEvents imports opened.manifest (opened.events.take count) opened.pool with
  | (.ok replay, pool) => .ok (replay, pool)
  | (.error raised, _) => .error raised

/-- `replay_journal`. -/
def replayJournal (manifest : Bytes) (events : List Bytes) (blobs : List EvidenceBlob)
    : Except JournalError JournalStructureReport := do
  let opened ← openJournal imports manifest events blobs
  let (replay, pool) ← replayPrefix imports manifest events blobs events.length
  let opaqueOwnerValues ← pool.finish
  .ok (reportOf opened.manifest (opened.events.map fun event => event.record) replay pool
    opaqueOwnerValues)

end Lifecycle

end Scanipy.Tools.Worker.Journal

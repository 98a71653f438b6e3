import Scanipy.Services.Scan.Api.Callback
import Scanipy.Services.Scan.Api.ScanStore

/-! The submission of a scan: its row, the fan-out of its jobs and the replay of its key. -/

namespace Scanipy.Services.Scan

open Python Library

/-- The request body; `ω` is the type of its policy overrides. -/
structure ScanRequest (ω : Type) where
  codebaseId : Uuid
  commitSha : Text
  detectorIds : List Text
  sVersion : Option Text
  policyOverrides : ω

structure ScanCreated where
  scanId : Uuid
  snapshotId : Uuid
  status : Text
  sVersion : Text
  envDigest : Text
  jobIds : List Uuid
  deriving DecidableEq

structure SnapshotResolution where
  snapshotId : Uuid
  envDigest : Text

structure ErrorEnvelope where
  errorCode : Text
  message : Text
  traceId : Text
  details : Option (Dict Text Text)
  deriving DecidableEq

/-- The collaborators whose operations can fail. -/
inductive Port where
  | scanStore | specRegistry | snapshotPort | keyIssuer | queue
  deriving DecidableEq

inductive SubmissionError where
  | authorization (envelope : ErrorEnvelope)
  | invalidInput (message : Text)
  | idempotencyConflict
  | invariantInv2 (message : Text)
  | detectorUnknown (detectorId : Text)
  | unicodeEncodeError
  | port (failed : Port)
  deriving DecidableEq

/-- How an effect on a collaborator ends; one that raises may have happened or not. -/
inductive Effect where
  | succeeds
  | raises (happened : Bool)

/-- The functions that a submission uses and does not change: SHA-256, `repr` of a string and of
the sorted override items, decimal digits, and the detector registry.
-/
structure SubmissionRuntime (ω : Type) where
  sha256 : Bytes → Bytes
  repr : Text → Text
  reprItems : ω → Text
  isDecimal : CodePoint → Bool
  knows : Text → Bool

/-- One call, with the answer of every collaborator that it may ask and the identifiers that it
draws; `none` is an operation that raises.
-/
structure SubmissionCall (ω : Type) where
  req : ScanRequest ω
  orgId : Text
  idempotencyKey : Uuid
  denied : Option ErrorEnvelope
  reads : Bool
  latest : Option (Option Text)
  isRegistered : Text → Option Bool
  snapshot : Option SnapshotResolution
  scanId : Uuid
  put : Effect
  jobId : Nat → Uuid
  issue : Nat → Option Text
  send : Nat → Effect

/-- `_job_to_queue_body`. -/
structure JobBody where
  jobId : Text
  scanId : Text
  snapshotId : Text
  codebaseId : Text
  commitSha : Text
  detectorId : Text
  sVersion : Text
  envDigest : Text
  hmacKeyId : Text
  callbackPath : Text
  deriving DecidableEq

structure JobMessage where
  body : JobBody
  dedupKey : Text
  deriving DecidableEq

/-- The scan store, and the messages sent to the queue. -/
structure Submissions where
  scans : OrgScopedScanStore
  sent : List JobMessage

namespace SubmissionRuntime

variable {ω : Type} (runtime : SubmissionRuntime ω)

/-- What `idempotency_fingerprint` hashes. -/
def fingerprintPayload (req : ScanRequest ω) : Text :=
  Text.join [newline]
    [req.codebaseId.text, req.commitSha, Text.join (py ",") (sorted req.detectorIds),
      req.sVersion.getD [], runtime.reprItems req.policyOverrides]

/-- `idempotency_fingerprint`; `none` is a `UnicodeEncodeError`. -/
def idempotencyFingerprint (req : ScanRequest ω) : Option Text :=
  (runtime.fingerprintPayload req).encode.map fun payload => hex (runtime.sha256 payload)

/-- `pattern$`: a line feed may stand behind the match. -/
def matchesLine (pattern : List (CodePoint → Bool)) (value : Text) : Bool :=
  fullmatch pattern value || fullmatch (pattern ++ [(· == newline)]) value

/-- `_validate_scan_request`. -/
def validateScanRequest (req : ScanRequest ω) : Except SubmissionError Unit :=
  if matchesLine (List.replicate 40 isHex) req.commitSha = false then
    .error (.invalidInput (py "commit_sha must be 40-hex; got " ++ runtime.repr req.commitSha))
  else if req.detectorIds = [] then
    .error (.invalidInput (py "detector_ids must contain at least one detector"))
  else
    .ok ()

/-- `\d+` and the text behind it. -/
def dropDecimals (text : Text) : Option Text :=
  match text with
  | [] => none
  | first :: _ => if runtime.isDecimal first then some (text.dropWhile runtime.isDecimal) else none

/-- The text behind a full stop. -/
def dropDot : Text → Option Text
  | [] => none
  | first :: rest => if first.val = 0x2E then some rest else none

/-- `(?:-[0-9A-Za-z.-]+)?$`. -/
def isSuffix (text : Text) : Bool :=
  let tail := if text.getLast? = some newline then text.dropLast else text
  match tail with
  | [] => true
  | first :: rest =>
      first.val = 0x2D && !rest.isEmpty && rest.all fun point => isAlphanumeric point
        || point.val = 0x2E || point.val = 0x2D

/-- `_SEMVER_RE.match(value)`. -/
def isSemver (value : Text) : Bool :=
  let core := do
    let rest ← runtime.dropDecimals value
    let rest ← dropDot rest
    let rest ← runtime.dropDecimals rest
    let rest ← dropDot rest
    runtime.dropDecimals rest
  match core with
  | none => false
  | some suffix => isSuffix suffix

/-- `_resolve_s_version`. -/
def resolveSVersion (call : SubmissionCall ω) : Except SubmissionError Text :=
  match call.req.sVersion with
  | none =>
      match call.latest with
      | none => .error (.port .specRegistry)
      | some none => .error (.invariantInv2 (py "no accepted S_version is available to resolve"))
      | some (some resolved) => .ok resolved
  | some version =>
      if runtime.isSemver version = false then
        .error (.invalidInput (py "S_version must be semver; got " ++ runtime.repr version))
      else
        match call.isRegistered version with
        | none => .error (.port .specRegistry)
        | some true => .ok version
        | some false =>
            .error (.invariantInv2 (py "S_version " ++ runtime.repr version
              ++ py " is not a registered, accepted spec "
              ++ py "(INV-3 fence: ORCH-01 accepts only version-pinned specs)"))

/-- `_validate_detectors`: the first unknown identifier is refused. -/
def validateDetectors (req : ScanRequest ω) : Except SubmissionError Unit :=
  match req.detectorIds.find? fun detectorId => !runtime.knows detectorId with
  | none => .ok ()
  | some detectorId => .error (.detectorUnknown detectorId)

/-- The checks between the lookup of the key and the row: the version and the snapshot. -/
def prepare (call : SubmissionCall ω) : Except SubmissionError (Text × SnapshotResolution) := do
  let sVersion ← runtime.resolveSVersion call
  runtime.validateDetectors call.req
  match call.snapshot with
  | none => .error (.port .snapshotPort)
  | some snapshot =>
      if isEnvDigest snapshot.envDigest = false then
        .error (.invariantInv2 (py "snapshot env_digest must be 'sha256:'+64hex (INV-2); got "
          ++ runtime.repr snapshot.envDigest))
      else
        .ok (sVersion, snapshot)

end SubmissionRuntime

/-- What a call returns for a row. -/
def ScanRecord.created (record : ScanRecord) (jobIds : List Uuid) : ScanCreated :=
  ⟨record.scanId, record.snapshotId, py "queued", record.sVersion, record.envDigest, jobIds⟩

namespace SubmissionCall

variable {ω : Type} (call : SubmissionCall ω)

/-- The row of a call. -/
def record (sVersion : Text) (snapshot : SnapshotResolution) (bodyHash : Text) : ScanRecord :=
  ⟨call.scanId, call.orgId, call.req.codebaseId, snapshot.snapshotId, call.req.commitSha, sVersion,
    snapshot.envDigest, call.req.detectorIds, py "queued", call.idempotencyKey, bodyHash⟩

/-- The message of one job of a row. -/
def message (record : ScanRecord) (index : Nat) (detectorId hmacKeyId : Text) : JobMessage :=
  let jobId := call.jobId index
  ⟨⟨jobId.text, record.scanId.text, record.snapshotId.text, record.codebaseId.text,
    record.commitSha, detectorId, record.sVersion, record.envDigest, hmacKeyId,
    callbackPath jobId⟩, jobId.text⟩

/-- The loop over the detectors: a key and a message for each, until one fails. -/
def fanOut (record : ScanRecord) : Nat → List Text → Submissions
    → Except SubmissionError (List Uuid) × Submissions
  | _, [], state => (.ok [], state)
  | index, detectorId :: rest, state =>
      match call.issue index with
      | none => (.error (.port .keyIssuer), state)
      | some hmacKeyId =>
          let after :=
            { state with sent := state.sent ++ [call.message record index detectorId hmacKeyId] }
          match call.send index with
          | .raises false => (.error (.port .queue), state)
          | .raises true => (.error (.port .queue), after)
          | .succeeds =>
              match fanOut record (index + 1) rest after with
              | (.error raised, last) => (.error raised, last)
              | (.ok jobIds, last) => (.ok (call.jobId index :: jobIds), last)

/-- The part of `post_scans` behind the checks of a key without a row. -/
def submit (record : ScanRecord) (state : Submissions)
    : Except SubmissionError ScanCreated × Submissions :=
  let after := { state with scans := state.scans.put record }
  match call.put with
  | .raises false => (.error (.port .scanStore), state)
  | .raises true => (.error (.port .scanStore), after)
  | .succeeds =>
      match call.fanOut record 0 record.detectorIds after with
      | (.error raised, last) => (.error raised, last)
      | (.ok jobIds, last) => (.ok (record.created jobIds), last)

end SubmissionCall

namespace SubmissionRuntime

variable {ω : Type} (runtime : SubmissionRuntime ω)

/-- `post_scans` behind its validation. -/
def lookUp (call : SubmissionCall ω) (bodyHash : Text) (state : Submissions)
    : Except SubmissionError ScanCreated × Submissions :=
  if call.reads = false then
    (.error (.port .scanStore), state)
  else
    let (existing, scans) := state.scans.findByIdempotency call.orgId call.idempotencyKey
    let state := { state with scans }
    match existing with
    | some record =>
        if record.idempotencyBodyHash = bodyHash then
          (.ok (record.created []), state)
        else
          (.error .idempotencyConflict, state)
    | none =>
        match runtime.prepare call with
        | .error raised => (.error raised, state)
        | .ok (sVersion, snapshot) =>
            call.submit (call.record sVersion snapshot bodyHash) state

def postScans (call : SubmissionCall ω) (state : Submissions)
    : Except SubmissionError ScanCreated × Submissions :=
  match call.denied with
  | some envelope => (.error (.authorization envelope), state)
  | none =>
      match runtime.validateScanRequest call.req with
      | .error raised => (.error raised, state)
      | .ok () =>
          match runtime.idempotencyFingerprint call.req with
          | none => (.error .unicodeEncodeError, state)
          | some bodyHash => runtime.lookUp call bodyHash state

/-- Calls one after another: their outcomes, and the state they leave. -/
def submissions : List (SubmissionCall ω) → Submissions
    → List (Except SubmissionError ScanCreated) × Submissions
  | [], state => ([], state)
  | call :: rest, state =>
      let (outcome, next) := runtime.postScans call state
      let (outcomes, last) := submissions rest next
      (outcome :: outcomes, last)

end SubmissionRuntime

-- The jobs of a row

/-- The message carries the scan, the version and the environment of the row. -/
def JobMessage.Carries (message : JobMessage) (record : ScanRecord) : Prop :=
  message.body.scanId = record.scanId.text ∧ message.body.sVersion = record.sVersion
  ∧ message.body.envDigest = record.envDigest

namespace Submissions

def create : Submissions :=
  ⟨.create, []⟩

/-- The messages that carry the identifier of a scan. -/
def jobsOf (state : Submissions) (scanId : Uuid) : List JobMessage :=
  state.sent.filter fun message => message.body.scanId = scanId.text

/-- The jobs of a row are for the given detectors, one for each. -/
def JobsFor (state : Submissions) (record : ScanRecord) (detectorIds : List Text) : Prop :=
  (state.jobsOf record.scanId).map (fun message => message.body.detectorId) = detectorIds
  ∧ ∀ message ∈ state.jobsOf record.scanId, message.Carries record

/-- Every detector of the row has its job. -/
def Fanned (state : Submissions) (record : ScanRecord) : Prop :=
  state.JobsFor record record.detectorIds

/-- The first detectors of the row have their jobs. -/
def Begun (state : Submissions) (record : ScanRecord) : Prop :=
  ∃ detectorIds, detectorIds <+: record.detectorIds ∧ state.JobsFor record detectorIds

/-- The row is stored under its own identifier. -/
def Stores (state : Submissions) (record : ScanRecord) : Prop :=
  state.scans.store.rows.get? record.scanId.text = some ⟨record.orgId, record⟩

/-- The store is sound, every row has begun its jobs, and every job has a row. -/
structure Sound (state : Submissions) : Prop where
  scans : state.scans.Sound
  begun : ∀ record, state.Stores record → state.Begun record
  owned : ∀ message ∈ state.sent, state.scans.store.rows.get? message.body.scanId ≠ none

theorem Sound.create : Sound create :=
  ⟨.create, by rintro _ ⟨⟩, by simp [Submissions.create]⟩

variable {state : Submissions} {scanId : Uuid}

theorem Sound.jobsOf_eq_nil (sound : state.Sound)
    (fresh : state.scans.store.rows.get? scanId.text = none)
    : state.jobsOf scanId = [] := by
  rw [jobsOf, List.filter_eq_nil_iff]
  intro message sent same
  refine sound.owned message sent ?_
  rw [of_decide_eq_true same, fresh]

end Submissions

namespace SubmissionCall

variable {ω : Type} {call : SubmissionCall ω} {record : ScanRecord}

/-- The loop sends jobs for the first detectors in their order, for all of them where it returns,
and touches nothing else. By induction on the detectors.
-/
theorem fanOut_sends (call : SubmissionCall ω) (record : ScanRecord) (detectorIds : List Text)
    (index : Nat) (state : Submissions)
    : ∃ messages : List JobMessage,
        (call.fanOut record index detectorIds state).2
            = { state with sent := state.sent ++ messages }
          ∧ (∀ message ∈ messages, message.Carries record)
          ∧ messages.map (fun message => message.body.detectorId) <+: detectorIds
          ∧ ∀ jobIds, (call.fanOut record index detectorIds state).1 = .ok jobIds
              → messages.map (fun message => message.body.detectorId) = detectorIds
                ∧ jobIds.length = detectorIds.length := by
  induction detectorIds generalizing index state with
  | nil =>
      refine ⟨[], by simp [fanOut], by simp, List.nil_prefix, ?_⟩
      rintro _ ⟨⟩
      exact ⟨rfl, rfl⟩
  | cons detectorId rest ih =>
      unfold fanOut
      cases issued : call.issue index with
      | none => exact ⟨[], by simp, by simp, List.nil_prefix, by simp⟩
      | some hmacKeyId =>
          dsimp only
          cases call.send index with
          | raises happened =>
              cases happened with
              | false => exact ⟨[], by simp, by simp, List.nil_prefix, by simp⟩
              | true =>
                  refine ⟨[call.message record index detectorId hmacKeyId], rfl, ?_, ?_, by simp⟩
                  · rintro _ member
                    obtain rfl := List.mem_singleton.mp member
                    exact ⟨rfl, rfl, rfl⟩
                  · exact List.cons_prefix_cons.mpr ⟨rfl, List.nil_prefix⟩
          | succeeds =>
              dsimp only
              obtain ⟨messages, reached, carried, first, every⟩ := ih (index + 1)
                { state with
                  sent := state.sent ++ [call.message record index detectorId hmacKeyId] }
              refine ⟨call.message record index detectorId hmacKeyId :: messages, ?_, ?_, ?_, ?_⟩
              · split
                next raised last outcome =>
                  rw [outcome] at reached
                  dsimp only at reached ⊢
                  rw [reached]
                  simp
                next jobIds last outcome =>
                  rw [outcome] at reached
                  dsimp only at reached ⊢
                  rw [reached]
                  simp
              · intro message member
                rcases List.mem_cons.mp member with rfl | later
                · exact ⟨rfl, rfl, rfl⟩
                · exact carried message later
              · exact List.cons_prefix_cons.mpr ⟨rfl, first⟩
              · intro jobIds returned
                split at returned
                next => cases returned
                next others last outcome =>
                  cases returned
                  obtain ⟨whole, length⟩ := every others (by rw [outcome])
                  exact ⟨congrArg (detectorId :: ·) whole, by simp [length]⟩

end SubmissionCall

namespace SubmissionRuntime

variable {ω : Type} {runtime : SubmissionRuntime ω} {call : SubmissionCall ω} {state : Submissions}

/-- How a call ends: refused, with the row of its key, or by submitting a row for a key without
one.
-/
inductive Posted (runtime : SubmissionRuntime ω) (call : SubmissionCall ω) (state : Submissions)
    : Except SubmissionError ScanCreated × Submissions → Prop
  | refused (raised : SubmissionError) : Posted runtime call state (.error raised, state)
  | replayed (record : ScanRecord) (stored : state.Stores record)
      (organisation : record.orgId = call.orgId) (key : record.idempotencyKey = call.idempotencyKey)
      (valid : runtime.validateScanRequest call.req = .ok ())
      (same : runtime.idempotencyFingerprint call.req = some record.idempotencyBodyHash)
      : Posted runtime call state (.ok (record.created []), state)
  | submitted (sVersion : Text) (snapshot : SnapshotResolution) (bodyHash : Text)
      (unindexed : state.scans.idempotency.get? (call.orgId, call.idempotencyKey) = none)
      (valid : runtime.validateScanRequest call.req = .ok ())
      (hashed : runtime.idempotencyFingerprint call.req = some bodyHash)
      : Posted runtime call state (call.submit (call.record sVersion snapshot bodyHash) state)

theorem findByIdempotency_eq_none (sound : state.scans.Sound)
    (missing : (state.scans.findByIdempotency call.orgId call.idempotencyKey).1 = none)
    : state.scans.idempotency.get? (call.orgId, call.idempotencyKey) = none := by
  cases entry : state.scans.idempotency.get? (call.orgId, call.idempotencyKey) with
  | none => rfl
  | some scanId =>
      obtain ⟨record, stored, rfl, organisation, key⟩ := sound.indexed _ _ _ entry
      have found := ((sound.find call.orgId call.idempotencyKey).2 record).mpr
        ⟨stored, organisation, key⟩
      rw [missing] at found
      cases found

theorem postScans_posted (sound : state.Sound)
    : Posted runtime call state (runtime.postScans call state) := by
  unfold postScans
  cases call.denied with
  | some envelope => exact .refused _
  | none =>
      dsimp only
      cases valid : runtime.validateScanRequest call.req with
      | error raised => exact .refused _
      | ok done =>
          dsimp only
          cases hashed : runtime.idempotencyFingerprint call.req with
          | none => exact .refused _
          | some bodyHash =>
              dsimp only
              unfold lookUp
              split
              next => exact .refused _
              next =>
                obtain ⟨kept, found⟩ := sound.scans.find call.orgId call.idempotencyKey
                have same : { state with
                    scans := (state.scans.findByIdempotency call.orgId call.idempotencyKey).2 }
                    = state := by rw [kept]
                dsimp only
                rw [same]
                cases existing
                  : (state.scans.findByIdempotency call.orgId call.idempotencyKey).1 with
                | some record =>
                    obtain ⟨stored, organisation, key⟩ := (found record).mp existing
                    dsimp only
                    split
                    next equal =>
                      subst equal
                      rw [← organisation] at stored
                      exact .replayed record stored organisation key valid hashed
                    next => exact .refused _
                | none =>
                    dsimp only
                    cases runtime.prepare call with
                    | error raised => exact .refused _
                    | ok parts =>
                        exact .submitted parts.1 parts.2 bodyHash
                          (findByIdempotency_eq_none sound.scans existing) valid hashed

end SubmissionRuntime

-- One call

namespace Submissions

variable {state next last : Submissions} {record : ScanRecord}

/-- The rows of a state stay, with their jobs. -/
structure Extends (state next : Submissions) : Prop where
  stores : ∀ record, state.Stores record → next.Stores record
  jobs : ∀ record, state.Stores record → next.jobsOf record.scanId = state.jobsOf record.scanId

theorem Extends.refl (state : Submissions) : state.Extends state :=
  ⟨fun _ => id, fun _ _ => rfl⟩

theorem Extends.trans (first : state.Extends next) (second : next.Extends last)
    : state.Extends last := by
  refine ⟨fun record stored => second.stores record (first.stores record stored), ?_⟩
  intro record stored
  rw [second.jobs record (first.stores record stored), first.jobs record stored]

theorem JobsFor.extend {detectorIds : List Text} (jobs : state.JobsFor record detectorIds)
    (stored : state.Stores record) (extended : state.Extends next)
    : next.JobsFor record detectorIds := by
  unfold JobsFor at *
  rwa [extended.jobs record stored]

/-- The row after a new one is put and messages that carry it are sent. -/
def withRow (state : Submissions) (record : ScanRecord) (messages : List JobMessage) : Submissions :=
  ⟨state.scans.put record, state.sent ++ messages⟩

section NewRow

variable {messages : List JobMessage} (fresh : state.scans.store.rows.get? record.scanId.text = none)
  (carried : ∀ message ∈ messages, message.Carries record)

theorem rows_withRow (rowId : Text)
    : (state.withRow record messages).scans.store.rows.get? rowId
      = if record.scanId.text = rowId then some ⟨record.orgId, record⟩
        else state.scans.store.rows.get? rowId := by
  simp [withRow, OrgScopedScanStore.put, OrgScopedStore.insert, Dict.get?_set]

theorem stores_withRow : (state.withRow record messages).Stores record := by
  simp [Stores, rows_withRow]

include fresh in
/-- A row beside the new one was there before. -/
theorem stores_withRow_iff {other : ScanRecord} (different : other ≠ record)
    : (state.withRow record messages).Stores other ↔ state.Stores other := by
  unfold Stores
  rw [rows_withRow]
  by_cases same : record.scanId.text = other.scanId.text
  · rw [if_pos same, ← same, fresh]
    simp only [Option.some.injEq, OrgRow.mk.injEq, reduceCtorEq, iff_false, not_and]
    intro _ equal
    exact different equal.symm
  · rw [if_neg same]

include carried in
theorem jobsOf_withRow (different : scanId ≠ record.scanId)
    : (state.withRow record messages).jobsOf scanId = state.jobsOf scanId := by
  have none : messages.filter (fun message => decide (message.body.scanId = scanId.text)) = [] := by
    rw [List.filter_eq_nil_iff]
    intro message member same
    refine different (Uuid.text_injective ?_)
    rw [← of_decide_eq_true same, (carried message member).1]
  rw [jobsOf, withRow, List.filter_append, none, List.append_nil]
  rfl

include fresh carried in
theorem Sound.jobsOf_withRow (sound : state.Sound)
    : (state.withRow record messages).jobsOf record.scanId = messages := by
  rw [jobsOf, withRow, List.filter_append]
  have before : state.sent.filter (fun message => decide (message.body.scanId = record.scanId.text))
      = [] :=
    sound.jobsOf_eq_nil fresh
  rw [before, List.nil_append, List.filter_eq_self]
  intro message member
  exact decide_eq_true (carried message member).1

include fresh carried in
theorem extends_withRow : state.Extends (state.withRow record messages) := by
  have different {other : ScanRecord} (stored : state.Stores other) : other ≠ record := by
    rintro rfl
    rw [Stores, fresh] at stored
    cases stored
  have apart {other : ScanRecord} (stored : state.Stores other) : other.scanId ≠ record.scanId := by
    intro same
    rw [Stores, same, fresh] at stored
    cases stored
  exact ⟨fun other stored => (stores_withRow_iff fresh (different stored)).mpr stored,
    fun other stored => jobsOf_withRow carried (apart stored)⟩

include fresh carried in
/-- A new row for a pair without one, and jobs for its first detectors, keep the state sound. -/
theorem Sound.withRow (sound : state.Sound)
    (unindexed : state.scans.idempotency.get? (record.orgId, record.idempotencyKey) = none)
    (begun : messages.map (fun message => message.body.detectorId) <+: record.detectorIds)
    : (state.withRow record messages).Sound := by
  refine ⟨sound.scans.put fresh unindexed, ?_, ?_⟩
  · intro other stored
    by_cases same : other = record
    · subst same
      refine ⟨_, begun, ?_⟩
      unfold JobsFor
      rw [sound.jobsOf_withRow fresh carried]
      exact ⟨rfl, carried⟩
    · have before := (stores_withRow_iff fresh same).mp stored
      obtain ⟨detectorIds, first, jobs⟩ := sound.begun other before
      exact ⟨detectorIds, first, jobs.extend before (extends_withRow fresh carried)⟩
  · intro message member
    rw [rows_withRow]
    rcases List.mem_append.mp member with earlier | new
    · split
      · simp
      · exact sound.owned message earlier
    · rw [if_pos (carried message new).1.symm]
      simp

end NewRow

end Submissions

namespace SubmissionCall

variable {ω : Type} {call : SubmissionCall ω} {record : ScanRecord}

/-- A submission changes nothing, or stores its row and sends jobs for the first detectors, for all
of them where it returns.
-/
theorem submit_leads (call : SubmissionCall ω) (record : ScanRecord) (state : Submissions)
    : (∃ raised, call.submit record state = (.error raised, state))
      ∨ ∃ messages : List JobMessage, (call.submit record state).2 = state.withRow record messages
          ∧ (∀ message ∈ messages, message.Carries record)
          ∧ messages.map (fun message => message.body.detectorId) <+: record.detectorIds
          ∧ ∀ created, (call.submit record state).1 = .ok created
              → messages.map (fun message => message.body.detectorId) = record.detectorIds
                ∧ created = record.created created.jobIds := by
  unfold submit
  cases call.put with
  | raises happened =>
      cases happened with
      | false => exact .inl ⟨_, rfl⟩
      | true => exact .inr ⟨[], by simp [Submissions.withRow], by simp, List.nil_prefix, by simp⟩
  | succeeds =>
      dsimp only
      obtain ⟨messages, reached, carried, first, every⟩ := call.fanOut_sends record
        record.detectorIds 0 { state with scans := state.scans.put record }
      refine .inr ⟨messages, ?_, carried, first, ?_⟩
      · split
        next raised last outcome =>
          rw [outcome] at reached
          exact reached
        next jobIds last outcome =>
          rw [outcome] at reached
          exact reached
      · intro created returned
        split at returned
        next => cases returned
        next jobIds last outcome =>
          cases returned
          exact ⟨(every jobIds (by rw [outcome])).1, rfl⟩

end SubmissionCall

namespace SubmissionRuntime

variable {ω : Type} {runtime : SubmissionRuntime ω} {call : SubmissionCall ω}
  {state next : Submissions}

/-- The answer of a call is the row of its key, with all of its jobs if it sent some. -/
structure Holds (runtime : SubmissionRuntime ω) (state : Submissions) (call : SubmissionCall ω)
    (created : ScanCreated) (record : ScanRecord) : Prop where
  stored : state.Stores record
  organisation : record.orgId = call.orgId
  key : record.idempotencyKey = call.idempotencyKey
  valid : runtime.validateScanRequest call.req = .ok ()
  hashed : runtime.idempotencyFingerprint call.req = some record.idempotencyBodyHash
  answer : created = record.created created.jobIds
  fanned : created.jobIds ≠ [] → record.detectorIds = call.req.detectorIds ∧ state.Fanned record

theorem Holds.extend {created : ScanCreated} {record : ScanRecord}
    (holds : runtime.Holds state call created record) (extended : state.Extends next)
    : runtime.Holds next call created record :=
  { holds with
    stored := extended.stores record holds.stored
    fanned := fun sent =>
      ⟨(holds.fanned sent).1, (holds.fanned sent).2.extend holds.stored extended⟩ }

/-- One call under a new scan identifier keeps the state sound and every row with its jobs, answers
with the row of its key, and stores no other identifier than its own.
-/
theorem Posted.leads {result : Except SubmissionError ScanCreated × Submissions}
    (posted : Posted runtime call state result) (sound : state.Sound)
    (fresh : state.scans.store.rows.get? call.scanId.text = none)
    : result.2.Sound ∧ state.Extends result.2
      ∧ (∀ created, result.1 = .ok created → ∃ record, runtime.Holds result.2 call created record)
      ∧ ∀ scanId, scanId ≠ call.scanId → state.scans.store.rows.get? scanId.text = none
          → result.2.scans.store.rows.get? scanId.text = none := by
  cases posted with
  | refused raised => exact ⟨sound, .refl _, by simp, fun _ _ => id⟩
  | replayed record stored organisation key valid same =>
      refine ⟨sound, .refl _, ?_, fun _ _ => id⟩
      rintro _ ⟨⟩
      exact ⟨record, stored, organisation, key, valid, same, rfl, fun sent => absurd rfl sent⟩
  | submitted sVersion snapshot bodyHash unindexed valid hashed =>
      rcases call.submit_leads (call.record sVersion snapshot bodyHash) state
        with ⟨raised, same⟩ | ⟨messages, reached, carried, first, every⟩
      · rw [same]
        exact ⟨sound, .refl _, by simp, fun _ _ => id⟩
      · have fresh : state.scans.store.rows.get?
            (call.record sVersion snapshot bodyHash).scanId.text = none := fresh
        rw [reached]
        refine ⟨sound.withRow fresh carried unindexed first,
          Submissions.extends_withRow fresh carried, ?_, ?_⟩
        · intro created returned
          obtain ⟨whole, answer⟩ := every created returned
          refine ⟨call.record sVersion snapshot bodyHash, Submissions.stores_withRow, rfl, rfl,
            valid, hashed, answer, fun _ => ⟨rfl, ?_⟩⟩
          unfold Submissions.Fanned Submissions.JobsFor
          rw [sound.jobsOf_withRow fresh carried]
          exact ⟨whole, carried⟩
        · intro scanId different missing
          rw [Submissions.rows_withRow, if_neg, missing]
          intro same
          have equal : scanId = (call.record sVersion snapshot bodyHash).scanId :=
            Uuid.text_injective same.symm
          exact different equal

end SubmissionRuntime

-- Bodies and their fingerprints

def comma : CodePoint := Fin.ofNat 0x110000 0x2C

theorem join_eq_intercalate (separator : Text) (parts : List Text)
    : Text.join separator parts = separator.intercalate parts := by
  induction parts with
  | nil => rfl
  | cons part rest ih =>
      cases rest with
      | nil => simp [Text.join]
      | cons next others => simp [Text.join, ih, List.intercalate_cons_cons]

theorem mem_join {separator : Text} {parts : List Text} {point : CodePoint}
    (member : point ∈ Text.join separator parts)
    : point ∈ separator ∨ ∃ part ∈ parts, point ∈ part := by
  induction parts with
  | nil => cases member
  | cons part rest ih =>
      cases rest with
      | nil => exact .inr ⟨part, List.mem_cons_self, member⟩
      | cons next others =>
          simp only [Text.join, List.mem_append] at member
          rcases member with (own | between) | later
          · exact .inr ⟨part, List.mem_cons_self, own⟩
          · exact .inl between
          · rcases ih later with between | ⟨other, listed, own⟩
            · exact .inl between
            · exact .inr ⟨other, List.mem_cons_of_mem _ listed, own⟩

/-- No part of the body contains what the fingerprint separates the parts with, and the version is
not the empty text.
-/
structure ScanRequest.Plain {ω : Type} (req : ScanRequest ω) : Prop where
  commit : newline ∉ req.commitSha
  detectors : ∀ detectorId ∈ req.detectorIds, comma ∉ detectorId ∧ newline ∉ detectorId
  version : ∀ version, req.sVersion = some version → version ≠ [] ∧ newline ∉ version

namespace SubmissionRuntime

variable {ω : Type} {runtime : SubmissionRuntime ω} {call : SubmissionCall ω}
  {state next : Submissions}

/-- The two bodies agree in every field, the detectors up to their order. -/
def SameBody (runtime : SubmissionRuntime ω) (left right : ScanRequest ω) : Prop :=
  left.codebaseId = right.codebaseId ∧ left.commitSha = right.commitSha
  ∧ sorted left.detectorIds = sorted right.detectorIds ∧ left.sVersion = right.sVersion
  ∧ runtime.reprItems left.policyOverrides = runtime.reprItems right.policyOverrides

theorem fingerprintPayload_eq (req : ScanRequest ω)
    : runtime.fingerprintPayload req
      = req.codebaseId.text ++ newline :: (req.commitSha ++ newline
          :: (Text.join (py ",") (sorted req.detectorIds) ++ newline
            :: (req.sVersion.getD [] ++ newline :: runtime.reprItems req.policyOverrides))) := by
  simp [fingerprintPayload, Text.join]

variable {left right : ScanRequest ω}

/-- Plain bodies are told apart by what the fingerprint hashes. -/
theorem fingerprintPayload_inj (leftPlain : left.Plain) (rightPlain : right.Plain)
    (leftSome : left.detectorIds ≠ []) (rightSome : right.detectorIds ≠ [])
    (same : runtime.fingerprintPayload left = runtime.fingerprintPayload right)
    : runtime.SameBody left right := by
  have separator : py "," = [comma] := by decide
  have idFree (id : Uuid) : newline ∉ id.text :=
    CallbackRuntime.newline_not_mem (CallbackRuntime.uncontrolled_uuid id)
  have listFree {req : ScanRequest ω} (plain : req.Plain)
      : newline ∉ Text.join (py ",") (sorted req.detectorIds) := by
    intro member
    rcases mem_join member with between | ⟨detectorId, listed, own⟩
    · rw [separator] at between
      exact absurd between (by decide)
    · exact (plain.detectors detectorId (mem_sorted.mp listed)).2 own
  have versionFree {req : ScanRequest ω} (plain : req.Plain) : newline ∉ req.sVersion.getD [] := by
    cases chosen : req.sVersion with
    | none => simp
    | some version => exact (plain.version version chosen).2
  rw [fingerprintPayload_eq, fingerprintPayload_eq] at same
  have ids := Segments.eq_of_append_cons_eq (idFree _) (idFree _) same
  rw [ids] at same
  have same := List.tail_eq_of_cons_eq (List.append_cancel_left same)
  have commits := Segments.eq_of_append_cons_eq leftPlain.commit rightPlain.commit same
  rw [commits] at same
  have same := List.tail_eq_of_cons_eq (List.append_cancel_left same)
  have lists := Segments.eq_of_append_cons_eq (listFree leftPlain) (listFree rightPlain) same
  rw [lists] at same
  have same := List.tail_eq_of_cons_eq (List.append_cancel_left same)
  have versions := Segments.eq_of_append_cons_eq (versionFree leftPlain) (versionFree rightPlain) same
  rw [versions] at same
  have overrides := List.tail_eq_of_cons_eq (List.append_cancel_left same)
  refine ⟨Uuid.text_injective ids, commits, ?_, ?_, overrides⟩
  · have free {req : ScanRequest ω} (plain : req.Plain)
        : Segments.Free comma (sorted req.detectorIds) := fun detectorId listed =>
      (plain.detectors detectorId (mem_sorted.mp listed)).1
    have listed {req : ScanRequest ω} (some : req.detectorIds ≠ []) : sorted req.detectorIds ≠ [] := by
      intro empty
      have length := length_sorted req.detectorIds
      rw [empty] at length
      exact some (List.length_eq_zero_iff.mp length.symm)
    rw [separator, join_eq_intercalate, join_eq_intercalate] at lists
    exact Segments.eq_of_intercalate_eq (free leftPlain) (free rightPlain) (listed leftSome)
      (listed rightSome) lists
  · have given {req : ScanRequest ω} (plain : req.Plain) (version : Text)
        (chosen : req.sVersion = some version) : version ≠ [] :=
      (plain.version version chosen).1
    cases leftChosen : left.sVersion with
    | none =>
        cases rightChosen : right.sVersion with
        | none => rfl
        | some version =>
            rw [leftChosen, rightChosen] at versions
            exact absurd versions.symm (given rightPlain version rightChosen)
    | some version =>
        cases rightChosen : right.sVersion with
        | none =>
            rw [leftChosen, rightChosen] at versions
            exact absurd versions (given leftPlain version leftChosen)
        | some other =>
            rw [leftChosen, rightChosen] at versions
            exact congrArg some versions

-- Runs of calls

theorem submissions_cons (call : SubmissionCall ω) (rest : List (SubmissionCall ω))
    (state : Submissions)
    : runtime.submissions (call :: rest) state
      = ((runtime.postScans call state).1
            :: (runtime.submissions rest (runtime.postScans call state).2).1,
          (runtime.submissions rest (runtime.postScans call state).2).2) :=
  rfl

/-- Every answer of a run is the row of its key at the end of the run, with all of its jobs if the
call sent some. By induction on the calls.
-/
theorem submissions_hold {calls : List (SubmissionCall ω)}
    (distinct : (calls.map SubmissionCall.scanId).Nodup) (sound : state.Sound)
    (fresh : ∀ call ∈ calls, state.scans.store.rows.get? call.scanId.text = none)
    : (runtime.submissions calls state).2.Sound
      ∧ state.Extends (runtime.submissions calls state).2
      ∧ ∀ call created, (call, .ok created) ∈ calls.zip (runtime.submissions calls state).1
          → ∃ record, runtime.Holds (runtime.submissions calls state).2 call created record := by
  induction calls generalizing state with
  | nil => exact ⟨sound, .refl _, by simp⟩
  | cons head rest ih =>
      rw [List.map_cons, List.nodup_cons] at distinct
      rw [List.forall_mem_cons] at fresh
      rw [submissions_cons]
      have posted : Posted runtime head state (runtime.postScans head state) :=
        postScans_posted sound
      obtain ⟨kept, extended, answers, apart⟩ := posted.leads sound fresh.1
      have later : ∀ call ∈ rest,
          (runtime.postScans head state).2.scans.store.rows.get? call.scanId.text = none := by
        intro call listed
        refine apart call.scanId ?_ (fresh.2 call listed)
        intro same
        exact distinct.1 (List.mem_map.mpr ⟨call, listed, same⟩)
      obtain ⟨finished, extendedMore, others⟩ := ih distinct.2 kept later
      refine ⟨finished, extended.trans extendedMore, ?_⟩
      intro call created member
      rcases List.mem_cons.mp member with first | behind
      · obtain ⟨rfl, returned⟩ := Prod.mk.inj first
        obtain ⟨record, holds⟩ := answers created returned.symm
        exact ⟨record, holds.extend extendedMore⟩
      · exact others call created behind

/-- A call whose key has a row replays it or is refused, and changes nothing. -/
theorem postScans_found (sound : state.Sound) {record : ScanRecord} {bodyHash : Text}
    (stored : state.Stores record) (organisation : record.orgId = call.orgId)
    (key : record.idempotencyKey = call.idempotencyKey) (allowed : call.denied = none)
    (reads : call.reads = true) (valid : runtime.validateScanRequest call.req = .ok ())
    (hashed : runtime.idempotencyFingerprint call.req = some bodyHash)
    : runtime.postScans call state
      = (if record.idempotencyBodyHash = bodyHash then .ok (record.created [])
          else .error .idempotencyConflict, state) := by
  obtain ⟨kept, found⟩ := sound.scans.find call.orgId call.idempotencyKey
  have existing := (found record).mpr ⟨organisation ▸ stored, organisation, key⟩
  simp only [postScans, allowed, valid, hashed, lookUp, reads, existing, kept]
  by_cases same : record.idempotencyBodyHash = bodyHash <;> simp [same]

/-- The fingerprint of a valid plain body differs from that of another one, unless the hash does
not tell what they hash.
-/
theorem fingerprint_ne {leftHash rightHash : Text}
    (leftValid : runtime.validateScanRequest left = .ok ())
    (rightValid : runtime.validateScanRequest right = .ok ()) (leftPlain : left.Plain)
    (rightPlain : right.Plain) (different : ¬runtime.SameBody left right)
    (distinct : ∀ first second, (runtime.fingerprintPayload left).encode = some first
      → (runtime.fingerprintPayload right).encode = some second
      → runtime.sha256 first = runtime.sha256 second → first = second)
    (leftHashed : runtime.idempotencyFingerprint left = some leftHash)
    (rightHashed : runtime.idempotencyFingerprint right = some rightHash)
    : leftHash ≠ rightHash := by
  have listed {req : ScanRequest ω} (valid : runtime.validateScanRequest req = .ok ())
      : req.detectorIds ≠ [] := by
    intro empty
    unfold validateScanRequest at valid
    rw [if_pos empty] at valid
    split at valid <;> cases valid
  rintro rfl
  obtain ⟨first, firstEncoded, rfl⟩ := Option.map_eq_some_iff.mp leftHashed
  obtain ⟨second, secondEncoded, same⟩ := Option.map_eq_some_iff.mp rightHashed
  obtain rfl := distinct first second firstEncoded secondEncoded (hex_injective same.symm)
  refine different (fingerprintPayload_inj leftPlain rightPlain (listed leftValid)
    (listed rightValid) (Text.utf8_injective ?_))
  have bytes {text : Text} {data : Bytes} (encoded : text.encode = some data)
      : text.utf8 = data := by
    unfold Text.encode at encoded
    split at encoded
    · exact Option.some.inj encoded
    · cases encoded
  exact (bytes firstEncoded).trans (bytes secondEncoded).symm

/-- When a call of a run returns, its key has one row at the end of the run, with one job for each
of its first detectors, and for all of them if the call that stored the row returned. Replaying the
body changes nothing and returns the same scan; a valid plain body that differs is refused.
-/
theorem scans_fan_out (runtime : SubmissionRuntime ω) (calls : List (SubmissionCall ω))
    (distinct : (calls.map SubmissionCall.scanId).Nodup) (call : SubmissionCall ω)
    (created : ScanCreated)
    (returned : (call, .ok created) ∈ calls.zip (runtime.submissions calls .create).1)
    : ∃ record, (runtime.submissions calls .create).2.scans.rowsOf call.orgId call.idempotencyKey
          = [record]
        ∧ created = record.created created.jobIds
        ∧ (runtime.submissions calls .create).2.Begun record
        ∧ (created.jobIds ≠ [] → record.detectorIds = call.req.detectorIds)
        ∧ (∀ first jobIds, (first, .ok (record.created jobIds))
              ∈ calls.zip (runtime.submissions calls .create).1 → jobIds ≠ []
            → (runtime.submissions calls .create).2.Fanned record)
        ∧ ∀ replay : SubmissionCall ω, replay.orgId = call.orgId
            → replay.idempotencyKey = call.idempotencyKey → replay.denied = none
            → replay.reads = true
            → (replay.req = call.req
                → runtime.postScans replay (runtime.submissions calls .create).2
                  = (.ok (record.created []), (runtime.submissions calls .create).2))
              ∧ (runtime.validateScanRequest replay.req = .ok ()
                → (runtime.fingerprintPayload replay.req).Encodable
                → replay.req.Plain → call.req.Plain → ¬runtime.SameBody replay.req call.req
                → (∀ first second, (runtime.fingerprintPayload replay.req).encode = some first
                    → (runtime.fingerprintPayload call.req).encode = some second
                    → runtime.sha256 first = runtime.sha256 second → first = second)
                → runtime.postScans replay (runtime.submissions calls .create).2
                  = (.error .idempotencyConflict, (runtime.submissions calls .create).2)) := by
  obtain ⟨sound, _, answers⟩ : (runtime.submissions calls .create).2.Sound ∧ _ ∧ _ :=
    submissions_hold distinct .create fun _ _ => rfl
  obtain ⟨record, holds⟩ := answers call created returned
  refine ⟨record, ?_, holds.answer, sound.begun record holds.stored,
    fun sent => (holds.fanned sent).1, ?_, ?_⟩
  · rw [← holds.organisation, ← holds.key]
    exact sound.scans.rowsOf_eq holds.stored
  · intro first jobIds member sent
    obtain ⟨other, stored⟩ := answers first _ member
    have same : record.scanId = other.scanId := congrArg ScanCreated.scanId stored.answer
    have rows := stored.stored
    rw [Submissions.Stores, ← same, holds.stored] at rows
    obtain rfl : record = other := congrArg OrgRow.payload (Option.some.inj rows)
    exact (stored.fanned sent).2
  · intro replay organisation key allowed reads
    have own : record.orgId = replay.orgId := holds.organisation.trans organisation.symm
    have ownKey : record.idempotencyKey = replay.idempotencyKey := holds.key.trans key.symm
    constructor
    · intro body
      have valid := holds.valid
      have hashed := holds.hashed
      rw [← body] at valid hashed
      rw [postScans_found sound holds.stored own ownKey allowed reads valid hashed, if_pos rfl]
    · intro valid encodable plain ownPlain different collisionFree
      have hashed : runtime.idempotencyFingerprint replay.req
          = some (hex (runtime.sha256 (runtime.fingerprintPayload replay.req).utf8)) := by
        simp [idempotencyFingerprint, Text.encode, encodable]
      have unequal := fingerprint_ne valid holds.valid plain ownPlain different collisionFree hashed
        holds.hashed
      rw [postScans_found sound holds.stored own ownKey allowed reads valid hashed,
        if_neg unequal.symm]

def sample : SubmissionRuntime Unit where
  sha256 := tableHash [(pyb "00000000-0000-0000-0000-000000000007\n"
    ++ pyb "aaaaaaaaaaaaaaaaaaaaaaaaaaaaaaaaaaaaaaaa\ntaint\n\n[]",
    0x805a0172d14b81581ecf5ca2b31d56c08f1d913a44bbfda9238653c34197ac5c)]
  repr value := py "'" ++ value ++ py "'"
  reprItems _ := py "[]"
  isDecimal := isDigit
  knows detectorId := detectorId = py "taint"

/-- A call for one detector, with the way its message to the queue ends. -/
def sampleCall (scanId : Uuid) (send : Effect) : SubmissionCall Unit where
  req := ⟨7, List.replicate 40 (Fin.ofNat 0x110000 0x61), [py "taint"], none, ()⟩
  orgId := py "org"
  idempotencyKey := 3
  denied := none
  reads := true
  latest := some (some (py "1.0.0"))
  isRegistered _ := some true
  snapshot := some ⟨9, py "sha256:" ++ List.replicate 64 (Fin.ofNat 0x110000 0x30)⟩
  scanId := scanId
  put := .succeeds
  jobId _ := 5
  issue _ := some (py "k1")
  send _ := send

def sampleCreated (scanId : Uuid) (jobIds : List Uuid) : ScanCreated :=
  ⟨scanId, 9, py "queued", py "1.0.0",
    py "sha256:" ++ List.replicate 64 (Fin.ofNat 0x110000 0x30), jobIds⟩

theorem scan_fans_out
    : ∃ record, (sample.submissions [sampleCall 1 .succeeds] .create).2.scans.rowsOf (py "org") 3
          = [record]
        ∧ (sample.submissions [sampleCall 1 .succeeds] .create).2.Fanned record := by
  have outcomes : (sample.submissions [sampleCall 1 .succeeds] .create).1
      = [.ok (sampleCreated 1 [5])] := by
    decide +kernel
  have returned : (sampleCall 1 .succeeds, .ok (sampleCreated 1 [5]))
      ∈ [sampleCall 1 .succeeds].zip (sample.submissions [sampleCall 1 .succeeds] .create).1 := by
    rw [outcomes]
    exact List.mem_cons_self
  obtain ⟨record, rows, answer, _, _, fanned, _⟩ :=
    scans_fan_out sample [sampleCall 1 .succeeds] (List.nodup_singleton _) _ _ returned
  exact ⟨record, rows, fanned _ _ (answer ▸ returned) (by decide)⟩

/-- A call whose message fails leaves its row; the replay returns the scan, and no job was sent. -/
theorem failed_fan_out_is_replayed
    : ¬∀ (runtime : SubmissionRuntime Unit) (calls : List (SubmissionCall Unit)),
        (calls.map SubmissionCall.scanId).Nodup
        → ∀ call created, (call, .ok created) ∈ calls.zip (runtime.submissions calls .create).1
        → ∃ record, (runtime.submissions calls .create).2.scans.rowsOf call.orgId
            call.idempotencyKey = [record]
          ∧ (runtime.submissions calls .create).2.Fanned record := by
  intro claimed
  let calls := [sampleCall 1 (.raises false), sampleCall 2 .succeeds]
  have outcomes : (sample.submissions calls .create).1
      = [.error (.port .queue), .ok (sampleCreated 1 [])] := by
    decide +kernel
  have replayed : (sampleCall 2 .succeeds, .ok (sampleCreated 1 []))
      ∈ calls.zip (sample.submissions calls .create).1 := by
    rw [outcomes]
    exact List.mem_cons_of_mem _ List.mem_cons_self
  obtain ⟨record, rows, fanned, _⟩ := claimed sample calls (by decide) _ _ replayed
  have detectors : ((sample.submissions calls .create).2.scans.rowsOf (py "org") 3).map
      ScanRecord.detectorIds = [[py "taint"]] := by
    decide +kernel
  have unsent : (sample.submissions calls .create).2.sent = [] := by decide +kernel
  have row : (sample.submissions calls .create).2.scans.rowsOf (py "org") 3 = [record] := rows
  rw [row, List.map_singleton, ← fanned, Submissions.jobsOf, unsent] at detectors
  cases detectors

end SubmissionRuntime

end Scanipy.Services.Scan

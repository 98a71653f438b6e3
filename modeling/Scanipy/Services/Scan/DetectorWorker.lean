import Mathlib.Data.Prod.Lex
import Scanipy.Python.Uuid

/-! Detector jobs over one findings session: each message is a job that adds its rows one at a time
and commits them at its end.
-/

namespace Scanipy.Services.Scan

open Python Library

structure WorkerJob where
  jobId : Uuid
  scanId : Uuid
  snapshotId : Uuid
  codebaseId : Uuid
  commitSha : Text
  detectorId : Text
  sVersion : Text
  envDigest : Text
  hmacKeyId : Text
  callbackPath : Text

/-- What can end a job early. -/
inductive JobError where
  | malformedJobMessage
  | envDigestMismatch
  | detectorNotFound
  | objectStore
  | cpgDeserialization
  | detector
  | badHash
  | signer
  | commit
  deriving DecidableEq

/-- `_WORKER_JOB_KEYS` and `_EXTRA_ENVELOPE_KEYS`. -/
def requiredKeys : List Text :=
  [py "job_id", py "scan_id", py "snapshot_id", py "codebase_id", py "commit_sha",
    py "detector_id", py "S_version", py "env_digest", py "org_id", py "scm_provider"]

/-- `parse_job_message`; `uuid` is `UUID(value)`, with `none` for a `ValueError`. -/
def parseJobMessage (uuid : Text → Option Uuid) (body : Dict Text Text)
    : Except JobError (WorkerJob × Uuid × Text) :=
  let value (key : String) := body.getD (py key) []
  if (requiredKeys.any fun key => body.getD key [] = []) = true then
    .error .malformedJobMessage
  else
    let parsed := do
      let jobId ← uuid (value "job_id")
      let scanId ← uuid (value "scan_id")
      let snapshotId ← uuid (value "snapshot_id")
      let codebaseId ← uuid (value "codebase_id")
      let orgId ← uuid (value "org_id")
      some (⟨jobId, scanId, snapshotId, codebaseId, value "commit_sha", value "detector_id",
        value "S_version", value "env_digest", value "hmac_key_id", value "callback_path"⟩, orgId,
        value "scm_provider")
    match parsed with
    | none => .error .malformedJobMessage
    | some job => .ok job

/-- A finding of the worker. -/
structure WorkerFinding where
  ruleId : Text
  message : Text
  uri : Text
  startLine : Int
  startCol : Int
  endLine : Int
  endCol : Int
  severity : Text
  class_ : Text
  status : Text
  preconditionStatus : Text
  engine : Text
  origin : Text
  determinismPartition : Text
  sVersion : Text
  envDigest : Text
  cpgOrderHash : Text
  cpgOrderHashAnnotation : Text
  sliceFingerprint : Text
  identitySchemaVersion : Int
  cpgOrderClass : Option Text
  sliceFingerprintClass : Option Text
  cpgOrderStatus : Text
  sliceStatus : Text
  cpgOrderNamespace : Option Text
  sliceNamespace : Option Text
  witnessBlobUri : Option Text
  specProvenance : Option Text

/-- A row of `findings`. The columns beside the identifiers and the two digests are those of the
finding.
-/
structure FindingRow where
  id : Uuid
  orgId : Uuid
  codebaseId : Uuid
  scanId : Uuid
  snapshotId : Uuid
  commitSha : Text
  cpgOrderHash : Bytes
  sliceFingerprint : Bytes
  columns : WorkerFinding

/-- The white space that `bytes.fromhex` skips. -/
def isBlankByte (point : CodePoint) : Bool :=
  (0x09 ≤ point.val && point.val ≤ 0x0D) || point.val = 0x20

/-- `bytes.fromhex(text)`; `none` is a `ValueError`. -/
def fromHex : Text → Option Bytes
  | [] => some []
  | [point] => if isBlankByte point then some [] else none
  | high :: low :: rest =>
      if isBlankByte high then
        fromHex (low :: rest)
      else do
        let first ← Json.hexValue high
        let second ← Json.hexValue low
        let others ← fromHex rest
        some (Fin.ofNat 256 (first * 16 + second) :: others)

/-- The row of a finding; `none` where a digest is not 64 hexadecimal characters. -/
def findingRow (job : WorkerJob) (orgId : Uuid) (findingId : Uuid) (finding : WorkerFinding)
    : Option FindingRow :=
  if finding.cpgOrderHash.length ≠ 64 ∨ finding.sliceFingerprint.length ≠ 64 then
    none
  else do
    let cpgOrderHash ← fromHex finding.cpgOrderHash
    let sliceFingerprint ← fromHex finding.sliceFingerprint
    some ⟨findingId, orgId, job.codebaseId, job.scanId, job.snapshotId, job.commitSha,
      cpgOrderHash, sliceFingerprint, finding⟩

/-- The key by which a job sorts its findings. -/
def findingKey (finding : WorkerFinding) : Text ×ₗ Text ×ₗ Int ×ₗ Int :=
  toLex (finding.ruleId, toLex (finding.uri, toLex (finding.startLine, finding.startCol)))

/-- `_SqlAlchemyFindingsSession` over a database: the rows added since the last commit and the rows
committed, each with the tenant that was set when it was added; the tenant that is set; and the
organisation that the adapter remembers to have set.
-/
structure FindingsSession where
  pending : List (FindingRow × Option Text)
  committed : List (FindingRow × Option Text)
  tenant : Option Text
  boundOrgId : Option Text

namespace FindingsSession

def create : FindingsSession :=
  ⟨[], [], none, none⟩

/-- `_bind_tenant`. -/
def bindTenant (session : FindingsSession) (orgId : Text) : FindingsSession :=
  { session with tenant := some orgId, boundOrgId := some orgId }

def add (session : FindingsSession) (row : FindingRow) : FindingsSession :=
  let bound :=
    if some row.orgId.text ≠ session.boundOrgId then session.bindTenant row.orgId.text else session
  { bound with pending := bound.pending ++ [(row, bound.tenant)] }

/-- `commit`, where it succeeds; the setting of the tenant ends with its transaction. -/
def commit (session : FindingsSession) : FindingsSession :=
  ⟨[], session.committed ++ session.pending, none, none⟩

/-- A commit that raises: the transaction may have ended, and the added rows are still pending. -/
def failCommit (session : FindingsSession) (ended : Bool) : FindingsSession :=
  if ended then { session with tenant := none } else session

end FindingsSession

/-- What stays the same over the messages: the identifier parser, the detector registry, the
deserializer of artifacts, and the environment of the worker.
-/
structure DetectorRuntime (γ : Type) where
  uuid : Text → Option Uuid
  knows : Text → Bool
  deserialize : Bytes → Option γ
  bootEnvDigest : Option Text

inductive CommitOutcome where
  | succeeds
  | raises (ended : Bool)

/-- One message, with the answers of the collaborators: the artifact of its snapshot, the findings
of its detector in some order, the drawn identifiers, the signed records and the commit; `none`
raises.
-/
structure QueueMessage (γ : Type) where
  body : Dict Text Text
  artifact : Option Bytes
  detect : γ → WorkerJob → Option (List WorkerFinding)
  findingId : Nat → Uuid
  sign : Nat → Option Bytes
  commit : CommitOutcome

structure DetectorJobResult where
  findings : List WorkerFinding
  signedRecords : List Bytes

namespace QueueMessage

variable {γ : Type} (message : QueueMessage γ)

/-- The loop over the sorted findings: each row is added, and its record signed. -/
def addFindings (job : WorkerJob) (orgId : Uuid) : Nat → List WorkerFinding → FindingsSession
    → Except JobError (List Bytes) × FindingsSession
  | _, [], session => (.ok [], session)
  | index, finding :: rest, session =>
      match findingRow job orgId (message.findingId index) finding with
      | none => (.error .badHash, session)
      | some row =>
          let added := session.add row
          match message.sign index with
          | none => (.error .signer, added)
          | some signed =>
              match addFindings job orgId (index + 1) rest added with
              | (.error raised, last) => (.error raised, last)
              | (.ok others, last) => (.ok (signed :: others), last)

end QueueMessage

namespace DetectorRuntime

variable {γ : Type} (runtime : DetectorRuntime γ)

/-- `run_detector_job` up to the findings. -/
def detectFindings (message : QueueMessage γ) (job : WorkerJob)
    : Except JobError (List WorkerFinding) :=
  if runtime.bootEnvDigest ≠ none ∧ runtime.bootEnvDigest ≠ some job.envDigest then
    .error .envDigestMismatch
  else if runtime.knows job.detectorId = false then
    .error .detectorNotFound
  else
    match message.artifact with
    | none => .error .objectStore
    | some cpgBytes =>
        match runtime.deserialize cpgBytes with
        | none => .error .cpgDeserialization
        | some cpg =>
            match message.detect cpg job with
            | none => .error .detector
            | some findings => .ok findings

def runDetectorJob (message : QueueMessage γ) (job : WorkerJob) (orgId : Uuid)
    (session : FindingsSession) : Except JobError DetectorJobResult × FindingsSession :=
  match runtime.detectFindings message job with
  | .error raised => (.error raised, session)
  | .ok findings =>
      match message.addFindings job orgId 0 (sortedBy findingKey findings) session with
      | (.error raised, last) => (.error raised, last)
      | (.ok signedRecords, last) =>
          match message.commit with
          | .raises ended => (.error .commit, last.failCommit ended)
          | .succeeds => (.ok ⟨findings, signedRecords⟩, last.commit)

/-- `handle_queue_message`: the result of the job, or `none` where it failed. -/
def handleQueueMessage (message : QueueMessage γ) (session : FindingsSession)
    : Option DetectorJobResult × FindingsSession :=
  match parseJobMessage runtime.uuid message.body with
  | .error _ => (none, session)
  | .ok (job, orgId, _) =>
      match runtime.runDetectorJob message job orgId session with
      | (.error _, last) => (none, last)
      | (.ok result, last) => (some result, last)

/-- Messages one after another: their results, and the session they leave. -/
def handleQueueMessages : List (QueueMessage γ) → FindingsSession
    → List (Option DetectorJobResult) × FindingsSession
  | [], session => ([], session)
  | message :: rest, session =>
      let (result, next) := runtime.handleQueueMessage message session
      let (results, last) := handleQueueMessages rest next
      (result :: results, last)

end DetectorRuntime

-- What a job adds

namespace QueueMessage

variable {γ : Type} (message : QueueMessage γ)

/-- The rows that the loop over the findings adds, and whether it comes to its end. -/
def addedRows (job : WorkerJob) (orgId : Uuid) : Nat → List WorkerFinding → List FindingRow × Bool
  | _, [] => ([], true)
  | index, finding :: rest =>
      match findingRow job orgId (message.findingId index) finding with
      | none => ([], false)
      | some row =>
          match message.sign index with
          | none => ([row], false)
          | some _ =>
              let (rows, ends) := addedRows job orgId (index + 1) rest
              (row :: rows, ends)

/-- The commit of the job succeeds. -/
def commits : Bool :=
  match message.commit with
  | .succeeds => true
  | .raises _ => false

end QueueMessage

namespace DetectorRuntime

variable {γ : Type} (runtime : DetectorRuntime γ)

/-- The rows that the job of a message adds, and whether the job comes to its end. -/
def jobRows (message : QueueMessage γ) : List FindingRow × Bool :=
  match parseJobMessage runtime.uuid message.body with
  | .error _ => ([], false)
  | .ok (job, orgId, _) =>
      match runtime.detectFindings message job with
      | .error _ => ([], false)
      | .ok findings =>
          let (rows, ends) := message.addedRows job orgId 0 (sortedBy findingKey findings)
          (rows, ends && message.commits)

/-- The job of a message fails with rows added. -/
def LeavesRows (message : QueueMessage γ) : Prop :=
  (runtime.jobRows message).1 ≠ [] ∧ (runtime.jobRows message).2 = false

/-- The job of a message comes to its end. -/
def Completes (message : QueueMessage γ) : Prop :=
  (runtime.jobRows message).2 = true

end DetectorRuntime

namespace FindingsSession

variable {session : FindingsSession} {orgId : Uuid} {rows : List FindingRow}

def addAll (session : FindingsSession) (rows : List FindingRow) : FindingsSession :=
  rows.foldl add session

@[simp]
theorem addAll_cons (row : FindingRow) (rows : List FindingRow)
    : session.addAll (row :: rows) = (session.add row).addAll rows :=
  rfl

@[simp]
theorem committed_add (row : FindingRow) : (session.add row).committed = session.committed := by
  unfold add
  dsimp only
  split <;> rfl

@[simp]
theorem pending_add (row : FindingRow)
    : (session.add row).pending.map Prod.fst = session.pending.map Prod.fst ++ [row] := by
  unfold add
  dsimp only
  split <;> simp [bindTenant]

@[simp]
theorem committed_addAll : (session.addAll rows).committed = session.committed := by
  induction rows generalizing session with
  | nil => rfl
  | cons row rest ih => rw [addAll_cons, ih, committed_add]

@[simp]
theorem pending_addAll
    : (session.addAll rows).pending.map Prod.fst = session.pending.map Prod.fst ++ rows := by
  induction rows generalizing session with
  | nil => simp [addAll]
  | cons row rest ih => rw [addAll_cons, ih, pending_add, List.append_assoc, List.singleton_append]

/-- Nothing is pending, and the adapter remembers no organisation. -/
structure Clean (session : FindingsSession) : Prop where
  pending : session.pending = []
  unbound : session.boundOrgId = none

/-- Every pending row was added under its own organisation, which is still set. -/
structure Within (orgId : Uuid) (session : FindingsSession) : Prop where
  own : ∀ entry ∈ session.pending, entry.2 = some entry.1.orgId.text
  tenant : session.boundOrgId = none ∨ session.tenant = some orgId.text
  bound : session.boundOrgId = none ∨ session.boundOrgId = some orgId.text

theorem Within.add (within : Within orgId session) {row : FindingRow} (own : row.orgId = orgId)
    : Within orgId (session.add row) := by
  subst own
  have binds : (session.add row).tenant = some row.orgId.text
      ∧ (session.add row).boundOrgId = some row.orgId.text
      ∧ (session.add row).pending = session.pending ++ [(row, some row.orgId.text)] := by
    unfold FindingsSession.add
    dsimp only
    split
    next => exact ⟨rfl, rfl, rfl⟩
    next bound =>
      have bound := not_not.mp bound
      rcases within.tenant with unbound | tenant
      · rw [unbound] at bound
        cases bound
      · exact ⟨tenant, bound.symm, by rw [tenant]⟩
  obtain ⟨tenant, bound, pending⟩ := binds
  refine ⟨?_, .inr tenant, .inr bound⟩
  rw [pending]
  intro entry member
  rcases List.mem_append.mp member with earlier | new
  · exact within.own entry earlier
  · rw [List.mem_singleton.mp new]

/-- The rows of one organisation are added under it, by induction on the rows. -/
theorem Within.addAll (within : Within orgId session) (own : ∀ row ∈ rows, row.orgId = orgId)
    : Within orgId (session.addAll rows) := by
  induction rows generalizing session with
  | nil => exact within
  | cons row rest ih =>
      rw [List.forall_mem_cons] at own
      exact ih (within.add own.1) own.2

theorem Clean.within (clean : session.Clean) (orgId : Uuid) : Within orgId session :=
  ⟨by simp [clean.pending], .inl clean.unbound, .inl clean.unbound⟩

end FindingsSession

namespace QueueMessage

variable {γ : Type} {message : QueueMessage γ}

/-- The loop adds its rows, and succeeds where it comes to its end. By induction on the findings.
-/
theorem addFindings_adds (message : QueueMessage γ) (job : WorkerJob) (orgId : Uuid) (index : Nat)
    (findings : List WorkerFinding) (session : FindingsSession)
    : (message.addFindings job orgId index findings session).2
        = session.addAll (message.addedRows job orgId index findings).1
      ∧ ((∃ signed, (message.addFindings job orgId index findings session).1 = .ok signed)
        ↔ (message.addedRows job orgId index findings).2 = true)
      ∧ ∀ row ∈ (message.addedRows job orgId index findings).1, row.orgId = orgId := by
  induction findings generalizing index session with
  | nil => simp [addFindings, addedRows, FindingsSession.addAll]
  | cons finding rest ih =>
      unfold addFindings addedRows
      cases built : findingRow job orgId (message.findingId index) finding with
      | none => simp [FindingsSession.addAll]
      | some row =>
          have own : row.orgId = orgId := by
            unfold findingRow at built
            split at built
            · cases built
            · obtain ⟨_, _, rest⟩ := Option.bind_eq_some_iff.mp built
              obtain ⟨_, _, same⟩ := Option.bind_eq_some_iff.mp rest
              cases same
              rfl
          dsimp only
          cases message.sign index with
          | none => simp [FindingsSession.addAll, own]
          | some signed =>
              dsimp only
              obtain ⟨added, ends, owned⟩ := ih (index + 1) (session.add row)
              refine ⟨?_, ?_, ?_⟩
              · rw [FindingsSession.addAll_cons, ← added]
                split
                next raised last outcome => rw [outcome]
                next others last outcome => rw [outcome]
              · rw [← ends]
                split
                next raised last outcome => simp [outcome]
                next others last outcome => simp [outcome]
              · rw [List.forall_mem_cons]
                exact ⟨own, owned⟩

end QueueMessage

namespace DetectorRuntime

variable {γ : Type} {runtime : DetectorRuntime γ} {message : QueueMessage γ}
  {session : FindingsSession}

/-- A job that comes to its end commits what is pending with its rows; one that fails leaves its
rows pending. The rows of a job are of one organisation.
-/
theorem handleQueueMessage_leads (runtime : DetectorRuntime γ) (message : QueueMessage γ)
    (session : FindingsSession)
    : (∃ orgId, ∀ row ∈ (runtime.jobRows message).1, row.orgId = orgId)
      ∧ (runtime.Completes message
        → (∃ result, (runtime.handleQueueMessage message session).1 = some result)
          ∧ (runtime.handleQueueMessage message session).2
            = (session.addAll (runtime.jobRows message).1).commit)
      ∧ (¬runtime.Completes message
        → (runtime.handleQueueMessage message session).1 = none
          ∧ ((runtime.handleQueueMessage message session).2
              = session.addAll (runtime.jobRows message).1
            ∨ ∃ ended, (runtime.handleQueueMessage message session).2
              = (session.addAll (runtime.jobRows message).1).failCommit ended)) := by
  unfold Completes jobRows handleQueueMessage
  cases parseJobMessage runtime.uuid message.body with
  | error raised => simp [FindingsSession.addAll]
  | ok parts =>
      obtain ⟨job, orgId, provider⟩ := parts
      dsimp only
      unfold runDetectorJob
      cases runtime.detectFindings message job with
      | error raised => simp [FindingsSession.addAll]
      | ok findings =>
          dsimp only
          obtain ⟨added, ends, owned⟩ :=
            message.addFindings_adds job orgId 0 (sortedBy findingKey findings) session
          cases looped : message.addFindings job orgId 0 (sortedBy findingKey findings) session with
          | mk outcome last =>
              rw [looped] at added ends
              dsimp only at added ends
              subst added
              refine ⟨⟨orgId, owned⟩, ?_, ?_⟩
              · intro completes
                rw [Bool.and_eq_true] at completes
                obtain ⟨signed, rfl⟩ := ends.mpr completes.1
                have commits := completes.2
                unfold QueueMessage.commits at commits
                cases chosen : message.commit with
                | succeeds => exact ⟨⟨_, rfl⟩, rfl⟩
                | raises ended => simp [chosen] at commits
              · intro fails
                cases outcome with
                | error raised => exact ⟨rfl, .inl rfl⟩
                | ok signed =>
                    have loop := ends.mp ⟨signed, rfl⟩
                    rw [loop, Bool.true_and] at fails
                    unfold QueueMessage.commits at fails
                    cases chosen : message.commit with
                    | succeeds => simp [chosen] at fails
                    | raises ended => exact ⟨rfl, .inr ⟨ended, rfl⟩⟩

-- Runs of messages

/-- The rows of the jobs that returned a result. -/
def returnedRows (runtime : DetectorRuntime γ) (messages : List (QueueMessage γ))
    (results : List (Option DetectorJobResult)) : List FindingRow :=
  (messages.zip results).flatMap fun entry =>
    if entry.2.isSome then (runtime.jobRows entry.1).1 else []

/-- Every committed row was added while its own organisation was set. -/
def OwnTenants (session : FindingsSession) : Prop :=
  ∀ entry ∈ session.committed, entry.2 = some entry.1.orgId.text

theorem handleQueueMessages_cons (message : QueueMessage γ) (rest : List (QueueMessage γ))
    (session : FindingsSession)
    : runtime.handleQueueMessages (message :: rest) session
      = ((runtime.handleQueueMessage message session).1
            :: (runtime.handleQueueMessages rest
                (runtime.handleQueueMessage message session).2).1,
          (runtime.handleQueueMessages rest (runtime.handleQueueMessage message session).2).2) :=
  rfl

theorem returnedRows_cons (rest : List (QueueMessage γ)) (result : Option DetectorJobResult)
    (results : List (Option DetectorJobResult))
    : runtime.returnedRows (message :: rest) (result :: results)
      = (if result.isSome then (runtime.jobRows message).1 else [])
        ++ runtime.returnedRows rest results :=
  rfl

/-- A failed job commits nothing and leaves its rows pending. -/
theorem handleQueueMessage_fails (session : FindingsSession) (fails : ¬runtime.Completes message)
    : (runtime.handleQueueMessage message session).1 = none
      ∧ (runtime.handleQueueMessage message session).2.committed = session.committed
      ∧ (runtime.handleQueueMessage message session).2.pending.map Prod.fst
        = session.pending.map Prod.fst ++ (runtime.jobRows message).1 := by
  obtain ⟨result, same | ⟨ended, same⟩⟩ :=
    (runtime.handleQueueMessage_leads message session).2.2 fails
  · rw [same]
    exact ⟨result, FindingsSession.committed_addAll, FindingsSession.pending_addAll⟩
  · rw [same]
    refine ⟨result, ?_, ?_⟩
    · unfold FindingsSession.failCommit
      split <;> exact FindingsSession.committed_addAll
    · unfold FindingsSession.failCommit
      split <;> exact FindingsSession.pending_addAll

theorem handleQueueMessage_completes (session : FindingsSession)
    (completes : runtime.Completes message)
    : ((runtime.handleQueueMessage message session).1).isSome = true
      ∧ (runtime.handleQueueMessage message session).2.committed.map Prod.fst
        = session.committed.map Prod.fst ++ (session.pending.map Prod.fst
          ++ (runtime.jobRows message).1) := by
  obtain ⟨⟨result, returned⟩, same⟩ :=
    (runtime.handleQueueMessage_leads message session).2.1 completes
  rw [same, returned]
  refine ⟨rfl, ?_⟩
  rw [FindingsSession.commit, List.map_append, FindingsSession.committed_addAll,
    FindingsSession.pending_addAll]

/-- Without a job that comes to its end nothing is committed, by induction on the messages. -/
theorem handleQueueMessages_fail {messages : List (QueueMessage γ)} (session : FindingsSession)
    (fails : ∀ message ∈ messages, ¬runtime.Completes message)
    : (runtime.handleQueueMessages messages session).2.committed = session.committed
      ∧ runtime.returnedRows messages (runtime.handleQueueMessages messages session).1 = [] := by
  induction messages generalizing session with
  | nil => exact ⟨rfl, rfl⟩
  | cons message rest ih =>
      rw [List.forall_mem_cons] at fails
      obtain ⟨result, committed, _⟩ := handleQueueMessage_fails session fails.1
      obtain ⟨last, none⟩ := ih (runtime.handleQueueMessage message session).2 fails.2
      rw [handleQueueMessages_cons, returnedRows_cons, result]
      exact ⟨last.trans committed, none⟩

/-- A job that comes to its end commits all that is pending before it, by induction on the
messages.
-/
theorem committed_length_ge (messages : List (QueueMessage γ)) (session : FindingsSession)
    : session.committed.length
          + (runtime.returnedRows messages (runtime.handleQueueMessages messages session).1).length
        ≤ (runtime.handleQueueMessages messages session).2.committed.length
      ∧ ((∃ message ∈ messages, runtime.Completes message)
        → session.committed.length + session.pending.length
            + (runtime.returnedRows messages
                (runtime.handleQueueMessages messages session).1).length
          ≤ (runtime.handleQueueMessages messages session).2.committed.length) := by
  induction messages generalizing session with
  | nil => exact ⟨Nat.le_refl _, by simp⟩
  | cons message rest ih =>
      obtain ⟨least, more⟩ := ih (runtime.handleQueueMessage message session).2
      rw [handleQueueMessages_cons, returnedRows_cons, List.length_append]
      by_cases completes : runtime.Completes message
      · obtain ⟨result, committed⟩ := handleQueueMessage_completes session completes
        have length := congrArg List.length committed
        simp only [List.length_map, List.length_append] at length
        rw [if_pos result]
        dsimp only
        refine ⟨?_, fun _ => ?_⟩ <;> omega
      · obtain ⟨result, committed, pending⟩ := handleQueueMessage_fails session completes
        have length := congrArg List.length pending
        simp only [List.length_map, List.length_append] at length
        rw [committed] at least more
        simp only [result, Option.isSome_none, Bool.false_eq_true, if_false, List.length_nil,
          Nat.zero_add]
        refine ⟨least, ?_⟩
        rintro ⟨later, member, ends⟩
        rcases List.mem_cons.mp member with rfl | behind
        · exact absurd ends completes
        · have bound := more ⟨later, behind, ends⟩
          omega

/-- From a clean session, a job without rows to leave keeps it clean, and commits its rows under
their organisation if it comes to its end.
-/
theorem handleQueueMessage_clean (clean : session.Clean) (owns : OwnTenants session)
    (tidy : ¬runtime.LeavesRows message)
    : (runtime.handleQueueMessage message session).2.Clean
      ∧ OwnTenants (runtime.handleQueueMessage message session).2
      ∧ (runtime.handleQueueMessage message session).2.committed.map Prod.fst
        = session.committed.map Prod.fst
          ++ (if (runtime.handleQueueMessage message session).1.isSome
              then (runtime.jobRows message).1 else []) := by
  obtain ⟨⟨orgId, owned⟩, ends, fails⟩ := runtime.handleQueueMessage_leads message session
  by_cases completes : runtime.Completes message
  · obtain ⟨⟨result, returned⟩, same⟩ := ends completes
    obtain ⟨_, rows⟩ := handleQueueMessage_completes session completes
    rw [clean.pending] at rows
    refine ⟨by rw [same]; exact ⟨rfl, rfl⟩, ?_, by rw [rows, returned]; rfl⟩
    rw [same]
    intro entry member
    rw [FindingsSession.commit, FindingsSession.committed_addAll] at member
    rcases List.mem_append.mp member with earlier | new
    · exact owns entry earlier
    · exact ((clean.within orgId).addAll owned).own entry new
  · have empty : (runtime.jobRows message).1 = [] := by
      by_contra rows
      exact tidy ⟨rows, Bool.eq_false_iff.mpr completes⟩
    obtain ⟨result, same | ⟨ended, same⟩⟩ := fails completes
    · rw [same, empty, result]
      exact ⟨clean, owns, by simp [FindingsSession.addAll]⟩
    · rw [same, empty, result]
      unfold FindingsSession.failCommit
      split
      · exact ⟨⟨clean.pending, clean.unbound⟩, owns, by simp [FindingsSession.addAll]⟩
      · exact ⟨clean, owns, by simp [FindingsSession.addAll]⟩

/-- The committed rows are those of the jobs that returned, each added under its organisation,
exactly where no job that left rows behind is followed by one that comes to its end. By induction
on the messages.
-/
theorem handleQueueMessages_clean_iff {messages : List (QueueMessage γ)} (clean : session.Clean)
    (owns : OwnTenants session)
    : ((runtime.handleQueueMessages messages session).2.committed.map Prod.fst
          = session.committed.map Prod.fst
            ++ runtime.returnedRows messages (runtime.handleQueueMessages messages session).1
        ∧ OwnTenants (runtime.handleQueueMessages messages session).2)
      ↔ messages.Pairwise fun first second =>
          ¬(runtime.LeavesRows first ∧ runtime.Completes second) := by
  induction messages generalizing session with
  | nil => simpa [handleQueueMessages, returnedRows] using owns
  | cons message rest ih =>
      rw [List.pairwise_cons]
      by_cases leaves : runtime.LeavesRows message
      · obtain ⟨rows, failed⟩ := leaves
        have fails : ¬runtime.Completes message := by simp [Completes, failed]
        obtain ⟨result, committed, pending⟩ := handleQueueMessage_fails session fails
        rw [handleQueueMessages_cons, returnedRows_cons]
        dsimp only
        by_cases later : ∃ other ∈ rest, runtime.Completes other
        · refine iff_of_false ?_ ?_
          · rintro ⟨same, _⟩
            have bound := (runtime.committed_length_ge rest
              (runtime.handleQueueMessage message session).2).2 later
            have length := congrArg List.length same
            have left := congrArg List.length pending
            have some := List.length_pos_iff.mpr rows
            simp only [result, Option.isSome_none, Bool.false_eq_true, if_false, List.nil_append,
              List.length_map, List.length_append, committed] at length left bound
            omega
          · rintro ⟨none, _⟩
            obtain ⟨other, member, ends⟩ := later
            exact none other member ⟨⟨rows, failed⟩, ends⟩
        · push Not at later
          obtain ⟨last, none⟩ := handleQueueMessages_fail
            (runtime.handleQueueMessage message session).2 later
          refine iff_of_true ⟨?_, ?_⟩ ⟨fun other member both => later other member both.2, ?_⟩
          · rw [last, none, committed, result]
            simp
          · unfold OwnTenants
            rwa [last, committed]
          · exact List.pairwise_of_forall_mem_list fun _ _ other member both =>
              later other member both.2
      · obtain ⟨kept, own, rows⟩ := handleQueueMessage_clean clean owns leaves
        rw [handleQueueMessages_cons, returnedRows_cons, ← List.append_assoc, ← rows, ih kept own]
        exact ⟨fun others => ⟨fun _ _ both => leaves both.1, others⟩, fun others => others.2⟩

/-- From a new session, the rows ever committed are those of the jobs that returned a result, each
added while its own organisation was set, exactly where no job that failed with rows added is
followed by one that comes to its end.
-/
theorem failed_jobs_leave_nothing_iff (runtime : DetectorRuntime γ)
    (messages : List (QueueMessage γ))
    : ((runtime.handleQueueMessages messages .create).2.committed.map Prod.fst
          = runtime.returnedRows messages (runtime.handleQueueMessages messages .create).1
        ∧ OwnTenants (runtime.handleQueueMessages messages .create).2)
      ↔ messages.Pairwise fun first second =>
          ¬(runtime.LeavesRows first ∧ runtime.Completes second) :=
  handleQueueMessages_clean_iff ⟨rfl, rfl⟩ (by simp [OwnTenants, FindingsSession.create])

/-- A worker with one detector, which reads every artifact. -/
def sampleWorker : DetectorRuntime Unit where
  uuid := Uuid.ofText
  knows detectorId := detectorId = py "taint"
  deserialize _ := some ()
  bootEnvDigest := none

def sampleFinding : WorkerFinding where
  ruleId := py "sqli"
  message := py "query"
  uri := py "app.py"
  startLine := 3
  startCol := 1
  endLine := 3
  endCol := 9
  severity := py "high"
  class_ := py "taint"
  status := py "open"
  preconditionStatus := py "in_S"
  engine := py "ifds"
  origin := py "core"
  determinismPartition := py "core"
  sVersion := py "s1"
  envDigest := py "e1"
  cpgOrderHash := List.replicate 64 0x61
  cpgOrderHashAnnotation := py "order"
  sliceFingerprint := List.replicate 64 0x62
  identitySchemaVersion := 1
  cpgOrderClass := none
  sliceFingerprintClass := none
  cpgOrderStatus := py "weak"
  sliceStatus := py "weak"
  cpgOrderNamespace := none
  sliceNamespace := none
  witnessBlobUri := none
  specProvenance := none

/-- A message for the detector, with what it finds and what the signer answers. -/
def sampleMessage (findings : List WorkerFinding) (signed : Option Bytes) : QueueMessage Unit where
  body :=
    [(py "job_id", Uuid.text 1), (py "scan_id", Uuid.text 2), (py "snapshot_id", Uuid.text 3),
      (py "codebase_id", Uuid.text 4), (py "commit_sha", py "c0ffee"),
      (py "detector_id", py "taint"), (py "S_version", py "s1"), (py "env_digest", py "e1"),
      (py "org_id", Uuid.text 5), (py "scm_provider", py "github")]
  artifact := some []
  detect _ _ := some findings
  findingId _ := 6
  sign _ := signed
  commit := .succeeds

/-- The row of a job whose signer failed is committed by the job after it. -/
theorem unsigned_row_is_committed
    : ¬∀ messages : List (QueueMessage Unit),
        (sampleWorker.handleQueueMessages messages .create).2.committed.map Prod.fst
          = sampleWorker.returnedRows messages
            (sampleWorker.handleQueueMessages messages .create).1
        ∧ OwnTenants (sampleWorker.handleQueueMessages messages .create).2 := by
  intro claimed
  have held := (handleQueueMessages_clean_iff ⟨rfl, rfl⟩
    (by simp [OwnTenants, FindingsSession.create])).mp
      (claimed [sampleMessage [sampleFinding] none, sampleMessage [] (some [])])
  have leaves : sampleWorker.LeavesRows (sampleMessage [sampleFinding] none) := by
    unfold LeavesRows
    decide
  have completes : sampleWorker.Completes (sampleMessage [] (some [])) := by
    unfold Completes
    decide
  exact (List.pairwise_cons.mp held).1 _ (List.mem_singleton_self _) ⟨leaves, completes⟩

end DetectorRuntime

end Scanipy.Services.Scan

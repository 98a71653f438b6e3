import Scanipy.Db.Execution.Finish

/-! What a transaction of the execution ledger can do, apart from its reply: one constructor for
each way in which an operation writes. Every invariant of the ledger is proved from these.
-/

namespace Scanipy.Db.Execution

open Library Python Services.Scan.OccurrenceStore

variable (sha256 : Bytes → Bytes)

/-- What `v1_lock` finds for an attempt, live or not. -/
structure Held (ledger : Ledger) (call : Call) (kind : WorkKind) (locked : Locked)
    (attempt : WorkAttempt) : Prop where
  workMember : locked.work ∈ ledger.items
  workId : locked.work.id = call.work
  workOrg : locked.work.orgId = call.org
  workKind : locked.work.kind = kind
  requestMember : locked.request ∈ ledger.requests
  requestId : locked.request.id = locked.work.requestId
  requestOrg : locked.request.orgId = call.org
  capture : locked.capture
    = ledger.captures.find? fun row => row.orgId = call.org ∧ row.ownerRequestId = locked.request.id
  attemptMember : attempt ∈ ledger.attempts
  attemptId : attempt.id = call.attempt
  attemptWork : attempt.workItemId = locked.work.id
  attemptKind : attempt.kind = kind
  token : attempt.fencingToken = call.token

/-- The lease of the attempt on a capture is neither released nor expired. -/
def Consumes (ledger : Ledger) (attempt : WorkAttempt) (capture : SourceCapture) (now : Instant)
    : Prop :=
  ∃ lease ∈ ledger.leases, lease.workAttemptId = attempt.id ∧ lease.captureId = capture.id
    ∧ lease.fencingToken = attempt.fencingToken ∧ lease.releasedAt = none ∧ now < lease.expiresAt

/-- The attempt is the running one of its work, which is as the caller last saw it. -/
structure Current (ledger : Ledger) (call : Call) (kind : WorkKind) (locked : Locked)
    (attempt : WorkAttempt) : Prop extends Held ledger call kind locked attempt where
  running : locked.work.state = .running
  active : locked.work.activeAttemptId = some attempt.id
  fencing : locked.work.fencingToken = attempt.fencingToken
  revision : locked.work.revision = call.revision
  attemptRunning : attempt.state = .running

/-- What `v1_lock` demands of a live attempt. -/
structure Live (ledger : Ledger) (call : Call) (kind : WorkKind) (locked : Locked)
    (attempt : WorkAttempt) (now : Instant)
    : Prop extends Current ledger call kind locked attempt where
  unexpired : now < attempt.leaseExpiresAt
  uncancelled : locked.request.cancellationBytes = none
  consumes : ∀ capture ∈ locked.capture,
    capture.retentionState = .active ∧ Consumes ledger attempt capture now

section Locks

variable {env : Environment}

/-- A row selected by its organisation and another column. -/
theorem row_of_find? {ρ : Type} {rows : List ρ} {row : ρ} {condition : ρ → Prop}
    [DecidablePred condition] (found : rows.find? (fun row => condition row) = some row)
    : row ∈ rows ∧ condition row :=
  ⟨List.mem_of_find?_eq_some found, by simpa using List.find?_some found⟩

variable {ledger : Ledger} {kind : WorkKind} {locked : Locked}

/-- The rows of a lock without an attempt. -/
theorem lockWork_ok {org work : Uuid} (done : lockWork env ledger org work kind = .ok locked)
    : (locked.work ∈ ledger.items ∧ locked.work.id = work ∧ locked.work.orgId = org
        ∧ locked.work.kind = kind)
      ∧ (locked.request ∈ ledger.requests ∧ locked.request.id = locked.work.requestId
        ∧ locked.request.orgId = org)
      ∧ locked.capture = ledger.captures.find? fun row =>
          row.orgId = org ∧ row.ownerRequestId = locked.request.id := by
  unfold lockWork at done
  obtain ⟨_, done⟩ := check_ok.mp done
  obtain ⟨item, found, done⟩ := bind_ok.mp done
  obtain ⟨sameKind, done⟩ := check_ok.mp done
  obtain ⟨request, foundRequest, done⟩ := bind_ok.mp done
  cases done
  obtain ⟨among, ownOrg, ownId⟩ := row_of_find? (expectRow_ok.mp found)
  obtain ⟨amongRequests, requestOrg, requestId⟩ := row_of_find? (strict_ok.mp foundRequest)
  exact ⟨⟨among, ownId, ownOrg, require_ok_iff.mp sameKind⟩,
    ⟨amongRequests, requestId, requestOrg⟩, rfl⟩

variable {call : Call} {attempt : WorkAttempt}

theorem lockAttempt_ok (done : lockAttempt env ledger call kind = .ok (locked, attempt))
    : Held ledger call kind locked attempt := by
  unfold lockAttempt at done
  obtain ⟨rows, lockedWork, done⟩ := bind_ok.mp done
  obtain ⟨row, found, done⟩ := bind_ok.mp done
  obtain ⟨scope, done⟩ := check_ok.mp done
  cases done
  obtain ⟨⟨workMember, workId, workOrg, workKind⟩, ⟨requestMember, requestId, requestOrg⟩,
    capture⟩ := lockWork_ok lockedWork
  obtain ⟨attemptMember, _, attemptWork, attemptId⟩ := row_of_find? (expectRow_ok.mp found)
  obtain ⟨attemptKind, token⟩ := require_ok_iff.mp scope
  exact { workMember, workId, workOrg, workKind, requestMember, requestId, requestOrg, capture,
          attemptMember, attemptId, attemptWork, attemptKind, token }

theorem lockLive_ok {now : Instant}
    (done : lockLive env ledger call kind now = .ok (locked, attempt))
    : Live ledger call kind locked attempt now := by
  unfold lockLive at done
  obtain ⟨⟨rows, row⟩, held, done⟩ := bind_ok.mp done
  obtain ⟨current, done⟩ := check_ok.mp done
  obtain ⟨consumer, done⟩ := check_ok.mp done
  cases done
  have held := lockAttempt_ok held
  obtain ⟨running, active, fencing, revision, attemptRunning, unexpired, uncancelled⟩ :=
    require_ok_iff.mp current
  refine { held with
    running, active, revision, attemptRunning, unexpired, uncancelled
    fencing := fencing.trans held.token.symm, consumes := ?_ }
  intro capture registered
  unfold checkConsumer at consumer
  rw [Option.mem_def.mp registered] at consumer
  dsimp only at consumer
  obtain ⟨lease, found, checked⟩ := bind_ok.mp consumer
  obtain ⟨retained, ofCapture, token, unreleased, unexpiredLease⟩ := require_ok_iff.mp checked
  obtain ⟨member, _, ofAttempt⟩ := row_of_find? (expectRow_ok.mp found)
  exact ⟨retained, lease, member, ofAttempt, ofCapture, token.trans held.token.symm, unreleased,
    unexpiredLease⟩

end Locks

/-- Work that no attempt has taken. -/
structure WorkItem.IsNew (item : WorkItem) : Prop where
  pending : item.state = .pending
  idle : item.activeAttemptId = none
  unfenced : item.fencingToken = 0
  budgeted : item.Budgeted

/-- A new request and its detection work. -/
structure NewRequest (before : Ledger) (request : ScanRequest) (item : WorkItem) : Prop where
  fresh : ∀ other ∈ before.requests, other.id ≠ request.id
  freshKey : ∀ other ∈ before.requests,
    ¬(other.orgId = request.orgId ∧ other.idempotencyKey = request.idempotencyKey)
  stages : request.captureState = .pending ∧ request.detectionState = .pending
    ∧ request.identityState = .pending
  uncancelled : request.cancellationBytes = none
  active : request.activeDetectionWorkId = some item.id
  freshItem : ∀ other ∈ before.items, other.id ≠ item.id
  itemRequest : item.requestId = request.id
  itemOrg : item.orgId = request.orgId
  itemKind : item.kind = .captureDetection
  noOccurrence : item.occurrenceId = none
  new : item.IsNew

/-- A new attempt at pending work, with a lease once there is a capture. -/
structure NewAttempt (before : Ledger) (locked : Locked) (attempt : WorkAttempt)
    (leases : List CaptureLease) : Prop where
  work : locked.work ∈ before.items
  pending : locked.work.state = .pending
  budget : locked.work.fencingToken < locked.work.maxAttempts
  request : locked.request ∈ before.requests
  requestId : locked.request.id = locked.work.requestId
  uncancelled : locked.request.cancellationBytes = none
  fresh : ∀ other ∈ before.attempts, other.id ≠ attempt.id
  attemptWork : attempt.workItemId = locked.work.id
  attemptRequest : attempt.requestId = locked.work.requestId
  attemptOrg : attempt.orgId = locked.work.orgId
  attemptKind : attempt.kind = locked.work.kind
  number : attempt.attemptNumber = locked.work.fencingToken + 1
  token : attempt.fencingToken = locked.work.fencingToken + 1
  running : attempt.state = .running
  leased : leases = [] ∨ ∃ capture ∈ before.captures, ∃ lease, leases = [lease]
    ∧ capture.ownerRequestId = locked.request.id ∧ capture.orgId = locked.work.orgId
    ∧ lease.captureId = capture.id ∧ lease.workAttemptId = attempt.id
    ∧ lease.requestId = attempt.requestId ∧ lease.orgId = attempt.orgId
    ∧ ∀ other ∈ before.leases, other.id ≠ lease.id ∧ other.workAttemptId ≠ lease.workAttemptId

/-- A new capture with its seal and the lease of the attempt that registers it. -/
structure NewCapture (before : Ledger) (locked : Locked) (attempt : WorkAttempt)
    (capture : SourceCapture) (sealed : ScanSeal) (lease : CaptureLease) : Prop where
  fresh : ∀ other ∈ before.captures, other.id ≠ capture.id
    ∧ other.ownerRequestId ≠ capture.ownerRequestId
  owner : capture.ownerRequestId = locked.work.requestId
  org : capture.orgId = locked.work.orgId
  retained : capture.retentionState = .active
  unclaimed : capture.cleanupToken = 0 ∧ capture.cleanupExpiresAt = none
    ∧ capture.retirementBytes = none
  freshSeal : ∀ other ∈ before.seals, other.id ≠ sealed.id ∧ other.requestId ≠ sealed.requestId
  sealRequest : sealed.requestId = locked.work.requestId
  sealOrg : sealed.orgId = locked.work.orgId
  sealCapture : sealed.captureId = capture.id
  content : ∃ value, envelope sha256 .scanSeal sealed.sealBytes sealed.sealDigest = .ok value
  freshLease : ∀ other ∈ before.leases,
    other.id ≠ lease.id ∧ other.workAttemptId ≠ lease.workAttemptId
  leaseAttempt : lease.workAttemptId = attempt.id
  leaseCapture : lease.captureId = capture.id
  leaseRequest : lease.requestId = attempt.requestId
  leaseOrg : lease.orgId = attempt.orgId

/-- A new run of a sealed binding that nothing else has completed or is executing. -/
structure NewRun (before : Ledger) (locked : Locked) (attempt : WorkAttempt) (run : DetectorRun)
    : Prop where
  sealed : ∃ row ∈ before.seals, row.id = run.sealId ∧ row.requestId = run.requestId
    ∧ row.captureId = run.captureId
    ∧ ∃ content, storedJson row.sealBytes = .ok content
      ∧ run.detectorBindingKey ∈ bindingKeys content
  request : run.requestId = locked.work.requestId
  org : run.orgId = locked.work.orgId
  work : run.workItemId = locked.work.id
  attempt : run.workAttemptId = attempt.id
  fresh : ∀ other ∈ before.runs, other.id ≠ run.id
  running : run.state = .running
  empty : run.resultCount = 0
  noResult : run.resultSchema = none ∧ run.resultBytes = none
  noneCompleted : ∀ other ∈ before.runs, other.orgId = run.orgId → other.requestId = run.requestId
    → other.detectorBindingKey = run.detectorBindingKey → other.state ≠ .completed
  noPartial : ¬before.keptPartial run.requestId
  noneOpen : ∀ other ∈ before.runs, other.requestId = run.requestId
    → other.detectorBindingKey = run.detectorBindingKey → ¬other.state.IsOpen
  supersedes : run.supersedesRunId
    = (before.failedLeaves run.requestId run.detectorBindingKey).head?.map (·.id)
  leaves : (before.failedLeaves run.requestId run.detectorBindingKey).length ≤ 1
  once : ∀ other ∈ before.runs, run.supersedesRunId = none
    ∨ other.supersedesRunId ≠ run.supersedesRunId

/-- The occurrences of a batch, each with its identity work. -/
structure NewOccurrences (before : Ledger) (run : DetectorRun)
    (added : List (DetectionOccurrence × WorkItem)) : Prop where
  unique : UniqueBy (·.id) before.occurrences
    → UniqueBy (·.id) (before.occurrences ++ added.map Prod.fst)
  ordinals : UniqueBy (fun row => (row.detectorRunId, row.toolOrdinal)) before.occurrences
    → UniqueBy (fun row => (row.detectorRunId, row.toolOrdinal))
        (before.occurrences ++ added.map Prod.fst)
  uniqueItems : UniqueBy (·.id) before.items
    → UniqueBy (·.id) (before.items ++ added.map Prod.snd)
  uniqueWork : (∀ left ∈ before.items, ∀ right ∈ before.items, left.occurrenceId ≠ none
      → left.occurrenceId = right.occurrenceId → left.id = right.id)
    → ∀ left ∈ before.items ++ added.map Prod.snd, ∀ right ∈ before.items ++ added.map Prod.snd,
      left.occurrenceId ≠ none → left.occurrenceId = right.occurrenceId → left.id = right.id
  each : ∀ pair ∈ added, pair.1.detectorRunId = run.id ∧ pair.1.requestId = run.requestId
    ∧ pair.1.orgId = run.orgId ∧ pair.2.IsNew ∧ pair.2.kind = .identity
    ∧ pair.2.occurrenceId = some pair.1.id ∧ pair.2.requestId = run.requestId
    ∧ pair.2.orgId = run.orgId

-- Effects

/-- A lease may be released, once. -/
inductive CaptureLease.Releases : CaptureLease → CaptureLease → Prop where
  | kept (lease : CaptureLease) : Releases lease lease
  | released {lease : CaptureLease} (moment : Instant) (data digest : Bytes)
      (unreleased : lease.releasedAt = none)
      : Releases lease (lease.release moment data digest)

/-- The condition under which a capture may be claimed for cleanup. -/
def Ledger.Retirable (ledger : Ledger) (capture : SourceCapture) (moment : Instant) : Prop :=
  (capture.retentionState = .active →
    capture.retainUntil ≤ moment
    ∧ (∀ lease ∈ ledger.leases, lease.captureId = capture.id → lease.releasedAt = none
      → lease.expiresAt ≤ moment)
    ∧ ∀ item ∈ ledger.items, item.requestId = capture.ownerRequestId → ¬item.state.IsOpen)
  ∧ (capture.retentionState ≠ .active → ∃ expiry ∈ capture.cleanupExpiresAt, expiry ≤ moment)

/-- The inventory of a completed detection. -/
def Ledger.Inventoried (ledger : Ledger) (request : Uuid) : Prop :=
  ∃ row ∈ ledger.seals, row.requestId = request
    ∧ (∃ content, storedJson row.sealBytes = .ok content
      ∧ ledger.completedKeys request = bindingKeys content)
    ∧ (∀ run ∈ ledger.runs, run.requestId = request → ¬run.state.IsOpen)
    ∧ ¬ledger.keptPartial request

/-- The end of the running attempt of some work. -/
structure Ended (before : Ledger) (locked : Locked) (attempt : WorkAttempt) (runs : List DetectorRun)
    (leases : List CaptureLease) (result : AttemptState) (state : WorkState) : Prop where
  terminal : result ≠ .running
  settled : state ≠ .running
  released : List.Forall₂ CaptureLease.Releases before.leases leases
  interrupted : (∃ moment data digest,
      runs = (before.interruptRuns attempt.id moment data digest).runs)
    ∨ (runs = before.runs ∧ (locked.work.kind = .captureDetection → state = .completed))
  complete : locked.work.kind = .captureDetection → state = .completed
    → runs = before.runs ∧ before.Inventoried locked.work.requestId

/-- What one transaction writes, at a moment during its run, and the request whose stages it
computes anew afterwards.
-/
inductive Effect (during : Instant → Prop) (before : Ledger) : Option Uuid → Ledger → Prop where
  | unchanged : Effect during before none before
  | created {request item} (new : NewRequest before request item)
      : Effect during before none
          { before with
            requests := before.requests ++ [request]
            items := before.items ++ [item] }
  | cancelled {request leases moment data digest} (member : request ∈ before.requests)
      (uncancelled : request.cancellationBytes = none)
      (released : List.Forall₂ CaptureLease.Releases before.leases leases)
      : Effect during before (some request.id)
          ({ before with leases }.cancelRows request.id moment data digest)
  | cleanupClaimed {capture moment} (member : capture ∈ before.captures) (timely : during moment)
      (unretired : capture.retentionState ≠ .retired) (retirable : before.Retirable capture moment)
      : Effect during before none
          { before with
            captures := updateWhere (fun row => row.id = capture.id) (·.claimCleanup moment)
              before.captures }
  | captureRetired {capture moment data digest} (member : capture ∈ before.captures)
      (timely : during moment) (retiring : capture.retentionState = .retiring)
      (claimed : ∃ expiry ∈ capture.cleanupExpiresAt, moment < expiry)
      : Effect during before none
          { before with
            captures := updateWhere (fun row => row.id = capture.id) (·.retire data digest)
              before.captures }
  | claimed {locked attempt leases} (new : NewAttempt before locked attempt leases)
      : Effect during before (some locked.work.requestId)
          { before.startAttempt attempt with leases := before.leases ++ leases }
  | renewed {call kind locked attempt now expiry}
      (live : Live before call kind locked attempt now)
      : Effect during before none ((before.extend attempt.id expiry).touch locked.work.id)
  | leaseRenewed {call kind locked attempt now consumer expiry}
      (live : Live before call kind locked attempt now) (member : consumer ∈ before.leases)
      (own : consumer.workAttemptId = attempt.id)
      : Effect during before none
          ({ before with
            leases := updateWhere (fun lease => lease.id = consumer.id)
              (fun lease => { lease with expiresAt := expiry }) before.leases }.touch
                locked.work.id)
  | leaseReleased {call kind locked attempt now consumer moment data digest}
      (live : Live before call kind locked attempt now) (member : consumer ∈ before.leases)
      (own : consumer.workAttemptId = attempt.id)
      : Effect during before none
          ({ before with
            leases := updateWhere (fun lease => lease.id = consumer.id)
              (·.release moment data digest) before.leases }.touch locked.work.id)
  | registered {call locked attempt now capture sealed lease}
      (live : Live before call .captureDetection locked attempt now)
      (new : NewCapture sha256 before locked attempt capture sealed lease)
      : Effect during before none
          ({ before with
            captures := before.captures ++ [capture]
            seals := before.seals ++ [sealed]
            leases := before.leases ++ [lease] }.captured locked.work.requestId)
  | begun {call locked attempt now run}
      (live : Live before call .captureDetection locked attempt now)
      (new : NewRun before locked attempt run)
      : Effect during before none { before with runs := before.runs ++ [run] }
  | retained {call locked attempt now run added batch value moment}
      (live : Live before call .captureDetection locked attempt now)
      (member : run ∈ before.runs) (work : run.workItemId = call.work)
      (own : run.workAttemptId = call.attempt) (unsettled : run.state.IsOpen)
      (count : batch.rawResults.length = added.length)
      (new : NewOccurrences before run added)
      (read : envelope sha256 .detectionBatch batch.data batch.digest = .ok value)
      (numbered : added.map (·.1.toolOrdinal)
        = (List.range (value.get "occurrences").items.length).map Int.ofNat)
      : Effect during before (some run.requestId)
          { before with
            occurrences := before.occurrences ++ added.map Prod.fst
            items := before.items ++ added.map Prod.snd
            runs := updateWhere (fun row => row.id = run.id) (·.retain batch value moment)
              before.runs }
  | runFailed {call locked attempt now run failure moment}
      (live : Live before call .captureDetection locked attempt now)
      (member : run ∈ before.runs) (work : run.workItemId = call.work)
      (own : run.workAttemptId = call.attempt) (unsettled : run.state.IsOpen)
      : Effect during before (some run.requestId)
          { before with
            runs := updateWhere (fun row => row.id = run.id) (·.fail failure moment) before.runs }
  | ended {call kind locked attempt runs leases result state moment data digest}
      (current : Current before call kind locked attempt)
      (ended : Ended before locked attempt runs leases result state)
      : Effect during before (some locked.work.requestId)
          { before with
            runs
            attempts := updateWhere (fun row => row.id = attempt.id)
              (·.finish result moment .attemptResult data digest) before.attempts
            leases
            items := updateWhere (fun item => item.id = locked.work.id)
              (·.settle state attempt.attemptNumber moment data digest) before.items }

/-- The ledger with the stages of a request computed anew. -/
def Ledger.refreshed (ledger : Ledger) (subject : Option Uuid) : Ledger :=
  match subject.bind fun request => (ledger.stages request).map (request, ·) with
  | some (request, stages) =>
      { ledger with
        requests := updateWhere (fun row => row.id = request) (·.setStages stages)
          ledger.requests }
  | none => ledger

/-- One transaction that succeeds, apart from its reply. -/
def Ledger.Becomes (during : Instant → Prop) (before after : Ledger) : Prop :=
  ∃ subject written, Effect sha256 during before subject written
    ∧ after = written.refreshed subject

end Scanipy.Db.Execution

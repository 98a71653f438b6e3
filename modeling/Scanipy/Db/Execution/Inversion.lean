import Scanipy.Db.Execution.Effects

/-! How each operation of the execution ledger succeeds: by answering a replay from the rows it
finds, or with one effect. The later modules use these lemmas and never the operations' bodies.
-/

namespace Scanipy.Db.Execution

open Library Python Services.Scan.OccurrenceStore

variable {sha256 : Bytes → Bytes} {env : Environment} {ledger after : Ledger}

theorem checkUnique_ok {condition : Prop} [Decidable condition] {constraint : String}
    {value : Unit}
    : checkUnique condition constraint = .ok value ↔ condition :=
  demand_ok

-- Shared rows

variable {data digest : Bytes} {value : Json}

/-- An accepted envelope is read back from its bytes, which determine its digest. -/
theorem envelope_ok {name : EnvelopeName} (done : envelope sha256 name data digest = .ok value)
    : storedJson data = .ok value ∧ digest = digestOf sha256 name data
      ∧ checkSemantic sha256 name value = .ok () := by
  unfold envelope at done
  obtain ⟨_, done⟩ := check_ok.mp done
  obtain ⟨original, decoded, done⟩ := bind_ok.mp done
  obtain ⟨parsed, stored, done⟩ := bind_ok.mp done
  obtain ⟨_, done⟩ := check_ok.mp done
  obtain ⟨text, _, done⟩ := bind_ok.mp done
  obtain ⟨_, done⟩ := check_ok.mp done
  obtain ⟨digested, done⟩ := check_ok.mp done
  obtain ⟨_, done⟩ := check_ok.mp done
  obtain ⟨semantic, done⟩ := check_ok.mp done
  cases done
  exact ⟨bind_ok.mpr ⟨original, decoded, stored⟩, require_ok_iff.mp digested, semantic⟩

theorem refreshStages_ok {request : Uuid} (done : refreshStages ledger request = .ok after)
    : after = ledger.refreshed (some request) := by
  unfold refreshStages at done
  cases computed : ledger.stages request with
  | none => rw [computed] at done; cases done
  | some stages =>
      rw [computed] at done
      cases done
      simp [Ledger.refreshed, computed]

theorem CaptureLease.Releases.trans {first second third : CaptureLease}
    (earlier : first.Releases second) (later : second.Releases third)
    : first.Releases third := by
  cases earlier with
  | kept => exact later
  | released moment data digest unreleased =>
      cases later with
      | kept => exact .released moment data digest unreleased
      | released _ _ _ again => cases again

theorem releases_refl (leases : List CaptureLease)
    : List.Forall₂ CaptureLease.Releases leases leases :=
  List.forall₂_same.mpr fun lease _ => .kept lease

/-- Releases of releases, by induction on the first. -/
theorem releases_trans {first second third : List CaptureLease}
    (earlier : List.Forall₂ CaptureLease.Releases first second)
    (later : List.Forall₂ CaptureLease.Releases second third)
    : List.Forall₂ CaptureLease.Releases first third := by
  induction earlier generalizing third with
  | nil => exact later
  | cons head _ ih =>
      obtain ⟨lease, rest, next, others, rfl⟩ := List.forall₂_cons_left_iff.mp later
      exact .cons (head.trans next) (ih others)

variable {moment : Instant} {reason : String}

theorem releaseAll_ok {attempt : Uuid} {token : Int}
    (done : releaseAll sha256 ledger attempt token reason moment = .ok after)
    : ∃ leases, List.Forall₂ CaptureLease.Releases ledger.leases leases
      ∧ after = { ledger with leases } := by
  unfold releaseAll at done
  obtain ⟨data, _, done⟩ := bind_ok.mp done
  cases done
  refine ⟨_, ?_, rfl⟩
  rw [updateWhere, List.forall₂_map_right_iff, List.forall₂_same]
  intro lease _
  split
  · rename_i met
    exact .released moment data _ (of_decide_eq_true met).2
  · exact .kept lease

/-- The leases of several attempts, by induction on the attempts. -/
theorem releaseAttempts_ok {attempts : List WorkAttempt}
    (done : releaseAttempts sha256 reason moment attempts ledger = .ok after)
    : ∃ leases, List.Forall₂ CaptureLease.Releases ledger.leases leases
      ∧ after = { ledger with leases } := by
  induction attempts generalizing ledger with
  | nil =>
      cases done
      exact ⟨_, releases_refl _, rfl⟩
  | cons attempt rest ih =>
      obtain ⟨middle, first, done⟩ := bind_ok.mp done
      obtain ⟨leases, earlier, rfl⟩ := releaseAll_ok first
      obtain ⟨others, later, same⟩ := ih done
      exact ⟨others, releases_trans earlier later, same⟩

/-- The row that `v1_insert_work` adds. -/
structure InsertedWork (before : Ledger) (id : Uuid) (key : WorkKey) (item : WorkItem) : Prop where
  id : item.id = id
  org : item.orgId = key.org
  request : item.requestId = key.request
  kind : item.kind = key.kind
  occurrence : item.occurrenceId = key.occurrence
  new : item.IsNew
  fresh : ∀ other ∈ before.items, other.id ≠ item.id
  once : ∀ other ∈ before.items,
    item.occurrenceId = none ∨ other.occurrenceId ≠ item.occurrenceId

variable {id : Uuid}

theorem insertWork_ok {key : WorkKey} {retry policy : Json} {createdAt nextAttemptAt : Instant}
    (done : insertWork sha256 ledger id key retry policy createdAt nextAttemptAt = .ok after)
    : ∃ item, InsertedWork ledger id key item
      ∧ after = { ledger with items := ledger.items ++ [item] } := by
  unfold insertWork at done
  obtain ⟨payload, _, done⟩ := bind_ok.mp done
  obtain ⟨_, _, done⟩ := bind_ok.mp done
  obtain ⟨retryBytes, _, done⟩ := bind_ok.mp done
  obtain ⟨budgeted, done⟩ := check_ok.mp done
  obtain ⟨fresh, done⟩ := check_ok.mp done
  obtain ⟨_, done⟩ := check_ok.mp done
  obtain ⟨once, done⟩ := check_ok.mp done
  obtain ⟨_, done⟩ := check_ok.mp done
  cases done
  refine ⟨_, ?_, rfl⟩
  exact ⟨rfl, rfl, rfl, rfl, rfl, ⟨rfl, rfl, rfl, demand_ok.mp budgeted⟩,
    checkUnique_ok.mp fresh, checkUnique_ok.mp once⟩

/-- The lease that an attempt takes. -/
structure InsertedLease (before : Ledger) (capture : Uuid) (attempt : WorkAttempt)
    (lease : CaptureLease) : Prop where
  fresh : ∀ other ∈ before.leases,
    other.id ≠ lease.id ∧ other.workAttemptId ≠ lease.workAttemptId
  ofCapture : lease.captureId = capture
  ofAttempt : lease.workAttemptId = attempt.id
  request : lease.requestId = attempt.requestId
  org : lease.orgId = attempt.orgId

variable {attempt : WorkAttempt}

theorem insertLease_ok {capture : Uuid} {acquiredAt expiresAt : Instant}
    (done : insertLease ledger id capture attempt acquiredAt expiresAt = .ok after)
    : ∃ lease, InsertedLease ledger capture attempt lease
      ∧ after = { ledger with leases := ledger.leases ++ [lease] } := by
  unfold insertLease at done
  obtain ⟨fresh, done⟩ := check_ok.mp done
  obtain ⟨once, done⟩ := check_ok.mp done
  cases done
  refine ⟨_, ⟨?_, rfl, rfl, rfl, rfl⟩, rfl⟩
  intro other member
  exact ⟨checkUnique_ok.mp fresh other member, checkUnique_ok.mp once other member⟩

-- Requests

/-- A request holds what a call of `create_request_v1` brought. -/
structure ScanRequest.Records (row : ScanRequest) (call : CreateRequest) (key : Text) : Prop where
  org : row.orgId = call.org
  key : row.idempotencyKey = key
  codebase : row.codebaseId = call.codebase
  bytes : row.requestBytes = call.data
  digest : row.requestDigest = call.digest
  policyBytes : row.plannedPolicyBytes = call.policyBytes
  policyDigest : row.plannedPolicyDigest = call.policyDigest

variable {reply : RequestReply} {call : CreateRequest}

theorem insertRequest_ok (absent : ledger.requests.find? (fun row => row.orgId = call.org
      ∧ row.idempotencyKey = (value.get "idempotency_key").chars) = none)
    (done : insertRequest sha256 env ledger call value = .ok (reply, after))
    : ∃ request item, NewRequest ledger request item
      ∧ request.Records call (value.get "idempotency_key").chars
      ∧ reply = ⟨request.id, request.activeDetectionWorkId, request.revision, false⟩
      ∧ after = { ledger with
          requests := ledger.requests ++ [request]
          items := ledger.items ++ [item] } := by
  unfold insertRequest at done
  obtain ⟨lineage, _, done⟩ := bind_ok.mp done
  obtain ⟨fresh, done⟩ := check_ok.mp done
  obtain ⟨_, done⟩ := check_ok.mp done
  obtain ⟨_, done⟩ := check_ok.mp done
  obtain ⟨middle, inserted, done⟩ := bind_ok.mp done
  cases done
  obtain ⟨item, work, rfl⟩ := insertWork_ok inserted
  refine ⟨{ call.row value (env.generated 0) lineage (env.clock 0) with
    activeDetectionWorkId := some (env.generated 1), revision := 1 }, item, ?_,
    ⟨rfl, rfl, rfl, rfl, rfl, rfl, rfl⟩, rfl, rfl⟩
  refine
    { fresh := checkUnique_ok.mp fresh
      freshKey := fun other member same => ?_
      stages := ⟨rfl, rfl, rfl⟩
      uncancelled := rfl
      active := congrArg some work.id.symm
      freshItem := work.fresh
      itemRequest := work.request
      itemOrg := work.org
      itemKind := work.kind
      noOccurrence := work.occurrence
      new := work.new }
  exact absurd (decide_eq_true same) (List.find?_eq_none.mp absent other member)

/-- `create_request_v1` finds the request of its key, or makes one. -/
theorem createRequest_ok (done : createRequest sha256 env ledger call = .ok (reply, after))
    : ∃ value, envelope sha256 .request call.data call.digest = .ok value
      ∧ ((∃ row ∈ ledger.requests, row.Records call (value.get "idempotency_key").chars
          ∧ reply = ⟨row.id, row.activeDetectionWorkId, row.revision, true⟩ ∧ after = ledger)
        ∨ ∃ request item, NewRequest ledger request item
          ∧ request.Records call (value.get "idempotency_key").chars
          ∧ reply = ⟨request.id, request.activeDetectionWorkId, request.revision, false⟩
          ∧ after = { ledger with
              requests := ledger.requests ++ [request]
              items := ledger.items ++ [item] }) := by
  unfold createRequest at done
  obtain ⟨_, done⟩ := check_ok.mp done
  obtain ⟨value, read, done⟩ := bind_ok.mp done
  obtain ⟨policy, _, done⟩ := bind_ok.mp done
  obtain ⟨_, done⟩ := check_ok.mp done
  obtain ⟨_, done⟩ := check_ok.mp done
  refine ⟨value, read, ?_⟩
  split at done
  · rename_i absent
    exact .inr (insertRequest_ok absent done)
  · rename_i row found
    obtain ⟨same, done⟩ := check_ok.mp done
    cases done
    obtain ⟨member, org, key⟩ := row_of_find? found
    obtain ⟨codebase, bytes, digest, policyBytes, policyDigest⟩ := require_ok_iff.mp same
    exact .inl ⟨row, member, ⟨org, key, codebase, bytes, digest, policyBytes, policyDigest⟩, rfl,
      rfl⟩

variable {reply : CancelReply}

/-- `cancel_request_v1` answers the stored cancellation, or ends the rows of its request. -/
theorem cancelRequest_ok {call : CancelRequest}
    (done : cancelRequest sha256 env ledger call = .ok (reply, after))
    : (∃ row ∈ ledger.requests, row.orgId = call.org ∧ row.id = call.request
        ∧ row.cancellationBytes = some call.data
        ∧ reply = ⟨row.id, row.revision, true⟩ ∧ after = ledger)
      ∨ ∃ row ∈ ledger.requests, row.orgId = call.org ∧ row.id = call.request
        ∧ row.cancellationBytes = none
        ∧ reply.requestId = row.id ∧ reply.replayed = false
        ∧ ∃ leases, List.Forall₂ CaptureLease.Releases ledger.leases leases
          ∧ after = ({ ledger with leases }.cancelRows row.id (env.clock 0) call.data
              call.digest).refreshed (some row.id) := by
  unfold cancelRequest at done
  obtain ⟨_, done⟩ := check_ok.mp done
  obtain ⟨value, _, done⟩ := bind_ok.mp done
  obtain ⟨_, done⟩ := check_ok.mp done
  obtain ⟨row, found, done⟩ := bind_ok.mp done
  obtain ⟨member, org, id⟩ := row_of_find? (expectRow_ok.mp found)
  split at done
  · rename_i stored cancelled
    obtain ⟨same, done⟩ := check_ok.mp done
    cases done
    exact .inl ⟨row, member, org, id, by rw [cancelled, require_ok_iff.mp same], rfl, rfl⟩
  · rename_i uncancelled
    obtain ⟨_, done⟩ := check_ok.mp done
    obtain ⟨released, release, done⟩ := bind_ok.mp done
    obtain ⟨ended, refresh, done⟩ := bind_ok.mp done
    obtain ⟨last, foundLast, done⟩ := bind_ok.mp done
    cases done
    obtain ⟨leases, releases, rfl⟩ := releaseAttempts_ok release
    have lastId : last.id = call.request := (row_of_find? (strict_ok.mp foundLast)).2
    refine .inr ⟨row, member, org, id, uncancelled, lastId.trans id.symm, rfl, leases, releases, ?_⟩
    rw [id]
    exact refreshStages_ok refresh

theorem cancelRequest_read {call : CancelRequest}
    (done : cancelRequest sha256 env ledger call = .ok (reply, after))
    : ∃ value, envelope sha256 .cancellation call.data call.digest = .ok value := by
  unfold cancelRequest at done
  obtain ⟨_, done⟩ := check_ok.mp done
  obtain ⟨value, read, _⟩ := bind_ok.mp done
  exact ⟨value, read⟩

theorem checkRetirable_ok {capture : SourceCapture}
    (done : checkRetirable ledger capture moment = .ok ())
    : ledger.Retirable capture moment := by
  unfold checkRetirable at done
  split at done
  · rename_i active
    obtain ⟨elapsed, done⟩ := check_ok.mp done
    obtain ⟨unused, settled⟩ := check_ok.mp done
    have unused := require_ok_iff.mp unused
    have settled := require_ok_iff.mp settled
    refine ⟨fun _ => ⟨require_ok_iff.mp elapsed, ?_, ?_⟩, fun inactive => absurd active inactive⟩
    · intro lease member own unreleased
      exact Int.not_lt.mp fun live => unused ⟨lease, member, own, unreleased, live⟩
    · intro item member own unsettled
      exact settled ⟨item, member, own, unsettled⟩
  · rename_i inactive
    exact ⟨fun active => absurd active inactive, fun _ => require_ok_iff.mp done⟩

/-- `claim_retirement_v1`. -/
theorem claimRetirement_ok {call : ClaimRetirement} {reply : RetirementClaim}
    (done : claimRetirement env ledger call = .ok (reply, after))
    : ∃ capture ∈ ledger.captures, capture.orgId = call.org ∧ capture.id = call.capture
      ∧ capture.revision = call.revision ∧ capture.retentionState ≠ .retired
      ∧ ledger.Retirable capture (env.clock 0)
      ∧ reply = ⟨capture.id, capture.storageObjectId, capture.storageReference,
          capture.cleanupToken + 1, capture.revision + 1, some (env.clock 0 + seconds 300)⟩
      ∧ after = { ledger with
          captures := updateWhere (fun row => row.id = capture.id) (·.claimCleanup (env.clock 0))
            ledger.captures } := by
  unfold claimRetirement at done
  obtain ⟨_, done⟩ := check_ok.mp done
  obtain ⟨capture, found, done⟩ := bind_ok.mp done
  obtain ⟨current, done⟩ := check_ok.mp done
  obtain ⟨retirable, done⟩ := check_ok.mp done
  cases done
  obtain ⟨member, org, id⟩ := row_of_find? (expectRow_ok.mp found)
  obtain ⟨revision, unretired⟩ := require_ok_iff.mp current
  exact ⟨capture, member, org, id, revision, unretired, checkRetirable_ok retirable, rfl,
    by rw [id]⟩

/-- `finish_retirement_v1` answers the stored evidence, or retires the capture of the latest
cleanup claim.
-/
theorem finishRetirement_ok {call : FinishRetirement} {reply : RetirementReply}
    (done : finishRetirement sha256 env ledger call = .ok (reply, after))
    : ∃ value, envelope sha256 .retirement call.data call.digest = .ok value
      ∧ ∃ capture ∈ ledger.captures, capture.orgId = call.org ∧ capture.id = call.capture
        ∧ ((capture.retentionState = .retired ∧ capture.retirementBytes = some call.data
            ∧ capture.retirementDigest = some call.digest
            ∧ reply = ⟨capture.id, capture.revision, true⟩ ∧ after = ledger)
          ∨ (capture.retentionState = .retiring ∧ capture.revision = call.revision
            ∧ capture.cleanupToken = (value.get "token").integer
            ∧ (∃ expiry ∈ capture.cleanupExpiresAt, env.clock 0 < expiry)
            ∧ reply = ⟨capture.id, capture.revision + 1, false⟩
            ∧ after = { ledger with
                captures := updateWhere (fun row => row.id = capture.id)
                  (·.retire call.data call.digest) ledger.captures })) := by
  unfold finishRetirement at done
  obtain ⟨_, done⟩ := check_ok.mp done
  obtain ⟨value, read, done⟩ := bind_ok.mp done
  obtain ⟨capture, found, done⟩ := bind_ok.mp done
  obtain ⟨_, done⟩ := check_ok.mp done
  obtain ⟨member, org, id⟩ := row_of_find? (expectRow_ok.mp found)
  refine ⟨value, read, capture, member, org, id, ?_⟩
  split at done
  · rename_i retired
    obtain ⟨same, done⟩ := check_ok.mp done
    cases done
    obtain ⟨bytes, digest⟩ := require_ok_iff.mp same
    exact .inl ⟨retired, bytes, digest, rfl, rfl⟩
  · obtain ⟨current, done⟩ := check_ok.mp done
    cases done
    obtain ⟨retiring, revision, token, claimed⟩ := require_ok_iff.mp current
    exact .inr ⟨retiring, revision, token, claimed, rfl, by rw [id]⟩

-- Attempts

variable {now : Instant}

theorem leaseCapture_ok {capture : Option SourceCapture}
    (done : leaseCapture ledger id capture attempt now = .ok after)
    : (capture = none ∧ after = ledger)
      ∨ ∃ row lease, capture = some row ∧ InsertedLease ledger row.id attempt lease
        ∧ after = { ledger with leases := ledger.leases ++ [lease] } := by
  unfold leaseCapture at done
  split at done
  · rename_i row
    obtain ⟨lease, inserted, same⟩ := insertLease_ok done
    exact .inr ⟨row, lease, rfl, inserted, same⟩
  · cases done
    exact .inl ⟨rfl, rfl⟩

variable {locked : Locked} {call : Claim}

theorem claimItem_ok {work : Uuid} {reply : ClaimReply}
    (held : lockWork env ledger call.org work call.kind = .ok locked)
    (pending : locked.work.state = .pending)
    (done : claimItem env ledger call value locked now = .ok (reply, after))
    : ∃ attempt leases, NewAttempt ledger locked attempt leases
      ∧ after = { ledger.startAttempt attempt with
          leases := ledger.leases ++ leases }.refreshed (some locked.work.requestId) := by
  obtain ⟨⟨work, _, workOrg, workKind⟩, ⟨request, requestId, _⟩, captured⟩ := lockWork_ok held
  unfold claimItem at done
  obtain ⟨uncancelled, done⟩ := check_ok.mp done
  obtain ⟨_, done⟩ := check_ok.mp done
  obtain ⟨policy, _, done⟩ := bind_ok.mp done
  obtain ⟨_, done⟩ := check_ok.mp done
  obtain ⟨budget, done⟩ := check_ok.mp done
  obtain ⟨_, done⟩ := check_ok.mp done
  obtain ⟨fresh, done⟩ := check_ok.mp done
  obtain ⟨_, done⟩ := check_ok.mp done
  obtain ⟨leased, lease, done⟩ := bind_ok.mp done
  obtain ⟨ended, refresh, done⟩ := bind_ok.mp done
  obtain ⟨payload, _, done⟩ := bind_ok.mp done
  cases done
  have new {leases : List CaptureLease}
      (leased : leases = [] ∨ ∃ capture ∈ ledger.captures, ∃ lease, leases = [lease]
        ∧ capture.ownerRequestId = locked.request.id ∧ capture.orgId = locked.work.orgId
        ∧ lease.captureId = capture.id
        ∧ lease.workAttemptId = env.generated 0 ∧ lease.requestId = locked.work.requestId
        ∧ lease.orgId = call.org
        ∧ ∀ other ∈ ledger.leases,
          other.id ≠ lease.id ∧ other.workAttemptId ≠ lease.workAttemptId)
      : NewAttempt ledger locked (call.attempt value locked.work (env.generated 0) now) leases :=
    { work, pending, budget := require_ok_iff.mp budget, request, requestId
      uncancelled := require_ok_iff.mp uncancelled
      fresh := checkUnique_ok.mp fresh
      attemptWork := rfl
      attemptRequest := rfl
      attemptOrg := workOrg.symm
      attemptKind := workKind.symm
      number := rfl
      token := rfl
      running := rfl
      leased }
  rcases leaseCapture_ok lease with ⟨_, rfl⟩ | ⟨capture, row, found, inserted, rfl⟩
  · refine ⟨_, [], new (.inl rfl), ?_⟩
    rw [List.append_nil]
    exact refreshStages_ok refresh
  · rw [captured] at found
    obtain ⟨member, org, owner⟩ := row_of_find? found
    refine ⟨_, [row], new (.inr ⟨capture, member, row, rfl, owner, org.trans workOrg.symm,
      inserted.ofCapture, inserted.ofAttempt, inserted.request, inserted.org, inserted.fresh⟩), ?_⟩
    exact refreshStages_ok refresh

/-- `v1_claim` takes no candidate or one, by induction on the candidates. -/
theorem claimCandidates_ok {candidates : List WorkItem} {reading : Nat} {reply : Option ClaimReply}
    (done : claimCandidates env ledger call value candidates reading = .ok (reply, after))
    : (reply = none ∧ after = ledger)
      ∨ ∃ locked attempt leases, NewAttempt ledger locked attempt leases
        ∧ after = { ledger.startAttempt attempt with
            leases := ledger.leases ++ leases }.refreshed (some locked.work.requestId) := by
  induction candidates generalizing reading with
  | nil =>
      cases done
      exact .inl ⟨rfl, rfl⟩
  | cons candidate rest ih =>
      unfold claimCandidates at done
      split at done
      · exact ih done
      · obtain ⟨locked, held, done⟩ := bind_ok.mp done
        dsimp only at done
        split at done
        · exact ih done
        · rename_i eligible
          obtain ⟨⟨answer, ended⟩, taken, done⟩ := bind_ok.mp done
          cases done
          have pending : locked.work.state = .pending :=
            not_ne_iff.mp fun settled => eligible (.inl settled)
          obtain ⟨attempt, leases, new, same⟩ := claimItem_ok held pending taken
          exact .inr ⟨locked, attempt, leases, new, same⟩

theorem claim_ok {reply : Option ClaimReply}
    (done : claim sha256 env ledger call = .ok (reply, after))
    : (reply = none ∧ after = ledger)
      ∨ ∃ locked attempt leases, NewAttempt ledger locked attempt leases
        ∧ after = { ledger.startAttempt attempt with
            leases := ledger.leases ++ leases }.refreshed (some locked.work.requestId) := by
  unfold claim at done
  obtain ⟨_, done⟩ := check_ok.mp done
  obtain ⟨value, _, done⟩ := bind_ok.mp done
  exact claimCandidates_ok done

variable {call : Call} {kind : WorkKind}

theorem renew_ok {reply : RenewReply} (done : renew env ledger call kind = .ok (reply, after))
    : ∃ locked attempt, Live ledger call kind locked attempt (env.clock 0)
      ∧ after = (ledger.extend attempt.id
          (env.clock 0 + seconds locked.work.leaseSeconds)).touch locked.work.id := by
  unfold renew at done
  obtain ⟨⟨locked, attempt⟩, live, done⟩ := bind_ok.mp done
  cases done
  exact ⟨locked, attempt, lockLive_ok live, rfl⟩

/-- The row that a lease action of a live attempt leaves. -/
def LeaseAction.result (action : LeaseAction) (ledger : Ledger) (work : WorkItem)
    (attempt : WorkAttempt) (consumer : CaptureLease) (now : Instant) : Ledger :=
  match action with
  | .acquire => ledger
  | .renew =>
      { ledger with
        leases := updateWhere (fun lease => lease.id = consumer.id)
          (fun lease => { lease with expiresAt := attempt.leaseExpiresAt }) ledger.leases }.touch
            work.id
  | .release data digest =>
      { ledger with
        leases := updateWhere (fun lease => lease.id = consumer.id)
          (·.release now data digest) ledger.leases }.touch work.id

variable {action : LeaseAction}

theorem changeLease_ok {reply : LeaseReply}
    (done : changeLease env ledger call kind action now = .ok (reply, after))
    : ∃ locked attempt consumer, Live ledger call kind locked attempt now
      ∧ consumer ∈ ledger.leases ∧ consumer.workAttemptId = attempt.id
      ∧ reply.leaseId = consumer.id
      ∧ after = action.result ledger locked.work attempt consumer now := by
  unfold changeLease at done
  obtain ⟨⟨locked, attempt⟩, live, done⟩ := bind_ok.mp done
  obtain ⟨consumer, found, done⟩ := bind_ok.mp done
  obtain ⟨member, own⟩ := row_of_find? (expectRow_ok.mp found)
  refine ⟨locked, attempt, consumer, lockLive_ok live, member, own, ?_⟩
  cases action <;> cases done <;> exact ⟨rfl, rfl⟩

/-- `v1_capture_lease` answers a stored release, or changes the lease of a live attempt. -/
theorem captureLease_ok {reply : LeaseReply}
    (done : captureLease sha256 env ledger call kind action = .ok (reply, after))
    : (∃ consumer ∈ ledger.leases, consumer.workAttemptId = call.attempt
        ∧ consumer.releasedAt ≠ none
        ∧ (∃ data digest, action = .release data digest ∧ consumer.releaseBytes = some data
          ∧ consumer.releaseDigest = some digest)
        ∧ reply.leaseId = consumer.id ∧ reply.replayed = true ∧ after = ledger)
      ∨ ∃ locked attempt consumer, Live ledger call kind locked attempt (env.clock 1)
        ∧ consumer ∈ ledger.leases ∧ consumer.workAttemptId = attempt.id
        ∧ reply.leaseId = consumer.id
        ∧ after = action.result ledger locked.work attempt consumer (env.clock 1) := by
  unfold captureLease at done
  obtain ⟨⟨locked, attempt⟩, held, done⟩ := bind_ok.mp done
  cases action with
  | acquire => exact .inr (changeLease_ok done)
  | renew => exact .inr (changeLease_ok done)
  | release data digest =>
      obtain ⟨value, _, done⟩ := bind_ok.mp done
      obtain ⟨_, done⟩ := check_ok.mp done
      split at done
      · rename_i consumer found
        obtain ⟨same, done⟩ := check_ok.mp done
        cases done
        obtain ⟨found, released⟩ := Option.filter_eq_some_iff.mp found
        obtain ⟨member, own⟩ := row_of_find? found
        have own := own.trans (lockAttempt_ok held).attemptId
        exact .inl ⟨consumer, member, own, by simpa using released,
          ⟨data, digest, rfl, require_ok_iff.mp same⟩, rfl, rfl, rfl⟩
      · exact .inr (changeLease_ok done)

/-- A seal holds what a call of `register_capture_and_seal_v1` brought. -/
structure ScanSeal.Records (row : ScanSeal) (call : Registration) : Prop where
  bytes : row.sealBytes = call.data
  digest : row.sealDigest = call.digest
  content : row.acceptedContentBytes = call.content
  spec : row.acceptedSpecBytes = call.spec
  detectors : row.acceptedDetectorBytes = call.detectors
  rules : row.acceptedRuleBytes = call.rules
  evidence : row.acceptanceEvidenceBytes = call.authorityEvidence

theorem checkRegistration_ok {call : Registration} {inventory : Json}
    (done : checkRegistration sha256 call = .ok (value, inventory))
    : envelope sha256 .scanSeal call.data call.digest = .ok value
      ∧ envelope sha256 .sourceInventory call.inventory call.inventoryDigest = .ok inventory
      ∧ (∃ accepted, envelope sha256 .acceptedContent call.content call.contentDigest = .ok accepted)
      ∧ value.get "inventory_digest" = .str (hex call.inventoryDigest) := by
  unfold checkRegistration at done
  obtain ⟨read, first, done⟩ := bind_ok.mp done
  obtain ⟨files, second, done⟩ := bind_ok.mp done
  obtain ⟨accepted, third, done⟩ := bind_ok.mp done
  obtain ⟨_, done⟩ := check_ok.mp done
  obtain ⟨digests, done⟩ := check_ok.mp done
  obtain ⟨_, done⟩ := check_ok.mp done
  obtain ⟨_, done⟩ := check_ok.mp done
  obtain ⟨_, done⟩ := check_ok.mp done
  obtain ⟨_, done⟩ := check_ok.mp done
  obtain ⟨_, done⟩ := check_ok.mp done
  cases done
  exact ⟨first, second, ⟨accepted, third⟩, (require_ok_iff.mp digests).2.2.1⟩

variable {registration : Registration}

theorem insertCapture_ok {reply : SealReply}
    (read : envelope sha256 .scanSeal registration.data registration.digest = .ok value)
    (done : insertCapture sha256 env ledger registration value locked.work attempt moment
      = .ok (reply, after))
    : ∃ capture sealed lease, NewCapture sha256 ledger locked attempt capture sealed lease
      ∧ sealed.Records registration
      ∧ reply = ⟨capture.id, sealed.id, false⟩
      ∧ after = { ledger with
          captures := ledger.captures ++ [capture]
          seals := ledger.seals ++ [sealed]
          leases := ledger.leases ++ [lease] }.captured locked.work.requestId := by
  unfold insertCapture at done
  obtain ⟨storage, _, done⟩ := bind_ok.mp done
  obtain ⟨fresh, done⟩ := check_ok.mp done
  obtain ⟨freshSeal, done⟩ := check_ok.mp done
  obtain ⟨leased, lease, done⟩ := bind_ok.mp done
  cases done
  obtain ⟨row, inserted, rfl⟩ := insertLease_ok lease
  refine ⟨_, _, row, ?_, ⟨rfl, rfl, rfl, rfl, rfl, rfl, rfl⟩, rfl, rfl⟩
  exact
    { fresh := fun other member =>
        ⟨(checkUnique_ok.mp fresh other member).1,
          (checkUnique_ok.mp fresh other member).2.1⟩
      owner := rfl
      org := rfl
      retained := rfl
      unclaimed := ⟨rfl, rfl, rfl⟩
      freshSeal := checkUnique_ok.mp freshSeal
      sealRequest := rfl
      sealOrg := rfl
      sealCapture := rfl
      content := ⟨value, read⟩
      freshLease := inserted.fresh
      leaseAttempt := inserted.ofAttempt
      leaseCapture := inserted.ofCapture
      leaseRequest := inserted.request
      leaseOrg := inserted.org }

/-- `register_capture_and_seal_v1` answers the stored seal of a live attempt's request, or stores
the capture and the seal.
-/
theorem registerCaptureAndSeal_ok {reply : SealReply}
    (done : registerCaptureAndSeal sha256 env ledger call registration = .ok (reply, after))
    : ∃ value inventory, checkRegistration sha256 registration = .ok (value, inventory)
      ∧ ∃ locked attempt, Live ledger call .captureDetection locked attempt (env.clock 0)
        ∧ uuidOf (value.get "request_id") = some locked.work.requestId
        ∧ ((∃ old ∈ ledger.seals, old.orgId = call.org ∧ old.requestId = locked.work.requestId
            ∧ old.Records registration ∧ reply = ⟨old.captureId, old.id, true⟩ ∧ after = ledger)
          ∨ ∃ capture sealed lease, NewCapture sha256 ledger locked attempt capture sealed lease
            ∧ sealed.Records registration
            ∧ reply = ⟨capture.id, sealed.id, false⟩
            ∧ after = { ledger with
                captures := ledger.captures ++ [capture]
                seals := ledger.seals ++ [sealed]
                leases := ledger.leases ++ [lease] }.captured locked.work.requestId) := by
  unfold registerCaptureAndSeal at done
  obtain ⟨⟨value, inventory⟩, checked, done⟩ := bind_ok.mp done
  obtain ⟨⟨locked, attempt⟩, live, done⟩ := bind_ok.mp done
  obtain ⟨scope, done⟩ := check_ok.mp done
  obtain ⟨requested, _, done⟩ := bind_ok.mp done
  obtain ⟨plan, _, done⟩ := bind_ok.mp done
  obtain ⟨_, done⟩ := check_ok.mp done
  obtain ⟨_, done⟩ := check_ok.mp done
  refine ⟨value, inventory, checked, locked, attempt, lockLive_ok live,
    require_ok_iff.mp scope, ?_⟩
  split at done
  · exact .inr (insertCapture_ok (checkRegistration_ok checked).1 done)
  · rename_i old found
    obtain ⟨same, done⟩ := check_ok.mp done
    cases done
    obtain ⟨member, org, request⟩ := row_of_find? found
    obtain ⟨bytes, digest, content, spec, detectors, rules, evidence⟩ := require_ok_iff.mp same
    exact .inl ⟨old, member, org, request,
      ⟨bytes, digest, content, spec, detectors, rules, evidence⟩, rfl, rfl⟩

variable {content : Json}

theorem mem_bindingKeys {key : Text}
    : key ∈ bindingKeys content
      ↔ ∃ binding ∈ (content.get "bindings").items, (binding.get "key").chars = key := by
  rw [bindingKeys, mem_sorted, List.mem_map]

theorem startRun_ok {sealed : ScanSeal} {binding : Json} {reply : RunReply}
    (live : Live ledger call .captureDetection locked attempt now) (member : sealed ∈ ledger.seals)
    (org : sealed.orgId = call.org) (request : sealed.requestId = locked.work.requestId)
    (stored : storedJson sealed.sealBytes = .ok content)
    (bound : binding ∈ (content.get "bindings").items)
    (key : binding.get "key" = value.get "binding_key")
    (absent : ledger.runs.find? (fun run => run.orgId = call.org
      ∧ run.requestId = sealed.requestId
      ∧ run.detectorBindingKey = (value.get "binding_key").chars ∧ run.state = .completed) = none)
    (done : startRun env ledger value sealed attempt data digest now = .ok (reply, after))
    : (after = ledger ∧ reply.replayed = true)
      ∨ ∃ run, NewRun ledger locked attempt run
        ∧ after = { ledger with runs := ledger.runs ++ [run] } := by
  unfold startRun at done
  obtain ⟨noPartial, done⟩ := check_ok.mp done
  split at done
  · obtain ⟨_, done⟩ := check_ok.mp done
    obtain ⟨_, done⟩ := check_ok.mp done
    cases done
    exact .inl ⟨rfl, rfl⟩
  · obtain ⟨noneOpen, done⟩ := check_ok.mp done
    obtain ⟨leaves, done⟩ := check_ok.mp done
    obtain ⟨fresh, done⟩ := check_ok.mp done
    cases done
    have noneOpen := require_ok_iff.mp noneOpen
    have fresh := checkUnique_ok.mp fresh
    refine .inr ⟨_, ?_, rfl⟩
    exact
      { sealed := ⟨sealed, member, rfl, rfl, rfl, content, stored,
          mem_bindingKeys.mpr ⟨binding, bound, congrArg Json.chars key⟩⟩
        request
        org := org.trans live.workOrg.symm
        work := live.attemptWork
        attempt := rfl
        fresh := fun other among => (fresh other among).1
        running := rfl
        empty := rfl
        noResult := ⟨rfl, rfl⟩
        noneCompleted := fun other among ownOrg ownRequest ownKey completed =>
          List.find?_eq_none.mp absent other among
            (decide_eq_true ⟨ownOrg.trans org, ownRequest, ownKey, completed⟩)
        noPartial := require_ok_iff.mp noPartial
        noneOpen := fun other among ownRequest ownKey unsettled =>
          noneOpen ⟨other, among, ownRequest, ownKey, unsettled⟩
        supersedes := rfl
        leaves := require_ok_iff.mp leaves
        once := fun other among => (fresh other among).2 }

/-- `begin_detector_run_v1` answers a run that it finds, or starts one. -/
theorem beginDetectorRun_ok {reply : RunReply}
    (done : beginDetectorRun sha256 env ledger call data digest = .ok (reply, after))
    : ∃ locked attempt, Live ledger call .captureDetection locked attempt (env.clock 0)
      ∧ ((after = ledger ∧ reply.replayed = true)
        ∨ ∃ run, NewRun ledger locked attempt run
          ∧ after = { ledger with runs := ledger.runs ++ [run] }) := by
  unfold beginDetectorRun at done
  obtain ⟨value, _, done⟩ := bind_ok.mp done
  obtain ⟨⟨locked, attempt⟩, held, done⟩ := bind_ok.mp done
  obtain ⟨sealed, foundSeal, done⟩ := bind_ok.mp done
  obtain ⟨found, reading, done⟩ := bind_ok.mp done
  obtain ⟨binding, named, done⟩ := bind_ok.mp done
  obtain ⟨_, done⟩ := check_ok.mp done
  have live := lockLive_ok held
  refine ⟨locked, attempt, live, ?_⟩
  split at done
  · obtain ⟨_, done⟩ := check_ok.mp done
    cases done
    exact .inl ⟨rfl, rfl⟩
  · rename_i absent
    obtain ⟨member, org, request⟩ := row_of_find? (expectRow_ok.mp foundSeal)
    obtain ⟨content, stored, same⟩ := bind_ok.mp reading
    have found := (Except.ok.inj same).trans (expectRow_ok.mp named)
    obtain ⟨bound, key⟩ := row_of_find? found
    exact startRun_ok live member org request stored bound key absent done

end Scanipy.Db.Execution

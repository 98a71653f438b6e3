import Scanipy.Db.Execution.Frame

/-! Retirement in the execution ledger: a capture leaves its active state only at rest, its request
stays at rest from then on, and only the latest cleanup claim retires it.
-/

namespace Scanipy.Db.Execution

open Library Python Services.Scan.OccurrenceStore

variable {sha256 : Bytes → Bytes} {ledger before after : Ledger}

/-- The state stays, or goes one step from active over retiring to retired. -/
def RetentionState.Moves (old new : RetentionState) : Prop :=
  new = old ∨ (old = .active ∧ new = .retiring) ∨ (old = .retiring ∧ new = .retired)

/-- No work of the capture's request is open, and no lease on the capture is live. -/
def Ledger.Unused (ledger : Ledger) (capture : SourceCapture) (now : Instant) : Prop :=
  (∀ item ∈ ledger.items, item.requestId = capture.ownerRequestId → ¬item.state.IsOpen)
    ∧ ∀ lease ∈ ledger.leases, lease.captureId = capture.id → lease.releasedAt = none
      → lease.expiresAt ≤ now

theorem Ledger.refreshed_captures (subject : Option Uuid)
    : (ledger.refreshed subject).captures = ledger.captures := by
  unfold Ledger.refreshed
  split <;> rfl

variable {capture : SourceCapture}

/-- A capture keeps its row and moves one step, out of its active state only when it is due and
unused.
-/
theorem Ledger.Becomes.capture_moves {during : Instant → Prop}
    (step : before.Becomes sha256 during after) (keyed : Keyed sha256 before)
    (member : capture ∈ before.captures)
    : ∃ next ∈ after.captures, next.id = capture.id
      ∧ next.ownerRequestId = capture.ownerRequestId
      ∧ capture.retentionState.Moves next.retentionState
      ∧ (capture.retentionState = .active → next.retentionState ≠ .active →
        ∃ now, during now ∧ capture.retainUntil ≤ now ∧ before.Unused capture now) := by
  obtain ⟨subject, written, effect, rfl⟩ := step
  rw [Ledger.refreshed_captures]
  rcases effect.captures_cases with same | ⟨new, same, _⟩
    | ⟨row, among, moment, timely, unretired, retirable, same⟩
    | ⟨row, among, data, digest, retiring, same⟩
  · rw [same]
    exact ⟨capture, member, rfl, rfl, .inl rfl, fun active left => absurd active left⟩
  · rw [same]
    exact ⟨capture, List.mem_append_left _ member, rfl, rfl, .inl rfl,
      fun active left => absurd active left⟩
  · rw [same]
    by_cases own : capture.id = row.id
    · have equal := keyed.captureIds.eq member among own
      subst equal
      refine ⟨_, mem_updateWhere_of_met member (decide_eq_true rfl), rfl, rfl, ?_, ?_⟩
      · cases state : capture.retentionState with
        | active => exact .inr (.inl ⟨rfl, rfl⟩)
        | retiring => exact .inl rfl
        | retired => exact absurd state unretired
      · intro active _
        obtain ⟨due, unleased, settled⟩ := retirable.1 active
        exact ⟨moment, timely, due, settled, unleased⟩
    · exact ⟨capture, mem_updateWhere_of_spared member (decide_eq_false own), rfl, rfl, .inl rfl,
        fun active left => absurd active left⟩
  · rw [same]
    by_cases own : capture.id = row.id
    · have equal := keyed.captureIds.eq member among own
      subst equal
      refine ⟨_, mem_updateWhere_of_met member (decide_eq_true rfl), rfl, rfl,
        .inr (.inr ⟨retiring, rfl⟩), ?_⟩
      intro active
      rw [retiring] at active
      cases active
    · exact ⟨capture, mem_updateWhere_of_spared member (decide_eq_false own), rfl, rfl, .inl rfl,
        fun active left => absurd active left⟩

-- Cleanup claims

/-- Only a claim puts a capture into cleanup. Witness: the captures after every other operation. -/
theorem retiring_before {env : Environment} {operation : Operation} {reply : Reply}
    (done : perform sha256 env ledger operation = .ok (reply, after))
    (other : ∀ call, operation ≠ .claimRetirement call) (member : capture ∈ after.captures)
    (retiring : capture.retentionState = .retiring)
    : capture ∈ ledger.captures := by
  cases operation with
  | claimRetirement call => exact absurd rfl (other call)
  | createRequest =>
      obtain ⟨answer, done, _⟩ := map_ok done
      obtain ⟨_, _, ⟨_, _, _, _, rfl⟩ | ⟨_, _, _, _, _, rfl⟩⟩ := createRequest_ok done
      · exact member
      · exact member
  | cancelRequest =>
      obtain ⟨answer, done, _⟩ := map_ok done
      obtain ⟨_, _, _, _, _, _, rfl⟩ | ⟨_, _, _, _, _, _, _, _, _, rfl⟩ := cancelRequest_ok done
      · exact member
      · rw [Ledger.refreshed_captures] at member
        exact member
  | finishRetirement =>
      obtain ⟨answer, done, _⟩ := map_ok done
      obtain ⟨_, _, row, _, _, _, ⟨_, _, _, _, rfl⟩ | ⟨_, _, _, _, _, rfl⟩⟩ :=
        finishRetirement_ok done
      · exact member
      · rcases mem_updateWhere_cases member with ⟨old, _⟩ | ⟨_, _, _, rfl⟩
        · exact old
        · cases retiring
  | claim =>
      obtain ⟨answer, done, _⟩ := map_ok done
      obtain ⟨_, rfl⟩ | ⟨_, _, _, _, rfl⟩ := claim_ok done
      · exact member
      · rw [Ledger.refreshed_captures] at member
        exact member
  | renew =>
      obtain ⟨answer, done, _⟩ := map_ok done
      obtain ⟨_, _, _, rfl⟩ := renew_ok done
      exact member
  | captureLease _ _ action =>
      obtain ⟨answer, done, _⟩ := map_ok done
      obtain ⟨_, _, _, _, _, _, _, rfl⟩ | ⟨_, _, _, _, _, _, _, rfl⟩ := captureLease_ok done
      · exact member
      · cases action <;> exact member
  | registerCaptureAndSeal =>
      obtain ⟨answer, done, _⟩ := map_ok done
      obtain ⟨_, _, _, _, _, _, _, ⟨_, _, _, _, _, _, rfl⟩ | ⟨_, _, _, new, _, _, rfl⟩⟩ :=
        registerCaptureAndSeal_ok done
      · exact member
      · rcases List.mem_append.mp member with earlier | later
        · exact earlier
        · rw [List.mem_singleton.mp later, new.retained] at retiring
          cases retiring
  | beginDetectorRun =>
      obtain ⟨answer, done, _⟩ := map_ok done
      obtain ⟨_, _, _, ⟨rfl, _⟩ | ⟨_, _, rfl⟩⟩ := beginDetectorRun_ok done
      · exact member
      · exact member
  | retainDetectionBatch =>
      obtain ⟨answer, done, _⟩ := map_ok done
      obtain ⟨_, _, _, _, _, _, _, _, ⟨_, _, _, _, rfl⟩ | ⟨_, _, _, _, _, _, _, _, _, _, rfl⟩⟩ :=
        retainDetectionBatch_ok done
      · exact member
      · rw [Ledger.refreshed_captures] at member
        exact member
  | failDetectorRun =>
      obtain ⟨answer, done, _⟩ := map_ok done
      obtain ⟨_, _, _, _, _, _, _, ⟨_, _, _, _, _, _, rfl⟩ | ⟨_, _, _, _, _, rfl⟩⟩ :=
        failDetectorRun_ok done
      · exact member
      · rw [Ledger.refreshed_captures] at member
        exact member
  | finish =>
      obtain ⟨answer, done, _⟩ := map_ok done
      obtain ⟨_, _, _, _, _, ⟨_, _, _, _, _, rfl⟩ | ⟨_, _, _, _, _, _, _, _, _, rfl⟩⟩ :=
        finish_ok done
      · exact member
      · rw [Ledger.refreshed_captures] at member
        exact member

/-- A claim answers with the row that it leaves. -/
def RetirementClaim.Of (answer : RetirementClaim) (capture : SourceCapture) : Prop :=
  answer.captureId = capture.id ∧ answer.fencingToken = capture.cleanupToken
    ∧ answer.revision = capture.revision ∧ answer.leaseExpiresAt = capture.cleanupExpiresAt

/-- A cleanup claim on the capture succeeds at a time. -/
def History.ClaimedAt (history : History sha256) (time : Nat) (capture : Uuid)
    (answer : RetirementClaim) : Prop :=
  ∃ call, history.calls time = .claimRetirement call ∧ call.capture = capture
    ∧ history.outcomes time = .ok (.retirement answer)

variable {time : Nat}

/-- A claim raises the token of its capture by one. -/
theorem History.claimedAt_raises (history : History sha256) {id : Uuid} {answer : RetirementClaim}
    (claimed : history.ClaimedAt time id answer)
    : ∃ capture ∈ (history.ledger time).captures, capture.id = id
      ∧ ∃ next ∈ (history.ledger (time + 1)).captures, next.id = id
        ∧ next.cleanupToken = capture.cleanupToken + 1 ∧ next.retentionState = .retiring
        ∧ answer.Of next := by
  obtain ⟨call, called, named, answered⟩ := claimed
  obtain ⟨env, _, ⟨reply, outcome, performed⟩ | ⟨_, outcome, _⟩⟩ := (history.steps time).cases
  · rw [called] at performed
    obtain ⟨claim, done, rfl⟩ := map_ok performed
    rw [answered] at outcome
    cases outcome
    obtain ⟨capture, member, _, ofCall, _, _, _, rfl, same⟩ := claimRetirement_ok done
    refine ⟨capture, member, ofCall.trans named, capture.claimCleanup (env.clock 0), ?_,
      ofCall.trans named, rfl, rfl, rfl, rfl, rfl, rfl⟩
    rw [History.ledger, same]
    exact mem_updateWhere_of_met member (decide_eq_true rfl)
  · rw [answered] at outcome
    cases outcome

/-- A step without a claim on a capture in cleanup leaves its row. -/
theorem History.unclaimed_step (history : History sha256)
    (unclaimed : ¬∃ answer, history.ClaimedAt time capture.id answer)
    (member : capture ∈ (history.ledger (time + 1)).captures)
    (retiring : capture.retentionState = .retiring)
    : capture ∈ (history.ledger time).captures := by
  obtain ⟨env, _, ⟨reply, outcome, performed⟩ | ⟨_, _, same⟩⟩ := (history.steps time).cases
  · by_cases claims : ∃ call, history.calls time = .claimRetirement call
    · obtain ⟨call, called⟩ := claims
      rw [called] at performed
      obtain ⟨claim, done, rfl⟩ := map_ok performed
      obtain ⟨row, _, _, ofCall, _, _, _, _, same⟩ := claimRetirement_ok done
      rw [History.ledger, same] at member
      rcases mem_updateWhere_cases member with ⟨old, _⟩ | ⟨old, _, met, rfl⟩
      · exact old
      · have id : old.id = row.id := of_decide_eq_true met
        exact absurd ⟨claim, call, called, ofCall.symm.trans id.symm, outcome⟩ unclaimed
    · exact retiring_before performed (fun call called => claims ⟨call, called⟩) member retiring
  · rw [History.ledger, same] at member
    exact member

/-- A capture in cleanup has been claimed, and not again since. Witness: by induction on the time;
only claims put a capture into cleanup.
-/
theorem History.latest_claim (history : History sha256) (time : Nat)
    (member : capture ∈ (history.ledger time).captures)
    (retiring : capture.retentionState = .retiring)
    : ∃ earlier < time, ∃ answer, history.ClaimedAt earlier capture.id answer ∧ answer.Of capture
      ∧ ∀ between, earlier < between → between < time
        → ∀ other, ¬history.ClaimedAt between capture.id other := by
  induction time generalizing capture with
  | zero =>
      rw [History.ledger, history.start] at member
      cases member
  | succ time ih =>
      by_cases claimed : ∃ answer, history.ClaimedAt time capture.id answer
      · obtain ⟨answer, claimed⟩ := claimed
        obtain ⟨_, _, _, next, nextMember, nextId, _, _, ofNext⟩ :=
          history.claimedAt_raises claimed
        have same := (history.sound (time + 1)).keyed.captureIds.eq nextMember member nextId
        refine ⟨time, Nat.lt_succ_self time, answer, claimed, same ▸ ofNext, ?_⟩
        intro between later bounded
        exact absurd (Nat.lt_of_lt_of_le later (Nat.le_of_lt_succ bounded)) (Nat.lt_irrefl time)
      · have old := history.unclaimed_step claimed member retiring
        obtain ⟨earlier, bounded, answer, claim, ofCapture, none⟩ := ih old retiring
        refine ⟨earlier, Nat.lt_succ_of_lt bounded, answer, claim, ofCapture, ?_⟩
        intro between later within other claimedThen
        rcases Nat.lt_or_ge between time with before | after
        · exact none between later before other claimedThen
        · have same : between = time := Nat.le_antisymm (Nat.le_of_lt_succ within) after
          exact claimed ⟨other, same ▸ claimedThen⟩

-- Histories

variable {first : Nat}

/-- A capture of a history keeps a row at every later time, and once it is no longer active its
request keeps its rows. Witness: by induction on the later time.
-/
theorem History.capture_later (history : History sha256) {last : Nat} (ordered : first ≤ last)
    (member : capture ∈ (history.ledger first).captures)
    (inactive : capture.retentionState ≠ .active)
    : (∃ later ∈ (history.ledger last).captures, later.id = capture.id
        ∧ later.ownerRequestId = capture.ownerRequestId ∧ later.retentionState ≠ .active
        ∧ (capture.retentionState = .retired → later.retentionState = .retired))
      ∧ Untouched (history.ledger first) (history.ledger last) capture.ownerRequestId := by
  induction last, ordered using Nat.le_induction with
  | base => exact ⟨⟨capture, member, rfl, rfl, inactive, id⟩, .refl _ _⟩
  | succ last _ ih =>
      obtain ⟨⟨later, laterMember, laterId, owner, left, settled⟩, untouched⟩ := ih
      have sound := history.sound last
      have step := (history.steps last).becomes
      obtain ⟨next, nextMember, nextId, nextOwner, moves, _⟩ :=
        step.capture_moves sound.keyed laterMember
      refine ⟨⟨next, nextMember, nextId.trans laterId, nextOwner.trans owner, ?_, ?_⟩, ?_⟩
      · rcases moves with same | ⟨active, _⟩ | ⟨_, retired⟩
        · exact same ▸ left
        · exact absurd active left
        · rw [retired]
          simp
      · intro retired
        have later := settled retired
        rcases moves with same | ⟨active, _⟩ | ⟨retiring, _⟩
        · exact same.trans later
        · exact absurd active left
        · rw [later] at retiring
          cases retiring
      · have known := owner ▸ known_of_capture sound.keyed laterMember
        have rest := owner ▸ sound.rested.inactive later laterMember left
        exact untouched.trans (step.untouched_at_rest sound known rest)

/-- A first retirement of the capture succeeds at a time. -/
def History.RetiredAt (history : History sha256) (time : Nat) (call : FinishRetirement) : Prop :=
  history.calls time = .finishRetirement call
    ∧ ∃ reply, history.outcomes time = .ok (.retired reply) ∧ reply.replayed = false

variable {call : FinishRetirement}

/-- A first retirement finds the capture in cleanup and leaves it retired. -/
theorem History.retiredAt_finds (history : History sha256) (retired : history.RetiredAt time call)
    : ∃ capture ∈ (history.ledger time).captures, capture.id = call.capture
      ∧ capture.retentionState = .retiring ∧ capture.revision = call.revision
      ∧ (∃ value, envelope sha256 .retirement call.data call.digest = .ok value
        ∧ capture.cleanupToken = (value.get "token").integer)
      ∧ (∃ now, Between (history.moments time) (history.moments (time + 1)) now
        ∧ ∃ expiry ∈ capture.cleanupExpiresAt, now < expiry)
      ∧ ∃ next ∈ (history.ledger (time + 1)).captures, next.id = call.capture
        ∧ next.retentionState = .retired := by
  obtain ⟨called, reply, answered, first⟩ := retired
  obtain ⟨env, ⟨_, within⟩, ⟨_, outcome, performed⟩ | ⟨_, outcome, _⟩⟩ := (history.steps time).cases
  · rw [called] at performed
    obtain ⟨answer, done, rfl⟩ := map_ok performed
    rw [answered] at outcome
    cases outcome
    obtain ⟨value, read, capture, member, _, ofCall, ⟨_, _, _, rfl, _⟩
      | ⟨retiring, revision, token, claimed, _, same⟩⟩ := finishRetirement_ok done
    · cases first
    · refine ⟨capture, member, ofCall, retiring, revision, ⟨value, read, token⟩,
        ⟨env.clock 0, within 0, claimed⟩, capture.retire call.data call.digest, ?_, ofCall, rfl⟩
      rw [History.ledger, same]
      exact mem_updateWhere_of_met member (decide_eq_true rfl)
  · rw [answered] at outcome
    cases outcome

theorem History.retiredAt_once (history : History sha256) {second : Nat} {other : FinishRetirement}
    (earlier : history.RetiredAt first call) (later : history.RetiredAt second other)
    (same : other.capture = call.capture)
    : ¬first < second := by
  intro before
  obtain ⟨_, _, _, _, _, _, _, next, nextMember, nextId, retired⟩ :=
    history.retiredAt_finds earlier
  obtain ⟨capture, member, id, retiring, _⟩ := history.retiredAt_finds later
  have inactive : next.retentionState ≠ .active := by
    rw [retired]
    simp
  obtain ⟨⟨row, rowMember, rowId, _, _, settled⟩, _⟩ :=
    history.capture_later (Nat.succ_le_of_lt before) nextMember inactive
  have unique := (history.sound second).keyed.captureIds
  have equal := unique.eq rowMember member (rowId.trans (nextId.trans (same.symm.trans id.symm)))
  have settled := settled retired
  rw [equal, retiring] at settled
  cases settled

/-- In every history a capture moves only from active over retiring to retired. It leaves its active
state at a moment when its retention has passed, all work of its request is terminal and no lease
on it is live, and from then on the request gets no attempt, run, occurrence, work or lease, and
none is extended. Every cleanup claim raises the token by one. A first retirement is one of the
latest cleanup claim, with its token and revision and before it expires, and happens once.
Witness: the captures after every effect, the frame of a request at rest, and the latest claim.
-/
theorem history_retires_unused_captures (history : History sha256)
    : (∀ time, ∀ capture ∈ (history.ledger time).captures,
        ∃ next ∈ (history.ledger (time + 1)).captures, next.id = capture.id
          ∧ capture.retentionState.Moves next.retentionState
          ∧ (capture.retentionState = .active → next.retentionState ≠ .active →
            ∃ now, Between (history.moments time) (history.moments (time + 1)) now
              ∧ capture.retainUntil ≤ now ∧ (history.ledger time).Unused capture now))
      ∧ (∀ time, UniqueBy (·.id) (history.ledger time).captures)
      ∧ (∀ first last, first ≤ last → ∀ capture ∈ (history.ledger first).captures,
        capture.retentionState ≠ .active
          → Untouched (history.ledger first) (history.ledger last) capture.ownerRequestId)
      ∧ (∀ time id answer, history.ClaimedAt time id answer →
        ∃ capture ∈ (history.ledger time).captures, capture.id = id
          ∧ ∃ next ∈ (history.ledger (time + 1)).captures, next.id = id
            ∧ next.cleanupToken = capture.cleanupToken + 1 ∧ answer.Of next)
      ∧ (∀ time call, history.RetiredAt time call →
        ∃ earlier < time, ∃ answer, history.ClaimedAt earlier call.capture answer
          ∧ (∀ between, earlier < between → between < time
            → ∀ other, ¬history.ClaimedAt between call.capture other)
          ∧ (∃ value, envelope sha256 .retirement call.data call.digest = .ok value
            ∧ answer.fencingToken = (value.get "token").integer)
          ∧ answer.revision = call.revision
          ∧ ∃ now, Between (history.moments time) (history.moments (time + 1)) now
            ∧ ∃ expiry ∈ answer.leaseExpiresAt, now < expiry)
      ∧ ∀ first second call other, history.RetiredAt first call → history.RetiredAt second other
        → other.capture = call.capture → first = second := by
  refine ⟨?_, ?_, ?_, ?_, ?_, ?_⟩
  · intro time capture member
    obtain ⟨next, nextMember, id, _, moves, left⟩ :=
      (history.steps time).becomes.capture_moves (history.sound time).keyed member
    exact ⟨next, nextMember, id, moves, left⟩
  · intro time
    exact (history.sound time).keyed.captureIds
  · intro first last ordered capture member inactive
    exact (history.capture_later ordered member inactive).2
  · intro time id answer claimed
    obtain ⟨capture, member, ofId, next, nextMember, nextId, raised, _, ofNext⟩ :=
      history.claimedAt_raises claimed
    exact ⟨capture, member, ofId, next, nextMember, nextId, raised, ofNext⟩
  · intro time call retired
    obtain ⟨capture, member, id, retiring, revision, ⟨value, read, token⟩,
      ⟨now, within, expiry, claimed, live⟩, _⟩ := history.retiredAt_finds retired
    obtain ⟨earlier, bounded, answer, claim, ⟨_, ofToken, ofRevision, ofExpiry⟩, none⟩ :=
      history.latest_claim time member retiring
    rw [id] at claim none
    exact ⟨earlier, bounded, answer, claim, none, ⟨value, read, ofToken.trans token⟩,
      ofRevision.trans revision, now, within, expiry, ofExpiry ▸ claimed, live⟩
  · intro first second call other earlier later same
    rcases Nat.lt_trichotomy first second with before | equal | after
    · exact absurd before (history.retiredAt_once earlier later same)
    · exact equal
    · exact absurd after (history.retiredAt_once later earlier same.symm)

end Scanipy.Db.Execution

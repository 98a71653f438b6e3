import Scanipy.Db.Execution.System

/-! Fencing in the execution ledger: the attempts of every work item carry the tokens from one to
the item's own, and the item is running exactly while the last of them is.
-/

namespace Scanipy.Db.Execution

open Library Python Services.Scan.OccurrenceStore

variable {sha256 : Bytes → Bytes} {ledger before after : Ledger}

-- One item and its attempts

/-- The numbers from one to a token. -/
def tokensTo (token : Int) : List Int :=
  (List.range token.toNat).map fun count : Nat => (count : Int) + 1

theorem tokensTo_succ {token : Int} (counted : 0 ≤ token)
    : tokensTo (token + 1) = tokensTo token ++ [token + 1] := by
  have size : (token + 1).toNat = token.toNat + 1 := by omega
  have last : ((token.toNat : Int) + 1) = token + 1 := by omega
  rw [tokensTo, size, List.range_succ, List.map_append, List.map_singleton, last, tokensTo]

/-- The attempts of one item are numbered by its tokens, and only the active one may run. -/
structure Fenced (item : WorkItem) (attempts : List WorkAttempt) : Prop where
  numbers : attempts.map (·.attemptNumber) = tokensTo item.fencingToken
  tokens : attempts.map (·.fencingToken) = tokensTo item.fencingToken
  counted : 0 ≤ item.fencingToken
  bounded : item.fencingToken ≤ item.maxAttempts
  idle : item.state ≠ .running
    → item.activeAttemptId = none ∧ ∀ attempt ∈ attempts, attempt.state ≠ .running
  busy : item.state = .running → ∃ attempt ∈ attempts, attempt.state = .running
    ∧ item.activeAttemptId = some attempt.id ∧ attempt.fencingToken = item.fencingToken
    ∧ ∀ other ∈ attempts, other.state = .running → other.id = attempt.id

variable {attempt : WorkAttempt} {change : WorkAttempt → WorkAttempt}

namespace Fenced

variable {item changed : WorkItem} {attempts : List WorkAttempt}

theorem new (fresh : item.IsNew) : Fenced item [] where
  numbers := by rw [fresh.unfenced]; rfl
  tokens := by rw [fresh.unfenced]; rfl
  counted := fresh.unfenced.ge
  bounded := by
    have positive := fresh.budgeted.1.1
    have unfenced := fresh.unfenced
    omega
  idle := fun _ => ⟨fresh.idle, by simp⟩
  busy := by
    intro running
    rw [fresh.pending] at running
    cases running

/-- A pending item starts its next attempt. -/
theorem start (fenced : Fenced item attempts) (pending : item.state = .pending)
    (budget : item.fencingToken < item.maxAttempts)
    (number : attempt.attemptNumber = item.fencingToken + 1)
    (token : attempt.fencingToken = item.fencingToken + 1) (running : attempt.state = .running)
    : Fenced (item.start attempt) (attempts ++ [attempt]) := by
  have next : (item.start attempt).fencingToken = item.fencingToken + 1 := token
  refine ⟨?_, ?_, ?_, ?_, ?_, ?_⟩
  · rw [next, tokensTo_succ fenced.counted, List.map_append, fenced.numbers, List.map_singleton,
      number]
  · rw [next, tokensTo_succ fenced.counted, List.map_append, fenced.tokens, List.map_singleton,
      token]
  · have counted := fenced.counted
    omega
  · rw [next]
    exact budget
  · intro stopped
    exact absurd rfl stopped
  · intro _
    refine ⟨attempt, mem_append_one _ _, running, rfl, rfl, ?_⟩
    intro other member otherRunning
    rcases List.mem_append.mp member with earlier | later
    · have settled := fenced.idle (by rw [pending]; simp)
      exact absurd otherRunning (settled.2 other earlier)
    · rw [List.mem_singleton.mp later]

/-- Columns that fencing does not read may change. -/
theorem same (fenced : Fenced item attempts) (state : changed.state = item.state)
    (active : changed.activeAttemptId = item.activeAttemptId)
    (token : changed.fencingToken = item.fencingToken)
    (budget : changed.maxAttempts = item.maxAttempts)
    (kept : ∀ attempt, (change attempt).id = attempt.id
      ∧ (change attempt).attemptNumber = attempt.attemptNumber
      ∧ (change attempt).fencingToken = attempt.fencingToken
      ∧ (change attempt).state = attempt.state)
    : Fenced changed (attempts.map change) := by
  refine ⟨?_, ?_, ?_, ?_, ?_, ?_⟩
  · rw [token, ← fenced.numbers, List.map_map]
    exact List.map_congr_left fun attempt _ => (kept attempt).2.1
  · rw [token, ← fenced.tokens, List.map_map]
    exact List.map_congr_left fun attempt _ => (kept attempt).2.2.1
  · rw [token]
    exact fenced.counted
  · rw [token, budget]
    exact fenced.bounded
  · intro stopped
    obtain ⟨idle, settled⟩ := fenced.idle (state ▸ stopped)
    refine ⟨active.trans idle, ?_⟩
    intro attempt member
    obtain ⟨old, among, rfl⟩ := List.mem_map.mp member
    rw [(kept old).2.2.2]
    exact settled old among
  · intro running
    obtain ⟨attempt, member, attemptRunning, activeId, last, sole⟩ :=
      fenced.busy (state.symm.trans running)
    refine ⟨change attempt, List.mem_map_of_mem member, ?_, ?_, ?_, ?_⟩
    · rw [(kept attempt).2.2.2, attemptRunning]
    · rw [active, activeId, (kept attempt).1]
    · rw [(kept attempt).2.2.1, last, token]
    · intro other among otherRunning
      obtain ⟨old, oldMember, rfl⟩ := List.mem_map.mp among
      rw [(kept old).2.2.2] at otherRunning
      rw [(kept old).1, (kept attempt).1, sole old oldMember otherRunning]

/-- An item stops, and with it the attempt that ran. -/
theorem stop (fenced : Fenced item attempts) (stopped : changed.state ≠ .running)
    (idle : changed.activeAttemptId = none) (token : changed.fencingToken = item.fencingToken)
    (budget : changed.maxAttempts = item.maxAttempts)
    (kept : ∀ attempt, (change attempt).attemptNumber = attempt.attemptNumber
      ∧ (change attempt).fencingToken = attempt.fencingToken)
    (settled : ∀ attempt ∈ attempts, (change attempt).state ≠ .running)
    : Fenced changed (attempts.map change) := by
  refine ⟨?_, ?_, ?_, ?_, ?_, fun running => absurd running stopped⟩
  · rw [token, ← fenced.numbers, List.map_map]
    exact List.map_congr_left fun attempt _ => (kept attempt).1
  · rw [token, ← fenced.tokens, List.map_map]
    exact List.map_congr_left fun attempt _ => (kept attempt).2
  · rw [token]
    exact fenced.counted
  · rw [token, budget]
    exact fenced.bounded
  · intro _
    refine ⟨idle, ?_⟩
    intro attempt member
    obtain ⟨old, among, rfl⟩ := List.mem_map.mp member
    exact settled old among

end Fenced

-- Every item

/-- The attempts of an item, in the order of their claims. -/
def Ledger.attemptsOf (ledger : Ledger) (item : Uuid) : List WorkAttempt :=
  ledger.attempts.filter fun attempt => attempt.workItemId = item

variable {item : Uuid}

theorem mem_attemptsOf
    : attempt ∈ ledger.attemptsOf item
      ↔ attempt ∈ ledger.attempts ∧ attempt.workItemId = item := by
  simp [Ledger.attemptsOf]

/-- Every item is fenced. -/
def Ledger.AllFenced (ledger : Ledger) : Prop :=
  ∀ item ∈ ledger.items, Fenced item (ledger.attemptsOf item.id)

/-- Work that is new has no attempts. -/
theorem attemptsOf_fresh (keyed : Keyed sha256 ledger)
    (fresh : ∀ other ∈ ledger.items, other.id ≠ item)
    : ledger.attemptsOf item = [] := by
  rw [Ledger.attemptsOf, List.filter_eq_nil_iff]
  intro attempt member own
  obtain ⟨other, among, id, _⟩ := keyed.attemptItem attempt member
  exact fresh other among (id.trans (of_decide_eq_true own))

variable {condition : WorkAttempt → Bool}

/-- The update of attempts, seen from one item. -/
theorem attemptsOf_updated (updated : after.attempts = updateWhere condition change before.attempts)
    (kept : ∀ attempt, (change attempt).workItemId = attempt.workItemId) (item : Uuid)
    : after.attemptsOf item
      = (before.attemptsOf item).map fun attempt =>
          if condition attempt then change attempt else attempt := by
  rw [Ledger.attemptsOf, updated, filter_updateWhere fun attempt => by rw [kept attempt]]
  rfl

theorem allFenced_of_eq (fenced : before.AllFenced) (items : after.items = before.items)
    (attempts : after.attempts = before.attempts)
    : after.AllFenced := by
  intro item member
  rw [Ledger.attemptsOf, attempts]
  exact fenced item (items ▸ member)

/-- New work joins fenced work. -/
theorem allFenced_append {added : List WorkItem} (keyed : Keyed sha256 before)
    (fenced : before.AllFenced) (items : after.items = before.items ++ added)
    (attempts : after.attempts = before.attempts) (new : ∀ item ∈ added, item.IsNew)
    (fresh : ∀ item ∈ added, ∀ other ∈ before.items, other.id ≠ item.id)
    : after.AllFenced := by
  intro item member
  rw [Ledger.attemptsOf, attempts]
  rw [items] at member
  rcases List.mem_append.mp member with earlier | later
  · exact fenced item earlier
  · have none : before.attemptsOf item.id = [] := attemptsOf_fresh keyed (fresh item later)
    rw [← Ledger.attemptsOf, none]
    exact .new (new item later)

/-- A touched item keeps its fencing, and so do renewed attempts. -/
theorem allFenced_touch {expiry : Instant} {work : Uuid} (fenced : before.AllFenced)
    (items : after.items = (before.touch work).items)
    (attempts : after.attempts = updateWhere condition
      (fun attempt => { attempt with leaseExpiresAt := expiry }) before.attempts)
    : after.AllFenced := by
  intro item member
  rw [items] at member
  obtain ⟨old, among, rfl⟩ := mem_updateWhere.mp member
  have fencedOld := fenced old among
  have view := attemptsOf_updated attempts (fun _ => rfl) old.id
  have kept (attempt : WorkAttempt)
      : (if condition attempt then { attempt with leaseExpiresAt := expiry } else attempt).id
          = attempt.id
        ∧ (if condition attempt then { attempt with leaseExpiresAt := expiry }
          else attempt).attemptNumber = attempt.attemptNumber
        ∧ (if condition attempt then { attempt with leaseExpiresAt := expiry }
          else attempt).fencingToken = attempt.fencingToken
        ∧ (if condition attempt then { attempt with leaseExpiresAt := expiry }
          else attempt).state = attempt.state := by
    split <;> exact ⟨rfl, rfl, rfl, rfl⟩
  split
  · exact view ▸ fencedOld.same rfl rfl rfl rfl kept
  · exact view ▸ fencedOld.same rfl rfl rfl rfl kept

/-- An attempt of an item is one of the item's request. -/
theorem request_of_mem_attemptsOf {item : WorkItem} (keyed : Keyed sha256 ledger)
    (member : item ∈ ledger.items) (among : attempt ∈ ledger.attemptsOf item.id)
    : attempt.requestId = item.requestId := by
  obtain ⟨attemptMember, own⟩ := mem_attemptsOf.mp among
  obtain ⟨other, otherMember, id, request, _⟩ := keyed.attemptItem attempt attemptMember
  rw [← request, keyed.itemIds.eq otherMember member (id.trans own)]

/-- An update that meets no attempt of the item, seen from it. -/
theorem attemptsOf_spared (updated : after.attempts = updateWhere condition change before.attempts)
    (kept : ∀ attempt, (change attempt).workItemId = attempt.workItemId)
    (spared : ∀ attempt ∈ before.attemptsOf item, condition attempt = false)
    : after.attemptsOf item = before.attemptsOf item := by
  rw [attemptsOf_updated updated kept]
  exact updateWhere_eq_self spared

variable {moment : Instant} {data digest : Bytes}

/-- The cancellation of a request stops its items. -/
theorem allFenced_cancelRows {request : Uuid} (keyed : Keyed sha256 before)
    (fenced : before.AllFenced)
    : (before.cancelRows request moment data digest).AllFenced := by
  intro item member
  obtain ⟨old, among, rfl⟩ := mem_updateWhere.mp member
  have fencedOld := fenced old among
  have updated : (before.cancelRows request moment data digest).attempts
      = updateWhere (fun attempt => attempt.requestId = request ∧ attempt.state = .running)
          (·.finish .cancelled moment .cancellation data digest) before.attempts := rfl
  split
  · rename_i met
    obtain ⟨own, _⟩ := of_decide_eq_true met
    refine (attemptsOf_updated updated (fun _ => rfl) old.id) ▸
      fencedOld.stop (by simp [WorkItem.cancel]) rfl rfl rfl ?_ ?_
    · intro attempt
      split <;> exact ⟨rfl, rfl⟩
    · intro attempt attemptMember
      split
      · simp [WorkAttempt.finish]
      · rename_i unmet
        intro running
        have request := request_of_mem_attemptsOf keyed among attemptMember
        exact unmet (decide_eq_true ⟨request.trans own, running⟩)
  · rename_i unmet
    rw [attemptsOf_spared updated fun _ => rfl]
    · exact fencedOld
    · intro attempt attemptMember
      refine decide_eq_false fun ⟨ofRequest, running⟩ => unmet (decide_eq_true ?_)
      have request := request_of_mem_attemptsOf keyed among attemptMember
      refine ⟨request.symm.trans ofRequest, .inr ?_⟩
      by_contra stopped
      exact (fencedOld.idle stopped).2 attempt attemptMember running

variable {locked : Locked} {leases : List CaptureLease}

/-- A claim starts the item and leaves the others. -/
theorem allFenced_claimed (keyed : Keyed sha256 before) (fenced : before.AllFenced)
    (new : NewAttempt before locked attempt leases)
    : { before.startAttempt attempt with leases := before.leases ++ leases }.AllFenced := by
  intro item member
  obtain ⟨old, among, rfl⟩ := mem_updateWhere.mp member
  have fencedOld := fenced old among
  have view (id : Uuid) : { before.startAttempt attempt with
      leases := before.leases ++ leases }.attemptsOf id
      = before.attemptsOf id ++ [attempt].filter fun row => row.workItemId = id :=
    List.filter_append _ _
  split
  · rename_i met
    have own : old.id = attempt.workItemId := of_decide_eq_true met
    have same := keyed.itemIds.eq among new.work (own.trans new.attemptWork)
    subst same
    rw [show (locked.work.start attempt).id = locked.work.id from rfl, view,
      List.filter_singleton, new.attemptWork]
    simp only [decide_true]
    exact fencedOld.start new.pending new.budget new.number new.token new.running
  · rename_i unmet
    have other : ¬attempt.workItemId = old.id :=
      fun same => unmet (decide_eq_true same.symm)
    rw [view, List.filter_singleton, decide_eq_false other]
    simpa using fencedOld

variable {call : Call} {kind : WorkKind}

/-- The end of the running attempt stops its item and leaves the others. -/
theorem allFenced_ended {runs : List DetectorRun} {result : AttemptState} {state : WorkState}
    (keyed : Keyed sha256 before) (fenced : before.AllFenced)
    (current : Current before call kind locked attempt)
    (ended : Ended before locked attempt runs leases result state)
    : (before.endRows locked.work attempt runs leases result state moment data digest).AllFenced := by
  intro item member
  obtain ⟨old, among, rfl⟩ := mem_updateWhere.mp member
  have fencedOld := fenced old among
  have updated : (before.endRows locked.work attempt runs leases result state moment data
      digest).attempts
      = updateWhere (fun row => row.id = attempt.id)
          (·.finish result moment .attemptResult data digest) before.attempts := rfl
  split
  · rename_i met
    have same := keyed.itemIds.eq among current.workMember (of_decide_eq_true met)
    subst same
    obtain ⟨running, runningMember, _, active, _, sole⟩ := fencedOld.busy current.running
    have own : running.id = attempt.id := Option.some.inj (active.symm.trans current.active)
    have id : (locked.work.settle state attempt.attemptNumber moment data digest).id
        = locked.work.id := by
      unfold WorkItem.settle
      split <;> rfl
    rw [id, attemptsOf_updated updated (fun _ => rfl)]
    refine fencedOld.stop ?_ ?_ ?_ ?_ ?_ ?_
    · unfold WorkItem.settle
      split
      · simp
      · exact ended.settled
    · unfold WorkItem.settle
      split <;> rfl
    · unfold WorkItem.settle
      split <;> rfl
    · unfold WorkItem.settle
      split <;> rfl
    · intro row
      split <;> exact ⟨rfl, rfl⟩
    · intro row rowMember
      split
      · exact ended.terminal
      · rename_i unmet
        exact fun rowRunning =>
          unmet (decide_eq_true ((sole row rowMember rowRunning).trans own))
  · rename_i unmet
    rw [attemptsOf_spared updated fun _ => rfl]
    · exact fencedOld
    · intro row rowMember
      refine decide_eq_false fun same => unmet (decide_eq_true ?_)
      obtain ⟨rowAmong, ofItem⟩ := mem_attemptsOf.mp rowMember
      have same := keyed.attemptIds.eq rowAmong current.attemptMember same
      rw [← ofItem, same, current.attemptWork]

variable {during : Instant → Prop}

/-- Every effect keeps the fencing. Witness: the moves of one item. -/
theorem Effect.allFenced {subject : Option Uuid} {written : Ledger}
    (effect : Effect sha256 during before subject written) (keyed : Keyed sha256 before)
    (fenced : before.AllFenced)
    : written.AllFenced := by
  have untouched : before.attempts = updateWhere (fun _ => false)
      (fun attempt => { attempt with leaseExpiresAt := 0 }) before.attempts :=
    (updateWhere_eq_self fun _ _ => rfl).symm
  cases effect with
  | unchanged => exact fenced
  | created new =>
      refine allFenced_append keyed fenced rfl rfl ?_ ?_
      · intro item member
        rw [List.mem_singleton.mp member]
        exact new.new
      · intro item member
        rw [List.mem_singleton.mp member]
        exact new.freshItem
  | cancelled member uncancelled released =>
      have same := Ledger.fixed_leases (map_fixed_of_releases released)
      exact allFenced_cancelRows (keyed.of_fixed same) (allFenced_of_eq fenced rfl rfl)
  | cleanupClaimed => exact allFenced_of_eq fenced rfl rfl
  | captureRetired => exact allFenced_of_eq fenced rfl rfl
  | claimed new => exact allFenced_claimed keyed fenced new
  | renewed => exact allFenced_touch fenced rfl rfl
  | leaseRenewed => exact allFenced_touch fenced rfl untouched
  | leaseReleased => exact allFenced_touch fenced rfl untouched
  | registered => exact allFenced_of_eq fenced rfl rfl
  | begun => exact allFenced_of_eq fenced rfl rfl
  | retained live member work own unsettled count new =>
      refine allFenced_append keyed fenced rfl rfl ?_ ?_
      · intro item among
        obtain ⟨pair, pairMember, rfl⟩ := List.mem_map.mp among
        exact (new.each pair pairMember).2.2.2.1
      · intro item among other otherMember same
        have unique := new.uniqueItems keyed.itemIds
        rw [UniqueBy, List.map_append, List.nodup_append] at unique
        exact unique.2.2 _ (List.mem_map_of_mem otherMember) _ (List.mem_map_of_mem among) same
  | runFailed => exact allFenced_of_eq fenced rfl rfl
  | ended current ended => exact allFenced_ended keyed fenced current ended

theorem Ledger.refreshed_items (subject : Option Uuid)
    : (ledger.refreshed subject).items = ledger.items := by
  unfold Ledger.refreshed
  split <;> rfl

theorem Ledger.refreshed_attempts (subject : Option Uuid)
    : (ledger.refreshed subject).attempts = ledger.attempts := by
  unfold Ledger.refreshed
  split <;> rfl

theorem Ledger.Becomes.allFenced (step : before.Becomes sha256 during after)
    (keyed : Keyed sha256 before) (fenced : before.AllFenced)
    : after.AllFenced := by
  obtain ⟨subject, written, effect, rfl⟩ := step
  exact allFenced_of_eq (effect.allFenced keyed fenced) (Ledger.refreshed_items subject)
    (Ledger.refreshed_attempts subject)

/-- The attempt and token that a call carries, other than to expire an attempt. -/
def Operation.carried : Operation → Option Call
  | .renew call _ | .captureLease call _ _ | .registerCaptureAndSeal call _
  | .beginDetectorRun call _ _ | .retainDetectionBatch call _ | .failDetectorRun call _ => some call
  | .finish call _ ending => if ending.expire then none else some call
  | .createRequest _ | .cancelRequest _ | .claimRetirement _ | .finishRetirement _ | .claim _ => none

/-- The attempt is the running one of its item with an unexpired lease, its request is not
cancelled, and once there is a capture it is active and the attempt holds a live lease on it.
-/
def Ledger.LiveAt (ledger : Ledger) (call : Call) (now : Instant) : Prop :=
  ∃ item ∈ ledger.items, ∃ attempt ∈ ledger.attempts, ∃ request ∈ ledger.requests,
    (item.id = call.work ∧ item.state = .running ∧ item.activeAttemptId = some call.attempt
      ∧ item.fencingToken = call.token)
    ∧ (attempt.id = call.attempt ∧ attempt.workItemId = item.id
      ∧ attempt.fencingToken = call.token ∧ attempt.state = .running
      ∧ now < attempt.leaseExpiresAt)
    ∧ (request.id = item.requestId ∧ request.cancellationBytes = none)
    ∧ ∀ capture ∈ ledger.captures, capture.ownerRequestId = request.id
      → capture.retentionState = .active ∧ Consumes ledger attempt capture now

/-- The capture of a locked request is the only one of it. -/
theorem Held.capture_eq {capture : SourceCapture} (held : Held ledger call kind locked attempt)
    (keyed : Keyed sha256 ledger) (member : capture ∈ ledger.captures)
    (owner : capture.ownerRequestId = locked.request.id)
    : locked.capture = some capture := by
  rw [held.capture]
  obtain ⟨request, among, id, org⟩ := keyed.captureRequest capture member
  have same := keyed.requestIds.eq among held.requestMember (id.trans owner)
  refine find?_eq_some_of_sole member (decide_eq_true ⟨?_, owner⟩) ?_
  · rw [← org, same, held.requestOrg]
  · intro other otherMember selected
    exact keyed.captureOwners.eq otherMember member
      ((of_decide_eq_true selected).2.trans owner.symm)

theorem Live.liveAt {now : Instant} (live : Live ledger call kind locked attempt now)
    (keyed : Keyed sha256 ledger)
    : ledger.LiveAt call now := by
  refine ⟨locked.work, live.workMember, attempt, live.attemptMember, locked.request,
    live.requestMember, ⟨live.workId, live.running, live.attemptId ▸ live.active,
      live.fencing.trans live.token⟩,
    ⟨live.attemptId, live.attemptWork, live.token, live.attemptRunning, live.unexpired⟩,
    ⟨live.requestId, live.uncancelled⟩, ?_⟩
  intro capture member owner
  exact live.consumes capture (live.capture_eq keyed member owner)

/-- A call with an attempt and a token changes the ledger only while the attempt is live. -/
theorem live_of_changed {env : Environment} {operation : Operation} {reply : Reply}
    (keyed : Keyed sha256 ledger) (carried : operation.carried = some call)
    (done : perform sha256 env ledger operation = .ok (reply, after)) (changed : after ≠ ledger)
    : ∃ reading, ledger.LiveAt call (env.clock reading) := by
  cases operation with
  | createRequest | cancelRequest | claimRetirement | finishRetirement | claim => cases carried
  | renew =>
      cases carried
      obtain ⟨answer, done, _⟩ := map_ok done
      obtain ⟨_, _, live, _⟩ := renew_ok done
      exact ⟨0, live.liveAt keyed⟩
  | captureLease =>
      cases carried
      obtain ⟨answer, done, _⟩ := map_ok done
      rcases captureLease_ok done with ⟨_, _, _, _, _, _, _, same⟩ | ⟨_, _, _, live, _⟩
      · exact absurd same changed
      · exact ⟨1, live.liveAt keyed⟩
  | registerCaptureAndSeal =>
      cases carried
      obtain ⟨answer, done, _⟩ := map_ok done
      obtain ⟨_, _, _, _, _, live, _⟩ := registerCaptureAndSeal_ok done
      exact ⟨0, live.liveAt keyed⟩
  | beginDetectorRun =>
      cases carried
      obtain ⟨answer, done, _⟩ := map_ok done
      obtain ⟨_, _, live, _⟩ := beginDetectorRun_ok done
      exact ⟨0, live.liveAt keyed⟩
  | retainDetectionBatch =>
      cases carried
      obtain ⟨answer, done, _⟩ := map_ok done
      obtain ⟨_, _, _, _, _, _, _, _, ⟨_, _, _, _, same⟩ | ⟨_, _, _, live, _⟩⟩ :=
        retainDetectionBatch_ok done
      · exact absurd same changed
      · exact ⟨1, live.liveAt keyed⟩
  | failDetectorRun =>
      cases carried
      obtain ⟨answer, done, _⟩ := map_ok done
      obtain ⟨_, _, _, _, _, _, _, ⟨_, _, _, _, _, _, same⟩ | ⟨_, _, _, live, _⟩⟩ :=
        failDetectorRun_ok done
      · exact absurd same changed
      · exact ⟨1, live.liveAt keyed⟩
  | finish _ _ ending =>
      cases kept : ending.expire with
      | true => simp [Operation.carried, kept] at carried
      | false =>
          simp only [Operation.carried, kept, Bool.false_eq_true, if_false] at carried
          cases carried
          obtain ⟨answer, done, _⟩ := map_ok done
          obtain ⟨_, _, _, _, _, ⟨_, _, _, _, _, same⟩ | ⟨_, live, _⟩⟩ := finish_ok done
          · exact absurd same changed
          · exact ⟨1, (live kept).liveAt keyed⟩

theorem allFenced_empty (codebases : List (Uuid × Uuid)) : (Ledger.empty codebases).AllFenced := by
  intro item member
  cases member

theorem History.keyed_fenced (history : History sha256) (time : Nat)
    : Keyed sha256 (history.ledger time) ∧ (history.ledger time).AllFenced :=
  history.invariant (fun ledger => Keyed sha256 ledger ∧ ledger.AllFenced)
    (fun codebases => ⟨keyed_empty codebases, allFenced_empty codebases⟩)
    (fun step both => ⟨step.keyed both.1, step.allFenced both.1 both.2⟩) time

/-- In every history and at every time the attempts of every item have the numbers and tokens from
one to the item's own, which is within its budget; at most one of them runs, one does exactly while
the item is running, and it is the active attempt with the item's token. A call that carries an
attempt and a token, other than to expire it, changes the ledger only while that attempt is live.
Witness: the moves of one item kept by every effect, and the inversion of every operation.
-/
theorem history_is_fenced (history : History sha256) (time : Nat)
    : (∀ item ∈ (history.ledger time).items,
        let attempts := (history.ledger time).attemptsOf item.id
        attempts.map (·.attemptNumber) = tokensTo item.fencingToken
        ∧ attempts.map (·.fencingToken) = tokensTo item.fencingToken
        ∧ (0 ≤ item.fencingToken ∧ item.fencingToken ≤ item.maxAttempts)
        ∧ (∀ left ∈ attempts, ∀ right ∈ attempts,
          left.state = .running → right.state = .running → left = right)
        ∧ ((∃ attempt ∈ attempts, attempt.state = .running) ↔ item.state = .running)
        ∧ ∀ attempt ∈ attempts, attempt.state = .running →
          item.activeAttemptId = some attempt.id ∧ attempt.fencingToken = item.fencingToken)
      ∧ ∀ call, (history.calls time).carried = some call
        → history.ledger (time + 1) ≠ history.ledger time
        → ∃ now, Between (history.moments time) (history.moments (time + 1)) now
          ∧ (history.ledger time).LiveAt call now := by
  obtain ⟨keyed, fenced⟩ := history.keyed_fenced time
  refine ⟨?_, ?_⟩
  · intro item member
    have fenced := fenced item member
    have running {attempt : WorkAttempt}
        (among : attempt ∈ (history.ledger time).attemptsOf item.id)
        (attemptRunning : attempt.state = .running) : item.state = .running := by
      by_contra stopped
      exact (fenced.idle stopped).2 attempt among attemptRunning
    have active {attempt : WorkAttempt}
        (among : attempt ∈ (history.ledger time).attemptsOf item.id)
        (attemptRunning : attempt.state = .running)
        : item.activeAttemptId = some attempt.id
          ∧ attempt.fencingToken = item.fencingToken := by
      obtain ⟨other, otherMember, _, activeId, token, sole⟩ := fenced.busy (running among attemptRunning)
      have id := sole attempt among attemptRunning
      have same := keyed.attemptIds.eq (mem_attemptsOf.mp among).1 (mem_attemptsOf.mp otherMember).1 id
      rw [same]
      exact ⟨activeId, token⟩
    refine ⟨fenced.numbers, fenced.tokens, ⟨fenced.counted, fenced.bounded⟩, ?_, ⟨?_, ?_⟩, ?_⟩
    · intro left leftMember right rightMember leftRunning rightRunning
      have leftActive := (active leftMember leftRunning).1
      have rightActive := (active rightMember rightRunning).1
      exact keyed.attemptIds.eq (mem_attemptsOf.mp leftMember).1 (mem_attemptsOf.mp rightMember).1
        (Option.some.inj (leftActive.symm.trans rightActive))
    · intro ⟨attempt, among, attemptRunning⟩
      exact running among attemptRunning
    · intro itemRunning
      obtain ⟨attempt, among, attemptRunning, _⟩ := fenced.busy itemRunning
      exact ⟨attempt, among, attemptRunning⟩
    · intro attempt among attemptRunning
      exact active among attemptRunning
  · intro call carried changed
    obtain ⟨env, ⟨_, within⟩, ⟨reply, _, done⟩ | ⟨_, _, same⟩⟩ := (history.steps time).cases
    · obtain ⟨reading, live⟩ := live_of_changed keyed carried done changed
      exact ⟨env.clock reading, within reading, live⟩
    · exact absurd same changed

end Scanipy.Db.Execution

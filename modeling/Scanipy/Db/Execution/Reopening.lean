import Scanipy.Db.Execution.Stages

/-! When the identity stage of a request is taken back: it is derived from the work that there is, and
a batch that is retained later brings new work.
-/

namespace Scanipy.Db.Execution

open Library Python Services.Scan.OccurrenceStore

variable {sha256 : Bytes → Bytes} {ledger before after : Ledger}

/-- All the identity work that the request has is completed. -/
def Ledger.Identified (ledger : Ledger) (request : Uuid) : Prop :=
  ∀ item ∈ ledger.items, item.requestId = request → item.kind = .identity
    → item.state = .completed

/-- The request has identity work. -/
def Ledger.HasIdentity (ledger : Ledger) (request : Uuid) : Prop :=
  ∃ item ∈ ledger.items, item.requestId = request ∧ item.kind = .identity

/-- Some identity work of the request is in a state. -/
def Ledger.IdentityIn (ledger : Ledger) (request : Uuid) (state : WorkState) : Prop :=
  ∃ item ∈ ledger.items, item.requestId = request ∧ item.kind = .identity ∧ item.state = state

/-- The identity stage, by the first state that some identity work is in. -/
theorem identityStage_cases (ledger : Ledger) (request : Uuid) (detection : WorkState)
    : ledger.identityStage request detection = .failed ∧ ledger.IdentityIn request .failed
      ∨ ledger.identityStage request detection = .cancelled ∧ ledger.IdentityIn request .cancelled
      ∨ ledger.identityStage request detection = .running ∧ ledger.IdentityIn request .running
      ∨ ledger.identityStage request detection = .pending ∧ ledger.IdentityIn request .pending
        ∧ ¬ledger.IdentityIn request .failed ∧ ¬ledger.IdentityIn request .cancelled
        ∧ ¬ledger.IdentityIn request .running
      ∨ ledger.Identified request
        ∧ (ledger.identityStage request detection = .completed
          ↔ ledger.HasIdentity request ∨ detection = .completed) := by
  have any (state : WorkState)
      : (ledger.items.filter fun item => item.requestId = request ∧ item.kind = .identity).any
          (·.state = state) = true ↔ ledger.IdentityIn request state := by
    simp only [List.any_eq_true, List.mem_filter, decide_eq_true_eq, Ledger.IdentityIn, and_assoc]
  have some : (ledger.items.filter fun item => item.requestId = request ∧ item.kind = .identity) ≠ []
      ↔ ledger.HasIdentity request := by
    rw [Ne, List.filter_eq_nil_iff]
    simp only [Ledger.HasIdentity, decide_eq_true_eq, not_forall, not_not, exists_prop]
  unfold Ledger.identityStage
  dsimp only
  by_cases failed : ledger.IdentityIn request .failed
  · exact .inl ⟨if_pos ((any _).mpr failed), failed⟩
  rw [if_neg (mt (any _).mp failed)]
  by_cases cancelled : ledger.IdentityIn request .cancelled
  · exact .inr (.inl ⟨if_pos ((any _).mpr cancelled), cancelled⟩)
  rw [if_neg (mt (any _).mp cancelled)]
  by_cases running : ledger.IdentityIn request .running
  · exact .inr (.inr (.inl ⟨if_pos ((any _).mpr running), running⟩))
  rw [if_neg (mt (any _).mp running)]
  by_cases pending : ledger.IdentityIn request .pending
  · exact .inr (.inr (.inr (.inl
      ⟨if_pos ((any _).mpr pending), pending, failed, cancelled, running⟩)))
  rw [if_neg (mt (any _).mp pending)]
  refine .inr (.inr (.inr (.inr ⟨?_, ?_⟩)))
  · intro item member own kind
    cases state : item.state with
    | pending => exact absurd ⟨item, member, own, kind, state⟩ pending
    | running => exact absurd ⟨item, member, own, kind, state⟩ running
    | failed => exact absurd ⟨item, member, own, kind, state⟩ failed
    | cancelled => exact absurd ⟨item, member, own, kind, state⟩ cancelled
    | completed => rfl
  · rw [← some]
    split
    next done => exact iff_of_true rfl done
    next idle =>
      refine iff_of_false ?_ idle
      split <;> simp

theorem Ledger.Identified.not_in {request : Uuid} {state : WorkState}
    (identified : ledger.Identified request) (other : state ≠ .completed)
    : ¬ledger.IdentityIn request state := by
  rintro ⟨item, member, own, kind, same⟩
  exact other (same.symm.trans (identified item member own kind))

/-- The identity stage is completed when there is no other identity work, and some or none to come. -/
theorem identityStage_eq_completed_iff {request : Uuid} {detection : WorkState}
    : ledger.identityStage request detection = .completed
      ↔ ledger.Identified request ∧ (ledger.HasIdentity request ∨ detection = .completed) := by
  rcases identityStage_cases ledger request detection with
    ⟨stage, found⟩ | ⟨stage, found⟩ | ⟨stage, found⟩ | ⟨stage, found, _⟩ | ⟨identified, stage⟩
  · simp only [stage, reduceCtorEq, false_iff, not_and]
    exact fun identified => absurd found (identified.not_in (by simp))
  · simp only [stage, reduceCtorEq, false_iff, not_and]
    exact fun identified => absurd found (identified.not_in (by simp))
  · simp only [stage, reduceCtorEq, false_iff, not_and]
    exact fun identified => absurd found (identified.not_in (by simp))
  · simp only [stage, reduceCtorEq, false_iff, not_and]
    exact fun identified => absurd found (identified.not_in (by simp))
  · rw [stage, and_iff_right identified]

-- Where new identity work comes from

variable {env : Environment}

/-- The occurrences of the ledger change only where a batch of an open run is retained, which has
some. Witness: the inversion of every operation.
-/
theorem perform_occurrences {operation : Operation} {reply : Reply}
    (done : perform sha256 env ledger operation = .ok (reply, after))
    (changed : after.occurrences ≠ ledger.occurrences)
    : ∃ call batch, operation = .retainDetectionBatch call batch := by
  cases operation with
  | createRequest =>
      obtain ⟨_, done, _⟩ := map_ok done
      obtain ⟨_, _, ⟨_, _, _, _, rfl⟩ | ⟨_, _, _, _, _, rfl⟩⟩ := createRequest_ok done
      · exact absurd rfl changed
      · exact absurd rfl changed
  | cancelRequest =>
      obtain ⟨_, done, _⟩ := map_ok done
      obtain ⟨_, _, _, _, _, _, rfl⟩ | ⟨_, _, _, _, _, _, _, _, _, rfl⟩ := cancelRequest_ok done
      · exact absurd rfl changed
      · exact absurd (Ledger.refreshed_occurrences _) changed
  | claimRetirement =>
      obtain ⟨_, done, _⟩ := map_ok done
      obtain ⟨_, _, _, _, _, _, _, _, rfl⟩ := claimRetirement_ok done
      exact absurd rfl changed
  | finishRetirement =>
      obtain ⟨_, done, _⟩ := map_ok done
      obtain ⟨_, _, _, _, _, _, ⟨_, _, _, _, rfl⟩ | ⟨_, _, _, _, _, rfl⟩⟩ := finishRetirement_ok done
      · exact absurd rfl changed
      · exact absurd rfl changed
  | claim =>
      obtain ⟨_, done, _⟩ := map_ok done
      obtain ⟨_, rfl⟩ | ⟨_, _, _, _, rfl⟩ := claim_ok done
      · exact absurd rfl changed
      · exact absurd (Ledger.refreshed_occurrences _) changed
  | renew =>
      obtain ⟨_, done, _⟩ := map_ok done
      obtain ⟨_, _, _, rfl⟩ := renew_ok done
      exact absurd rfl changed
  | captureLease _ _ action =>
      obtain ⟨_, done, _⟩ := map_ok done
      obtain ⟨_, _, _, _, _, _, _, rfl⟩ | ⟨_, _, _, _, _, _, _, rfl⟩ := captureLease_ok done
      · exact absurd rfl changed
      · cases action <;> exact absurd rfl changed
  | registerCaptureAndSeal =>
      obtain ⟨_, done, _⟩ := map_ok done
      obtain ⟨_, _, _, _, _, _, _, ⟨_, _, _, _, _, _, rfl⟩ | ⟨_, _, _, _, _, _, rfl⟩⟩ :=
        registerCaptureAndSeal_ok done
      · exact absurd rfl changed
      · exact absurd rfl changed
  | beginDetectorRun =>
      obtain ⟨_, done, _⟩ := map_ok done
      obtain ⟨_, _, _, ⟨rfl, _⟩ | ⟨_, _, rfl⟩⟩ := beginDetectorRun_ok done
      · exact absurd rfl changed
      · exact absurd rfl changed
  | retainDetectionBatch call batch => exact ⟨call, batch, rfl⟩
  | failDetectorRun =>
      obtain ⟨_, done, _⟩ := map_ok done
      obtain ⟨_, _, _, _, _, _, _, ⟨_, _, _, _, _, _, rfl⟩ | ⟨_, _, _, _, _, rfl⟩⟩ :=
        failDetectorRun_ok done
      · exact absurd rfl changed
      · exact absurd (Ledger.refreshed_occurrences _) changed
  | finish =>
      obtain ⟨_, done, _⟩ := map_ok done
      obtain ⟨_, _, _, _, _, ⟨_, _, _, _, _, rfl⟩ | ⟨_, _, _, _, _, _, _, _, _, rfl⟩⟩ :=
        finish_ok done
      · exact absurd rfl changed
      · exact absurd (Ledger.refreshed_occurrences _) changed

variable {during : Instant → Prop}

/-- Without new occurrences the identity work is work that was there before. -/
theorem Effect.known_identity {subject : Option Uuid} {written : Ledger} {item : WorkItem}
    (effect : Effect sha256 during before subject written)
    (same : written.occurrences = before.occurrences) (member : item ∈ written.items)
    (kind : item.kind = .identity)
    : ∃ old ∈ before.items, old.id = item.id := by
  cases effect with
  | unchanged | cleanupClaimed | captureRetired | registered | begun | runFailed =>
      exact ⟨item, member, rfl⟩
  | created new =>
      rcases List.mem_append.mp member with old | added
      · exact ⟨item, old, rfl⟩
      · rw [List.mem_singleton.mp added, new.itemKind] at kind
        cases kind
  | cancelled | claimed | renewed | leaseRenewed | leaseReleased =>
      rcases mem_updateWhere_cases member with ⟨old, _⟩ | ⟨old, among, _, rfl⟩
      · exact ⟨item, old, rfl⟩
      · exact ⟨old, among, rfl⟩
  | ended =>
      rcases mem_updateWhere_cases member with ⟨old, _⟩ | ⟨old, among, _, rfl⟩
      · exact ⟨item, old, rfl⟩
      · exact ⟨old, among, (congrArg WorkItem.id (WorkItem.fixed_settle old _ _ _ _ _)).symm⟩
  | retained =>
      have none := List.self_eq_append_right.mp same.symm
      rw [List.map_eq_nil_iff] at none
      subst none
      exact ⟨item, by simpa using member, rfl⟩

/-- Later work is of the same request and kind. -/
theorem WorkItem.Evolves.place {old later : WorkItem} (evolves : old.Evolves later)
    : later.id = old.id ∧ later.requestId = old.requestId ∧ later.kind = old.kind := by
  have id := congrArg WorkItem.id evolves.1
  have request := congrArg WorkItem.requestId evolves.1
  have kind := congrArg WorkItem.kind evolves.1
  exact ⟨id, request, kind⟩

/-- Completed identity work stays completed while there is no new work. -/
theorem Ledger.Becomes.identified {request : Uuid} (step : before.Becomes sha256 during after)
    (keyed : Keyed sha256 before) (same : after.occurrences = before.occurrences)
    (identified : before.Identified request)
    : after.Identified request := by
  have keyedAfter := step.keyed keyed
  have persists := step.persists keyed
  obtain ⟨subject, written, effect, rfl⟩ := step
  intro item member own kind
  have inWritten : item ∈ written.items := by rwa [Ledger.refreshed_items] at member
  rw [Ledger.refreshed_occurrences] at same
  obtain ⟨old, oldMember, id⟩ := effect.known_identity same inWritten kind
  obtain ⟨later, laterMember, evolves⟩ := persists.items old oldMember
  obtain ⟨laterId, laterOwn, laterKind⟩ := evolves.place
  have now := keyedAfter.itemIds.eq laterMember member (laterId.trans id)
  subst now
  have completed := identified old oldMember (laterOwn.symm.trans own) (laterKind.symm.trans kind)
  rw [evolves.2 (by simp [completed, WorkState.IsOpen]), completed]

theorem Persists.hasIdentity {request : Uuid} (persists : Persists before after)
    (some : before.HasIdentity request)
    : after.HasIdentity request := by
  obtain ⟨item, member, own, kind⟩ := some
  obtain ⟨later, laterMember, evolves⟩ := persists.items item member
  obtain ⟨_, laterOwn, laterKind⟩ := evolves.place
  exact ⟨later, laterMember, laterOwn.trans own, laterKind.trans kind⟩

-- Histories

/-- The call at a time retains a batch of the request that has occurrences. -/
def History.Reopens (history : History sha256) (time : Nat) (request : Uuid) : Prop :=
  ∃ call batch reply, history.calls time = .retainDetectionBatch call batch
    ∧ history.outcomes time = .ok (.batch reply)
    ∧ reply.replayed = false
    ∧ reply.occurrenceIds ≠ []
    ∧ ∃ run ∈ (history.ledger time).runs, run.id = batch.run ∧ run.requestId = request

/-- A batch is retained again, or brings an item of identity work for each of its occurrences. -/
theorem retainDetectionBatch_items {call : Call} {batch : Batch} {reply : BatchReply}
    (keyed : Keyed sha256 ledger)
    (done : retainDetectionBatch sha256 env ledger call batch = .ok (reply, after))
    : reply.replayed = true ∧ after = ledger
      ∨ reply.replayed = false
        ∧ ∃ run ∈ ledger.runs, run.id = batch.run
          ∧ (∃ item ∈ ledger.items, item.requestId = run.requestId ∧ item.kind = .captureDetection
            ∧ item.state = .running)
          ∧ ∃ added, NewOccurrences ledger run added
            ∧ reply.occurrenceIds = added.map (·.1.id)
            ∧ after.items = ledger.items ++ added.map Prod.snd := by
  obtain ⟨_, _, run, member, _, id, _, attempt, ⟨_, _, _, replayed, same⟩
    | ⟨_, locked, _, live, added, _, new, _, _, rfl, rfl⟩⟩ := retainDetectionBatch_ok done
  · exact .inl ⟨replayed, same⟩
  · have ofRequest : run.requestId = locked.work.requestId :=
      live.toHeld.runRequest keyed member (attempt.trans live.attemptId.symm)
    refine .inr ⟨rfl, run, member, id, ⟨locked.work, live.workMember, ofRequest.symm, live.workKind,
      live.running⟩, added, new, rfl, ?_⟩
    exact Ledger.refreshed_items _

variable {time : Nat}

/-- What a reopening finds and leaves: detection work that is running, and new identity work. -/
theorem History.Reopens.pending {history : History sha256} {request : Uuid}
    (reopens : history.Reopens time request)
    : (∃ item ∈ (history.ledger time).items, item.requestId = request
        ∧ item.kind = .captureDetection ∧ item.state = .running)
      ∧ (history.ledger (time + 1)).IdentityIn request .pending
      ∧ ∀ item ∈ (history.ledger (time + 1)).items, item ∈ (history.ledger time).items
        ∨ item.state = .pending := by
  obtain ⟨call, batch, reply, called, answered, fresh, some, run, member, id, own⟩ := reopens
  have keyed := history.keyed time
  obtain ⟨env, _, ⟨full, same, done⟩ | ⟨raised, failed, _⟩⟩ := (history.steps time).cases
  · rw [answered] at same
    cases same
    rw [called] at done
    obtain ⟨answer, retained, replied⟩ := map_ok done
    cases replied
    rcases retainDetectionBatch_items keyed retained with ⟨replayed, _⟩
      | ⟨_, row, rowMember, rowId, detection, added, new, ids, items⟩
    · rw [fresh] at replayed
      cases replayed
    · have sameRun := keyed.runIds.eq rowMember member (rowId.trans id.symm)
      subst sameRun
      subst own
      have items : (history.ledger (time + 1)).items
          = (history.ledger time).items ++ added.map Prod.snd := items
      refine ⟨detection, ?_, ?_⟩
      · rw [ids] at some
        obtain ⟨_, among⟩ := List.exists_mem_of_ne_nil _ some
        obtain ⟨pair, pairMember, _⟩ := List.mem_map.mp among
        obtain ⟨_, _, _, isNew, kind, _, pairOwn, _⟩ := new.each pair pairMember
        refine ⟨pair.2, ?_, pairOwn, kind, isNew.pending⟩
        rw [items]
        exact List.mem_append_right _ (List.mem_map_of_mem pairMember)
      · intro item among
        rw [items, List.mem_append] at among
        rcases among with old | among
        · exact .inl old
        · obtain ⟨pair, pairMember, rfl⟩ := List.mem_map.mp among
          obtain ⟨_, _, _, isNew, _⟩ := new.each pair pairMember
          exact .inr isNew.pending
  · rw [answered] at failed
    cases failed

/-- A step that does not reopen the identity of a request leaves its completed work completed. -/
theorem History.identified_step (history : History sha256) {request : Uuid}
    (identified : (history.ledger time).Identified request) (quiet : ¬history.Reopens time request)
    : (history.ledger (time + 1)).Identified request := by
  have keyed := history.keyed time
  by_cases same : (history.ledger (time + 1)).occurrences = (history.ledger time).occurrences
  · exact (history.steps time).becomes.identified keyed same identified
  obtain ⟨env, _, ⟨full, answered, done⟩ | ⟨_, _, unchanged⟩⟩ := (history.steps time).cases
  · obtain ⟨call, batch, called⟩ := perform_occurrences done same
    rw [called] at done
    obtain ⟨answer, retained, replied⟩ := map_ok done
    rcases retainDetectionBatch_items keyed retained with ⟨_, unchanged⟩
      | ⟨fresh, run, member, id, _, added, new, ids, items⟩
    · exact absurd (congrArg Ledger.occurrences unchanged) same
    · have items : (history.ledger (time + 1)).items
          = (history.ledger time).items ++ added.map Prod.snd := items
      intro item among own kind
      rw [items, List.mem_append] at among
      rcases among with old | among
      · exact identified item old own kind
      · obtain ⟨pair, pairMember, rfl⟩ := List.mem_map.mp among
        obtain ⟨_, _, _, _, _, _, pairOwn, _⟩ := new.each pair pairMember
        have some : answer.occurrenceIds ≠ [] := by
          rw [ids]
          exact List.ne_nil_of_mem (List.mem_map_of_mem pairMember)
        rw [replied] at answered
        exact absurd ⟨call, batch, answer, called, answered, fresh, some, run, member, id,
          pairOwn.symm.trans own⟩ quiet
  · exact absurd (congrArg Ledger.occurrences unchanged) same

/-- The identity stage that a row shows, by its work. -/
theorem History.identityState_eq (history : History sha256) {row : ScanRequest}
    (member : row ∈ (history.ledger time).requests)
    : (history.ledger time).identityStage row.id row.detectionState = row.identityState := by
  have columns := history.staged time row member
  obtain ⟨work, _, same⟩ := Option.map_eq_some_iff.mp columns
  have detection := congrArg Stages.detection same
  have identity := congrArg Stages.identity same
  dsimp only at detection identity
  change _ = row.detectionState at detection
  change _ = row.identityState at identity
  rw [← identity, detection]

/-- In every history a completed identity stage is taken back exactly by a call that retains a batch
of the request with occurrences: it becomes pending, while detection is running and not shown as
completed. While there is no such call it stays completed. Witness: a batch brings new identity work,
nothing else does, and work that is completed stays so.
-/
theorem history_identity_reopens (history : History sha256)
    : (∀ time, ∀ row ∈ (history.ledger time).requests, row.identityState = .completed
        → ∀ later ∈ (history.ledger (time + 1)).requests, later.id = row.id
        → (later.identityState = .completed ∧ ¬history.Reopens time row.id)
          ∨ (later.identityState = .pending ∧ history.Reopens time row.id
            ∧ row.detectionState ≠ .completed
            ∧ ∃ item ∈ (history.ledger time).items, item.requestId = row.id
              ∧ item.kind = .captureDetection ∧ item.state = .running))
      ∧ ∀ first last, first ≤ last → ∀ row ∈ (history.ledger first).requests,
        row.identityState = .completed
        → (∀ time, first ≤ time → time < last → ¬history.Reopens time row.id)
        → ∀ later ∈ (history.ledger last).requests, later.id = row.id
          → later.identityState = .completed := by
  have step (time : Nat) (row : ScanRequest) (member : row ∈ (history.ledger time).requests)
      (completed : row.identityState = .completed) (later : ScanRequest)
      (laterMember : later ∈ (history.ledger (time + 1)).requests) (same : later.id = row.id)
      : (later.identityState = .completed ∧ ¬history.Reopens time row.id)
        ∨ (later.identityState = .pending ∧ history.Reopens time row.id
          ∧ row.detectionState ≠ .completed
          ∧ ∃ item ∈ (history.ledger time).items, item.requestId = row.id
            ∧ item.kind = .captureDetection ∧ item.state = .running) := by
    have stage := history.identityState_eq member
    rw [completed, identityStage_eq_completed_iff] at stage
    obtain ⟨identified, some⟩ := stage
    have stageLater := history.identityState_eq laterMember
    rw [same] at stageLater
    by_cases reopens : history.Reopens time row.id
    · obtain ⟨⟨item, itemMember, own, kind, running⟩, pending, others⟩ := reopens.pending
      have old (state : WorkState) (notCompleted : state ≠ .completed) (notPending : state ≠ .pending)
          : ¬(history.ledger (time + 1)).IdentityIn row.id state := by
        rintro ⟨item, among, own, kind, rfl⟩
        rcases others item among with before | isPending
        · exact notCompleted (identified item before own kind)
        · exact notPending isPending
      refine .inr ⟨?_, reopens, ?_, item, itemMember, own, kind, running⟩
      · rw [← stageLater]
        rcases identityStage_cases (history.ledger (time + 1)) row.id
          later.detectionState with ⟨_, found⟩ | ⟨_, found⟩ | ⟨_, found⟩ | ⟨stage, _⟩ | ⟨all, _⟩
        · exact absurd found (old _ (by simp) (by simp))
        · exact absurd found (old _ (by simp) (by simp))
        · exact absurd found (old _ (by simp) (by simp))
        · exact stage
        · exact absurd pending (all.not_in (by simp))
      · intro detected
        have done := (detection_completed_iff (history.keyed time) (history.chains time)
          (history.complete time) (history.staged time) member itemMember own kind).mp detected
        rw [running] at done
        cases done
    · refine .inl ⟨?_, reopens⟩
      by_cases detected : row.detectionState = .completed
      · exact (history.completed_stays (Nat.le_succ time) member detected completed laterMember
          same).2
      · rw [← stageLater, identityStage_eq_completed_iff]
        refine ⟨history.identified_step identified reopens, .inl ?_⟩
        exact (history.persists (Nat.le_succ time)).hasIdentity (some.resolve_right detected)
  refine ⟨step, ?_⟩
  intro first last ordered row member completed quiet
  induction last, ordered using Nat.le_induction with
  | base =>
      intro later laterMember same
      rw [(history.keyed first).requestIds.eq laterMember member same, completed]
  | succ last ordered ih =>
      intro later laterMember same
      obtain ⟨middle, middleMember, evolves⟩ := (history.persists ordered).requests row member
      have id : middle.id = row.id := by
        have fixed := congrArg ScanRequest.id evolves.1
        exact fixed
      have still := ih (fun time since before => quiet time since (Nat.lt_succ_of_lt before)) middle
        middleMember id
      rcases step last middle middleMember still later laterMember (same.trans id.symm) with
        ⟨stays, _⟩ | ⟨_, reopens, _⟩
      · exact stays
      · rw [id] at reopens
        exact absurd reopens (quiet last ordered (Nat.lt_succ_self last))

-- Identity between the batches

namespace TwoBatches

/-- A digest that nothing compares with its bytes. -/
def opaqueDigest : Json :=
  .str (List.replicate 64 0x61)

/-- An image by such a digest. -/
def image : Json :=
  .str (py "sha256:" ++ List.replicate 64 0x61)

/-- SHA-256 of `x`. -/
def blobDigest : Bytes :=
  toBytes 32 0x2d711642b726b04401627ca9fbac32f5c8530fb1903cc4db02258717921a4881

/-- The member that names the schema of an envelope. -/
def named (name : EnvelopeName) : String × Json :=
  ("schema", .str name.schemaText)

def runner : Json :=
  .record [("code_policy_digest", opaqueDigest), ("environment_policy_digest", opaqueDigest),
    ("expected_code_digest", opaqueDigest), ("expected_image_digest", image)]

def identityPolicy : Json :=
  .record [("mode", .str (py "required")), ("policy_digest", opaqueDigest),
    ("policy_id", .str (py "p")), ("reason", .null)]

def retryPolicy : Json :=
  .record [("initial_backoff_seconds", .int 0), ("lease_seconds", .int 60), ("max_attempts", .int 1),
    ("max_backoff_seconds", .int 0), named .retryPolicy]

def rule : Json :=
  .record [("content_digest", .str (hex blobDigest)), ("rule_id", .str (py "r")),
    ("semantic_digest", opaqueDigest)]

def binding (key : String) : Json :=
  .record [("adapter_policy_digest", opaqueDigest), ("class_id", .str (py "c")),
    ("code_policy_digest", opaqueDigest), ("detector_content_digest", .str (hex blobDigest)),
    ("detector_id", .str (py "d")), ("engines", .arr [.str (py "semgrep")]),
    ("environment_policy_digest", opaqueDigest), ("expected_code_digest", opaqueDigest),
    ("expected_image_digest", image), ("expected_tool_digest", opaqueDigest), ("key", .str (py key)),
    ("language", .str (py "l")), ("rules", .arr [rule]), ("tool_policy_digest", opaqueDigest)]

def bindings : Json :=
  .arr [binding "a", binding "b"]

def policyData : Bytes :=
  (Json.record [("bindings", bindings), ("capture_detection_runner", runner),
    ("identity_policy", identityPolicy), ("identity_runner", runner),
    named .plannedPolicy]).dumps.utf8

def policyDigest : Bytes :=
  toBytes 32 0xfdeb7d41e7eaf8803e3122b03b0d5b1fafe9a49880304d910bdec2e6e780a3ff

def requestData : Bytes :=
  (Json.record [("codebase_id", .str (Uuid.text 2)), ("idempotency_key", .str (py "k")),
    ("identity_policy", identityPolicy), ("lineage_id", .str (Uuid.text 3)),
    ("org_id", .str (Uuid.text 1)), ("predecessor_request_id", .null),
    ("requested_policy_digest", .str (hex policyDigest)), ("requested_s_version", .str (py "1")),
    ("retry_policy", retryPolicy), named .request,
    ("source_selector",
      .record [("kind", .str (py "git-ref")), ("value", .str (py "main"))])]).dumps.utf8

def attemptPolicyData : Bytes :=
  (Json.record [("assignment_id", .str (py "w")), ("code_policy_digest", opaqueDigest),
    ("environment_policy_digest", opaqueDigest), ("lease_seconds", .int 60),
    named .attemptPolicy]).dumps.utf8

def inventoryData : Bytes :=
  (Json.record [("files", .arr [.record [("path", .str (py "f")),
    ("sha256", .str (hex blobDigest)), ("size", .int 1)]]), named .sourceInventory]).dumps.utf8

def inventoryDigest : Bytes :=
  toBytes 32 0x3b0ebf6f2c562fb824b158265e2d1a606a34679f2aa252e4e9875249cfce60e1

def contentData : Bytes :=
  (Json.record [("detector_sha256s", .arr [.str (hex blobDigest), .str (hex blobDigest)]),
    ("rule_sha256s", .arr [.str (hex blobDigest), .str (hex blobDigest)]), named .acceptedContent,
    ("spec_sha256", .str (hex blobDigest))]).dumps.utf8

def contentDigest : Bytes :=
  toBytes 32 0xfcebc40a9b01272515d04e72fc0e7482fcef0696674f6deaebadb2bc37effc74

def sealData : Bytes :=
  (Json.record [("accepted_content_digest", .str (hex contentDigest)),
    ("acceptance_evidence_digest", .str (hex blobDigest)), ("bindings", bindings),
    ("commit_algorithm", .str (py "git-sha1")), ("intended_files", .arr [.str (py "f")]),
    ("inventory_digest", .str (hex inventoryDigest)),
    ("planned_policy_digest", .str (hex policyDigest)), ("request_id", .str (Uuid.text 10)),
    ("resolved_commit", .str (List.replicate 40 0x61)), ("retain_seconds", .int 60),
    ("s_version", .str (py "1")), named .scanSeal, ("storage_object_id", .str (Uuid.text 4)),
    ("storage_reference", .str (py "s")), ("tree_algorithm", .str (py treeAlgorithm)),
    ("tree_digest", opaqueDigest)]).dumps.utf8

def runData (key : String) : Bytes :=
  (Json.record [("argv", .arr []), ("binding_key", .str (py key)),
    ("code_policy_digest", opaqueDigest), ("cwd", .str (py "/")),
    ("environment_policy_digest", opaqueDigest), ("run_ordinal", .int 0), named .runInput,
    ("tool_policy_digest", opaqueDigest)]).dumps.utf8

def actualIdentity : Json :=
  .record [("artifact_digest", opaqueDigest), ("evidence_digest", opaqueDigest),
    ("policy_digest", opaqueDigest)]

def occurrences : Json :=
  .arr [.record [("cwe", .null), ("duplicate_ordinal", .int 0), ("engine", .str (py "semgrep")),
    ("location", .record [("end_column", .null), ("end_line", .null), ("path", .null),
      ("start_column", .null), ("start_line", .null), ("status", .str (py "unknown"))]),
    ("message", .str []), ("raw_sha256", .str (hex blobDigest)), ("result_key", .str (py "o")),
    ("rule_id", .str (py "r")), ("severity", .str (py "high")), ("tool_ordinal", .int 0),
    ("witness_sha256", .null)]]

def foundData : Bytes :=
  (Json.record [("occurrences", occurrences), named .occurrenceInventory]).dumps.utf8

def foundDigest : Bytes :=
  toBytes 32 0x22d34766ae2265b0a01c8df5a717209d625a5e3c95c317e6ecab3bb97b61bfae

def batchData (run : Uuid) : Bytes :=
  (Json.record [("actual_invocation", .record [("argv", .arr []), ("cwd", .str (py "/"))]),
    ("code_identity", actualIdentity),
    ("coverage", .record [("errors", .arr []), ("files", .arr [.str (py "f")]),
      ("rules", .arr [.str (py "r")]), ("status", .str (py "complete"))]),
    ("detector_env_digest", image), ("full_env_digest", .null),
    ("inventory_digest", .str (hex foundDigest)), ("occurrences", occurrences),
    ("run_id", .str run.text), named .detectionBatch, ("status", .str (py "completed")),
    ("stderr_sha256", .str (hex blobDigest)), ("stdout_sha256", .str (hex blobDigest)),
    ("tool_identity", actualIdentity)]).dumps.utf8

def artifact : Json :=
  .record [("annotation", .str (py artifactAnnotation)), ("digest", opaqueDigest),
    ("fingerprint_class", .str (py "strong")), ("namespace", .str (py "n")),
    ("status", .str (py "completed"))]

def resultData : Bytes :=
  (Json.record [("actual_code_digest", opaqueDigest), ("actual_env_digest", image),
    ("completed_run_ids", .arr []), ("error", .null),
    ("identity", .record [("cpg_order", artifact), ("schema_version", .int 2),
      ("slice", artifact)]),
    ("identity_policy_reason", .null), ("retryable", .bool false), named .attemptResult,
    ("status", .str (py "completed"))]).dumps.utf8

def workData (kind : WorkKind) (occurrence : Option Uuid) : Bytes :=
  (Json.record [("kind", .str (py kind.text)), ("occurrence_id", orNull occurrence),
    ("policy", identityPolicy), ("request_id", .str (Uuid.text 10)), named .workPayload]).dumps.utf8

/-- The digests of the envelopes of the run. -/
def envelopes : List (EnvelopeName × Bytes × Bytes) :=
  [(.plannedPolicy, policyData, policyDigest),
    (.sourceInventory, inventoryData, inventoryDigest),
    (.acceptedContent, contentData, contentDigest),
    (.occurrenceInventory, foundData, foundDigest),
    (.request, requestData,
      toBytes 32 0xc2a9e4124629c593f54466bf2065c7aaab951afda4bb8ef2ae56062800ab06c2),
    (.attemptPolicy, attemptPolicyData,
      toBytes 32 0x9bfc6b20ef9983d2526bd7f7b74eda12753f0a8a471f0272a3ca362cee7df58b),
    (.scanSeal, sealData,
      toBytes 32 0x254d277c4b518b6b9fd910b38b48b32ba15dfdcbb5167a9e340f7fd74cce3937),
    (.runInput, runData "a",
      toBytes 32 0xa7cf5e9d1fe96f6c23b137da53dab998d80f0ce6f519c293b0bc165fdf95b7b8),
    (.runInput, runData "b",
      toBytes 32 0x46803d82bc3dc7c9a4084f742cc6cfb6968ab817a40d775b7f238456a03008e8),
    (.detectionBatch, batchData 16,
      toBytes 32 0x025665d62add946f1e144e4394cf4ffa8c59dfdea3e891c95007a6e6a79f546c),
    (.detectionBatch, batchData 21,
      toBytes 32 0x7fb7781b7ae594df03859165e4c40026c595b83e6c79ecde0d5c92b7651262d7),
    (.attemptResult, resultData,
      toBytes 32 0x4e04065dd0534b8c13dbb7084ca8ee3765d2b26e137d41019f7e2d724e2cc069),
    (.workPayload, workData .captureDetection none,
      toBytes 32 0x6ef9de3185ef077ef0d1bbe3c31245a8574b631cfd01c3d1b8f07767a7524866),
    (.workPayload, workData .identity (some 17),
      toBytes 32 0x9d24a2af4f7bb9239604bedbe26dd6902e35c05c127ef673438a0b4472e92ce3),
    (.workPayload, workData .identity (some 22),
      toBytes 32 0x04d1a6a18d8d2d71336c6030115b607c2cb6118c87c8be1bf9f72635a43efd6c)]

/-- SHA-256, on the data of this run. -/
def hash (data : Bytes) : Bytes :=
  match envelopes.find? fun entry => entry.1.schemaText.utf8 ++ pyb "\n" ++ entry.2.1 = data with
  | some entry => entry.2.2
  | none => blobDigest

def detection : Call :=
  ⟨1, 11, 12, 1, 1⟩

def batch (run : Uuid) : Batch :=
  ⟨run, batchData run, digestOf hash .detectionBatch (batchData run), pyb "x", pyb "x", [pyb "x"],
    [none]⟩

/-- The calls of the run, each with the first identifier that it generates. -/
def calls : List (Nat × Operation) :=
  [(10, .createRequest ⟨1, 2, requestData, digestOf hash .request requestData, policyData,
      policyDigest⟩),
    (12, .claim ⟨1, .captureDetection, none, attemptPolicyData,
      digestOf hash .attemptPolicy attemptPolicyData⟩),
    (13, .registerCaptureAndSeal detection ⟨sealData, digestOf hash .scanSeal sealData,
      inventoryData, inventoryDigest, contentData, contentDigest, pyb "x", [pyb "x", pyb "x"],
      [pyb "x", pyb "x"], pyb "x"⟩),
    (16, .beginDetectorRun detection (runData "a") (digestOf hash .runInput (runData "a"))),
    (17, .retainDetectionBatch detection (batch 16)),
    (19, .claim ⟨1, .identity, none, attemptPolicyData,
      digestOf hash .attemptPolicy attemptPolicyData⟩),
    (0, .finish ⟨1, 18, 19, 1, 1⟩ .identity ⟨resultData, digestOf hash .attemptResult resultData,
      false⟩),
    (21, .beginDetectorRun detection (runData "b") (digestOf hash .runInput (runData "b"))),
    (22, .retainDetectionBatch detection (batch 21))]

/-- The call at a time; after the last one, calls that are refused. -/
def callAt (time : Nat) : Environment × Operation :=
  let call := (calls[time]?).getD (0, .renew ⟨0, 0, 0, 0, 0⟩ .identity)
  (⟨1, fun _ => 0, fun reading => Fin.ofNat (2 ^ 128) (call.1 + reading), fun _ => false⟩, call.2)

/-- The ledger at a time. -/
def ledgerAt : Nat → Ledger
  | 0 => .empty [(1, 2)]
  | time + 1 => (execute hash (callAt time).1 (ledgerAt time) (callAt time).2).2

/-- A request whose identity stage is completed between two batches. -/
def history : History hash where
  moments time := ⟨ledgerAt time, 0⟩
  calls time := (callAt time).2
  outcomes time := (execute hash (callAt time).1 (ledgerAt time) (callAt time).2).1
  codebases := [(1, 2)]
  start := rfl
  steps time := ⟨(callAt time).1, ⟨fun _ _ _ => le_rfl, fun _ => ⟨le_rfl, le_rfl⟩⟩, rfl⟩

theorem ledger_history (time : Nat) : history.ledger time = ledgerAt time :=
  rfl

/-- The request after so many revisions. -/
def request (revision : Int) (capture detection : WorkState) : ScanRequest :=
  ⟨10, 1, 2, 3, none, py "k", requestData, digestOf hash .request requestData, policyData,
    policyDigest, 0, revision, capture, detection, .pending, some 11, none⟩

/-- The detection work, with the attempt that runs it. -/
def detectionItem (state : WorkState) (attempt : Option Uuid) (token : Int) : WorkItem :=
  ⟨11, 1, 2, 10, .captureDetection, none, none, py "capture_detection:" ++ Uuid.text 10,
    workData .captureDetection none, digestOf hash .workPayload (workData .captureDetection none),
    retryPolicy.dumps.utf8, 1, 60, 0, 0, 0, state, attempt, token, 0, token, none, none⟩

/-- The ledger after the fourth call. -/
def ledgerFour : Ledger where
  codebases := [(1, 2)]
  requests := [request 3 .completed .running]
  captures := [⟨13, 1, 2, 10, List.replicate 40 0x61, List.replicate 64 0x61, inventoryData,
    inventoryDigest, 4, py "s", 0, 60, 60000000, .active, 0, none, none, none, 0⟩]
  seals := [⟨14, 1, 2, 10, 13, sealData, digestOf hash .scanSeal sealData, py "1", contentData,
    contentDigest, pyb "x", [pyb "x", pyb "x"], [pyb "x", pyb "x"], pyb "x", blobDigest, 0⟩]
  items := [detectionItem .running (some 12) 1]
  attempts := [⟨12, 1, 2, 10, 11, .captureDetection, 1, 1, py "w", attemptPolicyData,
    digestOf hash .attemptPolicy attemptPolicyData, 0, 60000000, .running, none, none, none, none⟩]
  runs := [⟨16, 1, 2, 10, 13, 14, 11, 12, py "a", 0, none, runData "a",
    digestOf hash .runInput (runData "a"), 0, .running, none, none, none, none, none, none, none,
    0, none⟩]
  occurrences := []
  leases := [⟨15, 1, 2, 10, 13, 11, 12, 1, 0, 60000000, none, none, none⟩]

/-- The ledger so many calls after another one. -/
def continued (ledger : Ledger) (first : Nat) : Nat → Ledger
  | 0 => ledger
  | count + 1 =>
      (execute hash (callAt (first + count)).1 (continued ledger first count)
        (callAt (first + count)).2).2

theorem ledgerAt_add (first : Nat)
    : ∀ count, ledgerAt (first + count) = continued (ledgerAt first) first count
  | 0 => rfl
  | count + 1 => by
      rw [← Nat.add_assoc, ledgerAt, continued, ledgerAt_add first count]

/-- What the request shows before and after its second batch, evaluated in two parts. -/
theorem stages_between
    : ((ledgerAt 7).requests.map fun row => (row.id, row.identityState)) = [(10, .completed)]
      ∧ ((ledgerAt 9).requests.map fun row => (row.id, row.identityState)) = [(10, .pending)] := by
  have four : ledgerAt 4 = ledgerFour := by
    decide +kernel
  rw [ledgerAt_add 4 3, ledgerAt_add 4 5, four]
  decide +kernel

end TwoBatches

/-- The identity work of a first batch is completed while a second detector runs, whose batch then
takes the identity stage back to pending.
-/
theorem identity_stage_taken_back
    : ∃ history : History TwoBatches.hash, ∃ first last, first ≤ last
      ∧ ∃ row ∈ (history.ledger first).requests, ∃ later ∈ (history.ledger last).requests,
        later.id = row.id ∧ row.identityState = .completed ∧ later.identityState = .pending := by
  obtain ⟨before, after⟩ := TwoBatches.stages_between
  refine ⟨TwoBatches.history, 7, 9, by omega, ?_⟩
  rw [TwoBatches.ledger_history, TwoBatches.ledger_history]
  have among : ((10 : Uuid), WorkState.completed)
      ∈ (TwoBatches.ledgerAt 7).requests.map fun row => (row.id, row.identityState) := by
    rw [before]
    exact List.mem_singleton_self _
  have amongLater : ((10 : Uuid), WorkState.pending)
      ∈ (TwoBatches.ledgerAt 9).requests.map fun row => (row.id, row.identityState) := by
    rw [after]
    exact List.mem_singleton_self _
  obtain ⟨row, member, shown⟩ := List.mem_map.mp among
  obtain ⟨later, laterMember, shownLater⟩ := List.mem_map.mp amongLater
  rw [Prod.mk.injEq] at shown shownLater
  exact ⟨row, member, later, laterMember, shownLater.1.trans shown.1.symm, shown.2, shownLater.2⟩

end Scanipy.Db.Execution

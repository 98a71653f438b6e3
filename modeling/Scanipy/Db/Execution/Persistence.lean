import Scanipy.Db.Execution.Inventory

/-! What later transactions of the execution ledger keep of a row: its fixed columns always, and all
of it once it is settled.
-/

namespace Scanipy.Db.Execution

open Library Python Services.Scan.OccurrenceStore

variable {sha256 : Bytes → Bytes} {ledger before after : Ledger}

/-- A cancellation is recorded once. -/
def ScanRequest.Evolves (old new : ScanRequest) : Prop :=
  new.fixed = old.fixed
    ∧ (old.cancellationBytes ≠ none → new.cancellationBytes = old.cancellationBytes)

abbrev SourceCapture.Evolves : SourceCapture → SourceCapture → Prop :=
  Library.Evolves (·.fixed) (·.retentionState = .retired)

abbrev WorkItem.Evolves : WorkItem → WorkItem → Prop :=
  Library.Evolves (·.fixed) fun row => ¬row.state.IsOpen

abbrev WorkAttempt.Evolves : WorkAttempt → WorkAttempt → Prop :=
  Library.Evolves (·.fixed) (·.state ≠ .running)

abbrev DetectorRun.Evolves : DetectorRun → DetectorRun → Prop :=
  Library.Evolves (·.fixed) fun row => ¬row.state.IsOpen

abbrev CaptureLease.Evolves : CaptureLease → CaptureLease → Prop :=
  Library.Evolves (·.fixed) (·.releasedAt ≠ none)

theorem ScanRequest.Evolves.refl (row : ScanRequest) : row.Evolves row := ⟨rfl, fun _ => rfl⟩

theorem ScanRequest.Evolves.trans {old middle new : ScanRequest} (first : old.Evolves middle)
    (second : middle.Evolves new)
    : old.Evolves new := by
  refine ⟨second.1.trans first.1, fun cancelled => ?_⟩
  have same := first.2 cancelled
  rw [second.2 (same ▸ cancelled), same]

variable (before after) in
/-- The rows of a ledger are all there later, the settled ones unchanged. -/
structure Persists : Prop where
  requests : References ScanRequest.Evolves before.requests after.requests
  captures : References SourceCapture.Evolves before.captures after.captures
  seals : before.seals ⊆ after.seals
  items : References WorkItem.Evolves before.items after.items
  attempts : References WorkAttempt.Evolves before.attempts after.attempts
  runs : References DetectorRun.Evolves before.runs after.runs
  occurrences : before.occurrences <+: after.occurrences
  leases : References CaptureLease.Evolves before.leases after.leases

/-- Every row is linked to itself. -/
theorem references_self {ρ : Type} {link : ρ → ρ → Prop} {rows : List ρ}
    (refl : ∀ row, link row row)
    : References link rows rows :=
  fun row member => ⟨row, member, refl row⟩

theorem Persists.refl (ledger : Ledger) : Persists ledger ledger where
  requests := references_self .refl
  captures := references_self Evolves.refl
  seals := fun _ member => member
  items := references_self Evolves.refl
  attempts := references_self Evolves.refl
  runs := references_self Evolves.refl
  occurrences := List.prefix_rfl
  leases := references_self Evolves.refl

theorem Persists.trans {middle : Ledger} (first : Persists before middle)
    (second : Persists middle after)
    : Persists before after where
  requests := first.requests.trans second.requests fun _ _ _ => .trans
  captures := first.captures.trans second.captures fun _ _ _ => Evolves.trans
  seals := fun _ member => second.seals (first.seals member)
  items := first.items.trans second.items fun _ _ _ => Evolves.trans
  attempts := first.attempts.trans second.attempts fun _ _ _ => Evolves.trans
  runs := first.runs.trans second.runs fun _ _ _ => Evolves.trans
  occurrences := first.occurrences.trans second.occurrences
  leases := first.leases.trans second.leases fun _ _ _ => Evolves.trans

/-- Rows are added behind the others. -/
theorem references_append {ρ : Type} {link : ρ → ρ → Prop} {rows : List ρ}
    (refl : ∀ row, link row row) (added : List ρ)
    : References link rows (rows ++ added) :=
  (references_self refl).append_targets added

/-- Released leases are settled, by induction on the leases. -/
theorem evolves_of_releases {old new : List CaptureLease}
    (released : List.Forall₂ CaptureLease.Releases old new)
    : References CaptureLease.Evolves old new := by
  induction released with
  | nil =>
      intro lease member
      cases member
  | @cons lease _ _ _ head _ ih =>
      intro row member
      rcases List.mem_cons.mp member with rfl | later
      · refine ⟨_, List.mem_cons_self, ?_⟩
        cases head with
        | kept => exact Evolves.refl _
        | released moment data digest unreleased =>
            exact Evolves.of_unsettled rfl fun settled => settled unreleased
      · obtain ⟨next, among, evolves⟩ := ih row later
        exact ⟨next, List.mem_cons_of_mem _ among, evolves⟩

/-- An update of one row that is not settled. -/
theorem evolves_of_updated {ρ : Type} {id : ρ → Uuid} {fixed : ρ → ρ} {settled : ρ → Prop}
    {rows : List ρ} {row : ρ} {change : ρ → ρ} (unique : UniqueBy id rows) (member : row ∈ rows)
    (kept : ∀ row, fixed (change row) = fixed row) (unsettled : ¬settled row)
    : References (Evolves fixed settled) rows
        (updateWhere (fun other => id other = id row) change rows) := by
  refine references_updateWhere Evolves.refl ?_
  intro other among met
  rw [unique.eq among member (of_decide_eq_true met)]
  exact .of_unsettled (kept row) unsettled

theorem not_settled_of_open {state : RunState} (unsettled : state.IsOpen) : ¬¬state.IsOpen :=
  fun concluded => concluded unsettled

/-- The work of a current attempt is not settled. -/
theorem Current.unsettled {call : Call} {kind : WorkKind} {locked : Locked} {attempt : WorkAttempt}
    (current : Current before call kind locked attempt)
    : ¬¬locked.work.state.IsOpen :=
  fun concluded => concluded (.inr current.running)

/-- The lease of a live attempt is not released. -/
theorem Live.unreleased {call : Call} {kind : WorkKind} {locked : Locked} {attempt : WorkAttempt}
    {now : Instant} {lease : CaptureLease} (keyed : Keyed sha256 before)
    (live : Live before call kind locked attempt now) (member : lease ∈ before.leases)
    (own : lease.workAttemptId = attempt.id)
    : lease.releasedAt = none := by
  obtain ⟨capture, captureMember, _, owner⟩ := keyed.leaseCapture lease member
  have registered : locked.capture = some capture := by
    refine live.capture_eq keyed captureMember (owner.trans ?_)
    rw [live.leaseRequest keyed member own, live.requestId]
  obtain ⟨_, held, heldMember, ofAttempt, _, _, unreleased, _⟩ := live.consumes capture registered
  rw [keyed.leaseAttempts.eq member heldMember (own.trans ofAttempt.symm)]
  exact unreleased

/-- Every transaction keeps the rows and changes only those that are not settled. Witness: each
operation updates the running rows of its attempt, or the open ones of its request.
-/
theorem Effect.persists {during : Instant → Prop} {subject : Option Uuid} {written : Ledger}
    (effect : Effect sha256 during before subject written) (keyed : Keyed sha256 before)
    : Persists before written := by
  have rest := Persists.refl before
  cases effect with
  | unchanged => exact rest
  | @created request item =>
      exact { rest with
        requests := references_append .refl [request]
        items := references_append Evolves.refl [item] }
  | cancelled member uncancelled released =>
      exact { rest with
        requests := references_updateWhere .refl fun row among met => by
          rw [keyed.requestIds.eq among member (of_decide_eq_true met)]
          exact ⟨rfl, fun cancelled => absurd uncancelled cancelled⟩
        items := references_updateWhere Evolves.refl fun row _ met =>
          .of_unsettled rfl fun concluded => concluded (of_decide_eq_true met).2
        attempts := references_updateWhere Evolves.refl fun row _ met =>
          .of_unsettled rfl fun concluded => concluded (of_decide_eq_true met).2
        runs := references_updateWhere Evolves.refl fun row _ met =>
          .of_unsettled rfl fun concluded => concluded (of_decide_eq_true met).2
        leases := evolves_of_releases released }
  | cleanupClaimed member _ unretired =>
      exact { rest with captures :=
        evolves_of_updated keyed.captureIds member (fun _ => rfl) unretired }
  | captureRetired member _ retiring =>
      refine { rest with captures :=
        evolves_of_updated keyed.captureIds member (fun _ => rfl) ?_ }
      rw [retiring]
      simp
  | @claimed locked attempt leases new =>
      exact { rest with
        items := references_updateWhere Evolves.refl fun row among met => by
          have id : row.id = locked.work.id := (of_decide_eq_true met).trans new.attemptWork
          rw [keyed.itemIds.eq among new.work id]
          exact .of_unsettled rfl fun concluded => concluded (.inl new.pending)
        attempts := references_append Evolves.refl [attempt]
        leases := references_append Evolves.refl leases }
  | renewed live =>
      exact { rest with
        items := evolves_of_updated keyed.itemIds live.workMember (fun _ => rfl) live.unsettled
        attempts := evolves_of_updated keyed.attemptIds live.attemptMember (fun _ => rfl)
          fun settled => settled live.attemptRunning
        leases := references_updateWhere Evolves.refl fun row _ met =>
          .of_unsettled rfl fun settled => settled (of_decide_eq_true met).2 }
  | leaseRenewed live member own =>
      exact { rest with
        items := evolves_of_updated keyed.itemIds live.workMember (fun _ => rfl) live.unsettled
        leases := evolves_of_updated keyed.leaseIds member (fun _ => rfl)
          fun settled => settled (live.unreleased keyed member own) }
  | leaseReleased live member own =>
      exact { rest with
        items := evolves_of_updated keyed.itemIds live.workMember (fun _ => rfl) live.unsettled
        leases := evolves_of_updated keyed.leaseIds member (fun _ => rfl)
          fun settled => settled (live.unreleased keyed member own) }
  | @registered _ _ _ _ capture sealed lease live new =>
      exact { rest with
        requests := references_updateWhere .refl fun row _ _ => ⟨rfl, fun _ => rfl⟩
        captures := references_append Evolves.refl [capture]
        seals := List.subset_append_left _ _
        leases := references_append Evolves.refl [lease] }
  | @begun _ _ _ _ run live new =>
      exact { rest with runs := references_append Evolves.refl [run] }
  | @retained _ _ _ _ _ added _ _ _ live member work own unsettled =>
      exact { rest with
        items := references_append Evolves.refl (added.map Prod.snd)
        runs := evolves_of_updated keyed.runIds member (fun _ => rfl) (not_settled_of_open unsettled)
        occurrences := List.prefix_append _ _ }
  | runFailed live member work own unsettled =>
      exact { rest with
        runs := evolves_of_updated keyed.runIds member (fun _ => rfl)
          (not_settled_of_open unsettled) }
  | @ended _ _ locked attempt _ _ _ _ _ _ _ current ended =>
      refine { rest with
        items := evolves_of_updated keyed.itemIds current.workMember
          (fun row => row.fixed_settle _ _ _ _ _) current.unsettled
        attempts := evolves_of_updated keyed.attemptIds current.attemptMember (fun _ => rfl)
          fun settled => settled current.attemptRunning
        runs := ?_
        leases := evolves_of_releases ended.released }
      rcases ended.interrupted with ⟨_, _, _, rfl⟩ | ⟨rfl, _⟩
      · exact references_updateWhere Evolves.refl fun row _ met =>
          .of_unsettled rfl fun concluded => concluded (of_decide_eq_true met).2
      · exact rest.runs

/-- The stages of a request are mutable columns. -/
theorem Ledger.persists_refreshed (subject : Option Uuid)
    : Persists ledger (ledger.refreshed subject) := by
  unfold Ledger.refreshed
  split
  · exact { Persists.refl ledger with
      requests := references_updateWhere .refl fun _ _ _ => ⟨rfl, fun _ => rfl⟩ }
  · exact .refl ledger

theorem Ledger.Becomes.persists {during : Instant → Prop}
    (step : before.Becomes sha256 during after) (keyed : Keyed sha256 before)
    : Persists before after := by
  obtain ⟨subject, written, effect, rfl⟩ := step
  exact (effect.persists keyed).trans (Ledger.persists_refreshed subject)

/-- The rows of a history persist, by induction on the later time. -/
theorem History.persists (history : History sha256) {first last : Nat} (ordered : first ≤ last)
    : Persists (history.ledger first) (history.ledger last) := by
  refine history.forward (Persists (history.ledger first)) ordered ?_ (.refl _)
  intro time earlier
  exact earlier.trans ((history.steps time).becomes.persists (history.keyed time))

/-- A request at rest keeps its rows at every later time, by induction on the later time. -/
theorem History.untouched_at_rest (history : History sha256) {first last : Nat} {request : Uuid}
    (ordered : first ≤ last) (known : ∃ row ∈ (history.ledger first).requests, row.id = request)
    (rest : ¬(history.ledger first).Busy request)
    : Untouched (history.ledger first) (history.ledger last) request := by
  obtain ⟨row, member, rfl⟩ := known
  induction last, ordered using Nat.le_induction with
  | base => exact .refl _ _
  | succ last ordered ih =>
      obtain ⟨later, laterMember, evolves⟩ := (history.persists ordered).requests row member
      have id : later.id = row.id := by
        have same := congrArg ScanRequest.id evolves.1
        exact same
      refine ih.trans ?_
      exact (history.steps last).becomes.untouched_at_rest (history.sound last)
        ⟨later, laterMember, id⟩ fun busy => rest (ih.busy_iff.mp busy)

/-- An open run belongs to the running attempt that its running work item names and fences; and no
work is open for a cancelled request or for the owner of a capture that is not active.
-/
theorem history_work_authorized (history : History sha256) (time : Nat)
    : let ledger := history.ledger time
      (∀ run ∈ ledger.runs, run.state.IsOpen → ∃ attempt ∈ ledger.attempts, ∃ item ∈ ledger.items,
        run.workAttemptId = attempt.id ∧ attempt.state = .running ∧ item.id = attempt.workItemId
        ∧ item.state = .running ∧ item.activeAttemptId = some attempt.id
        ∧ item.fencingToken = attempt.fencingToken ∧ item.requestId = run.requestId)
      ∧ (∀ request ∈ ledger.requests, request.cancellationBytes ≠ none → ¬ledger.Busy request.id)
      ∧ ∀ capture ∈ ledger.captures, capture.retentionState ≠ .active
        → ¬ledger.Busy capture.ownerRequestId := by
  have sound := history.sound time
  refine ⟨fun run member unsettled => ?_, sound.rested.cancelled, sound.rested.inactive⟩
  obtain ⟨attempt, attemptMember, id, running⟩ := sound.follow run member unsettled
  obtain ⟨item, itemMember, itemId, request, _⟩ := sound.keyed.attemptItem attempt attemptMember
  have among : attempt ∈ (history.ledger time).attemptsOf item.id :=
    mem_attemptsOf.mpr ⟨attemptMember, itemId.symm⟩
  have busy : item.state = .running := by
    by_contra stopped
    exact ((sound.fenced item itemMember).idle stopped).2 attempt among running
  obtain ⟨active, activeMember, _, activeId, token, sole⟩ :=
    (sound.fenced item itemMember).busy busy
  obtain rfl := sound.keyed.attemptIds.eq attemptMember (mem_attemptsOf.mp activeMember).1
    (sole attempt among running)
  obtain ⟨other, otherMember, otherId, _, otherRequest, _⟩ := sound.keyed.runAttempt run member
  obtain rfl := sound.keyed.attemptIds.eq otherMember attemptMember (otherId.trans id.symm)
  exact ⟨other, attemptMember, item, itemMember, id.symm, running, itemId, busy, activeId,
    token.symm, request.trans otherRequest⟩

/-- What is settled is kept: seals and occurrences always, work, attempts, runs, leases, captures
and cancellations from their end on.
-/
theorem history_keeps_evidence (history : History sha256) (first count : Nat)
    : let before := history.ledger first
      let after := history.ledger (first + count)
      before.seals ⊆ after.seals ∧ before.occurrences <+: after.occurrences
      ∧ (∀ item ∈ before.items, ¬item.state.IsOpen → item ∈ after.items)
      ∧ (∀ attempt ∈ before.attempts, attempt.state ≠ .running → attempt ∈ after.attempts)
      ∧ (∀ run ∈ before.runs, ¬run.state.IsOpen → run ∈ after.runs)
      ∧ (∀ lease ∈ before.leases, lease.releasedAt ≠ none → lease ∈ after.leases)
      ∧ (∀ capture ∈ before.captures, capture.retentionState = .retired → capture ∈ after.captures)
      ∧ ∀ request ∈ before.requests, ∃ later ∈ after.requests, later.fixed = request.fixed
        ∧ (request.cancellationBytes ≠ none
          → later.cancellationBytes = request.cancellationBytes) := by
  have persists := history.persists (Nat.le_add_right first count)
  have kept {ρ : Type} {fixed : ρ → ρ} {settled : ρ → Prop} {old new : List ρ}
      (linked : References (Library.Evolves fixed settled) old new)
      : ∀ row ∈ old, settled row → row ∈ new := by
    intro row member ended
    obtain ⟨later, among, _, same⟩ := linked row member
    exact same ended ▸ among
  exact ⟨persists.seals, persists.occurrences, kept persists.items, kept persists.attempts,
    kept persists.runs, kept persists.leases, kept persists.captures, persists.requests⟩

end Scanipy.Db.Execution

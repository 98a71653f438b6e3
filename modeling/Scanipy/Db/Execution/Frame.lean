import Scanipy.Db.Execution.Fencing

/-! What the transactions of the execution ledger leave alone: the rows of every other request, and
those of a request at rest, one without pending or running work.
-/

namespace Scanipy.Db.Execution

open Library Python Services.Scan.OccurrenceStore

variable {sha256 : Bytes → Bytes} {ledger before after : Ledger}

-- Requests at rest

/-- The request has pending or running work. -/
def Ledger.Busy (ledger : Ledger) (request : Uuid) : Prop :=
  ∃ item ∈ ledger.items, item.requestId = request ∧ item.state.IsOpen

variable {call : Call} {kind : WorkKind} {locked : Locked} {attempt : WorkAttempt}

/-- The request of a current attempt is busy. -/
theorem Current.busy (current : Current ledger call kind locked attempt)
    : ledger.Busy locked.work.requestId :=
  ⟨locked.work, current.workMember, rfl, .inr current.running⟩

/-- A running attempt keeps its request busy. -/
theorem busy_of_running (keyed : Keyed sha256 ledger) (fenced : ledger.AllFenced)
    (member : attempt ∈ ledger.attempts) (running : attempt.state = .running)
    : ledger.Busy attempt.requestId := by
  obtain ⟨item, among, id, request, _⟩ := keyed.attemptItem attempt member
  refine ⟨item, among, request, .inr ?_⟩
  by_contra stopped
  exact ((fenced item among).idle stopped).2 attempt (mem_attemptsOf.mpr ⟨member, id.symm⟩) running

/-- Every open run is one of a running attempt. -/
def Ledger.RunsFollow (ledger : Ledger) : Prop :=
  ∀ run ∈ ledger.runs, run.state.IsOpen
    → ∃ attempt ∈ ledger.attempts, attempt.id = run.workAttemptId ∧ attempt.state = .running

variable {run : DetectorRun}

/-- An open run keeps its request busy. -/
theorem busy_of_open (keyed : Keyed sha256 ledger) (fenced : ledger.AllFenced)
    (follow : ledger.RunsFollow) (member : run ∈ ledger.runs) (unsettled : run.state.IsOpen)
    : ledger.Busy run.requestId := by
  obtain ⟨attempt, among, id, running⟩ := follow run member unsettled
  obtain ⟨other, otherMember, otherId, _, request, _⟩ := keyed.runAttempt run member
  have same := keyed.attemptIds.eq otherMember among (otherId.trans id.symm)
  rw [← request, same]
  exact busy_of_running keyed fenced among running

theorem not_open_finish (run : DetectorRun) (moment : Instant) (schema : EnvelopeName)
    (data digest : Bytes)
    : ¬(run.finish .interrupted moment schema data digest).state.IsOpen := by
  simp [DetectorRun.finish, RunState.IsOpen]

theorem not_open_batchState (value : Json) : ¬(batchState value).IsOpen := by
  unfold batchState
  split <;> simp [RunState.IsOpen]

/-- A run that is open after an update was open before. -/
theorem open_of_updated {condition : DetectorRun → Bool} {change : DetectorRun → DetectorRun}
    {rows : List DetectorRun} (settles : ∀ row, ¬(change row).state.IsOpen)
    (member : run ∈ updateWhere condition change rows) (unsettled : run.state.IsOpen)
    : run ∈ rows ∧ condition run = false := by
  obtain ⟨old, among, same⟩ := mem_updateWhere.mp member
  split at same
  · rw [← same] at unsettled
    exact absurd unsettled (settles old)
  · rename_i unmet
    rw [← same]
    exact ⟨among, Bool.not_eq_true _ ▸ unmet⟩

variable {during : Instant → Prop} {subject : Option Uuid} {written : Ledger}

/-- Every effect keeps open runs with running attempts. -/
theorem Effect.runsFollow (effect : Effect sha256 during before subject written)
    (keyed : Keyed sha256 before) (follow : before.RunsFollow)
    : written.RunsFollow := by
  cases effect with
  | unchanged | created | cleanupClaimed | captureRetired | leaseRenewed | leaseReleased
  | registered => exact follow
  | cancelled member uncancelled released =>
      intro run among unsettled
      obtain ⟨old, spared⟩ := open_of_updated (fun row => not_open_finish row _ _ _ _) among unsettled
      obtain ⟨attempt, attemptMember, id, running⟩ := follow run old unsettled
      refine ⟨attempt, mem_updateWhere_of_spared attemptMember ?_, id, running⟩
      obtain ⟨other, otherMember, otherId, _, request, _⟩ := keyed.runAttempt run old
      have same := keyed.attemptIds.eq otherMember attemptMember (otherId.trans id.symm)
      refine decide_eq_false fun met => of_decide_eq_false spared ⟨?_, unsettled⟩
      rw [← request, same]
      exact met.1
  | claimed new =>
      intro run among unsettled
      obtain ⟨attempt, attemptMember, facts⟩ := follow run among unsettled
      exact ⟨attempt, List.mem_append_left _ attemptMember, facts⟩
  | renewed live =>
      intro run among unsettled
      obtain ⟨attempt, attemptMember, id, running⟩ := follow run among unsettled
      refine ⟨_, mem_updateWhere.mpr ⟨attempt, attemptMember, rfl⟩, ?_, ?_⟩
      · split <;> exact id
      · split <;> exact running
  | begun live new =>
      intro run among unsettled
      rcases List.mem_append.mp among with earlier | later
      · exact follow run earlier unsettled
      · rw [List.mem_singleton.mp later]
        exact ⟨_, live.attemptMember, new.attempt.symm, live.attemptRunning⟩
  | retained live member work own openRun count new =>
      intro run among unsettled
      obtain ⟨old, _⟩ := open_of_updated (fun row => not_open_batchState _) among unsettled
      exact follow run old unsettled
  | runFailed =>
      intro run among unsettled
      obtain ⟨old, _⟩ := open_of_updated
        (fun row => by simp [DetectorRun.fail, DetectorRun.finish, RunState.IsOpen]) among unsettled
      exact follow run old unsettled
  | @ended _ _ locked attempt runs _ _ _ _ _ _ current ended =>
      intro run among unsettled
      -- the runs of the attempt that ends are interrupted, or none of its request is open
      have old : run ∈ before.runs ∧ run.workAttemptId ≠ attempt.id := by
        rcases ended.interrupted with ⟨_, _, _, rfl⟩ | ⟨rfl, completes⟩
        · obtain ⟨old, spared⟩ :=
            open_of_updated (fun row => not_open_finish row _ _ _ _) among unsettled
          exact ⟨old, fun own => of_decide_eq_false spared ⟨own, unsettled⟩⟩
        · refine ⟨among, fun own => ?_⟩
          obtain ⟨other, otherMember, otherId, _, request, _, kind⟩ := keyed.runAttempt run among
          have same := keyed.attemptIds.eq otherMember current.attemptMember (otherId.trans own)
          rw [same] at kind request
          have detection : locked.work.kind = .captureDetection :=
            current.workKind.trans (current.attemptKind.symm.trans kind)
          obtain ⟨_, _, _, _, _, settled, _⟩ := ended.complete detection (completes detection)
          have ofRequest := (current.attemptRequest keyed).1
          exact settled run among (request.symm.trans ofRequest) unsettled
      obtain ⟨row, rowMember, id, running⟩ := follow run old.1 unsettled
      refine ⟨row, mem_updateWhere_of_spared rowMember ?_, id, running⟩
      exact decide_eq_false fun same => old.2 (id.symm.trans same)

def Ledger.itemsIn (ledger : Ledger) (request : Uuid) : List WorkItem :=
  ledger.items.filter fun row => row.requestId = request

def Ledger.attemptsIn (ledger : Ledger) (request : Uuid) : List WorkAttempt :=
  ledger.attempts.filter fun row => row.requestId = request

def Ledger.sealsIn (ledger : Ledger) (request : Uuid) : List ScanSeal :=
  ledger.seals.filter fun row => row.requestId = request

def Ledger.runsIn (ledger : Ledger) (request : Uuid) : List DetectorRun :=
  ledger.runs.filter fun row => row.requestId = request

def Ledger.occurrencesIn (ledger : Ledger) (request : Uuid) : List DetectionOccurrence :=
  ledger.occurrences.filter fun row => row.requestId = request

/-- The leases of a request, up to their release. -/
def Ledger.leasesIn (ledger : Ledger) (request : Uuid) : List (Uuid × Instant) :=
  (ledger.leases.filter fun row => row.requestId = request).map fun row => (row.id, row.expiresAt)

/-- The rows of the request are the same, and its leases up to their release. -/
structure Untouched (before after : Ledger) (request : Uuid) : Prop where
  items : after.itemsIn request = before.itemsIn request
  attempts : after.attemptsIn request = before.attemptsIn request
  seals : after.sealsIn request = before.sealsIn request
  runs : after.runsIn request = before.runsIn request
  occurrences : after.occurrencesIn request = before.occurrencesIn request
  leases : after.leasesIn request = before.leasesIn request

theorem Untouched.refl (ledger : Ledger) (request : Uuid) : Untouched ledger ledger request :=
  ⟨rfl, rfl, rfl, rfl, rfl, rfl⟩

/-- A release neither extends a lease nor makes one, by induction on the leases. -/
theorem leasesIn_of_releases (request : Uuid)
    (released : List.Forall₂ CaptureLease.Releases before.leases after.leases)
    : after.leasesIn request = before.leasesIn request := by
  unfold Ledger.leasesIn
  generalize before.leases = old at released
  generalize after.leases = new at released
  induction released with
  | nil => rfl
  | @cons lease _ _ _ head _ ih =>
      rw [List.filter_cons, List.filter_cons]
      cases head with
      | kept => split <;> simp [ih]
      | released =>
          by_cases own : lease.requestId = request
          · simp [CaptureLease.release, own, ih]
          · simp [CaptureLease.release, own, ih]

-- Frames

variable {capture : SourceCapture}

section Frames

variable {request : Uuid}

/-- An update of one item is seen by its request only. -/
theorem itemsIn_of_updated {change : WorkItem → WorkItem} {item : WorkItem}
    (keyed : Keyed sha256 before) (member : item ∈ before.items)
    (updated : after.items = updateWhere (fun row => row.id = item.id) change before.items)
    (kept : ∀ row, (change row).requestId = row.requestId) (other : request ≠ item.requestId)
    : after.itemsIn request = before.itemsIn request := by
  rw [Ledger.itemsIn, updated]
  refine filter_updateWhere_of_spared (fun row => by rw [kept row]) ?_
  intro row among own
  refine decide_eq_false fun same => other ?_
  rw [← of_decide_eq_true own, keyed.itemIds.eq among member same]

/-- An update of one attempt is seen by its request only. -/
theorem attemptsIn_of_updated {change : WorkAttempt → WorkAttempt} (keyed : Keyed sha256 before)
    (member : attempt ∈ before.attempts) (updated : after.attempts
      = updateWhere (fun row => row.id = attempt.id) change before.attempts)
    (kept : ∀ row, (change row).requestId = row.requestId) (other : request ≠ attempt.requestId)
    : after.attemptsIn request = before.attemptsIn request := by
  rw [Ledger.attemptsIn, updated]
  refine filter_updateWhere_of_spared (fun row => by rw [kept row]) ?_
  intro row among own
  refine decide_eq_false fun same => other ?_
  rw [← of_decide_eq_true own, keyed.attemptIds.eq among member same]

/-- An update of one run is seen by its request only. -/
theorem runsIn_of_updated {change : DetectorRun → DetectorRun} (keyed : Keyed sha256 before)
    (member : run ∈ before.runs)
    (updated : after.runs = updateWhere (fun row => row.id = run.id) change before.runs)
    (kept : ∀ row, (change row).requestId = row.requestId) (other : request ≠ run.requestId)
    : after.runsIn request = before.runsIn request := by
  rw [Ledger.runsIn, updated]
  refine filter_updateWhere_of_spared (fun row => by rw [kept row]) ?_
  intro row among own
  refine decide_eq_false fun same => other ?_
  rw [← of_decide_eq_true own, keyed.runIds.eq among member same]

/-- An update of leases that spares those of the request is not seen by it. -/
theorem leasesIn_of_updated {condition : CaptureLease → Bool} {change : CaptureLease → CaptureLease}
    (updated : after.leases = updateWhere condition change before.leases)
    (kept : ∀ row, (change row).requestId = row.requestId)
    (spared : ∀ row ∈ before.leases, row.requestId = request → condition row = false)
    : after.leasesIn request = before.leasesIn request := by
  rw [Ledger.leasesIn, updated, filter_updateWhere_of_spared (fun row => by rw [kept row])]
  · rfl
  · intro row among own
    exact spared row among (of_decide_eq_true own)

/-- The lease of an attempt is one of the attempt's request. -/
theorem Held.leaseRequest {lease : CaptureLease} (held : Held before call kind locked attempt)
    (keyed : Keyed sha256 before) (member : lease ∈ before.leases)
    (own : lease.workAttemptId = attempt.id)
    : lease.requestId = locked.work.requestId := by
  obtain ⟨row, among, id, request⟩ := keyed.leaseAttempt lease member
  rw [← request, keyed.attemptIds.eq among held.attemptMember (id.trans own)]
  exact (held.attemptRequest keyed).1

/-- The run of an attempt is one of the attempt's request. -/
theorem Held.runRequest (held : Held before call kind locked attempt) (keyed : Keyed sha256 before)
    (member : run ∈ before.runs) (own : run.workAttemptId = attempt.id)
    : run.requestId = locked.work.requestId := by
  obtain ⟨row, among, id, _, request, _⟩ := keyed.runAttempt run member
  rw [← request, keyed.attemptIds.eq among held.attemptMember (id.trans own)]
  exact (held.attemptRequest keyed).1

theorem untouched_created {row : ScanRequest} {item : WorkItem}
    (new : NewRequest before row item) (other : request ≠ row.id)
    : Untouched before { before with
        requests := before.requests ++ [row]
        items := before.items ++ [item] } request := by
  refine { Untouched.refl before request with items := ?_ }
  apply filter_append_of_spared
  intro added member
  rw [List.mem_singleton.mp member, new.itemRequest]
  exact decide_eq_false (Ne.symm other)

variable {moment : Instant} {data digest : Bytes}

theorem untouched_cancelled_other {row : Uuid} (other : request ≠ row)
    : Untouched before (before.cancelRows row moment data digest) request := by
  have apart {own : Uuid} (ofRequest : decide (own = request) = true) : own ≠ row := by
    rw [of_decide_eq_true ofRequest]
    exact other
  refine { Untouched.refl before request with items := ?_, attempts := ?_, runs := ?_ }
  · refine filter_updateWhere_of_spared (fun _ => rfl) ?_
    intro _ _ own
    exact decide_eq_false fun met => apart own met.1
  · refine filter_updateWhere_of_spared (fun _ => rfl) ?_
    intro _ _ own
    exact decide_eq_false fun met => apart own met.1
  · refine filter_updateWhere_of_spared (fun _ => rfl) ?_
    intro _ _ own
    exact decide_eq_false fun met => apart own met.1

/-- The cancellation of a request at rest changes none of its rows. -/
theorem untouched_cancelled_rest {row : Uuid} (keyed : Keyed sha256 before)
    (fenced : before.AllFenced) (follow : before.RunsFollow) (rest : ¬before.Busy row)
    : Untouched before (before.cancelRows row moment data digest) row := by
  refine { Untouched.refl before row with items := ?_, attempts := ?_, runs := ?_ }
  · refine filter_updateWhere_of_spared (fun _ => rfl) ?_
    intro item among own
    exact decide_eq_false fun met => rest ⟨item, among, met.1, met.2⟩
  · refine filter_updateWhere_of_spared (fun _ => rfl) ?_
    intro attempt among own
    refine decide_eq_false fun met => rest ?_
    exact met.1 ▸ busy_of_running keyed fenced among met.2
  · refine filter_updateWhere_of_spared (fun _ => rfl) ?_
    intro run among own
    refine decide_eq_false fun met => rest ?_
    exact met.1 ▸ busy_of_open keyed fenced follow among met.2

variable {leases : List CaptureLease}

theorem untouched_claimed (keyed : Keyed sha256 before)
    (new : NewAttempt before locked attempt leases) (other : request ≠ locked.work.requestId)
    : Untouched before { before.startAttempt attempt with leases := before.leases ++ leases }
        request := by
  refine { Untouched.refl before request with items := ?_, attempts := ?_, leases := ?_ }
  · have updated : (before.startAttempt attempt).items
        = updateWhere (fun row => row.id = locked.work.id) (·.start attempt) before.items := by
      rw [← new.attemptWork]
      rfl
    exact itemsIn_of_updated keyed new.work updated (fun _ => rfl) other
  · apply filter_append_of_spared
    intro added member
    rw [List.mem_singleton.mp member, new.attemptRequest]
    exact decide_eq_false (Ne.symm other)
  · unfold Ledger.leasesIn
    congr 1
    apply filter_append_of_spared
    intro added member
    rcases new.leased with rfl | ⟨_, _, lease, rfl, _, _, _, _, ofRequest, _⟩
    · cases member
    · rw [List.mem_singleton.mp member, ofRequest, new.attemptRequest]
      exact decide_eq_false (Ne.symm other)

theorem untouched_touch {work : WorkItem} (keyed : Keyed sha256 before)
    (member : work ∈ before.items) (other : request ≠ work.requestId)
    : Untouched before (before.touch work.id) request :=
  { Untouched.refl before request with
    items := itemsIn_of_updated keyed member rfl (fun _ => rfl) other }

theorem Untouched.trans {middle : Ledger} (first : Untouched before middle request)
    (second : Untouched middle after request)
    : Untouched before after request :=
  ⟨second.items.trans first.items, second.attempts.trans first.attempts,
    second.seals.trans first.seals, second.runs.trans first.runs,
    second.occurrences.trans first.occurrences, second.leases.trans first.leases⟩

theorem untouched_leases (same : { before with leases }.leasesIn request = before.leasesIn request)
    : Untouched before { before with leases } request :=
  { Untouched.refl before request with leases := same }

theorem untouched_renewed {expiry : Instant} (keyed : Keyed sha256 before)
    (held : Held before call kind locked attempt) (other : request ≠ locked.work.requestId)
    : Untouched before ((before.extend attempt.id expiry).touch locked.work.id) request := by
  have extended : Keyed sha256 (before.extend attempt.id expiry) :=
    keyed.of_fixed (Ledger.fixed_extend _ _)
  refine Untouched.trans ?_ (untouched_touch extended held.workMember other)
  have ofRequest := (held.attemptRequest keyed).1
  refine { Untouched.refl before request with attempts := ?_, leases := ?_ }
  · exact attemptsIn_of_updated keyed held.attemptMember rfl (fun _ => rfl) (ofRequest.symm ▸ other)
  · refine leasesIn_of_updated rfl (fun _ => rfl) ?_
    intro lease among own
    refine decide_eq_false fun met => other ?_
    exact own.symm.trans (held.leaseRequest keyed among met.1)

/-- A change of the lease of an attempt is seen by its request only. -/
theorem untouched_lease {consumer : CaptureLease} {change : CaptureLease → CaptureLease}
    (keyed : Keyed sha256 before) (held : Held before call kind locked attempt)
    (member : consumer ∈ before.leases) (own : consumer.workAttemptId = attempt.id)
    (kept : ∀ row, (change row).fixed = row.fixed) (other : request ≠ locked.work.requestId)
    : Untouched before
        ({ before with
          leases := updateWhere (fun lease => lease.id = consumer.id) change before.leases }.touch
            locked.work.id) request := by
  have changed : Keyed sha256 { before with
      leases := updateWhere (fun lease => lease.id = consumer.id) change before.leases } :=
    keyed.of_fixed (Ledger.fixed_leases (map_updateWhere kept))
  refine Untouched.trans (untouched_leases ?_) (untouched_touch changed held.workMember other)
  have keptRequest (row : CaptureLease) : (change row).requestId = row.requestId := by
    have same := congrArg CaptureLease.requestId (kept row)
    exact same
  refine leasesIn_of_updated rfl keptRequest ?_
  intro lease among ofRequest
  refine decide_eq_false fun same => other ?_
  rw [← ofRequest, keyed.leaseIds.eq among member same]
  exact held.leaseRequest keyed member own

theorem untouched_ended {runs : List DetectorRun} {result : AttemptState} {state : WorkState}
    (keyed : Keyed sha256 before) (held : Held before call kind locked attempt)
    (ended : Ended before locked attempt runs leases result state)
    (other : request ≠ locked.work.requestId)
    : Untouched before
        (before.endRows locked.work attempt runs leases result state moment data digest)
        request := by
  have ofRequest := (held.attemptRequest keyed).1
  refine { Untouched.refl before request with items := ?_, attempts := ?_, runs := ?_, leases := ?_ }
  · refine itemsIn_of_updated keyed held.workMember rfl (fun row => ?_) other
    have same := congrArg WorkItem.requestId
      (row.fixed_settle state attempt.attemptNumber moment data digest)
    exact same
  · exact attemptsIn_of_updated keyed held.attemptMember rfl (fun _ => rfl) (ofRequest.symm ▸ other)
  · rcases ended.interrupted with ⟨_, _, _, rfl⟩ | ⟨rfl, _⟩
    · refine filter_updateWhere_of_spared (fun _ => rfl) ?_
      intro run among own
      refine decide_eq_false fun met => other ?_
      exact (of_decide_eq_true own).symm.trans (held.runRequest keyed among met.1)
    · rfl
  · exact leasesIn_of_releases request ended.released

theorem untouched_registered {sealed : ScanSeal} {lease : CaptureLease}
    (keyed : Keyed sha256 before) (held : Held before call .captureDetection locked attempt)
    (new : NewCapture sha256 before locked attempt capture sealed lease)
    (other : request ≠ locked.work.requestId)
    : Untouched before
        ({ before with
          captures := before.captures ++ [capture]
          seals := before.seals ++ [sealed]
          leases := before.leases ++ [lease] }.captured locked.work.requestId) request := by
  refine { Untouched.refl before request with seals := ?_, leases := ?_ }
  · apply filter_append_of_spared
    intro added member
    rw [List.mem_singleton.mp member, new.sealRequest]
    exact decide_eq_false (Ne.symm other)
  · unfold Ledger.leasesIn
    congr 1
    apply filter_append_of_spared
    intro added member
    rw [List.mem_singleton.mp member, new.leaseRequest, (held.attemptRequest keyed).1]
    exact decide_eq_false (Ne.symm other)

theorem untouched_begun (new : NewRun before locked attempt run)
    (other : request ≠ locked.work.requestId)
    : Untouched before { before with runs := before.runs ++ [run] } request := by
  refine { Untouched.refl before request with runs := ?_ }
  apply filter_append_of_spared
  intro added member
  rw [List.mem_singleton.mp member, new.request]
  exact decide_eq_false (Ne.symm other)

theorem untouched_retained {added : List (DetectionOccurrence × WorkItem)} {batch : Batch}
    {value : Json} (keyed : Keyed sha256 before) (member : run ∈ before.runs)
    (new : NewOccurrences before run added) (other : request ≠ run.requestId)
    : Untouched before (before.retainRows run added batch value moment) request := by
  refine { Untouched.refl before request with items := ?_, runs := ?_, occurrences := ?_ }
  · apply filter_append_of_spared
    intro item among
    obtain ⟨pair, pairMember, rfl⟩ := List.mem_map.mp among
    rw [(new.each pair pairMember).2.2.2.2.2.2.1]
    exact decide_eq_false (Ne.symm other)
  · exact runsIn_of_updated keyed member rfl (fun _ => rfl) other
  · apply filter_append_of_spared
    intro occurrence among
    obtain ⟨pair, pairMember, rfl⟩ := List.mem_map.mp among
    rw [(new.each pair pairMember).2.1]
    exact decide_eq_false (Ne.symm other)

end Frames

/-- An effect touches the rows of one request at most: a busy one, or a new one. Witness: the frame
of each effect; a cancellation at rest changes no row.
-/
theorem Effect.frame (effect : Effect sha256 during before subject written)
    (keyed : Keyed sha256 before) (fenced : before.AllFenced) (follow : before.RunsFollow)
    : ∃ touched, (∀ request, request ≠ touched → Untouched before written request)
      ∧ (∀ request ∈ subject, request = touched)
      ∧ (before.Busy touched ∨ (∀ row ∈ before.requests, row.id ≠ touched)
        ∨ Untouched before written touched) := by
  have none (touched : Uuid) : ∀ request ∈ (none : Option Uuid), request = touched := by
    intro _ absent
    cases absent
  cases effect with
  | unchanged =>
      exact ⟨(0 : Uuid), fun _ _ => .refl _ _, none _, .inr (.inr (.refl _ _))⟩
  | created new =>
      exact ⟨_, fun _ other => untouched_created new other, none _, .inr (.inl new.fresh)⟩
  | @cancelled row leases moment data digest member uncancelled released =>
      have same (request : Uuid) : Untouched before { before with leases } request :=
        untouched_leases (leasesIn_of_releases request released)
      have sameKeys : Keyed sha256 { before with leases } :=
        keyed.of_fixed (Ledger.fixed_leases (map_fixed_of_releases released))
      refine ⟨row.id, fun _ other => (same _).trans (untouched_cancelled_other other), by simp, ?_⟩
      by_cases busy : before.Busy row.id
      · exact .inl busy
      · have fenced : ({ before with leases } : Ledger).AllFenced := allFenced_of_eq fenced rfl rfl
        exact .inr (.inr ((same _).trans
          (untouched_cancelled_rest sameKeys fenced follow busy)))
  | cleanupClaimed =>
      exact ⟨(0 : Uuid), fun _ _ => { Untouched.refl before _ with }, none _,
        .inr (.inr { Untouched.refl before _ with })⟩
  | captureRetired =>
      exact ⟨(0 : Uuid), fun _ _ => { Untouched.refl before _ with }, none _,
        .inr (.inr { Untouched.refl before _ with })⟩
  | claimed new =>
      exact ⟨_, fun _ other => untouched_claimed keyed new other, by simp,
        .inl ⟨_, new.work, rfl, .inl new.pending⟩⟩
  | renewed live =>
      exact ⟨_, fun _ other => untouched_renewed keyed live.toHeld other, none _, .inl live.busy⟩
  | leaseRenewed live member own =>
      exact ⟨_, fun _ other => untouched_lease keyed live.toHeld member own (fun _ => rfl) other,
        none _, .inl live.busy⟩
  | leaseReleased live member own =>
      exact ⟨_, fun _ other => untouched_lease keyed live.toHeld member own (fun _ => rfl) other,
        none _, .inl live.busy⟩
  | registered live new =>
      exact ⟨_, fun _ other => untouched_registered keyed live.toHeld new other, none _,
        .inl live.busy⟩
  | begun live new => exact ⟨_, fun _ other => untouched_begun new other, none _, .inl live.busy⟩
  | retained live member work own unsettled count new =>
      have ofRequest := live.runRequest keyed member (own.trans live.attemptId.symm)
      exact ⟨_, fun _ other => untouched_retained keyed member new other, by simp,
        .inl (ofRequest ▸ live.busy)⟩
  | runFailed live member work own unsettled =>
      have ofRequest := live.runRequest keyed member (own.trans live.attemptId.symm)
      exact ⟨_, fun _ other => { Untouched.refl before _ with
          runs := runsIn_of_updated keyed member rfl (fun _ => rfl) other }, by simp,
        .inl (ofRequest ▸ live.busy)⟩
  | ended current ended =>
      exact ⟨_, fun _ other => untouched_ended keyed current.toHeld ended other, by simp,
        .inl current.busy⟩

-- Rest

variable {request : Uuid}

theorem busy_iff_mem_itemsIn
    : ledger.Busy request ↔ ∃ item ∈ ledger.itemsIn request, item.state.IsOpen := by
  simp only [Ledger.Busy, Ledger.itemsIn, List.mem_filter, decide_eq_true_eq, and_assoc]

theorem Untouched.busy_iff (untouched : Untouched before after request)
    : after.Busy request ↔ before.Busy request := by
  rw [busy_iff_mem_itemsIn, busy_iff_mem_itemsIn, untouched.items]

/-- A request at rest keeps its rows. -/
theorem Effect.untouched_at_rest (effect : Effect sha256 during before subject written)
    (keyed : Keyed sha256 before) (fenced : before.AllFenced) (follow : before.RunsFollow)
    (known : ∃ row ∈ before.requests, row.id = request) (rest : ¬before.Busy request)
    : Untouched before written request := by
  obtain ⟨touched, others, _, own⟩ := effect.frame keyed fenced follow
  by_cases same : request = touched
  · subst same
    rcases own with busy | fresh | untouched
    · exact absurd busy rest
    · obtain ⟨row, member, id⟩ := known
      exact absurd id (fresh row member)
    · exact untouched
  · exact others request same

/-- Work starts only in a busy request or a new one. -/
theorem Effect.busy_before (effect : Effect sha256 during before subject written)
    (keyed : Keyed sha256 before) (fenced : before.AllFenced) (follow : before.RunsFollow)
    (known : ∃ row ∈ before.requests, row.id = request) (busy : written.Busy request)
    : before.Busy request := by
  by_contra rest
  exact rest ((effect.untouched_at_rest keyed fenced follow known rest).busy_iff.mp busy)

/-- Cancelled requests and those whose capture is no longer active are at rest. -/
structure Ledger.Rested (ledger : Ledger) : Prop where
  cancelled : ∀ request ∈ ledger.requests, request.cancellationBytes ≠ none
    → ¬ledger.Busy request.id
  inactive : ∀ capture ∈ ledger.captures, capture.retentionState ≠ .active
    → ¬ledger.Busy capture.ownerRequestId

/-- Every request is known by its id. -/
theorem known_of_mem {request : ScanRequest} (member : request ∈ ledger.requests)
    : ∃ row ∈ ledger.requests, row.id = request.id :=
  ⟨request, member, rfl⟩

/-- The request of a capture is known. -/
theorem known_of_capture (keyed : Keyed sha256 ledger) (member : capture ∈ ledger.captures)
    : ∃ row ∈ ledger.requests, row.id = capture.ownerRequestId := by
  obtain ⟨row, among, id, _⟩ := keyed.captureRequest capture member
  exact ⟨row, among, id⟩

theorem not_busy_cancelRows (request : Uuid) (moment : Instant) (data digest : Bytes)
    : ¬(ledger.cancelRows request moment data digest).Busy request := by
  intro ⟨item, member, own, unsettled⟩
  obtain ⟨old, _, same⟩ := mem_updateWhere.mp member
  split at same
  · rw [← same] at unsettled
    simp [WorkItem.cancel, WorkState.IsOpen] at unsettled
  · rename_i unmet
    rw [← same] at own unsettled
    exact unmet (decide_eq_true ⟨own, unsettled⟩)

/-- A cancelled request was cancelled before, or is at rest now. -/
theorem Effect.cancelled_before {request : ScanRequest}
    (effect : Effect sha256 during before subject written) (member : request ∈ written.requests)
    (cancelled : request.cancellationBytes ≠ none)
    : (∃ row ∈ before.requests, row.id = request.id ∧ row.cancellationBytes ≠ none)
      ∨ ¬written.Busy request.id := by
  cases effect with
  | unchanged | cleanupClaimed | captureRetired | claimed | renewed | leaseRenewed | leaseReleased
  | begun | retained | runFailed | ended => exact .inl ⟨request, member, rfl, cancelled⟩
  | created new =>
      rcases List.mem_append.mp member with earlier | later
      · exact .inl ⟨request, earlier, rfl, cancelled⟩
      · rw [List.mem_singleton.mp later] at cancelled
        exact absurd new.uncancelled cancelled
  | @cancelled row =>
      rcases mem_updateWhere_cases member with ⟨old, _⟩ | ⟨old, _, met, rfl⟩
      · exact .inl ⟨request, old, rfl, cancelled⟩
      · have id : old.id = row.id := of_decide_eq_true met
        exact .inr (id ▸ not_busy_cancelRows _ _ _ _)
  | registered =>
      rcases mem_updateWhere_cases member with ⟨old, _⟩ | ⟨old, among, _, rfl⟩
      · exact .inl ⟨request, old, rfl, cancelled⟩
      · exact .inl ⟨old, among, rfl, cancelled⟩

/-- How a transaction changes the captures. -/
theorem Effect.captures_cases (effect : Effect sha256 during before subject written)
    : written.captures = before.captures
      ∨ (∃ capture : SourceCapture, written.captures = before.captures ++ [capture]
        ∧ capture.retentionState = .active)
      ∨ (∃ capture ∈ before.captures, ∃ moment, during moment
        ∧ capture.retentionState ≠ .retired ∧ before.Retirable capture moment
        ∧ written.captures = updateWhere (fun row => row.id = capture.id)
            (·.claimCleanup moment) before.captures)
      ∨ ∃ capture ∈ before.captures, ∃ data digest, capture.retentionState = .retiring
        ∧ written.captures = updateWhere (fun row => row.id = capture.id)
            (·.retire data digest) before.captures := by
  cases effect with
  | unchanged | created | cancelled | claimed | renewed | leaseRenewed | leaseReleased
  | begun | retained | runFailed | ended => exact .inl rfl
  | registered live new => exact .inr (.inl ⟨_, rfl, new.retained⟩)
  | cleanupClaimed member timely unretired retirable =>
      exact .inr (.inr (.inl ⟨_, member, _, timely, unretired, retirable, rfl⟩))
  | captureRetired member timely retiring claimed =>
      exact .inr (.inr (.inr ⟨_, member, _, _, retiring, rfl⟩))

/-- The request of a capture that is no longer active was at rest. -/
theorem Effect.inactive_before (effect : Effect sha256 during before subject written)
    (keyed : Keyed sha256 before) (rested : before.Rested) (member : capture ∈ written.captures)
    (inactive : capture.retentionState ≠ .active)
    : ∃ row ∈ before.captures, row.ownerRequestId = capture.ownerRequestId
      ∧ ¬before.Busy row.ownerRequestId := by
  rcases effect.captures_cases with same | ⟨new, same, active⟩
    | ⟨row, among, moment, _, _, retirable, same⟩ | ⟨row, among, data, digest, retiring, same⟩
  · rw [same] at member
    exact ⟨capture, member, rfl, rested.inactive capture member inactive⟩
  · rw [same] at member
    rcases List.mem_append.mp member with earlier | later
    · exact ⟨capture, earlier, rfl, rested.inactive capture earlier inactive⟩
    · rw [List.mem_singleton.mp later] at inactive
      exact absurd active inactive
  · rw [same] at member
    rcases mem_updateWhere_cases member with ⟨old, _⟩ | ⟨old, oldMember, met, rfl⟩
    · exact ⟨capture, old, rfl, rested.inactive capture old inactive⟩
    · refine ⟨old, oldMember, rfl, ?_⟩
      have own := keyed.captureIds.eq oldMember among (of_decide_eq_true met)
      by_cases active : old.retentionState = .active
      · intro ⟨item, itemMember, ofRequest, unsettled⟩
        subst own
        exact (retirable.1 active).2.2 item itemMember ofRequest unsettled
      · exact rested.inactive old oldMember active
  · rw [same] at member
    rcases mem_updateWhere_cases member with ⟨old, _⟩ | ⟨old, oldMember, met, rfl⟩
    · exact ⟨capture, old, rfl, rested.inactive capture old inactive⟩
    · have own := keyed.captureIds.eq oldMember among (of_decide_eq_true met)
      refine ⟨old, oldMember, rfl, rested.inactive old oldMember ?_⟩
      rw [own, retiring]
      simp

/-- Every effect keeps requests at rest. -/
theorem Effect.rested (effect : Effect sha256 during before subject written)
    (keyed : Keyed sha256 before) (fenced : before.AllFenced) (follow : before.RunsFollow)
    (rested : before.Rested)
    : written.Rested := by
  refine ⟨?_, ?_⟩
  · intro request member cancelled busy
    rcases effect.cancelled_before member cancelled with ⟨row, among, id, earlier⟩ | rest
    · have known := id ▸ known_of_mem among
      have busy := effect.busy_before keyed fenced follow known busy
      exact rested.cancelled row among earlier (id ▸ busy)
    · exact rest busy
  · intro capture member inactive busy
    obtain ⟨row, among, owner, rest⟩ := effect.inactive_before keyed rested member inactive
    have known := owner ▸ known_of_capture keyed among
    exact rest (owner ▸ effect.busy_before keyed fenced follow known busy)

variable (sha256) in
/-- What every ledger of a history meets. -/
structure Sound (ledger : Ledger) : Prop where
  keyed : Keyed sha256 ledger
  fenced : ledger.AllFenced
  follow : ledger.RunsFollow
  rested : ledger.Rested

theorem sound_empty (codebases : List (Uuid × Uuid)) : Sound sha256 (.empty codebases) where
  keyed := keyed_empty codebases
  fenced := allFenced_empty codebases
  follow := by
    intro run member
    cases member
  rested := by
    refine ⟨?_, ?_⟩
    · intro request member
      cases member
    · intro capture member
      cases member

theorem Effect.sound (effect : Effect sha256 during before subject written)
    (sound : Sound sha256 before)
    : Sound sha256 written :=
  ⟨effect.keyed sound.keyed, effect.allFenced sound.keyed sound.fenced,
    effect.runsFollow sound.keyed sound.follow,
    effect.rested sound.keyed sound.fenced sound.follow sound.rested⟩

/-- The columns of the stages matter to no part of the invariant. -/
theorem Sound.refreshed (sound : Sound sha256 ledger) (subject : Option Uuid)
    : Sound sha256 (ledger.refreshed subject) := by
  refine ⟨sound.keyed.of_fixed (Ledger.fixed_refreshed subject), ?_, ?_, ?_⟩
  · exact allFenced_of_eq sound.fenced (Ledger.refreshed_items subject)
      (Ledger.refreshed_attempts subject)
  · have follow := sound.follow
    unfold Ledger.refreshed
    split <;> exact follow
  · have rested := sound.rested
    unfold Ledger.refreshed
    split
    · refine ⟨?_, rested.inactive⟩
      intro request member cancelled
      rcases mem_updateWhere_cases member with ⟨old, _⟩ | ⟨old, among, _, rfl⟩
      · exact rested.cancelled request old cancelled
      · exact rested.cancelled old among cancelled
    · exact rested

theorem Ledger.Becomes.sound (step : before.Becomes sha256 during after)
    (sound : Sound sha256 before)
    : Sound sha256 after := by
  obtain ⟨subject, written, effect, rfl⟩ := step
  exact (effect.sound sound).refreshed subject

theorem History.sound (history : History sha256) (time : Nat)
    : Sound sha256 (history.ledger time) :=
  history.invariant (Sound sha256) sound_empty (fun step sound => step.sound sound) time

/-- The stages are no rows of a request. -/
theorem Ledger.untouched_refreshed (subject : Option Uuid) (request : Uuid)
    : Untouched ledger (ledger.refreshed subject) request := by
  unfold Ledger.refreshed
  split
  · exact { Untouched.refl ledger request with }
  · exact .refl ledger request

/-- A request at rest stays at rest with the same rows. -/
theorem Ledger.Becomes.untouched_at_rest (step : before.Becomes sha256 during after)
    (sound : Sound sha256 before) (known : ∃ row ∈ before.requests, row.id = request)
    (rest : ¬before.Busy request)
    : Untouched before after request := by
  obtain ⟨subject, written, effect, rfl⟩ := step
  exact (effect.untouched_at_rest sound.keyed sound.fenced sound.follow known rest).trans
    (Ledger.untouched_refreshed subject request)

end Scanipy.Db.Execution

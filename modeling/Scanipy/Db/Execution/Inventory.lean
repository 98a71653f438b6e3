import Scanipy.Db.Execution.Chains

/-! Completed detection in the execution ledger: its request keeps a seal whose every binding one run
has completed, with nothing left open or retained in part.
-/

namespace Scanipy.Db.Execution

open Library Python Services.Scan.OccurrenceStore

variable {sha256 : Bytes → Bytes} {ledger before after : Ledger} {request : Uuid}

theorem mem_runsIn {run : DetectorRun}
    : run ∈ ledger.runsIn request ↔ run ∈ ledger.runs ∧ run.requestId = request := by
  simp [Ledger.runsIn]

theorem mem_sealsIn {sealed : ScanSeal}
    : sealed ∈ ledger.sealsIn request ↔ sealed ∈ ledger.seals ∧ sealed.requestId = request := by
  simp [Ledger.sealsIn]

theorem completedKeys_eq (request : Uuid)
    : ledger.completedKeys request
      = sorted (((ledger.runsIn request).filter fun run => run.state = .completed).map
          (·.detectorBindingKey)) := by
  simp only [Ledger.completedKeys, Ledger.runsIn, List.filter_filter, Bool.decide_and, Bool.and_comm]

/-- A run that kept an occurrence without completing, by the rows of its request. -/
theorem keptPartial_iff (keyed : Keyed sha256 ledger)
    : ledger.keptPartial request
      ↔ ∃ run ∈ ledger.runsIn request, run.state ≠ .completed
        ∧ ∃ occurrence ∈ ledger.occurrencesIn request, occurrence.detectorRunId = run.id := by
  unfold Ledger.keptPartial
  constructor
  · intro ⟨run, member, own, unfinished, occurrence, among, ofRun⟩
    refine ⟨run, mem_runsIn.mpr ⟨member, own⟩, unfinished, occurrence, ?_, ofRun⟩
    obtain ⟨row, rowMember, id, ofRequest⟩ := keyed.occurrenceRun occurrence among
    have same := keyed.runIds.eq rowMember member (id.trans ofRun)
    rw [same, own] at ofRequest
    exact List.mem_filter.mpr ⟨among, decide_eq_true ofRequest.symm⟩
  · intro ⟨run, member, unfinished, occurrence, among, ofRun⟩
    obtain ⟨runMember, own⟩ := mem_runsIn.mp member
    exact ⟨run, runMember, own, unfinished, occurrence, (List.mem_filter.mp among).1, ofRun⟩

/-- The inventory of a request is a matter of its seals, runs and occurrences. -/
theorem inventoried_of_eq (keyed : Keyed sha256 before) (keyedAfter : Keyed sha256 after)
    (seals : after.sealsIn request = before.sealsIn request)
    (runs : after.runsIn request = before.runsIn request)
    (occurrences : after.occurrencesIn request = before.occurrencesIn request)
    (inventoried : before.Inventoried request)
    : after.Inventoried request := by
  obtain ⟨sealed, member, own, ⟨content, stored, keys⟩, settled, noPartial⟩ := inventoried
  have among : sealed ∈ after.sealsIn request := seals ▸ mem_sealsIn.mpr ⟨member, own⟩
  refine ⟨sealed, (mem_sealsIn.mp among).1, own, ⟨content, stored, ?_⟩, ?_, ?_⟩
  · rw [completedKeys_eq, runs, ← completedKeys_eq]
    exact keys
  · intro run runMember ofRequest
    have old := runs ▸ mem_runsIn.mpr ⟨runMember, ofRequest⟩
    exact settled run (mem_runsIn.mp old).1 ofRequest
  · rw [keptPartial_iff keyedAfter, runs, occurrences, ← keptPartial_iff keyed]
    exact noPartial

/-- Every completed detection has its inventory. -/
def Ledger.Complete (ledger : Ledger) : Prop :=
  ∀ item ∈ ledger.items, item.kind = .captureDetection → item.state = .completed
    → ledger.Inventoried item.requestId

variable {call : Call} {locked : Locked} {attempt : WorkAttempt} {item : WorkItem} {now : Instant}

/-- A live detection attempt is the only detection work of its request. -/
theorem Live.running_of_detection (keyed : Keyed sha256 before)
    (live : Live before call .captureDetection locked attempt now) (member : item ∈ before.items)
    (kind : item.kind = .captureDetection) (own : item.requestId = locked.work.requestId)
    : item.state = .running := by
  have id := keyed.oneDetection item member locked.work live.workMember kind live.workKind own
  rw [keyed.itemIds.eq member live.workMember id, live.running]

/-- Work that keeps its kind, state and request. -/
theorem old_of_touched {work : Uuid} (member : item ∈ (before.touch work).items)
    : ∃ old ∈ before.items, old.requestId = item.requestId ∧ old.kind = item.kind
      ∧ old.state = item.state := by
  rcases mem_updateWhere_cases member with ⟨old, _⟩ | ⟨old, among, _, rfl⟩
  · exact ⟨item, old, rfl, rfl, rfl⟩
  · exact ⟨old, among, rfl, rfl, rfl⟩

/-- The runs of a complete inventory are over, so that no update of open runs changes them. -/
theorem Ledger.Inventoried.runsIn_of_updated {condition : DetectorRun → Bool}
    {change : DetectorRun → DetectorRun} (inventoried : before.Inventoried request)
    (runs : after.runs = updateWhere condition change before.runs)
    (meets : ∀ run ∈ before.runs, condition run = true → run.state.IsOpen)
    (kept : ∀ run, (change run).requestId = run.requestId)
    : after.runsIn request = before.runsIn request := by
  obtain ⟨_, _, _, _, settled, _⟩ := inventoried
  rw [Ledger.runsIn, runs]
  refine filter_updateWhere_of_spared (fun run => by rw [kept run]) ?_
  intro run member own
  cases met : condition run with
  | true => exact absurd (meets run member met) (settled run member (of_decide_eq_true own))
  | false => rfl

variable {runs : List DetectorRun} {leases : List CaptureLease} {result : AttemptState}
  {state : WorkState} {moment : Instant} {data digest : Bytes}

/-- The end of an attempt leaves a complete inventory alone. -/
theorem Ledger.Inventoried.runsIn_of_ended (inventoried : before.Inventoried request)
    (ended : Ended before locked attempt runs leases result state)
    : (before.endRows locked.work attempt runs leases result state moment data digest).runsIn request
      = before.runsIn request := by
  rcases ended.interrupted with ⟨_, _, _, rfl⟩ | ⟨rfl, _⟩
  · exact inventoried.runsIn_of_updated rfl (fun _ _ met => (of_decide_eq_true met).2) fun _ => rfl
  · rfl

/-- The end of an attempt completes a detection only with its inventory. -/
theorem complete_ended {kind : WorkKind} (keyed : Keyed sha256 before) (complete : before.Complete)
    (current : Current before call kind locked attempt)
    (ended : Ended before locked attempt runs leases result state)
    : (before.endRows locked.work attempt runs leases result state moment data digest).Complete := by
  have keyedAfter : Keyed sha256
      (before.endRows locked.work attempt runs leases result state moment data digest) :=
    keyed.of_fixed ended.fixed
  intro item member detection completed
  have inventoried : before.Inventoried item.requestId := by
    rcases mem_updateWhere_cases member with ⟨old, _⟩ | ⟨old, among, met, rfl⟩
    · exact complete item old detection completed
    · have same := keyed.itemIds.eq among current.workMember (of_decide_eq_true met)
      subst same
      have settled : state = .completed := by
        rw [← completed]
        unfold WorkItem.settle
        split
        · assumption
        · rfl
      have kept := congrArg WorkItem.kind
        (locked.work.fixed_settle state attempt.attemptNumber moment data digest)
      have request := congrArg WorkItem.requestId
        (locked.work.fixed_settle state attempt.attemptNumber moment data digest)
      change (locked.work.settle state attempt.attemptNumber moment data digest).kind
        = locked.work.kind at kept
      change (locked.work.settle state attempt.attemptNumber moment data digest).requestId
        = locked.work.requestId at request
      rw [request]
      exact (ended.complete (kept.symm.trans detection) settled).2
  exact inventoried_of_eq keyed keyedAfter rfl (inventoried.runsIn_of_ended ended) rfl inventoried

/-- Completed detections stay complete when none is new and their inventories are kept. -/
theorem Ledger.Complete.of_kept (complete : before.Complete) (keyed : Keyed sha256 before)
    (keyedAfter : Keyed sha256 after)
    (earlier : ∀ item ∈ after.items, item.kind = .captureDetection → item.state = .completed
      → ∃ old ∈ before.items, old.requestId = item.requestId ∧ old.kind = item.kind
        ∧ old.state = item.state)
    (kept : ∀ item ∈ before.items, item.kind = .captureDetection → item.state = .completed
      → after.sealsIn item.requestId = before.sealsIn item.requestId
        ∧ after.runsIn item.requestId = before.runsIn item.requestId
        ∧ after.occurrencesIn item.requestId = before.occurrencesIn item.requestId)
    : after.Complete := by
  intro item member detection completed
  obtain ⟨old, among, request, kind, state⟩ := earlier item member detection completed
  obtain ⟨seals, runs, occurrences⟩ :=
    kept old among (kind.trans detection) (state.trans completed)
  rw [← request]
  exact inventoried_of_eq keyed keyedAfter seals runs occurrences
    (complete old among (kind.trans detection) (state.trans completed))

/-- The request of a live detection is none of a completed one. -/
theorem Live.other_of_completed (keyed : Keyed sha256 before)
    (live : Live before call .captureDetection locked attempt now) (member : item ∈ before.items)
    (kind : item.kind = .captureDetection) (completed : item.state = .completed)
    : item.requestId ≠ locked.work.requestId := by
  intro own
  rw [live.running_of_detection keyed member kind own] at completed
  cases completed

variable {during : Instant → Prop}

/-- Every effect completes a detection only with its inventory, and keeps it complete. Witness: a
live detection works for a request that is not complete, and the rows of no other change.
-/
theorem Effect.complete {subject : Option Uuid} {written : Ledger}
    (effect : Effect sha256 during before subject written) (keyed : Keyed sha256 before)
    (complete : before.Complete)
    : written.Complete := by
  have keyedAfter := effect.keyed keyed
  cases effect with
  | unchanged | cleanupClaimed | captureRetired =>
      exact complete.of_kept keyed keyedAfter (fun item member _ _ => ⟨item, member, rfl, rfl, rfl⟩)
        fun _ _ _ _ => ⟨rfl, rfl, rfl⟩
  | created new =>
      refine complete.of_kept keyed keyedAfter ?_ fun _ _ _ _ => ⟨rfl, rfl, rfl⟩
      intro item member _ completed
      rcases List.mem_append.mp member with old | added
      · exact ⟨item, old, rfl, rfl, rfl⟩
      · rw [List.mem_singleton.mp added, new.new.pending] at completed
        cases completed
  | cancelled =>
      refine complete.of_kept keyed keyedAfter ?_ ?_
      · intro item member _ completed
        rcases mem_updateWhere_cases member with ⟨old, _⟩ | ⟨old, _, _, rfl⟩
        · exact ⟨item, old, rfl, rfl, rfl⟩
        · cases completed
      · intro item member detection completed
        have inventoried := complete item member detection completed
        exact ⟨rfl, inventoried.runsIn_of_updated rfl (fun _ _ met => (of_decide_eq_true met).2)
          (fun _ => rfl), rfl⟩
  | claimed =>
      refine complete.of_kept keyed keyedAfter ?_ fun _ _ _ _ => ⟨rfl, rfl, rfl⟩
      intro item member _ completed
      rcases mem_updateWhere_cases member with ⟨old, _⟩ | ⟨old, _, _, rfl⟩
      · exact ⟨item, old, rfl, rfl, rfl⟩
      · cases completed
  | renewed | leaseRenewed | leaseReleased =>
      exact complete.of_kept keyed keyedAfter (fun item member _ _ => old_of_touched member)
        fun _ _ _ _ => ⟨rfl, rfl, rfl⟩
  | registered live new =>
      refine complete.of_kept keyed keyedAfter (fun item member _ _ => ⟨item, member, rfl, rfl, rfl⟩) ?_
      intro item member detection completed
      have frame := untouched_registered keyed live.toHeld new
        (live.other_of_completed keyed member detection completed)
      exact ⟨frame.seals, frame.runs, frame.occurrences⟩
  | begun live new =>
      refine complete.of_kept keyed keyedAfter (fun item member _ _ => ⟨item, member, rfl, rfl, rfl⟩) ?_
      intro item member detection completed
      have frame := untouched_begun new (live.other_of_completed keyed member detection completed)
      exact ⟨frame.seals, frame.runs, frame.occurrences⟩
  | @retained _ locked _ _ run _ batch value moment live member work own unsettled count new =>
      have ofRequest := live.runRequest keyed member (own.trans live.attemptId.symm)
      refine complete.of_kept keyed keyedAfter ?_ ?_
      · intro item among detection _
        rcases List.mem_append.mp among with old | added
        · exact ⟨item, old, rfl, rfl, rfl⟩
        · obtain ⟨pair, pairMember, rfl⟩ := List.mem_map.mp added
          rw [(new.each pair pairMember).2.2.2.2.1] at detection
          cases detection
      · intro item among detection completed
        have other := live.other_of_completed keyed among detection completed
        rw [← ofRequest] at other
        have frame : Untouched before (before.retainRows run _ batch value moment) item.requestId :=
          untouched_retained keyed member new other
        exact ⟨frame.seals, frame.runs, frame.occurrences⟩
  | runFailed live member work own unsettled =>
      have ofRequest := live.runRequest keyed member (own.trans live.attemptId.symm)
      refine complete.of_kept keyed keyedAfter (fun item among _ _ => ⟨item, among, rfl, rfl, rfl⟩) ?_
      intro item among detection completed
      have other := live.other_of_completed keyed among detection completed
      rw [← ofRequest] at other
      exact ⟨rfl, runsIn_of_updated keyed member rfl (fun _ => rfl) other, rfl⟩
  | ended current ended => exact complete_ended keyed complete current ended

/-- The stages of a request matter to no inventory. -/
theorem Ledger.Complete.refreshed (complete : ledger.Complete) (keyed : Keyed sha256 ledger)
    (subject : Option Uuid)
    : (ledger.refreshed subject).Complete := by
  have same (request : Uuid) : Untouched ledger (ledger.refreshed subject) request :=
    Ledger.untouched_refreshed subject request
  refine complete.of_kept keyed (keyed.of_fixed (Ledger.fixed_refreshed subject)) ?_ ?_
  · intro item member _ _
    rw [Ledger.refreshed_items] at member
    exact ⟨item, member, rfl, rfl, rfl⟩
  · intro item _ _ _
    exact ⟨(same item.requestId).seals, (same item.requestId).runs, (same item.requestId).occurrences⟩

theorem Ledger.Becomes.complete (step : before.Becomes sha256 during after)
    (keyed : Keyed sha256 before) (complete : before.Complete)
    : after.Complete := by
  obtain ⟨subject, written, effect, rfl⟩ := step
  exact (effect.complete keyed complete).refreshed (effect.keyed keyed) subject

theorem History.complete (history : History sha256) (time : Nat)
    : (history.ledger time).Complete := by
  refine (history.invariant (fun ledger => Keyed sha256 ledger ∧ ledger.Complete) ?_ ?_ time).2
  · intro codebases
    refine ⟨keyed_empty codebases, ?_⟩
    intro item member
    cases member
  · intro _ _ _ step ⟨keyed, complete⟩
    exact ⟨step.keyed keyed, step.complete keyed complete⟩

end Scanipy.Db.Execution

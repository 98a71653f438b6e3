import Scanipy.Db.Execution.Persistence

/-! The batches that the execution ledger has kept: a run with a batch is over, and its occurrences
have the ordinals of their positions in it.
-/

namespace Scanipy.Db.Execution

open Library Python Services.Scan.OccurrenceStore

variable {sha256 : Bytes → Bytes} {ledger before after : Ledger} {run : DetectorRun}

/-- A run that is over keeps its occurrences. Witness: it has counted them, and occurrences are only
added.
-/
theorem Persists.kept (persists : Persists before after) (chains : before.Chains)
    (chainsAfter : after.Chains) (member : run ∈ before.runs) (concluded : ¬run.state.IsOpen)
    : after.kept run.id = before.kept run.id := by
  obtain ⟨later, laterMember, _, settled⟩ := persists.runs run member
  have same := settled concluded
  subst same
  have front : before.kept later.id <+: after.kept later.id := persists.occurrences.filter _
  refine (front.eq_of_length ?_).symm
  rw [chains.counted later member, chainsAfter.counted later laterMember]

/-- The occurrences of the run are numbered as the results of its batch. -/
def Ledger.Numbers (ledger : Ledger) (run : DetectorRun) : Prop :=
  ¬run.state.IsOpen ∧ ∃ data value, run.resultBytes = some data ∧ storedJson data = .ok value
    ∧ (ledger.kept run.id).map (·.toolOrdinal)
      = (List.range (value.get "occurrences").items.length).map Int.ofNat

def Ledger.Numbered (ledger : Ledger) : Prop :=
  ∀ run ∈ ledger.runs, run.resultSchema = some .detectionBatch → ledger.Numbers run

/-- A run that was there before keeps its numbering. -/
theorem Persists.numbers (persists : Persists before after) (chains : before.Chains)
    (chainsAfter : after.Chains) (numbered : before.Numbered) (member : run ∈ before.runs)
    (batch : run.resultSchema = some .detectionBatch)
    : after.Numbers run := by
  obtain ⟨concluded, data, value, bytes, stored, ordinals⟩ := numbered run member batch
  refine ⟨concluded, data, value, bytes, stored, ?_⟩
  rw [persists.kept chains chainsAfter member concluded]
  exact ordinals

/-- The occurrences of a batch are all that its run keeps. -/
theorem kept_retained {added : List (DetectionOccurrence × WorkItem)} {batch : Batch} {value : Json}
    {moment : Instant} (chains : before.Chains) (member : run ∈ before.runs)
    (unsettled : run.state.IsOpen) (new : NewOccurrences before run added)
    : (before.retainRows run added batch value moment).kept run.id = added.map Prod.fst := by
  have none : before.kept run.id = [] := by
    rw [← List.length_eq_zero_iff, chains.counted run member, chains.empty run member unsettled]
  have all : (added.map Prod.fst).filter (fun row => row.detectorRunId = run.id)
      = added.map Prod.fst := by
    rw [List.filter_eq_self]
    intro occurrence among
    obtain ⟨pair, pairMember, rfl⟩ := List.mem_map.mp among
    exact decide_eq_true (new.each pair pairMember).1
  have view : (before.retainRows run added batch value moment).kept run.id
      = before.kept run.id ++ (added.map Prod.fst).filter fun row => row.detectorRunId = run.id :=
    List.filter_append _ _
  rw [view, none, all, List.nil_append]

/-- Every effect keeps the occurrences numbered. Witness: only a batch gives a run its schema, with
occurrences in its own order.
-/
theorem Effect.numbered {during : Instant → Prop} {subject : Option Uuid} {written : Ledger}
    (effect : Effect sha256 during before subject written) (keyed : Keyed sha256 before)
    (chains : before.Chains) (numbered : before.Numbered)
    : written.Numbered := by
  have persists := effect.persists keyed
  have chainsAfter := effect.chains keyed chains
  intro run member batch
  cases effect with
  | unchanged | created | cleanupClaimed | captureRetired | claimed | renewed | leaseRenewed
  | leaseReleased | registered =>
      exact persists.numbers chains chainsAfter numbered member batch
  | cancelled =>
      rcases mem_updateWhere_cases member with ⟨old, _⟩ | ⟨old, _, _, rfl⟩
      · exact persists.numbers chains chainsAfter numbered old batch
      · cases batch
  | begun live new =>
      rcases List.mem_append.mp member with old | added
      · exact persists.numbers chains chainsAfter numbered old batch
      · rw [List.mem_singleton.mp added, new.noResult.1] at batch
        cases batch
  | @retained _ _ _ _ row added kept value moment live rowMember _ _ unsettled count new read
      ordinals =>
      rcases mem_updateWhere_cases member with ⟨old, _⟩ | ⟨old, among, met, rfl⟩
      · exact persists.numbers chains chainsAfter numbered old batch
      · have same := keyed.runIds.eq among rowMember (of_decide_eq_true met)
        subst same
        refine ⟨not_open_batchState value, kept.data, value, rfl, (envelope_ok read).1, ?_⟩
        have all : (before.retainRows old added kept value moment).kept old.id
            = added.map Prod.fst := kept_retained chains among unsettled new
        change ((before.retainRows old added kept value moment).kept old.id).map _ = _
        rw [all, List.map_map]
        exact ordinals
  | runFailed =>
      rcases mem_updateWhere_cases member with ⟨old, _⟩ | ⟨old, _, _, rfl⟩
      · exact persists.numbers chains chainsAfter numbered old batch
      · cases batch
  | ended current ended =>
      rcases ended.interrupted with ⟨_, _, _, rfl⟩ | ⟨rfl, _⟩
      · rcases mem_updateWhere_cases member with ⟨old, _⟩ | ⟨old, _, _, rfl⟩
        · exact persists.numbers chains chainsAfter numbered old batch
        · cases batch
      · exact persists.numbers chains chainsAfter numbered member batch

theorem History.numbered (history : History sha256) (time : Nat)
    : (history.ledger time).Numbered := by
  refine (history.invariant
    (fun ledger => (Keyed sha256 ledger ∧ ledger.Chains) ∧ ledger.Numbered) ?_ ?_ time).2
  · intro codebases
    refine ⟨⟨keyed_empty codebases, chains_empty codebases⟩, ?_⟩
    intro run member
    cases member
  · intro _ before after step ⟨⟨keyed, chains⟩, numbered⟩
    have chainsAfter := step.chains keyed chains
    refine ⟨⟨step.keyed keyed, chainsAfter⟩, ?_⟩
    obtain ⟨subject, written, effect, rfl⟩ := step
    have later := effect.numbered keyed chains numbered
    intro run member batch
    rw [Ledger.refreshed_runs] at member
    exact (Ledger.persists_refreshed subject).numbers (effect.chains keyed chains) chainsAfter later
      member batch

end Scanipy.Db.Execution

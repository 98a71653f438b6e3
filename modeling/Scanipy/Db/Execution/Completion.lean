import Scanipy.Db.Execution.Persistence

/-! What a completed detection means in the execution ledger: every sealed binding has its one
completed run, every failure was superseded by it, and nothing later takes that back.
-/

namespace Scanipy.Db.Execution

open Library Python Services.Scan.OccurrenceStore

variable {sha256 : Bytes → Bytes} {ledger before after : Ledger}

/-- A run takes the place of an earlier one. -/
def Ledger.SupersededBy (ledger : Ledger) (earlier later : DetectorRun) : Prop :=
  earlier ∈ ledger.runs ∧ later ∈ ledger.runs ∧ later.supersedesRunId = some earlier.id

variable {run : DetectorRun}

/-- Every run of a chain leads to the last one, by induction on the chain. -/
theorem Chained.leads_to_last {earlier : Option Uuid} {runs : List DetectorRun} {last : DetectorRun}
    (chained : Chained earlier runs) (known : ∀ row ∈ runs, row ∈ ledger.runs) (member : run ∈ runs)
    (ends : runs.getLast? = some last)
    : Relation.ReflTransGen ledger.SupersededBy run last := by
  induction runs generalizing earlier run with
  | nil => cases member
  | cons head rest ih =>
      obtain ⟨_, _, tail⟩ := chained
      cases rest with
      | nil =>
          rw [List.mem_singleton.mp member]
          cases ends
          exact .refl
      | cons next others =>
          have knownRest : ∀ row ∈ next :: others, row ∈ ledger.runs :=
            fun row among => known row (List.mem_cons_of_mem _ among)
          rw [List.getLast?_cons_cons] at ends
          rcases List.mem_cons.mp member with rfl | later
          · exact .head ⟨known run List.mem_cons_self, knownRest next List.mem_cons_self, tail.1⟩
              (ih tail knownRest List.mem_cons_self ends)
          · exact ih tail knownRest later ends

/-- The place of a run in the chain of its binding. -/
def Ledger.place (ledger : Ledger) (run : DetectorRun) : Nat :=
  (ledger.runsOf run.requestId run.detectorBindingKey).idxOf run

variable {earlier later : DetectorRun}

/-- A run stands behind the one that it supersedes, in the chain of the same binding. -/
theorem Ledger.SupersededBy.adjacent (keyed : Keyed sha256 ledger) (chains : ledger.Chains)
    (superseded : ledger.SupersededBy earlier later)
    : ∃ front rest,
        ledger.runsOf later.requestId later.detectorBindingKey = front ++ earlier :: later :: rest := by
  obtain ⟨earlierMember, laterMember, link⟩ := superseded
  have own : later ∈ ledger.runsOf later.requestId later.detectorBindingKey :=
    mem_runsOf.mpr ⟨laterMember, rfl, rfl⟩
  rcases (chains.chained _ _).predecessor own with ⟨first, _⟩ | ⟨front, previous, rest, split, same⟩
  · rw [first] at link
    cases link
  · have among : previous ∈ ledger.runsOf later.requestId later.detectorBindingKey := by
      rw [split]
      simp
    have previousMember := (mem_runsOf.mp among).1
    rw [keyed.runIds.eq previousMember earlierMember (Option.some.inj (same.symm.trans link))]
      at split
    exact ⟨front, rest, split⟩

/-- A run stands right behind the one that it supersedes. -/
theorem Ledger.SupersededBy.place_eq (keyed : Keyed sha256 ledger) (chains : ledger.Chains)
    (superseded : ledger.SupersededBy earlier later)
    : earlier.requestId = later.requestId ∧ earlier.detectorBindingKey = later.detectorBindingKey
      ∧ ledger.place later = ledger.place earlier + 1 := by
  obtain ⟨front, rest, split⟩ := superseded.adjacent keyed chains
  have among : earlier ∈ ledger.runsOf later.requestId later.detectorBindingKey := by
    rw [split]
    simp
  obtain ⟨_, ofRequest, ofKey⟩ := mem_runsOf.mp among
  have distinct : (ledger.runsOf later.requestId later.detectorBindingKey).Nodup :=
    (List.Nodup.of_map _ keyed.runIds).filter _
  rw [split] at distinct
  obtain ⟨_, tail, apart⟩ := List.nodup_append.mp distinct
  have notFront (run : DetectorRun) (member : run ∈ earlier :: later :: rest) : run ∉ front :=
    fun inFront => apart run inFront run member rfl
  have unequal : earlier ≠ later := by
    intro same
    exact (List.nodup_cons.mp tail).1 (same ▸ List.mem_cons_self)
  refine ⟨ofRequest, ofKey, ?_⟩
  unfold Ledger.place
  rw [ofRequest, ofKey, split, List.idxOf_append_of_notMem (notFront _ (by simp)),
    List.idxOf_append_of_notMem (notFront _ (by simp)), List.idxOf_cons_self,
    List.idxOf_cons_ne _ unequal, List.idxOf_cons_self]

/-- No run supersedes itself, directly or through others. Witness: its place in the chain. -/
theorem Ledger.Chains.acyclic (chains : ledger.Chains) (keyed : Keyed sha256 ledger)
    (run : DetectorRun)
    : ¬Relation.TransGen ledger.SupersededBy run run := by
  have rises {earlier later : DetectorRun}
      (path : Relation.TransGen ledger.SupersededBy earlier later)
      : ledger.place earlier < ledger.place later := by
    induction path with
    | single superseded =>
        have next := (superseded.place_eq keyed chains).2.2
        omega
    | tail _ superseded ih =>
        have next := (superseded.place_eq keyed chains).2.2
        omega
  exact fun path => Nat.lt_irrefl _ (rises path)

/-- A run is superseded once. -/
theorem Ledger.Chains.superseded_once {left right : DetectorRun} (chains : ledger.Chains)
    (keyed : Keyed sha256 ledger) (leftLink : ledger.SupersededBy earlier left)
    (rightLink : ledger.SupersededBy earlier right)
    : left = right := by
  obtain ⟨leftRequest, leftKey, leftPlace⟩ := leftLink.place_eq keyed chains
  obtain ⟨rightRequest, rightKey, rightPlace⟩ := rightLink.place_eq keyed chains
  have same : ledger.place left = ledger.place right := leftPlace.trans rightPlace.symm
  unfold Ledger.place at same
  rw [← leftRequest, ← leftKey, ← rightRequest, ← rightKey] at same
  have among : left ∈ ledger.runsOf earlier.requestId earlier.detectorBindingKey :=
    mem_runsOf.mpr ⟨leftLink.2.1, leftRequest.symm, leftKey.symm⟩
  exact (List.idxOf_inj among).mp same

variable (ledger) in
/-- What the request of a completed detection has. -/
structure CompleteInventory (request : Uuid) : Prop where
  sealed : ∃ sealed ∈ ledger.seals, sealed.requestId = request
    ∧ ∃ content, storedJson sealed.sealBytes = .ok content
      ∧ (∀ binding ∈ (content.get "bindings").items,
          ∃! run, run ∈ ledger.runs ∧ run.requestId = request ∧ run.state = .completed
            ∧ run.detectorBindingKey = (binding.get "key").chars)
      ∧ ∀ run ∈ ledger.runs, run.requestId = request → run.state = .completed
        → ∃ binding ∈ (content.get "bindings").items,
          (binding.get "key").chars = run.detectorBindingKey
  settled : ∀ run ∈ ledger.runs, run.requestId = request
    → run.state ≠ .pending ∧ run.state ≠ .running
  whole : ∀ occurrence ∈ ledger.occurrences, occurrence.requestId = request
    → ∃ run ∈ ledger.runs, run.id = occurrence.detectorRunId ∧ run.requestId = request
      ∧ run.state = .completed
  superseded : ∀ run ∈ ledger.runs, run.requestId = request
    → (run.state = .failed ∨ run.state = .interrupted)
    → ∃ completed ∈ ledger.runs, completed.requestId = request ∧ completed.state = .completed
      ∧ completed.detectorBindingKey = run.detectorBindingKey
      ∧ Relation.ReflTransGen ledger.SupersededBy run completed
  identities : ∀ occurrence ∈ ledger.occurrences, occurrence.requestId = request
    → ∃! item, item ∈ ledger.items ∧ item.kind = .identity
      ∧ item.occurrenceId = some occurrence.id

variable {request : Uuid} {key : Text}

/-- A completed run is the last of its binding. -/
theorem last_of_completed (chains : ledger.Chains) (member : run ∈ ledger.runsOf request key)
    (completed : run.state = .completed)
    : (ledger.runsOf request key).getLast? = some run := by
  rcases (chains.chained request key).superseded_or_last member with superseded | last
  · have failed := superseded.1
    rw [completed] at failed
    simp [RunState.IsFailure] at failed
  · exact last

/-- The bindings with a completed run are those of the seal. -/
theorem mem_completedKeys
    : key ∈ ledger.completedKeys request
      ↔ ∃ run ∈ ledger.runsOf request key, run.state = .completed := by
  rw [Ledger.completedKeys, mem_sorted, List.mem_map]
  constructor
  · intro kept
    obtain ⟨run, member, ofKey⟩ := kept
    obtain ⟨among, selected⟩ := List.mem_filter.mp member
    obtain ⟨own, completed⟩ := of_decide_eq_true selected
    exact ⟨run, mem_runsOf.mpr ⟨among, own, ofKey⟩, completed⟩
  · intro found
    obtain ⟨run, member, completed⟩ := found
    obtain ⟨among, own, ofKey⟩ := mem_runsOf.mp member
    exact ⟨run, List.mem_filter.mpr ⟨among, decide_eq_true ⟨own, completed⟩⟩, ofKey⟩

/-- The runs of a sealed request have the bindings of its seal. -/
theorem key_of_run {sealed : ScanSeal} {content : Json} (keyed : Keyed sha256 ledger)
    (member : sealed ∈ ledger.seals) (stored : storedJson sealed.sealBytes = .ok content)
    (among : run ∈ ledger.runs) (own : run.requestId = sealed.requestId)
    : run.detectorBindingKey ∈ bindingKeys content := by
  obtain ⟨row, rowMember, _, ofRequest, value, read, bound⟩ := keyed.runSeal run among
  have same := keyed.sealRequests.eq rowMember member (ofRequest.trans own)
  rw [same, stored] at read
  cases read
  exact bound

/-- A sound inventory in full. Witness: the completed run of a binding is the last of its chain, to
which every failure leads.
-/
theorem Ledger.Inventoried.complete (inventoried : ledger.Inventoried request)
    (keyed : Keyed sha256 ledger) (chains : ledger.Chains)
    : CompleteInventory ledger request := by
  obtain ⟨sealed, member, rfl, ⟨content, stored, keys⟩, settled, noPartial⟩ := inventoried
  refine ⟨⟨sealed, member, rfl, content, stored, ?_, ?_⟩, ?_, ?_, ?_, ?_⟩
  · intro binding bound
    have key : (binding.get "key").chars ∈ ledger.completedKeys sealed.requestId :=
      keys ▸ mem_bindingKeys.mpr ⟨binding, bound, rfl⟩
    obtain ⟨run, runMember, completed⟩ := mem_completedKeys.mp key
    obtain ⟨among, own, ofKey⟩ := mem_runsOf.mp runMember
    refine ⟨run, ⟨among, own, completed, ofKey⟩, ?_⟩
    intro other ⟨otherAmong, otherOwn, otherCompleted, otherKey⟩
    have last := last_of_completed chains runMember completed
    rw [last_of_completed chains (mem_runsOf.mpr ⟨otherAmong, otherOwn, otherKey⟩) otherCompleted]
      at last
    exact Option.some.inj last
  · intro run among own completed
    have key : run.detectorBindingKey ∈ bindingKeys content :=
      keys ▸ mem_completedKeys.mpr ⟨run, mem_runsOf.mpr ⟨among, own, rfl⟩, completed⟩
    exact mem_bindingKeys.mp key
  · intro run among own
    exact ⟨fun pending => settled run among own (.inl pending),
      fun running => settled run among own (.inr running)⟩
  · intro occurrence among own
    obtain ⟨run, runMember, id, ofRequest⟩ := keyed.occurrenceRun occurrence among
    refine ⟨run, runMember, id, ofRequest.trans own, ?_⟩
    by_contra unfinished
    exact noPartial ⟨run, runMember, ofRequest.trans own, unfinished, occurrence, among, id.symm⟩
  · intro run among own failed
    have key : run.detectorBindingKey ∈ ledger.completedKeys sealed.requestId :=
      keys ▸ key_of_run keyed member stored among own
    obtain ⟨completed, completedMember, done⟩ := mem_completedKeys.mp key
    have last := last_of_completed chains completedMember done
    obtain ⟨completedAmong, completedOwn, completedKey⟩ := mem_runsOf.mp completedMember
    refine ⟨completed, completedAmong, completedOwn, done, completedKey, ?_⟩
    exact (chains.chained _ _).leads_to_last (fun row rowMember => (mem_runsOf.mp rowMember).1)
      (mem_runsOf.mpr ⟨among, own, rfl⟩) last
  · intro occurrence among own
    obtain ⟨item, itemMember, ofOccurrence, kind, _⟩ := keyed.occurrenceWork occurrence among
    refine ⟨item, ⟨itemMember, kind, ofOccurrence⟩, ?_⟩
    intro other ⟨otherMember, _, otherOccurrence⟩
    exact keyed.itemIds.eq otherMember itemMember
      (keyed.oneIdentity other otherMember item itemMember (by simp [otherOccurrence])
        (otherOccurrence.trans ofOccurrence.symm))

/-- An update of runs makes none. -/
theorem known_of_updated {condition : DetectorRun → Bool} {change : DetectorRun → DetectorRun}
    {rows : List DetectorRun} (member : run ∈ updateWhere condition change rows)
    (kept : ∀ row, (change row).id = row.id)
    : ∃ old ∈ rows, old.id = run.id := by
  rcases mem_updateWhere_cases member with ⟨old, _⟩ | ⟨old, among, _, rfl⟩
  · exact ⟨run, old, rfl⟩
  · exact ⟨old, among, (kept old).symm⟩

/-- A run that was not there supersedes the only failed leaf of its binding, if there is one. -/
theorem Effect.new_run {during : Instant → Prop} {subject : Option Uuid} {written : Ledger}
    (effect : Effect sha256 during before subject written) (member : run ∈ written.runs)
    : (∃ old ∈ before.runs, old.id = run.id)
      ∨ (before.failedLeaves run.requestId run.detectorBindingKey).length ≤ 1
        ∧ run.supersedesRunId
          = (before.failedLeaves run.requestId run.detectorBindingKey).head?.map (·.id) := by
  cases effect with
  | unchanged | created | cleanupClaimed | captureRetired | claimed | renewed | leaseRenewed
  | leaseReleased | registered => exact .inl ⟨run, member, rfl⟩
  | cancelled => exact .inl (known_of_updated member fun _ => rfl)
  | begun live new =>
      rcases List.mem_append.mp member with old | added
      · exact .inl ⟨run, old, rfl⟩
      · rw [List.mem_singleton.mp added]
        exact .inr ⟨new.leaves, new.supersedes⟩
  | retained => exact .inl (known_of_updated member fun _ => rfl)
  | runFailed => exact .inl (known_of_updated member fun _ => rfl)
  | ended current ended =>
      rcases ended.interrupted with ⟨_, _, _, rfl⟩ | ⟨rfl, _⟩
      · exact .inl (known_of_updated member fun _ => rfl)
      · exact .inl ⟨run, member, rfl⟩

/-- In every history a completed detection stays completed, with a complete inventory at every later
time. At every time the runs of each binding form one chain, none superseded twice and none by
itself, and a new run supersedes the only failed leaf of its binding. Witness: the checks of
`v1_finish` on the rows that no later operation changes, and the chains that every start extends.
-/
theorem history_completes_inventories (history : History sha256)
    : (∀ first, ∀ item ∈ (history.ledger first).items, item.kind = .captureDetection
        → item.state = .completed
        → ∀ last, first ≤ last → item ∈ (history.ledger last).items
          ∧ CompleteInventory (history.ledger last) item.requestId)
      ∧ (∀ time, (∀ request key, Chained none ((history.ledger time).runsOf request key))
        ∧ (∀ run, ¬Relation.TransGen (history.ledger time).SupersededBy run run)
        ∧ ∀ earlier left right, (history.ledger time).SupersededBy earlier left
          → (history.ledger time).SupersededBy earlier right → left = right)
      ∧ ∀ time, ∀ run ∈ (history.ledger (time + 1)).runs,
        (∀ old ∈ (history.ledger time).runs, old.id ≠ run.id)
        → let leaves := (history.ledger time).failedLeaves run.requestId run.detectorBindingKey
          leaves.length ≤ 1 ∧ run.supersedesRunId = leaves.head?.map (·.id) := by
  refine ⟨?_, ?_, ?_⟩
  · intro first item member detection completed last ordered
    obtain ⟨same, among, _, settled⟩ := (history.persists ordered).items item member
    have concluded : ¬item.state.IsOpen := by simp [completed, WorkState.IsOpen]
    rw [settled concluded] at among
    exact ⟨among, (history.complete last item among detection completed).complete
      (history.keyed last) (history.chains last)⟩
  · intro time
    have keyed := history.keyed time
    have chains := history.chains time
    exact ⟨chains.chained, chains.acyclic keyed, fun _ _ _ => chains.superseded_once keyed⟩
  · intro time run member fresh
    obtain ⟨subject, written, effect, same⟩ := (history.steps time).becomes
    have among : run ∈ written.runs := by
      rw [← Ledger.refreshed_runs subject, ← same]
      exact member
    rcases effect.new_run among with ⟨old, oldMember, id⟩ | new
    · exact absurd id (fresh old oldMember)
    · exact new

end Scanipy.Db.Execution

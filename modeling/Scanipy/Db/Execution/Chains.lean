import Scanipy.Db.Execution.Frame

/-! The runs of the execution ledger: those of one sealed binding form a chain, each superseding the
failed one before it, and every run counts the occurrences that it keeps.
-/

namespace Scanipy.Db.Execution

open Library Python Services.Scan.OccurrenceStore

variable {sha256 : Bytes → Bytes} {ledger before after : Ledger}

/-- A run that another may supersede: it failed and kept nothing. -/
def DetectorRun.Superseded (run : DetectorRun) : Prop :=
  run.state.IsFailure ∧ run.resultCount = 0

/-- Each run supersedes the one before it, and only the last may be anything but a failure that
kept nothing.
-/
def Chained : Option Uuid → List DetectorRun → Prop
  | _, [] => True
  | earlier, run :: rest =>
      run.supersedesRunId = earlier ∧ (rest ≠ [] → run.Superseded) ∧ Chained (some run.id) rest

variable {earlier : Option Uuid} {runs : List DetectorRun} {run : DetectorRun}

/-- A chain grows behind its last run, by induction on the chain. -/
theorem Chained.append_one (chained : Chained earlier runs)
    (failed : ∀ last ∈ runs.getLast?, last.Superseded)
    (supersedes : run.supersedesRunId = (runs.getLast?.map (·.id)).or earlier)
    : Chained earlier (runs ++ [run]) := by
  induction runs generalizing earlier with
  | nil => exact ⟨supersedes, fun some => absurd rfl some, trivial⟩
  | cons head rest ih =>
      obtain ⟨link, inner, tail⟩ := chained
      cases rest with
      | nil =>
          refine ⟨link, fun _ => failed head rfl, ?_, fun some => absurd rfl some, trivial⟩
          simpa using supersedes
      | cons next others =>
          rw [List.getLast?_cons_cons] at failed supersedes
          refine ⟨link, fun _ => inner (by simp), ih tail failed ?_⟩
          rw [supersedes]
          cases last : (next :: others).getLast? with
          | none => simp at last
          | some _ => rfl

variable {change : DetectorRun → DetectorRun}

/-- Runs that are over keep their place in the chain, by induction on the chain. -/
theorem Chained.map (chained : Chained earlier runs) (kept : ∀ run ∈ runs, (change run).id = run.id
      ∧ (change run).supersedesRunId = run.supersedesRunId
      ∧ (run.state.IsFailure → change run = run))
    : Chained earlier (runs.map change) := by
  induction runs generalizing earlier with
  | nil => trivial
  | cons head rest ih =>
      obtain ⟨link, inner, tail⟩ := chained
      obtain ⟨id, supersedes, concluded⟩ := kept head List.mem_cons_self
      refine ⟨supersedes.trans link, ?_, ?_⟩
      · intro some
        have failed := inner fun none => some (by rw [none, List.map_nil])
        rw [concluded failed.1]
        exact failed
      · rw [id]
        exact ih tail fun run member => kept run (List.mem_cons_of_mem _ member)

/-- All runs of a chain but the last are superseded, by induction on the chain. -/
theorem Chained.superseded_or_last (chained : Chained earlier runs) (member : run ∈ runs)
    : run.Superseded ∨ runs.getLast? = some run := by
  induction runs generalizing earlier with
  | nil => cases member
  | cons head rest ih =>
      obtain ⟨_, inner, tail⟩ := chained
      cases rest with
      | nil =>
          rw [List.mem_singleton.mp member]
          exact .inr rfl
      | cons next others =>
          rcases List.mem_cons.mp member with rfl | later
          · exact .inl (inner (by simp))
          · rw [List.getLast?_cons_cons]
            exact ih tail later

variable {state : RunState}

theorem not_failure_of_open (unsettled : state.IsOpen) : ¬state.IsFailure := by
  rcases unsettled with rfl | rfl <;> simp [RunState.IsFailure]

/-- A run that is neither open nor completed failed. -/
theorem failure_of_over (concluded : ¬state.IsOpen) (unfinished : state ≠ .completed)
    : state.IsFailure := by
  cases state with
  | pending => exact absurd (.inl rfl) concluded
  | running => exact absurd (.inr rfl) concluded
  | completed => exact absurd rfl unfinished
  | failed => exact .inl rfl
  | interrupted => exact .inr rfl

/-- The runs of a binding, in the order of their starts. -/
def Ledger.runsOf (ledger : Ledger) (request : Uuid) (key : Text) : List DetectorRun :=
  ledger.runs.filter fun run => run.requestId = request ∧ run.detectorBindingKey = key

variable {request : Uuid} {key : Text}

theorem mem_runsOf
    : run ∈ ledger.runsOf request key
      ↔ run ∈ ledger.runs ∧ run.requestId = request ∧ run.detectorBindingKey = key := by
  simp [Ledger.runsOf]

/-- The occurrences that a run keeps. -/
def Ledger.kept (ledger : Ledger) (run : Uuid) : List DetectionOccurrence :=
  ledger.occurrences.filter fun row => row.detectorRunId = run

/-- The runs of every binding form a chain and count their occurrences. -/
structure Ledger.Chains (ledger : Ledger) : Prop where
  chained : ∀ request key, Chained none (ledger.runsOf request key)
  counted : ∀ run ∈ ledger.runs, (ledger.kept run.id).length = run.resultCount
  empty : ∀ run ∈ ledger.runs, run.state.IsOpen → run.resultCount = 0

theorem chains_of_eq (chains : before.Chains) (runs : after.runs = before.runs)
    (occurrences : after.occurrences = before.occurrences)
    : after.Chains := by
  refine ⟨?_, ?_, ?_⟩
  · intro request key
    rw [Ledger.runsOf, runs]
    exact chains.chained request key
  · intro run member
    rw [Ledger.kept, occurrences]
    exact chains.counted run (runs ▸ member)
  · intro run member
    exact chains.empty run (runs ▸ member)

variable {condition : DetectorRun → Bool}

/-- A change of open runs that settles them keeps the chains, if it counts their occurrences. -/
theorem chains_updated (chains : before.Chains)
    (runs : after.runs = updateWhere condition change before.runs)
    (meets : ∀ run ∈ before.runs, condition run = true → run.state.IsOpen)
    (kept : ∀ run, (change run).fixed = run.fixed) (settles : ∀ run, ¬(change run).state.IsOpen)
    (counted : ∀ run ∈ before.runs, condition run = true
      → (after.kept run.id).length = (change run).resultCount)
    (others : ∀ run ∈ before.runs, condition run = false → after.kept run.id = before.kept run.id)
    : after.Chains := by
  have keptId (run : DetectorRun) : (change run).id = run.id := by
    have same := congrArg DetectorRun.id (kept run)
    exact same
  have keptRequest (run : DetectorRun) : (change run).requestId = run.requestId := by
    have same := congrArg DetectorRun.requestId (kept run)
    exact same
  have keptKey (run : DetectorRun) : (change run).detectorBindingKey = run.detectorBindingKey := by
    have same := congrArg DetectorRun.detectorBindingKey (kept run)
    exact same
  have keptLink (run : DetectorRun) : (change run).supersedesRunId = run.supersedesRunId := by
    have same := congrArg DetectorRun.supersedesRunId (kept run)
    exact same
  refine ⟨?_, ?_, ?_⟩
  · intro request key
    rw [Ledger.runsOf, runs, filter_updateWhere fun run => by rw [keptRequest, keptKey]]
    refine (chains.chained request key).map ?_
    intro run member
    cases met : condition run with
    | true =>
        refine ⟨?_, ?_, ?_⟩
        · rw [if_pos rfl, keptId]
        · rw [if_pos rfl, keptLink]
        · intro failed
          exact absurd failed (not_failure_of_open (meets run (mem_runsOf.mp member).1 met))
    | false => exact ⟨rfl, rfl, fun _ => rfl⟩
  · intro run member
    rw [runs] at member
    rcases mem_updateWhere_cases member with ⟨old, spared⟩ | ⟨old, among, met, rfl⟩
    · rw [others run old spared]
      exact chains.counted run old
    · rw [keptId]
      exact counted old among met
  · intro run member unsettled
    rw [runs] at member
    rcases mem_updateWhere_cases member with ⟨old, _⟩ | ⟨old, _, _, rfl⟩
    · exact chains.empty run old unsettled
    · exact absurd unsettled (settles old)

variable {moment : Instant}

/-- Runs that are interrupted keep nothing. -/
theorem chains_interrupted {schema : EnvelopeName} {data digest : Bytes} (chains : before.Chains)
    (runs : after.runs
      = updateWhere condition (·.finish .interrupted moment schema data digest) before.runs)
    (meets : ∀ run ∈ before.runs, condition run = true → run.state.IsOpen)
    (occurrences : after.occurrences = before.occurrences)
    : after.Chains := by
  have same (run : Uuid) : after.kept run = before.kept run := by
    rw [Ledger.kept, occurrences]
    rfl
  refine chains_updated chains runs meets (fun _ => rfl) (fun run => not_open_finish run _ _ _ _)
    ?_ (fun run _ _ => same run.id)
  intro run member _
  rw [same]
  exact chains.counted run member

-- Starts

/-- The runs of a request have its organisation. -/
theorem org_of_run {request : ScanRequest} (keyed : Keyed sha256 ledger)
    (member : run ∈ ledger.runs) (known : request ∈ ledger.requests)
    (own : run.requestId = request.id)
    : run.orgId = request.orgId := by
  obtain ⟨attempt, attemptMember, _, _, ofRequest, ofOrg, _⟩ := keyed.runAttempt run member
  obtain ⟨item, itemMember, _, itemRequest, itemOrg, _⟩ := keyed.attemptItem attempt attemptMember
  obtain ⟨row, rowMember, id, org⟩ := keyed.itemRequest item itemMember
  have same := keyed.requestIds.eq rowMember known
    (id.trans (itemRequest.trans (ofRequest.trans own)))
  rw [← same, org, itemOrg, ofOrg]

variable {call : Call} {locked : Locked} {attempt : WorkAttempt} {last : DetectorRun}

/-- The last run of the binding of a new run failed and kept nothing. -/
theorem NewRun.last_superseded (keyed : Keyed sha256 before) (chains : before.Chains)
    (held : Held before call .captureDetection locked attempt)
    (new : NewRun before locked attempt run)
    (member : last ∈ before.runsOf run.requestId run.detectorBindingKey)
    : last.Superseded := by
  obtain ⟨among, ofRequest, ofKey⟩ := mem_runsOf.mp member
  have concluded := new.noneOpen last among ofRequest ofKey
  have org : last.orgId = run.orgId := by
    rw [org_of_run keyed among held.requestMember
      (ofRequest.trans (new.request.trans held.requestId.symm)), held.requestOrg, new.org,
      held.workOrg]
  have unfinished := new.noneCompleted last among org ofRequest ofKey
  refine ⟨failure_of_over concluded unfinished, ?_⟩
  -- a run that kept an occurrence without completing bars every new run of its request
  rw [← chains.counted last among, List.length_eq_zero_iff, List.eq_nil_iff_forall_not_mem]
  intro occurrence kept
  obtain ⟨occurrenceMember, own⟩ := List.mem_filter.mp kept
  exact new.noPartial ⟨last, among, ofRequest, unfinished, occurrence, occurrenceMember,
    of_decide_eq_true own⟩

/-- A superseded run without a successor: a leaf of the failure chain. -/
theorem mem_failedLeaves
    : run ∈ ledger.failedLeaves request key
      ↔ run ∈ ledger.runsOf request key ∧ run.Superseded
        ∧ ¬∃ child ∈ ledger.runs, child.supersedesRunId = some run.id := by
  simp only [Ledger.failedLeaves, mem_runsOf, List.mem_filter, decide_eq_true_eq,
    DetectorRun.Superseded, and_assoc]

/-- A run of a chain is its first, or supersedes the one before it, by induction on the chain. -/
theorem Chained.predecessor (chained : Chained earlier runs) (member : run ∈ runs)
    : (run.supersedesRunId = earlier ∧ ∃ rest, runs = run :: rest)
      ∨ ∃ front last rest, runs = front ++ last :: run :: rest
        ∧ run.supersedesRunId = some last.id := by
  induction runs generalizing earlier with
  | nil => cases member
  | cons head rest ih =>
      obtain ⟨link, _, tail⟩ := chained
      rcases List.mem_cons.mp member with rfl | later
      · exact .inl ⟨link, rest, rfl⟩
      · rcases ih tail later with ⟨first, others, rfl⟩ | ⟨front, last, others, rfl, supersedes⟩
        · exact .inr ⟨[], head, others, rfl, first⟩
        · exact .inr ⟨head :: front, last, others, rfl, supersedes⟩

/-- The last run of a binding has no successor. -/
theorem no_child_of_last {child : DetectorRun} (keyed : Keyed sha256 ledger)
    (chains : ledger.Chains) (ends : (ledger.runsOf request key).getLast? = some last)
    (member : child ∈ ledger.runs)
    : child.supersedesRunId ≠ some last.id := by
  intro supersedes
  have lastMember := mem_runsOf.mp (List.mem_of_getLast? ends)
  have own : child ∈ ledger.runsOf child.requestId child.detectorBindingKey :=
    mem_runsOf.mpr ⟨member, rfl, rfl⟩
  rcases (chains.chained _ _).predecessor own with ⟨first, _⟩ | ⟨front, previous, rest, split, link⟩
  · rw [first] at supersedes
    cases supersedes
  · have among : previous ∈ ledger.runsOf child.requestId child.detectorBindingKey := by
      rw [split]
      simp
    obtain ⟨previousMember, ofRequest, ofKey⟩ := mem_runsOf.mp among
    have same : previous = last := keyed.runIds.eq previousMember lastMember.1
      (Option.some.inj (link.symm.trans supersedes))
    subst same
    rw [← ofRequest, ← ofKey, lastMember.2.1, lastMember.2.2] at split
    have distinct : (ledger.runsOf request key).Nodup :=
      (List.Nodup.of_map _ keyed.runIds).filter _
    rw [split] at distinct ends
    have later : previous ∈ child :: rest := by
      rw [List.getLast?_append_of_ne_nil _ (by simp), List.getLast?_cons_cons] at ends
      exact List.mem_of_getLast? ends
    exact (List.nodup_cons.mp (List.nodup_append.mp distinct).2.1).1 later

/-- A new run supersedes the last of its binding. -/
theorem NewRun.supersedes_last (keyed : Keyed sha256 before) (chains : before.Chains)
    (held : Held before call .captureDetection locked attempt)
    (new : NewRun before locked attempt run)
    : run.supersedesRunId
      = (before.runsOf run.requestId run.detectorBindingKey).getLast?.map (·.id) := by
  rw [new.supersedes]
  cases ends : (before.runsOf run.requestId run.detectorBindingKey).getLast? with
  | none =>
      rw [List.getLast?_eq_none_iff] at ends
      have none : before.failedLeaves run.requestId run.detectorBindingKey = [] := by
        rw [List.eq_nil_iff_forall_not_mem]
        intro leaf member
        have among := (mem_failedLeaves.mp member).1
        rw [ends] at among
        cases among
      rw [none]
      rfl
  | some last =>
      have member := List.mem_of_getLast? ends
      have leaf : last ∈ before.failedLeaves run.requestId run.detectorBindingKey := by
        refine mem_failedLeaves.mpr ⟨member, new.last_superseded keyed chains held member, ?_⟩
        intro ⟨child, childMember, supersedes⟩
        exact no_child_of_last keyed chains ends childMember supersedes
      have leaves := new.leaves
      obtain ⟨only, alone⟩ := List.length_eq_one_iff.mp
        (Nat.le_antisymm leaves (List.length_pos_of_mem leaf))
      rw [alone] at leaf ⊢
      rw [List.mem_singleton.mp leaf]
      rfl

theorem chains_begun (keyed : Keyed sha256 before) (chains : before.Chains)
    (held : Held before call .captureDetection locked attempt)
    (new : NewRun before locked attempt run)
    : { before with runs := before.runs ++ [run] }.Chains := by
  have unkept : before.kept run.id = [] := by
    rw [Ledger.kept, List.filter_eq_nil_iff]
    intro occurrence member own
    obtain ⟨row, among, id, _⟩ := keyed.occurrenceRun occurrence member
    exact new.fresh row among (id.trans (of_decide_eq_true own))
  refine ⟨?_, ?_, ?_⟩
  · intro request key
    have view : { before with runs := before.runs ++ [run] }.runsOf request key
        = before.runsOf request key ++ [run].filter fun row =>
            row.requestId = request ∧ row.detectorBindingKey = key :=
      List.filter_append _ _
    rw [view, List.filter_singleton]
    by_cases own : run.requestId = request ∧ run.detectorBindingKey = key
    · obtain ⟨rfl, rfl⟩ := own
      simp only [and_self, decide_true]
      refine (chains.chained _ _).append_one ?_ ?_
      · intro last ends
        exact new.last_superseded keyed chains held (List.mem_of_getLast? ends)
      · rw [new.supersedes_last keyed chains held, Option.or_none]
    · rw [decide_eq_false own]
      simpa using chains.chained request key
  · intro row member
    rcases List.mem_append.mp member with earlier | later
    · exact chains.counted row earlier
    · rw [List.mem_singleton.mp later, new.empty]
      exact congrArg List.length unkept
  · intro row member unsettled
    rcases List.mem_append.mp member with earlier | later
    · exact chains.empty row earlier unsettled
    · rw [List.mem_singleton.mp later]
      exact new.empty

theorem chains_retained {added : List (DetectionOccurrence × WorkItem)} {batch : Batch}
    {value : Json} (keyed : Keyed sha256 before) (chains : before.Chains)
    (member : run ∈ before.runs) (unsettled : run.state.IsOpen)
    (count : batch.rawResults.length = added.length) (new : NewOccurrences before run added)
    : (before.retainRows run added batch value moment).Chains := by
  have view (id : Uuid) : (before.retainRows run added batch value moment).kept id
      = before.kept id ++ (added.map Prod.fst).filter fun row => row.detectorRunId = id :=
    List.filter_append _ _
  refine chains_updated chains rfl ?_ (fun _ => rfl) (fun _ => not_open_batchState _) ?_ ?_
  · intro row among met
    rw [keyed.runIds.eq among member (of_decide_eq_true met)]
    exact unsettled
  · intro row among met
    have same := keyed.runIds.eq among member (of_decide_eq_true met)
    subst same
    have none : before.kept row.id = [] := by
      rw [← List.length_eq_zero_iff, chains.counted row member, chains.empty row member unsettled]
    have all : (added.map Prod.fst).filter (fun other => other.detectorRunId = row.id)
        = added.map Prod.fst := by
      rw [List.filter_eq_self]
      intro occurrence occurrenceMember
      obtain ⟨pair, pairMember, rfl⟩ := List.mem_map.mp occurrenceMember
      exact decide_eq_true (new.each pair pairMember).1
    rw [view, none, all, List.nil_append, List.length_map, ← count]
    rfl
  · intro row among spared
    have none : (added.map Prod.fst).filter (fun other => other.detectorRunId = row.id) = [] := by
      rw [List.filter_eq_nil_iff]
      intro occurrence occurrenceMember own
      obtain ⟨pair, pairMember, rfl⟩ := List.mem_map.mp occurrenceMember
      exact of_decide_eq_false spared
        ((of_decide_eq_true own).symm.trans (new.each pair pairMember).1)
    rw [view, none, List.append_nil]

variable {during : Instant → Prop}

/-- Every effect keeps the chains. Witness: starts append to them, and ends settle open runs. -/
theorem Effect.chains {subject : Option Uuid} {written : Ledger}
    (effect : Effect sha256 during before subject written) (keyed : Keyed sha256 before)
    (chains : before.Chains)
    : written.Chains := by
  cases effect with
  | unchanged | created | cleanupClaimed | captureRetired | claimed | renewed | leaseRenewed
  | leaseReleased | registered => exact chains_of_eq chains rfl rfl
  | cancelled => exact chains_interrupted chains rfl (fun _ _ met => (of_decide_eq_true met).2) rfl
  | begun live new => exact chains_begun keyed chains live.toHeld new
  | retained live member work own unsettled count new =>
      exact chains_retained keyed chains member unsettled count new
  | @runFailed _ _ _ _ run failure moment live member work own unsettled =>
      refine chains_updated chains rfl ?_ (fun _ => rfl) ?_ ?_ (fun _ _ _ => rfl)
      · intro row among met
        rw [keyed.runIds.eq among member (of_decide_eq_true met)]
        exact unsettled
      · intro row
        simp [DetectorRun.fail, DetectorRun.finish, RunState.IsOpen]
      · intro row among _
        exact chains.counted row among
  | ended current ended =>
      rcases ended.interrupted with ⟨_, _, _, rfl⟩ | ⟨rfl, _⟩
      · exact chains_interrupted chains rfl (fun _ _ met => (of_decide_eq_true met).2) rfl
      · exact chains_of_eq chains rfl rfl

theorem Ledger.refreshed_runs (subject : Option Uuid)
    : (ledger.refreshed subject).runs = ledger.runs := by
  unfold Ledger.refreshed
  split <;> rfl

theorem Ledger.refreshed_occurrences (subject : Option Uuid)
    : (ledger.refreshed subject).occurrences = ledger.occurrences := by
  unfold Ledger.refreshed
  split <;> rfl

theorem Ledger.Becomes.chains (step : before.Becomes sha256 during after)
    (keyed : Keyed sha256 before) (chains : before.Chains)
    : after.Chains := by
  obtain ⟨subject, written, effect, rfl⟩ := step
  exact chains_of_eq (effect.chains keyed chains) (Ledger.refreshed_runs subject)
    (Ledger.refreshed_occurrences subject)

theorem chains_empty (codebases : List (Uuid × Uuid)) : (Ledger.empty codebases).Chains := by
  refine ⟨fun _ _ => trivial, ?_, ?_⟩
  · intro run member
    cases member
  · intro run member
    cases member

theorem History.chains (history : History sha256) (time : Nat) : (history.ledger time).Chains :=
  (history.invariant (fun ledger => Keyed sha256 ledger ∧ ledger.Chains)
    (fun codebases => ⟨keyed_empty codebases, chains_empty codebases⟩)
    (fun step both => ⟨step.keyed both.1, step.chains both.1 both.2⟩) time).2

end Scanipy.Db.Execution

import Scanipy.Db.Execution.Completion

/-! The stage columns of the execution ledger never go stale: they are what `v1_stages` would compute
anew, although only some of the operations call it.
-/

namespace Scanipy.Db.Execution

open Library Python Services.Scan.OccurrenceStore

variable {sha256 : Bytes → Bytes} {ledger before after : Ledger}

-- Unsuperseded failures

variable {front rest : List DetectorRun} {earlier : DetectorRun}

/-- Neighbours in a chain are linked, by induction on the chain. -/
theorem Chained.neighbours {start : Option Uuid} {later : DetectorRun}
    (chained : Chained start (front ++ earlier :: later :: rest))
    : earlier.Superseded ∧ later.supersedesRunId = some earlier.id := by
  induction front generalizing start with
  | nil => exact ⟨chained.2.1 (by simp), chained.2.2.1⟩
  | cons head front ih => exact ih chained.2.2

variable {request : Uuid} {run : DetectorRun} {fuel : Nat}

/-- The walk from a run stays in its binding, by induction on the fuel. -/
theorem superseded_in_binding {id : Uuid} (keyed : Keyed sha256 ledger) (chains : ledger.Chains)
    (member : run ∈ ledger.runs) (walked : id ∈ ledger.superseded request fuel run)
    : ∃ row ∈ ledger.runsOf run.requestId run.detectorBindingKey, row.id = id := by
  induction fuel generalizing run with
  | zero =>
      exact ⟨run, mem_runsOf.mpr ⟨member, rfl, rfl⟩, (List.mem_singleton.mp walked).symm⟩
  | succ fuel ih =>
      rcases List.mem_cons.mp walked with same | further
      · exact ⟨run, mem_runsOf.mpr ⟨member, rfl, rfl⟩, same.symm⟩
      · cases found : ledger.runs.find? fun earlier =>
            run.supersedesRunId = some earlier.id ∧ earlier.requestId = request
            ∧ earlier.resultCount = 0 with
        | none =>
            simp only [found] at further
            cases further
        | some earlier =>
            simp only [found] at further
            obtain ⟨among, link, _⟩ := row_of_find? found
            have superseded : ledger.SupersededBy earlier run := ⟨among, member, link⟩
            obtain ⟨ofRequest, ofKey, _⟩ := superseded.place_eq keyed chains
            rw [← ofRequest, ← ofKey]
            exact ih among further

/-- The walk from a run reaches all runs before it in the chain, by induction on their number. -/
theorem mem_superseded_of_front {key : Text} (keyed : Keyed sha256 ledger) (chains : ledger.Chains)
    (split : ledger.runsOf request key = front ++ run :: rest) (enough : front.length ≤ fuel)
    (member : earlier ∈ front)
    : earlier.id ∈ ledger.superseded request fuel run := by
  induction fuel generalizing front rest run with
  | zero =>
      rw [List.length_eq_zero_iff.mp (Nat.le_zero.mp enough)] at member
      cases member
  | succ fuel ih =>
      rcases List.eq_nil_or_concat front with rfl | ⟨start, last, rfl⟩
      · cases member
      · rw [List.concat_eq_append] at split enough member
        rw [List.append_assoc, List.singleton_append] at split
        have chained := chains.chained request key
        rw [split] at chained
        obtain ⟨superseded, link⟩ := chained.neighbours
        have among : last ∈ ledger.runsOf request key := by
          rw [split]
          simp
        obtain ⟨lastMember, ofRequest, _⟩ := mem_runsOf.mp among
        have found : (ledger.runs.find? fun row =>
            run.supersedesRunId = some row.id ∧ row.requestId = request ∧ row.resultCount = 0)
            = some last := by
          refine find?_eq_some_of_sole lastMember
            (decide_eq_true ⟨link, ofRequest, superseded.2⟩) ?_
          intro other otherMember selected
          exact keyed.runIds.eq otherMember lastMember
            (Option.some.inj ((of_decide_eq_true selected).1.symm.trans link))
        have walk : ledger.superseded request (fuel + 1) run
            = run.id :: ledger.superseded request fuel last := by
          simp only [Ledger.superseded, found]
        rw [walk]
        rw [List.length_append, List.length_singleton] at enough
        refine List.mem_cons_of_mem _ ?_
        rcases List.mem_append.mp member with inStart | isLast
        · exact ih split (Nat.le_of_succ_le_succ enough) inStart
        · rw [List.mem_singleton.mp isLast]
          cases fuel <;> exact List.mem_cons_self

/-- The run was completed over, in its binding. -/
def Ledger.Covered (ledger : Ledger) (run : DetectorRun) : Prop :=
  ∃ completed ∈ ledger.runsIn run.requestId,
    completed.detectorBindingKey = run.detectorBindingKey ∧ completed.state = .completed

/-- The recursive query covers exactly the bindings with a completed run. Witness: a completed run is
the last of its chain, and the walk from it reaches all others.
-/
theorem mem_covered_iff (keyed : Keyed sha256 ledger) (chains : ledger.Chains)
    (member : run ∈ ledger.runs)
    : run.id ∈ ledger.covered run.requestId ↔ ledger.Covered run := by
  unfold Ledger.covered
  rw [List.mem_flatMap]
  constructor
  · intro ⟨completed, among, walked⟩
    obtain ⟨completedMember, selected⟩ := List.mem_filter.mp among
    obtain ⟨own, state⟩ := of_decide_eq_true selected
    obtain ⟨row, rowMember, id⟩ := superseded_in_binding keyed chains completedMember walked
    obtain ⟨rowAmong, _, ofKey⟩ := mem_runsOf.mp rowMember
    rw [keyed.runIds.eq rowAmong member id] at ofKey
    exact ⟨completed, mem_runsIn.mpr ⟨completedMember, own⟩, ofKey.symm, state⟩
  · intro ⟨completed, among, ofKey, state⟩
    obtain ⟨completedMember, own⟩ := mem_runsIn.mp among
    refine ⟨completed, List.mem_filter.mpr ⟨completedMember, decide_eq_true ⟨own, state⟩⟩, ?_⟩
    have last := last_of_completed chains (mem_runsOf.mpr ⟨completedMember, own, ofKey⟩) state
    obtain ⟨front, split⟩ := List.getLast?_eq_some_iff.mp last
    have inChain : run ∈ ledger.runsOf run.requestId run.detectorBindingKey :=
      mem_runsOf.mpr ⟨member, rfl, rfl⟩
    rw [split] at inChain
    rcases List.mem_append.mp inChain with inFront | isLast
    · refine mem_superseded_of_front keyed chains split ?_ inFront
      have bounded := (List.filter_sublist (l := ledger.runs)
        (p := fun row => row.requestId = run.requestId
          ∧ row.detectorBindingKey = run.detectorBindingKey)).length_le
      change (ledger.runsOf run.requestId run.detectorBindingKey).length ≤ _ at bounded
      rw [split, List.length_append] at bounded
      omega
    · rw [List.mem_singleton.mp isLast]
      cases ledger.runs.length <;> exact List.mem_cons_self

/-- What the recursive query computes: a failure, other than by cancellation, in a binding without a
completed run.
-/
theorem unsuperseded_iff (keyed : Keyed sha256 ledger) (chains : ledger.Chains)
    : ledger.unsuperseded request = true
      ↔ ∃ run ∈ ledger.runsIn request, run.state.IsFailure
        ∧ run.resultSchema ≠ some .cancellation ∧ ¬ledger.Covered run := by
  simp only [Ledger.unsuperseded, List.any_eq_true, decide_eq_true_eq]
  constructor
  · intro ⟨run, member, own, failed, reason, uncovered⟩
    subst own
    exact ⟨run, mem_runsIn.mpr ⟨member, rfl⟩, failed, reason,
      fun covered => uncovered ((mem_covered_iff keyed chains member).mpr covered)⟩
  · intro ⟨run, among, failed, reason, uncovered⟩
    obtain ⟨member, own⟩ := mem_runsIn.mp among
    subst own
    exact ⟨run, member, rfl, failed, reason,
      fun covered => uncovered ((mem_covered_iff keyed chains member).mp covered)⟩

/-- The unsuperseded failures of a request are a matter of its own runs. -/
theorem unsuperseded_eq (keyed : Keyed sha256 before) (chains : before.Chains)
    (keyedAfter : Keyed sha256 after) (chainsAfter : after.Chains)
    (runs : after.runsIn request = before.runsIn request)
    : after.unsuperseded request = before.unsuperseded request := by
  have same (run : DetectorRun) (own : run.requestId = request)
      : after.Covered run ↔ before.Covered run := by
    unfold Ledger.Covered
    rw [own, runs]
  rw [Bool.eq_iff_iff, unsuperseded_iff keyedAfter chainsAfter, unsuperseded_iff keyed chains, runs]
  constructor
  · intro ⟨run, member, failed, reason, uncovered⟩
    have own := (mem_runsIn.mp member).2
    exact ⟨run, member, failed, reason, fun covered => uncovered ((same run own).mpr covered)⟩
  · intro ⟨run, member, failed, reason, uncovered⟩
    have own := (mem_runsIn.mp member).2
    exact ⟨run, member, failed, reason, fun covered => uncovered ((same run own).mp covered)⟩

/-- A run that is executing changes no verdict. -/
theorem unsuperseded_begun (keyed : Keyed sha256 before) (chains : before.Chains)
    (keyedAfter : Keyed sha256 after) (chainsAfter : after.Chains)
    (runs : after.runs = before.runs ++ [run]) (running : run.state = .running)
    : after.unsuperseded request = before.unsuperseded request := by
  have mem (row : DetectorRun) (concluded : row.state ≠ .running) (own : Uuid)
      : row ∈ after.runsIn own ↔ row ∈ before.runsIn own := by
    rw [mem_runsIn, mem_runsIn, runs, List.mem_append, List.mem_singleton]
    refine and_congr_left fun _ => ?_
    constructor
    · intro among
      rcases among with old | rfl
      · exact old
      · exact absurd running concluded
    · exact .inl
  have same (row : DetectorRun) : after.Covered row ↔ before.Covered row := by
    refine exists_congr fun completed => and_congr_left fun facts => ?_
    exact mem completed (by simp [facts.2]) _
  have settled (row : DetectorRun) (failed : row.state.IsFailure) : row.state ≠ .running := by
    intro stillRunning
    simp [RunState.IsFailure, stillRunning] at failed
  rw [Bool.eq_iff_iff, unsuperseded_iff keyedAfter chainsAfter, unsuperseded_iff keyed chains]
  refine exists_congr fun row => ?_
  rw [same row]
  refine and_congr_left fun facts => ?_
  exact mem row (settled row facts.1) _

-- What the stages depend on

/-- The work of a request, as the stages see it. -/
def Ledger.workIn (ledger : Ledger) (request : Uuid) : List (WorkKind × WorkState) :=
  (ledger.itemsIn request).map fun item => (item.kind, item.state)

/-- The request is cancelled. -/
def Ledger.isCancelled (ledger : Ledger) (request : Uuid) : Bool :=
  ledger.requests.any fun row => row.id = request ∧ row.cancellationBytes ≠ none

/-- The request has a seal. -/
def Ledger.isSealed (ledger : Ledger) (request : Uuid) : Bool :=
  ledger.seals.any (·.requestId = request)

/-- The state of the detection work. -/
theorem find_detection (request : Uuid)
    : (ledger.items.find? fun item =>
          item.requestId = request ∧ item.kind = .captureDetection).map (·.state)
      = ((ledger.workIn request).find? fun work => work.1 = .captureDetection).map (·.2) := by
  rw [Ledger.workIn, Ledger.itemsIn, List.find?_map, List.find?_filter, Option.map_map]
  simp only [Function.comp_def, Bool.decide_and, Bool.decide_eq_true]

/-- The states of the identity work. -/
theorem any_identity (request : Uuid) (state : WorkState)
    : (ledger.items.filter fun item => item.requestId = request ∧ item.kind = .identity).any
        (·.state = state)
      = (ledger.workIn request).any fun work => work.1 = .identity ∧ work.2 = state := by
  rw [Ledger.workIn, Ledger.itemsIn, List.any_map, List.any_filter, List.any_filter]
  simp only [Function.comp_def, Bool.decide_and, Bool.and_assoc]

theorem has_identity (request : Uuid)
    : (ledger.items.filter fun item => item.requestId = request ∧ item.kind = .identity) ≠ []
      ↔ ∃ work ∈ ledger.workIn request, work.1 = .identity := by
  simp [Ledger.workIn, Ledger.itemsIn, and_assoc]

variable {detection : WorkState}

/-- The state of identity, from the work of the request. -/
theorem identityStage_eq (work : after.workIn request = before.workIn request)
    (cancelled : detection ≠ .completed → after.isCancelled request = before.isCancelled request)
    : after.identityStage request detection = before.identityStage request detection := by
  simp only [Ledger.identityStage, any_identity, has_identity, work]
  by_cases completed : detection = .completed
  · simp only [completed, or_true, if_true]
  · have same := cancelled completed
    unfold Ledger.isCancelled at same
    rw [same]

/-- The stages, from the state of the detection work. -/
theorem stages_shape (request : Uuid)
    : ledger.stages request
      = (((ledger.workIn request).find? fun work => work.1 = .captureDetection).map (·.2)).map
        fun state =>
          let detection := if ledger.unsuperseded request then .failed else state
          { capture := if ledger.isSealed request then .completed else state
            detection
            identity := ledger.identityStage request detection } := by
  rw [← find_detection, Option.map_map]
  rfl

/-- The stages are a matter of the work, the runs, the seal and the cancellation of the request; a
completed detection disregards the cancellation.
-/
theorem stages_eq (work : after.workIn request = before.workIn request)
    (unsuperseded : after.unsuperseded request = before.unsuperseded request)
    (sealing : after.isSealed request = before.isSealed request)
    (cancelled : (∀ stages ∈ before.stages request, stages.detection = .completed)
      ∨ after.isCancelled request = before.isCancelled request)
    : after.stages request = before.stages request := by
  rw [stages_shape, work, sealing, unsuperseded]
  rw [stages_shape] at cancelled ⊢
  cases found : ((before.workIn request).find? fun work => work.1 = .captureDetection).map (·.2) with
  | none => rfl
  | some state =>
      rw [found] at cancelled
      simp only [Option.map_some, Option.some.injEq, Stages.mk.injEq, true_and]
      apply identityStage_eq work
      intro unfinished
      rcases cancelled with completed | same
      · exact absurd (completed _ rfl) unfinished
      · exact same

/-- A seal completes the capture. -/
theorem stages_of_sealed (work : after.workIn request = before.workIn request)
    (unsuperseded : after.unsuperseded request = before.unsuperseded request)
    (sealing : after.isSealed request = true)
    (cancelled : after.isCancelled request = before.isCancelled request)
    : after.stages request
      = (before.stages request).map fun stages => { stages with capture := .completed } := by
  have identity (detection : WorkState)
      : after.identityStage request detection = before.identityStage request detection :=
    identityStage_eq work fun _ => cancelled
  simp only [stages_shape, work, unsuperseded, sealing, identity, Option.map_map, if_true]
  rfl

/-- A new request waits in every stage. -/
theorem stages_of_new (work : ledger.workIn request = [(.captureDetection, .pending)])
    (superseded : ledger.unsuperseded request = false) (unsealed : ledger.isSealed request = false)
    (uncancelled : ledger.isCancelled request = false)
    : ledger.stages request = some ⟨.pending, .pending, .pending⟩ := by
  have identity : ledger.identityStage request .pending = .pending := by
    unfold Ledger.isCancelled at uncancelled
    simp only [Ledger.identityStage, any_identity, has_identity, work, uncancelled]
    simp
  rw [stages_shape, work, superseded, unsealed]
  simp [identity]

variable {row : ScanRequest}

theorem isCancelled_iff (keyed : Keyed sha256 ledger) (member : row ∈ ledger.requests)
    : ledger.isCancelled row.id = true ↔ row.cancellationBytes ≠ none := by
  unfold Ledger.isCancelled
  rw [List.any_eq_true]
  constructor
  · intro ⟨other, among, selected⟩
    obtain ⟨id, cancelled⟩ := of_decide_eq_true selected
    rw [← keyed.requestIds.eq among member id]
    exact cancelled
  · intro cancelled
    exact ⟨row, member, decide_eq_true ⟨rfl, cancelled⟩⟩

/-- A row that keeps its cancellation. -/
theorem isCancelled_eq {other : ScanRequest} (keyed : Keyed sha256 before)
    (keyedAfter : Keyed sha256 after) (member : row ∈ before.requests)
    (otherMember : other ∈ after.requests) (id : other.id = row.id)
    (same : other.cancellationBytes = row.cancellationBytes)
    : after.isCancelled row.id = before.isCancelled row.id := by
  rw [Bool.eq_iff_iff, isCancelled_iff keyed member, ← id, isCancelled_iff keyedAfter otherMember,
    same]

theorem isSealed_iff
    : ledger.isSealed request = true ↔ ledger.sealsIn request ≠ [] := by
  simp [Ledger.isSealed, Ledger.sealsIn]

theorem isSealed_eq (seals : after.sealsIn request = before.sealsIn request)
    : after.isSealed request = before.isSealed request := by
  rw [Bool.eq_iff_iff, isSealed_iff, isSealed_iff, seals]

/-- An update that keeps the kind and state of the work. -/
theorem workIn_updated {condition : WorkItem → Bool} {change : WorkItem → WorkItem}
    (items : after.items = updateWhere condition change before.items)
    (kept : ∀ item, (change item).requestId = item.requestId
      ∧ ((change item).kind, (change item).state) = (item.kind, item.state))
    : after.workIn request = before.workIn request := by
  rw [Ledger.workIn, Ledger.itemsIn, items,
    filter_updateWhere fun item => by rw [(kept item).1], map_updateWhere fun item => (kept item).2]
  rfl

theorem workIn_eq (items : after.itemsIn request = before.itemsIn request)
    : after.workIn request = before.workIn request := by
  rw [Ledger.workIn, items]
  rfl

/-- A request whose rows are untouched keeps its stages. -/
theorem stages_of_untouched (keyed : Keyed sha256 before) (chains : before.Chains)
    (keyedAfter : Keyed sha256 after) (chainsAfter : after.Chains)
    (untouched : Untouched before after request)
    (cancelled : (∀ stages ∈ before.stages request, stages.detection = .completed)
      ∨ after.isCancelled request = before.isCancelled request)
    : after.stages request = before.stages request :=
  stages_eq (workIn_eq untouched.items)
    (unsuperseded_eq keyed chains keyedAfter chainsAfter untouched.runs)
    (isSealed_eq untouched.seals) cancelled

-- The columns

/-- The stage columns of a request. -/
def ScanRequest.stages (row : ScanRequest) : Stages :=
  ⟨row.captureState, row.detectionState, row.identityState⟩

/-- The stage columns are those that `v1_stages` computes. -/
def Ledger.Staged (ledger : Ledger) : Prop :=
  ∀ row ∈ ledger.requests, ledger.stages row.id = some row.stages

/-- A request that the transaction leaves alone keeps its columns right. -/
theorem staged_row (keyed : Keyed sha256 before) (chains : before.Chains)
    (keyedAfter : Keyed sha256 after) (chainsAfter : after.Chains) (staged : before.Staged)
    (member : row ∈ before.requests) (memberAfter : row ∈ after.requests)
    (untouched : Untouched before after row.id)
    : after.stages row.id = some row.stages := by
  rw [stages_of_untouched keyed chains keyedAfter chainsAfter untouched (.inr ?_)]
  · exact staged row member
  · exact isCancelled_eq keyed keyedAfter member memberAfter rfl rfl

variable {item : WorkItem}

theorem staged_created {request : ScanRequest} (keyed : Keyed sha256 before)
    (chains : before.Chains) (new : NewRequest before request item) (staged : before.Staged)
    : { before with
        requests := before.requests ++ [request]
        items := before.items ++ [item] }.Staged := by
  have keyedAfter := keyed.created new
  have chainsAfter : { before with
      requests := before.requests ++ [request]
      items := before.items ++ [item] }.Chains := chains_of_eq chains rfl rfl
  intro row member
  rcases List.mem_append.mp member with old | added
  · exact staged_row keyed chains keyedAfter chainsAfter staged old member
      (untouched_created new (new.fresh row old))
  · rw [List.mem_singleton.mp added]
    obtain ⟨capture, detection, identity⟩ := new.stages
    rw [ScanRequest.stages, capture, detection, identity]
    apply stages_of_new
    · -- the new work is the first of the request
      have none : before.items.filter (fun row => row.requestId = request.id) = [] := by
        rw [List.filter_eq_nil_iff]
        intro other among own
        obtain ⟨earlier, earlierMember, id, _⟩ := keyed.itemRequest other among
        exact new.fresh earlier earlierMember (id.trans (of_decide_eq_true own))
      simp [Ledger.workIn, Ledger.itemsIn, List.filter_append, none, new.itemRequest, new.itemKind,
        new.new.pending]
    · rw [Bool.eq_false_iff]
      intro superseded
      obtain ⟨run, among, _⟩ := (unsuperseded_iff keyedAfter chainsAfter).mp superseded
      obtain ⟨runMember, own⟩ := mem_runsIn.mp among
      obtain ⟨sealed, sealMember, _, ofRequest, _⟩ := keyed.runSeal run runMember
      obtain ⟨earlier, earlierMember, id, _⟩ := keyed.sealRequest sealed sealMember
      exact new.fresh earlier earlierMember (id.trans (ofRequest.trans own))
    · rw [Bool.eq_false_iff]
      intro sealing
      obtain ⟨sealed, sealMember, own⟩ := List.any_eq_true.mp sealing
      obtain ⟨earlier, earlierMember, id, _⟩ := keyed.sealRequest sealed sealMember
      exact new.fresh earlier earlierMember (id.trans (of_decide_eq_true own))
    · rw [Bool.eq_false_iff]
      intro cancelled
      have member : request ∈ before.requests ++ [request] :=
        List.mem_append_right _ (List.mem_singleton.mpr rfl)
      exact (isCancelled_iff keyedAfter member).mp cancelled new.uncancelled

/-- Renewals change the work only in columns that the stages disregard. -/
theorem staged_touched (keyed : Keyed sha256 before) (chains : before.Chains)
    (keyedAfter : Keyed sha256 after) (chainsAfter : after.Chains) (staged : before.Staged)
    (requests : after.requests = before.requests)
    (work : ∀ request, after.workIn request = before.workIn request)
    (runs : after.runs = before.runs) (seals : after.seals = before.seals)
    : after.Staged := by
  intro row member
  have old : row ∈ before.requests := requests ▸ member
  rw [stages_eq (work row.id) ?_ ?_ (.inr ?_)]
  · exact staged row old
  · exact unsuperseded_eq keyed chains keyedAfter chainsAfter (by rw [Ledger.runsIn, runs]; rfl)
  · exact isSealed_eq (by rw [Ledger.sealsIn, seals]; rfl)
  · exact isCancelled_eq keyed keyedAfter old member rfl rfl

theorem staged_registered {call : Call} {locked : Locked} {attempt : WorkAttempt}
    {capture : SourceCapture} {sealed : ScanSeal} {lease : CaptureLease}
    (keyed : Keyed sha256 before) (chains : before.Chains)
    (held : Held before call .captureDetection locked attempt)
    (new : NewCapture sha256 before locked attempt capture sealed lease)
    (rows : after = { before with
      captures := before.captures ++ [capture]
      seals := before.seals ++ [sealed]
      leases := before.leases ++ [lease] }.captured locked.work.requestId)
    (keyedAfter : Keyed sha256 after) (staged : before.Staged)
    : after.Staged := by
  have chainsAfter : after.Chains := by
    rw [rows]
    exact chains_of_eq chains rfl rfl
  intro row member
  have among := member
  rw [rows] at among
  rcases mem_updateWhere_cases among with ⟨old, spared⟩ | ⟨old, oldMember, met, rfl⟩
  · refine staged_row keyed chains keyedAfter chainsAfter staged old member ?_
    rw [rows]
    exact untouched_registered keyed held new (of_decide_eq_false spared)
  · have own : old.id = locked.work.requestId := of_decide_eq_true met
    -- the column that is written by hand is the one that the seal changes
    have written : after.stages old.id
        = (before.stages old.id).map fun stages => { stages with capture := .completed } := by
      refine stages_of_sealed ?_ ?_ ?_ ?_
      · rw [rows]
        rfl
      · exact unsuperseded_eq keyed chains keyedAfter chainsAfter (by rw [rows]; rfl)
      · rw [isSealed_iff, ← List.length_pos_iff_ne_nil, List.length_pos_iff_exists_mem]
        refine ⟨sealed, mem_sealsIn.mpr ⟨?_, new.sealRequest.trans own.symm⟩⟩
        rw [rows]
        exact mem_append_one _ _
      · exact isCancelled_eq keyed keyedAfter oldMember member rfl rfl
    change after.stages old.id = _
    rw [written, staged old oldMember]
    rfl

variable {subject : Option Uuid}

/-- The columns of the stages matter to no stage. -/
theorem stages_refreshed (keyed : Keyed sha256 ledger) (chains : ledger.Chains)
    (known : ∃ row ∈ ledger.requests, row.id = request)
    : (ledger.refreshed subject).stages request = ledger.stages request := by
  have keyedAfter := keyed.of_fixed (Ledger.fixed_refreshed subject)
  have chainsAfter : (ledger.refreshed subject).Chains :=
    chains_of_eq chains (Ledger.refreshed_runs subject) (Ledger.refreshed_occurrences subject)
  refine stages_of_untouched keyed chains keyedAfter chainsAfter
    (Ledger.untouched_refreshed subject request) (.inr ?_)
  obtain ⟨row, member, rfl⟩ := known
  unfold Ledger.refreshed at keyedAfter ⊢
  split at keyedAfter
  · rename_i touched stages _
    cases met : decide (row.id = touched) with
    | true =>
        exact isCancelled_eq keyed keyedAfter member (mem_updateWhere_of_met member met) rfl rfl
    | false =>
        exact isCancelled_eq keyed keyedAfter member (mem_updateWhere_of_spared member met) rfl rfl
  · rfl

variable {written : Ledger}

/-- The request that is refreshed has the right columns by definition, and the others keep theirs. -/
theorem staged_refreshed {touched : Uuid} (keyed : Keyed sha256 before) (chains : before.Chains)
    (keyedAfter : Keyed sha256 written) (chainsAfter : written.Chains) (staged : before.Staged)
    (others : ∀ row ∈ written.requests, row.id ≠ touched
      → row ∈ before.requests ∧ Untouched before written row.id)
    : (written.refreshed (some touched)).Staged := by
  have spared (row : ScanRequest) (member : row ∈ written.requests) (other : row.id ≠ touched)
      : (written.refreshed (some touched)).stages row.id = some row.stages := by
    rw [stages_refreshed keyedAfter chainsAfter (known_of_mem member)]
    obtain ⟨old, untouched⟩ := others row member other
    exact staged_row keyed chains keyedAfter chainsAfter staged old member untouched
  intro row member
  cases computed : written.stages touched with
  | none =>
      have same : written.refreshed (some touched) = written := by
        simp [Ledger.refreshed, computed]
      rw [same] at member
      refine spared row member fun own => ?_
      -- every request has detection work, so that its stages are computed
      obtain ⟨item, itemMember, ofRequest, kind⟩ := keyedAfter.detection row member
      have absent := Option.map_eq_none_iff.mp computed
      exact List.find?_eq_none.mp absent item itemMember
        (decide_eq_true ⟨ofRequest.trans own, kind⟩)
  | some stages =>
      have same : (written.refreshed (some touched)).requests
          = updateWhere (fun row => row.id = touched) (·.setStages stages) written.requests := by
        simp [Ledger.refreshed, computed]
      rw [same] at member
      rcases mem_updateWhere_cases member with ⟨old, unmet⟩ | ⟨old, among, met, rfl⟩
      · exact spared row old (of_decide_eq_false unmet)
      · have own : old.id = touched := of_decide_eq_true met
        change (written.refreshed (some touched)).stages old.id = some stages
        rw [stages_refreshed keyedAfter chainsAfter (known_of_mem among), own, computed]

variable {during : Instant → Prop}

/-- A transaction with a subject changes no other request. -/
theorem Effect.other_requests {subject : Uuid}
    (effect : Effect sha256 during before (some subject) written) (member : row ∈ written.requests)
    (other : row.id ≠ subject)
    : row ∈ before.requests := by
  cases effect with
  | cancelled =>
      rcases mem_updateWhere_cases member with ⟨old, _⟩ | ⟨old, _, met, rfl⟩
      · exact old
      · exact absurd (of_decide_eq_true met) other
  | claimed | retained | runFailed | ended => exact member

theorem staged_begun (keyed : Keyed sha256 before) (chains : before.Chains)
    (keyedAfter : Keyed sha256 after) (chainsAfter : after.Chains)
    (rows : after = { before with runs := before.runs ++ [run] }) (running : run.state = .running)
    (staged : before.Staged)
    : after.Staged := by
  intro row member
  have runs : after.runs = before.runs ++ [run] := by rw [rows]
  have old : row ∈ before.requests := by
    rw [rows] at member
    exact member
  have unsuperseded : after.unsuperseded row.id = before.unsuperseded row.id :=
    unsuperseded_begun keyed chains keyedAfter chainsAfter runs running
  rw [stages_eq ?_ unsuperseded ?_ (.inr ?_)]
  · exact staged row old
  · rw [rows]
    rfl
  · rw [rows]
    rfl
  · exact isCancelled_eq keyed keyedAfter old member rfl rfl

/-- Every effect leaves the stage columns right. Witness: the operations that change what the stages
depend on refresh them, but for the start of a run, which changes no verdict, and the seal, whose
column is written by hand.
-/
theorem Effect.staged (effect : Effect sha256 during before subject written)
    (sound : Sound sha256 before) (chains : before.Chains) (staged : before.Staged)
    : (written.refreshed subject).Staged := by
  have keyed := sound.keyed
  have keyedAfter := effect.keyed keyed
  have chainsAfter := effect.chains keyed chains
  cases subject with
  | some touched =>
      obtain ⟨only, others, same, _⟩ := effect.frame keyed sound.fenced sound.follow
      have own : touched = only := same touched rfl
      refine staged_refreshed keyed chains keyedAfter chainsAfter staged ?_
      intro row member other
      exact ⟨effect.other_requests member other, others row.id (own ▸ other)⟩
  | none =>
      change written.Staged
      cases effect with
      | unchanged => exact staged
      | cleanupClaimed | captureRetired =>
          exact staged_touched keyed chains keyedAfter chainsAfter staged rfl (fun _ => rfl) rfl rfl
      | created new => exact staged_created keyed chains new staged
      | renewed | leaseRenewed | leaseReleased =>
          exact staged_touched keyed chains keyedAfter chainsAfter staged rfl
            (fun _ => workIn_updated rfl fun _ => ⟨rfl, rfl⟩) rfl rfl
      | registered live new =>
          exact staged_registered keyed chains live.toHeld new rfl keyedAfter staged
      | begun live new =>
          exact staged_begun keyed chains keyedAfter chainsAfter rfl new.running staged

theorem History.staged (history : History sha256) (time : Nat) : (history.ledger time).Staged := by
  refine (history.invariant
    (fun ledger => (Sound sha256 ledger ∧ ledger.Chains) ∧ ledger.Staged) ?_ ?_ time).2
  · intro codebases
    refine ⟨⟨sound_empty codebases, chains_empty codebases⟩, ?_⟩
    intro row member
    cases member
  · intro _ before after step ⟨⟨sound, chains⟩, staged⟩
    refine ⟨⟨step.sound sound, step.chains sound.keyed chains⟩, ?_⟩
    obtain ⟨subject, written, effect, rfl⟩ := step
    exact effect.staged sound chains staged

-- Completed stages

/-- Detection is shown as completed exactly once its work is. Witness: a complete inventory leaves no
failure unsuperseded.
-/
theorem detection_completed_iff (keyed : Keyed sha256 ledger) (chains : ledger.Chains)
    (complete : ledger.Complete) (staged : ledger.Staged) (member : row ∈ ledger.requests)
    (itemMember : item ∈ ledger.items) (own : item.requestId = row.id)
    (kind : item.kind = .captureDetection)
    : row.detectionState = .completed ↔ item.state = .completed := by
  have found : (ledger.items.find? fun other =>
      other.requestId = row.id ∧ other.kind = .captureDetection) = some item := by
    refine find?_eq_some_of_sole itemMember (decide_eq_true ⟨own, kind⟩) ?_
    intro other otherMember selected
    obtain ⟨otherOwn, otherKind⟩ := of_decide_eq_true selected
    exact keyed.itemIds.eq otherMember itemMember
      (keyed.oneDetection other otherMember item itemMember otherKind kind
        (otherOwn.trans own.symm))
  have columns := staged row member
  rw [Ledger.stages, found, Option.map_some, Option.some.injEq] at columns
  have detection := congrArg Stages.detection columns
  change (if ledger.unsuperseded row.id = true then WorkState.failed else item.state)
    = row.detectionState at detection
  rw [← detection]
  constructor
  · intro completed
    split at completed
    · cases completed
    · exact completed
  · intro completed
    have inventory := (own ▸ complete item itemMember kind completed).complete keyed chains
    rw [if_neg ?_, completed]
    intro superseded
    obtain ⟨run, among, failed, _, uncovered⟩ := (unsuperseded_iff keyed chains).mp superseded
    obtain ⟨runMember, ofRequest⟩ := mem_runsIn.mp among
    obtain ⟨last, lastMember, lastOwn, done, key, _⟩ :=
      inventory.superseded run runMember ofRequest failed
    exact uncovered ⟨last, mem_runsIn.mpr ⟨lastMember, lastOwn.trans ofRequest.symm⟩, key, done⟩

/-- A completed identity has no open work. -/
theorem settled_of_identityStage (completed : ledger.identityStage request detection = .completed)
    : ∀ item ∈ ledger.items, item.requestId = request → item.kind = .identity
      → ¬item.state.IsOpen := by
  intro item member own kind unsettled
  have among : item ∈ ledger.items.filter fun item =>
      item.requestId = request ∧ item.kind = .identity :=
    List.mem_filter.mpr ⟨member, decide_eq_true ⟨own, kind⟩⟩
  unfold Ledger.identityStage at completed
  dsimp only at completed
  split at completed
  · cases completed
  split at completed
  · cases completed
  split at completed
  · cases completed
  rename_i idle
  split at completed
  · cases completed
  rename_i started
  rcases unsettled with pending | running
  · exact started (List.any_eq_true.mpr ⟨item, among, decide_eq_true pending⟩)
  · exact idle (List.any_eq_true.mpr ⟨item, among, decide_eq_true running⟩)

/-- A request that is shown as completed is at rest. -/
theorem rest_of_completed (keyed : Keyed sha256 ledger) (chains : ledger.Chains)
    (complete : ledger.Complete) (staged : ledger.Staged) (member : row ∈ ledger.requests)
    (detection : row.detectionState = .completed) (identity : row.identityState = .completed)
    : ¬ledger.Busy row.id := by
  intro ⟨item, itemMember, own, unsettled⟩
  cases kind : item.kind with
  | captureDetection =>
      have completed := (detection_completed_iff keyed chains complete staged member itemMember own
        kind).mp detection
      simp [completed, WorkState.IsOpen] at unsettled
  | identity =>
      have columns := staged row member
      obtain ⟨work, _, same⟩ := Option.map_eq_some_iff.mp columns
      have stage := congrArg Stages.identity same
      exact settled_of_identityStage (stage.trans identity) item itemMember own kind unsettled

/-- A second refresh counts a revision and changes nothing else. -/
theorem refreshStages_of_staged (keyed : Keyed sha256 ledger) (staged : ledger.Staged)
    (member : row ∈ ledger.requests)
    : refreshStages ledger row.id = .ok { ledger with
        requests := updateWhere (fun other => other.id = row.id)
          (fun other => { other with revision := other.revision + 1 }) ledger.requests } := by
  unfold refreshStages
  rw [staged row member]
  dsimp only
  congr 2
  refine List.map_congr_left fun other among => ?_
  split
  · rename_i met
    rw [keyed.requestIds.eq among member (of_decide_eq_true met)]
    rfl
  · rfl

/-- A request that is shown as completed is shown so at every later time. Witness: it is at rest, and
its stages are those of its rows.
-/
theorem History.completed_stays (history : History sha256) {first last : Nat}
    (ordered : first ≤ last) {later : ScanRequest} (member : row ∈ (history.ledger first).requests)
    (detection : row.detectionState = .completed) (identity : row.identityState = .completed)
    (laterMember : later ∈ (history.ledger last).requests) (same : later.id = row.id)
    : later.detectionState = .completed ∧ later.identityState = .completed := by
  have keyed := history.keyed first
  have staged := history.staged first
  have rest := rest_of_completed keyed (history.chains first) (history.complete first) staged
    member detection identity
  have untouched := history.untouched_at_rest ordered (known_of_mem member) rest
  have columns := staged row member
  have kept : (history.ledger last).stages row.id = (history.ledger first).stages row.id := by
    refine stages_of_untouched keyed (history.chains first) (history.keyed last)
      (history.chains last) untouched (.inl ?_)
    intro stages computed
    rw [columns] at computed
    cases computed
    exact detection
  have columnsLater := history.staged last later laterMember
  rw [same, kept, columns, Option.some.injEq] at columnsLater
  exact ⟨(congrArg Stages.detection columnsLater).symm.trans detection,
    (congrArg Stages.identity columnsLater).symm.trans identity⟩

/-- In every history and at every time the stage columns of every request are the values that
`v1_stages` computes, so that another refresh counts a revision only, and detection is shown as
completed exactly once its work is; once detection and identity are both shown as completed, neither
changes. Witness: every effect leaves the columns right, and a request at rest keeps its rows.
-/
theorem history_stages_are_current (history : History sha256)
    : (∀ time, ∀ row ∈ (history.ledger time).requests,
        (history.ledger time).stages row.id
          = some ⟨row.captureState, row.detectionState, row.identityState⟩
        ∧ refreshStages (history.ledger time) row.id = .ok { history.ledger time with
            requests := updateWhere (fun other => other.id = row.id)
              (fun other => { other with revision := other.revision + 1 })
              (history.ledger time).requests }
        ∧ ∃ item ∈ (history.ledger time).items, item.requestId = row.id
          ∧ item.kind = .captureDetection
          ∧ (∀ other ∈ (history.ledger time).items, other.requestId = row.id
            → other.kind = .captureDetection → other = item)
          ∧ (row.detectionState = .completed ↔ item.state = .completed))
      ∧ ∀ first last, first ≤ last → ∀ row ∈ (history.ledger first).requests,
        row.detectionState = .completed → row.identityState = .completed
        → ∀ later ∈ (history.ledger last).requests, later.id = row.id
          → later.detectionState = .completed ∧ later.identityState = .completed := by
  refine ⟨?_, ?_⟩
  · intro time row member
    have keyed := history.keyed time
    have staged := history.staged time
    obtain ⟨item, itemMember, own, kind⟩ := keyed.detection row member
    refine ⟨staged row member, refreshStages_of_staged keyed staged member, item, itemMember, own,
      kind, ?_, ?_⟩
    · intro other otherMember otherOwn otherKind
      exact keyed.itemIds.eq otherMember itemMember
        (keyed.oneDetection other otherMember item itemMember otherKind kind
          (otherOwn.trans own.symm))
    · exact detection_completed_iff keyed (history.chains time) (history.complete time) staged member
        itemMember own kind
  · intro first last ordered row member detection identity later laterMember same
    exact history.completed_stays ordered member detection identity laterMember same

end Scanipy.Db.Execution

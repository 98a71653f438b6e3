import Scanipy.Db.Execution.Perform

/-! The columns of the execution ledger that no transaction changes, as `immutable_history_guard`
lists them, and what follows: the keys and references of the tables hold in every state.
-/

namespace Scanipy.Db.Execution

open Library Python Services.Scan.OccurrenceStore

-- Fixed columns

/-- `old_row-mutable`, with the mutable columns blank. -/
def ScanRequest.fixed (row : ScanRequest) : ScanRequest :=
  { row with
    revision := 0
    captureState := .pending
    detectionState := .pending
    identityState := .pending
    cancellationBytes := none }

def SourceCapture.fixed (row : SourceCapture) : SourceCapture :=
  { row with
    retentionState := .active
    cleanupToken := 0
    cleanupExpiresAt := none
    retirementBytes := none
    retirementDigest := none
    revision := 0 }

def WorkItem.fixed (row : WorkItem) : WorkItem :=
  { row with
    state := .pending
    activeAttemptId := none
    fencingToken := 0
    nextAttemptAt := 0
    revision := 0
    terminalBytes := none
    terminalDigest := none }

def WorkAttempt.fixed (row : WorkAttempt) : WorkAttempt :=
  { row with
    leaseExpiresAt := 0
    state := .running
    terminalAt := none
    resultSchema := none
    resultBytes := none
    resultDigest := none }

def DetectorRun.fixed (row : DetectorRun) : DetectorRun :=
  { row with
    state := .running
    terminalAt := none
    resultSchema := none
    resultBytes := none
    resultDigest := none
    stdout := none
    stderr := none
    failurePrefix := none
    resultCount := 0
    inventoryDigest := none }

def CaptureLease.fixed (row : CaptureLease) : CaptureLease :=
  { row with
    expiresAt := 0
    releasedAt := none
    releaseBytes := none
    releaseDigest := none }

/-- The ledger without its mutable columns. -/
def Ledger.fixed (ledger : Ledger) : Ledger :=
  { ledger with
    requests := ledger.requests.map (·.fixed)
    captures := ledger.captures.map (·.fixed)
    items := ledger.items.map (·.fixed)
    attempts := ledger.attempts.map (·.fixed)
    runs := ledger.runs.map (·.fixed)
    leases := ledger.leases.map (·.fixed) }

variable {sha256 : Bytes → Bytes} {ledger before after : Ledger}

theorem WorkItem.fixed_settle (item : WorkItem) (state : WorkState) (number : Int)
    (moment : Instant) (data digest : Bytes)
    : (item.settle state number moment data digest).fixed = item.fixed := by
  unfold WorkItem.settle
  split <;> rfl

/-- Releases keep the fixed columns, by induction on the leases. -/
theorem map_fixed_of_releases {old new : List CaptureLease}
    (released : List.Forall₂ CaptureLease.Releases old new)
    : new.map (·.fixed) = old.map (·.fixed) := by
  induction released with
  | nil => rfl
  | cons head _ ih =>
      rw [List.map_cons, List.map_cons, ih]
      cases head <;> rfl

theorem Ledger.fixed_refreshed (subject : Option Uuid)
    : (ledger.refreshed subject).fixed = ledger.fixed := by
  unfold Ledger.refreshed
  split
  · simp only [Ledger.fixed]
    congr 1
    exact map_updateWhere fun _ => rfl
  · rfl

theorem Ledger.fixed_cancelRows (request : Uuid) (moment : Instant) (data digest : Bytes)
    : (ledger.cancelRows request moment data digest).fixed = ledger.fixed := by
  simp only [Ledger.cancelRows, Ledger.fixed]
  congr 1 <;> exact map_updateWhere fun _ => rfl

theorem Ledger.fixed_touch (work : Uuid) : (ledger.touch work).fixed = ledger.fixed := by
  simp only [Ledger.touch, Ledger.fixed]
  congr 1
  exact map_updateWhere fun _ => rfl

theorem Ledger.fixed_extend (attempt : Uuid) (expiry : Instant)
    : (ledger.extend attempt expiry).fixed = ledger.fixed := by
  simp only [Ledger.extend, Ledger.fixed]
  congr 1 <;> exact map_updateWhere fun _ => rfl

theorem Ledger.fixed_captured (request : Uuid) : (ledger.captured request).fixed = ledger.fixed := by
  simp only [Ledger.captured, Ledger.fixed]
  congr 1
  exact map_updateWhere fun _ => rfl

theorem Ledger.fixed_leases {leases : List CaptureLease}
    (same : leases.map (·.fixed) = ledger.leases.map (·.fixed))
    : { ledger with leases }.fixed = ledger.fixed := by
  simp only [Ledger.fixed, same]

/-- The end of an attempt keeps the fixed columns. -/
theorem Ended.fixed {locked : Locked} {attempt : WorkAttempt} {runs : List DetectorRun}
    {leases : List CaptureLease} {result : AttemptState} {state : WorkState} {moment : Instant}
    {data digest : Bytes} (ended : Ended before locked attempt runs leases result state)
    : (before.endRows locked.work attempt runs leases result state moment data digest).fixed
      = before.fixed := by
  have sameRuns : runs.map (·.fixed) = before.runs.map (·.fixed) := by
    rcases ended.interrupted with ⟨_, _, _, rfl⟩ | ⟨rfl, _⟩
    · exact map_updateWhere fun _ => rfl
    · rfl
  simp only [Ledger.endRows, Ledger.fixed, sameRuns, map_fixed_of_releases ended.released]
  congr 1
  · exact map_updateWhere fun row => row.fixed_settle _ _ _ _ _
  · exact map_updateWhere fun _ => rfl

-- Keys and references

variable (sha256 ledger) in
/-- The keys and references of the tables. -/
structure Keyed : Prop where
  requestIds : UniqueBy (·.id) ledger.requests
  requestKeys : UniqueBy (fun row => (row.orgId, row.idempotencyKey)) ledger.requests
  itemIds : UniqueBy (·.id) ledger.items
  itemRequest : References
    (fun item request => request.id = item.requestId ∧ request.orgId = item.orgId)
    ledger.items ledger.requests
  detection : References
    (fun request item => item.requestId = request.id ∧ item.kind = .captureDetection)
    ledger.requests ledger.items
  oneDetection : ∀ left ∈ ledger.items, ∀ right ∈ ledger.items, left.kind = .captureDetection
    → right.kind = .captureDetection → left.requestId = right.requestId → left.id = right.id
  oneIdentity : ∀ left ∈ ledger.items, ∀ right ∈ ledger.items, left.occurrenceId ≠ none
    → left.occurrenceId = right.occurrenceId → left.id = right.id
  attemptIds : UniqueBy (·.id) ledger.attempts
  attemptItem : References
    (fun attempt item => item.id = attempt.workItemId ∧ item.requestId = attempt.requestId
      ∧ item.orgId = attempt.orgId ∧ item.kind = attempt.kind)
    ledger.attempts ledger.items
  captureIds : UniqueBy (·.id) ledger.captures
  captureOwners : UniqueBy (·.ownerRequestId) ledger.captures
  captureRequest : References
    (fun capture request => request.id = capture.ownerRequestId ∧ request.orgId = capture.orgId)
    ledger.captures ledger.requests
  sealIds : UniqueBy (·.id) ledger.seals
  sealRequests : UniqueBy (·.requestId) ledger.seals
  sealRequest : References
    (fun sealed request => request.id = sealed.requestId ∧ request.orgId = sealed.orgId)
    ledger.seals ledger.requests
  sealCapture : References
    (fun sealed capture => capture.id = sealed.captureId
      ∧ capture.ownerRequestId = sealed.requestId)
    ledger.seals ledger.captures
  sealContent : ∀ sealed ∈ ledger.seals,
    ∃ value, envelope sha256 .scanSeal sealed.sealBytes sealed.sealDigest = .ok value
  runIds : UniqueBy (·.id) ledger.runs
  runAttempt : References
    (fun run attempt => attempt.id = run.workAttemptId ∧ attempt.workItemId = run.workItemId
      ∧ attempt.requestId = run.requestId ∧ attempt.orgId = run.orgId
      ∧ attempt.kind = .captureDetection)
    ledger.runs ledger.attempts
  runSeal : References
    (fun run sealed => sealed.id = run.sealId ∧ sealed.requestId = run.requestId
      ∧ ∃ content, storedJson sealed.sealBytes = .ok content
        ∧ run.detectorBindingKey ∈ bindingKeys content)
    ledger.runs ledger.seals
  occurrenceIds : UniqueBy (·.id) ledger.occurrences
  ordinals : UniqueBy (fun row => (row.detectorRunId, row.toolOrdinal)) ledger.occurrences
  occurrenceRun : References
    (fun occurrence run => run.id = occurrence.detectorRunId
      ∧ run.requestId = occurrence.requestId)
    ledger.occurrences ledger.runs
  occurrenceWork : References
    (fun occurrence item => item.occurrenceId = some occurrence.id ∧ item.kind = .identity
      ∧ item.requestId = occurrence.requestId)
    ledger.occurrences ledger.items
  leaseIds : UniqueBy (·.id) ledger.leases
  leaseAttempts : UniqueBy (·.workAttemptId) ledger.leases
  leaseAttempt : References
    (fun lease attempt => attempt.id = lease.workAttemptId
      ∧ attempt.requestId = lease.requestId)
    ledger.leases ledger.attempts
  leaseCapture : References
    (fun lease capture => capture.id = lease.captureId
      ∧ capture.ownerRequestId = lease.requestId)
    ledger.leases ledger.captures

theorem keyed_empty (codebases : List (Uuid × Uuid)) : Keyed sha256 (.empty codebases) := by
  constructor <;> simp [Ledger.empty, UniqueBy, References]

/-- A fact about pairs of rows that the fixed columns decide is kept. -/
theorem forall_pairs_transport {ρ : Type} {rule : ρ → ρ → Prop} {kept : ρ → ρ} {rows others : List ρ}
    (holds : ∀ left ∈ rows, ∀ right ∈ rows, rule left right)
    (same : others.map kept = rows.map kept)
    (factors : ∀ left right, rule (kept left) (kept right) ↔ rule left right)
    : ∀ left ∈ others, ∀ right ∈ others, rule left right := by
  intro left leftMember right rightMember
  have among (row : ρ) (member : row ∈ others) : ∃ old ∈ rows, kept old = kept row :=
    List.mem_map.mp (same ▸ List.mem_map_of_mem member)
  obtain ⟨oldLeft, oldLeftMember, sameLeft⟩ := among left leftMember
  obtain ⟨oldRight, oldRightMember, sameRight⟩ := among right rightMember
  rw [← factors, ← sameLeft, ← sameRight, factors]
  exact holds oldLeft oldLeftMember oldRight oldRightMember

/-- The keys and references are a matter of the fixed columns. -/
theorem Keyed.of_fixed (keyed : Keyed sha256 before) (same : after.fixed = before.fixed)
    : Keyed sha256 after := by
  have requests : after.requests.map (·.fixed) = before.requests.map (·.fixed) :=
    congrArg Ledger.requests same
  have captures : after.captures.map (·.fixed) = before.captures.map (·.fixed) :=
    congrArg Ledger.captures same
  have items : after.items.map (·.fixed) = before.items.map (·.fixed) :=
    congrArg Ledger.items same
  have attempts : after.attempts.map (·.fixed) = before.attempts.map (·.fixed) :=
    congrArg Ledger.attempts same
  have runs : after.runs.map (·.fixed) = before.runs.map (·.fixed) :=
    congrArg Ledger.runs same
  have leases : after.leases.map (·.fixed) = before.leases.map (·.fixed) :=
    congrArg Ledger.leases same
  have sameSeals : after.seals = before.seals := (Ledger.mk.inj same).2.2.2.1
  have seals : after.seals.map id = before.seals.map id := by rw [sameSeals]
  have sameOccurrences : after.occurrences = before.occurrences :=
    (Ledger.mk.inj same).2.2.2.2.2.2.2.1
  have occurrences : after.occurrences.map id = before.occurrences.map id := by
    rw [sameOccurrences]
  exact
    { requestIds := keyed.requestIds.transport requests fun _ => rfl
      requestKeys := keyed.requestKeys.transport requests fun _ => rfl
      itemIds := keyed.itemIds.transport items fun _ => rfl
      itemRequest := keyed.itemRequest.transport items requests fun _ _ => Iff.rfl
      detection := keyed.detection.transport requests items fun _ _ => Iff.rfl
      oneDetection := forall_pairs_transport keyed.oneDetection items fun _ _ => Iff.rfl
      oneIdentity := forall_pairs_transport keyed.oneIdentity items fun _ _ => Iff.rfl
      attemptIds := keyed.attemptIds.transport attempts fun _ => rfl
      attemptItem := keyed.attemptItem.transport attempts items fun _ _ => Iff.rfl
      captureIds := keyed.captureIds.transport captures fun _ => rfl
      captureOwners := keyed.captureOwners.transport captures fun _ => rfl
      captureRequest := keyed.captureRequest.transport captures requests fun _ _ => Iff.rfl
      sealIds := keyed.sealIds.transport seals fun _ => rfl
      sealRequests := keyed.sealRequests.transport seals fun _ => rfl
      sealRequest := keyed.sealRequest.transport seals requests fun _ _ => Iff.rfl
      sealCapture := keyed.sealCapture.transport seals captures fun _ _ => Iff.rfl
      sealContent := by
        rw [sameSeals]
        exact keyed.sealContent
      runIds := keyed.runIds.transport runs fun _ => rfl
      runAttempt := keyed.runAttempt.transport runs attempts fun _ _ => Iff.rfl
      runSeal := keyed.runSeal.transport runs seals fun _ _ => Iff.rfl
      occurrenceIds := keyed.occurrenceIds.transport occurrences fun _ => rfl
      ordinals := keyed.ordinals.transport occurrences fun _ => rfl
      occurrenceRun := keyed.occurrenceRun.transport occurrences runs fun _ _ => Iff.rfl
      occurrenceWork := keyed.occurrenceWork.transport occurrences items fun _ _ => Iff.rfl
      leaseIds := keyed.leaseIds.transport leases fun _ => rfl
      leaseAttempts := keyed.leaseAttempts.transport leases fun _ => rfl
      leaseAttempt := keyed.leaseAttempt.transport leases attempts fun _ _ => Iff.rfl
      leaseCapture := keyed.leaseCapture.transport leases captures fun _ _ => Iff.rfl }

-- Insertions

theorem forall_append_one {ρ : Type} {rule : ρ → ρ → Prop} {rows : List ρ} {added : ρ}
    (holds : ∀ left ∈ rows, ∀ right ∈ rows, rule left right) (self : rule added added)
    (across : ∀ row ∈ rows, rule row added ∧ rule added row)
    : ∀ left ∈ rows ++ [added], ∀ right ∈ rows ++ [added], rule left right := by
  intro left leftMember right rightMember
  rcases List.mem_append.mp leftMember with leftMember | leftMember
    <;> rcases List.mem_append.mp rightMember with rightMember | rightMember
  · exact holds left leftMember right rightMember
  · rw [List.mem_singleton.mp rightMember]
    exact (across left leftMember).1
  · rw [List.mem_singleton.mp leftMember]
    exact (across right rightMember).2
  · rw [List.mem_singleton.mp leftMember, List.mem_singleton.mp rightMember]
    exact self

theorem mem_append_one {ρ : Type} (rows : List ρ) (added : ρ) : added ∈ rows ++ [added] :=
  List.mem_append_right _ List.mem_cons_self

theorem Keyed.created {request : ScanRequest} {item : WorkItem} (keyed : Keyed sha256 before)
    (new : NewRequest before request item)
    : Keyed sha256 { before with
        requests := before.requests ++ [request]
        items := before.items ++ [item] } := by
  have otherRequest : ∀ other ∈ before.items, other.requestId ≠ item.requestId := by
    intro other member same
    obtain ⟨row, among, own, _⟩ := keyed.itemRequest other member
    exact new.fresh row among (own.trans (same.trans new.itemRequest))
  refine
    { keyed with
      requestIds := keyed.requestIds.append_one new.fresh
      requestKeys := keyed.requestKeys.append_one ?_
      itemIds := keyed.itemIds.append_one new.freshItem
      itemRequest := (keyed.itemRequest.append_targets _).append_row (mem_append_one _ _)
        ⟨new.itemRequest.symm, new.itemOrg.symm⟩
      detection := (keyed.detection.append_targets _).append_row (mem_append_one _ _)
        ⟨new.itemRequest, new.itemKind⟩
      oneDetection := forall_append_one keyed.oneDetection (fun _ _ _ => rfl) ?_
      oneIdentity := forall_append_one keyed.oneIdentity (fun _ _ => rfl) ?_
      attemptItem := keyed.attemptItem.append_targets _
      captureRequest := keyed.captureRequest.append_targets _
      sealRequest := keyed.sealRequest.append_targets _
      occurrenceWork := keyed.occurrenceWork.append_targets _ }
  · intro other member same
    exact new.freshKey other member (Prod.ext_iff.mp same)
  · intro other member
    exact ⟨fun _ _ same => absurd same (otherRequest other member),
      fun _ _ same => absurd same.symm (otherRequest other member)⟩
  · intro other member
    refine ⟨fun present same => ?_, fun present => absurd new.noOccurrence present⟩
    exact absurd (same.trans new.noOccurrence) present

theorem Keyed.claimed {locked : Locked} {attempt : WorkAttempt} {leases : List CaptureLease}
    (keyed : Keyed sha256 before) (new : NewAttempt before locked attempt leases)
    : Keyed sha256 { before.startAttempt attempt with leases := before.leases ++ leases } := by
  have attempts : Keyed sha256 { before with attempts := before.attempts ++ [attempt] } :=
    { keyed with
      attemptIds := keyed.attemptIds.append_one new.fresh
      attemptItem := keyed.attemptItem.append_row new.work ⟨new.attemptWork.symm,
        new.attemptRequest.symm, new.attemptOrg.symm, new.attemptKind.symm⟩
      runAttempt := keyed.runAttempt.append_targets _
      leaseAttempt := keyed.leaseAttempt.append_targets _ }
  have leased : Keyed sha256 { before with
      attempts := before.attempts ++ [attempt]
      leases := before.leases ++ leases } := by
    rcases new.leased with rfl | ⟨capture, member, lease, rfl, owner, _, ofCapture, ofAttempt,
      ofRequest, _, fresh⟩
    · rw [List.append_nil]
      exact attempts
    · exact
        { attempts with
          leaseIds := keyed.leaseIds.append_one fun other among => (fresh other among).1
          leaseAttempts := keyed.leaseAttempts.append_one fun other among => (fresh other among).2
          leaseAttempt := attempts.leaseAttempt.append_row (mem_append_one _ _)
            ⟨ofAttempt.symm, ofRequest.symm⟩
          leaseCapture := keyed.leaseCapture.append_row member ⟨ofCapture.symm,
            owner.trans (new.requestId.trans (new.attemptRequest.symm.trans ofRequest.symm))⟩ }
  refine leased.of_fixed ?_
  simp only [Ledger.startAttempt, Ledger.fixed]
  congr 1
  exact map_updateWhere fun _ => rfl

/-- The attempt of a lock is one of its work's request. -/
theorem Held.attemptRequest {call : Call} {kind : WorkKind} {locked : Locked}
    {attempt : WorkAttempt} (held : Held before call kind locked attempt)
    (keyed : Keyed sha256 before)
    : attempt.requestId = locked.work.requestId ∧ attempt.orgId = locked.work.orgId := by
  obtain ⟨item, member, id, request, org, _⟩ := keyed.attemptItem attempt held.attemptMember
  have same := keyed.itemIds.eq member held.workMember (id.trans held.attemptWork)
  rw [← request, ← org, same]
  exact ⟨rfl, rfl⟩

theorem Keyed.registered {call : Call} {locked : Locked} {attempt : WorkAttempt}
    {capture : SourceCapture} {sealed : ScanSeal} {lease : CaptureLease} (keyed : Keyed sha256 before)
    (held : Held before call .captureDetection locked attempt)
    (new : NewCapture sha256 before locked attempt capture sealed lease)
    : Keyed sha256 { before with
        captures := before.captures ++ [capture]
        seals := before.seals ++ [sealed]
        leases := before.leases ++ [lease] } := by
  have ofRequest := (held.attemptRequest keyed).1
  have requestOrg := held.requestOrg.trans held.workOrg.symm
  refine
    { keyed with
      captureIds := keyed.captureIds.append_one fun other member => (new.fresh other member).1
      captureOwners := keyed.captureOwners.append_one fun other member => (new.fresh other member).2
      captureRequest := keyed.captureRequest.append_row held.requestMember
        ⟨held.requestId.trans new.owner.symm, requestOrg.trans new.org.symm⟩
      sealIds := keyed.sealIds.append_one fun other member => (new.freshSeal other member).1
      sealRequests := keyed.sealRequests.append_one fun other member => (new.freshSeal other member).2
      sealRequest := keyed.sealRequest.append_row held.requestMember
        ⟨held.requestId.trans new.sealRequest.symm, requestOrg.trans new.sealOrg.symm⟩
      sealCapture := (keyed.sealCapture.append_targets _).append_row (mem_append_one _ _)
        ⟨new.sealCapture.symm, new.owner.trans new.sealRequest.symm⟩
      sealContent := ?_
      runSeal := keyed.runSeal.append_targets _
      leaseIds := keyed.leaseIds.append_one fun other member => (new.freshLease other member).1
      leaseAttempts := keyed.leaseAttempts.append_one fun other member =>
        (new.freshLease other member).2
      leaseAttempt := keyed.leaseAttempt.append_row held.attemptMember
        ⟨new.leaseAttempt.symm, new.leaseRequest.symm⟩
      leaseCapture := (keyed.leaseCapture.append_targets _).append_row (mem_append_one _ _)
        ⟨new.leaseCapture.symm, new.owner.trans (ofRequest.symm.trans new.leaseRequest.symm)⟩ }
  intro row member
  rcases List.mem_append.mp member with earlier | later
  · exact keyed.sealContent row earlier
  · rw [List.mem_singleton.mp later]
    exact new.content

theorem Keyed.begun {call : Call} {locked : Locked} {attempt : WorkAttempt} {run : DetectorRun}
    (keyed : Keyed sha256 before) (held : Held before call .captureDetection locked attempt)
    (new : NewRun before locked attempt run)
    : Keyed sha256 { before with runs := before.runs ++ [run] } := by
  obtain ⟨ofRequest, ofOrg⟩ := held.attemptRequest keyed
  obtain ⟨sealed, member, id, request, _, content⟩ := new.sealed
  exact
    { keyed with
      runIds := keyed.runIds.append_one new.fresh
      runAttempt := keyed.runAttempt.append_row held.attemptMember ⟨new.attempt.symm,
        held.attemptWork.trans new.work.symm, ofRequest.trans new.request.symm,
        ofOrg.trans new.org.symm, held.attemptKind⟩
      runSeal := keyed.runSeal.append_row member ⟨id, request, content⟩
      occurrenceRun := keyed.occurrenceRun.append_targets _ }

theorem Keyed.observed {run : DetectorRun} {added : List (DetectionOccurrence × WorkItem)}
    (keyed : Keyed sha256 before) (member : run ∈ before.runs)
    (new : NewOccurrences before run added)
    : Keyed sha256 { before with
        occurrences := before.occurrences ++ added.map Prod.fst
        items := before.items ++ added.map Prod.snd } := by
  obtain ⟨attempt, attemptMember, _, _, attemptRequest, attemptOrg, _⟩ := keyed.runAttempt run member
  obtain ⟨item, itemMember, _, itemRequest, itemOrg, _⟩ :=
    keyed.attemptItem attempt attemptMember
  obtain ⟨request, requestMember, id, org⟩ := keyed.itemRequest item itemMember
  have identity : ∀ other ∈ added.map Prod.snd, other.kind = .identity := by
    intro other among
    obtain ⟨pair, pairMember, rfl⟩ := List.mem_map.mp among
    exact (new.each pair pairMember).2.2.2.2.1
  refine
    { keyed with
      itemIds := new.uniqueItems keyed.itemIds
      itemRequest := keyed.itemRequest.append_rows ?_
      detection := keyed.detection.append_targets _
      oneDetection := ?_
      oneIdentity := new.uniqueWork keyed.oneIdentity
      attemptItem := keyed.attemptItem.append_targets _
      occurrenceIds := new.unique keyed.occurrenceIds
      ordinals := new.ordinals keyed.ordinals
      occurrenceRun := keyed.occurrenceRun.append_rows ?_
      occurrenceWork := (keyed.occurrenceWork.append_targets _).append_rows ?_ }
  · intro other among
    obtain ⟨pair, pairMember, rfl⟩ := List.mem_map.mp among
    obtain ⟨_, _, _, _, _, _, ofRequest, ofOrg⟩ := new.each pair pairMember
    exact ⟨request, requestMember, by rw [id, itemRequest, attemptRequest, ofRequest],
      by rw [org, itemOrg, attemptOrg, ofOrg]⟩
  · intro left leftMember right rightMember leftKind rightKind same
    have earlier (other : WorkItem) (among : other ∈ before.items ++ added.map Prod.snd)
        (kind : other.kind = .captureDetection) : other ∈ before.items := by
      rcases List.mem_append.mp among with earlier | later
      · exact earlier
      · rw [identity other later] at kind
        cases kind
    exact keyed.oneDetection left (earlier left leftMember leftKind) right
      (earlier right rightMember rightKind) leftKind rightKind same
  · intro occurrence among
    obtain ⟨pair, pairMember, rfl⟩ := List.mem_map.mp among
    obtain ⟨ofRun, ofRequest, _⟩ := new.each pair pairMember
    exact ⟨run, member, ofRun.symm, ofRequest.symm⟩
  · intro occurrence among
    obtain ⟨pair, pairMember, rfl⟩ := List.mem_map.mp among
    obtain ⟨_, ofRequest, _, _, kind, named, workRequest, _⟩ := new.each pair pairMember
    exact ⟨pair.2, List.mem_append_right _ (List.mem_map_of_mem pairMember), named, kind,
      workRequest.trans ofRequest.symm⟩

/-- Every effect keeps the keys and references. Witness: insertions meet them, updates leave the
fixed columns.
-/
theorem Effect.keyed {during : Instant → Prop} {subject : Option Uuid} {written : Ledger}
    (effect : Effect sha256 during before subject written) (keyed : Keyed sha256 before)
    : Keyed sha256 written := by
  cases effect with
  | unchanged => exact keyed
  | created new => exact keyed.created new
  | cancelled _ _ released =>
      exact keyed.of_fixed ((Ledger.fixed_cancelRows _ _ _ _).trans
        (Ledger.fixed_leases (map_fixed_of_releases released)))
  | cleanupClaimed =>
      refine keyed.of_fixed ?_
      simp only [Ledger.fixed]
      congr 1
      exact map_updateWhere fun _ => rfl
  | captureRetired =>
      refine keyed.of_fixed ?_
      simp only [Ledger.fixed]
      congr 1
      exact map_updateWhere fun _ => rfl
  | claimed new => exact keyed.claimed new
  | renewed => exact keyed.of_fixed ((Ledger.fixed_touch _).trans (Ledger.fixed_extend _ _))
  | leaseRenewed =>
      exact keyed.of_fixed ((Ledger.fixed_touch _).trans
        (Ledger.fixed_leases (map_updateWhere fun _ => rfl)))
  | leaseReleased =>
      exact keyed.of_fixed ((Ledger.fixed_touch _).trans
        (Ledger.fixed_leases (map_updateWhere fun _ => rfl)))
  | registered live new =>
      exact (keyed.registered live.toHeld new).of_fixed (Ledger.fixed_captured _)
  | begun live new => exact keyed.begun live.toHeld new
  | retained live member work own unsettled count new =>
      refine (keyed.observed member new).of_fixed ?_
      simp only [Ledger.fixed]
      congr 1
      exact map_updateWhere fun _ => rfl
  | runFailed =>
      refine keyed.of_fixed ?_
      simp only [Ledger.fixed]
      congr 1
      exact map_updateWhere fun _ => rfl
  | ended _ ended => exact keyed.of_fixed ended.fixed

theorem Ledger.Becomes.keyed {during : Instant → Prop} (step : before.Becomes sha256 during after)
    (keyed : Keyed sha256 before)
    : Keyed sha256 after := by
  obtain ⟨subject, written, effect, rfl⟩ := step
  exact (effect.keyed keyed).of_fixed (Ledger.fixed_refreshed subject)

end Scanipy.Db.Execution

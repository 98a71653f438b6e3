import Scanipy.Db.Execution.Inversion

/-! How batches and the ends of attempts succeed in the execution ledger, and with them every
operation: each has one of the effects.
-/

namespace Scanipy.Db.Execution

open Library Python Services.Scan.OccurrenceStore

variable {sha256 : Bytes → Bytes} {env : Environment} {ledger after : Ledger}

-- Batches

/-- The rows of one result of a batch: its ordinal and raw bytes, and its identity work. -/
structure Observed (source : BatchSource) (entry : Json × Nat)
    (pair : DetectionOccurrence × WorkItem) : Prop where
  ordinal : pair.1.toolOrdinal = (entry.1.get "tool_ordinal").integer
  raw : source.call.rawResults[entry.2]? = some pair.1.rawResultBytes
  witness : source.call.witnesses[entry.2]?.join = pair.1.witnessBytes
  run : pair.1.detectorRunId = source.call.run
  request : pair.1.requestId = source.run.requestId
  org : pair.1.orgId = source.run.orgId
  work : pair.2.IsNew
  kind : pair.2.kind = .identity
  occurrence : pair.2.occurrenceId = some pair.1.id
  workRequest : pair.2.requestId = source.run.requestId
  workOrg : pair.2.orgId = source.run.orgId

variable {source : BatchSource} {index : Nat}

theorem insertOccurrence_ok {item : Json} {id work : Uuid}
    (done : insertOccurrence sha256 env source ledger item index = .ok (id, work, after))
    : ∃ occurrence identity, Observed source (item, index) (occurrence, identity)
      ∧ id = occurrence.id ∧ work = identity.id
      ∧ (∀ other ∈ ledger.occurrences, other.id ≠ occurrence.id
        ∧ (other.detectorRunId, other.toolOrdinal)
          ≠ (occurrence.detectorRunId, occurrence.toolOrdinal))
      ∧ (∀ other ∈ ledger.items, other.id ≠ identity.id
        ∧ other.occurrenceId ≠ identity.occurrenceId)
      ∧ after = { ledger with
          occurrences := ledger.occurrences ++ [occurrence]
          items := ledger.items ++ [identity] } := by
  unfold insertOccurrence at done
  obtain ⟨rule, _, done⟩ := bind_ok.mp done
  obtain ⟨raw, foundRaw, done⟩ := bind_ok.mp done
  obtain ⟨metadata, _, done⟩ := bind_ok.mp done
  obtain ⟨fresh, done⟩ := check_ok.mp done
  obtain ⟨middle, inserted, done⟩ := bind_ok.mp done
  cases done
  obtain ⟨identity, row, rfl⟩ := insertWork_ok inserted
  have fresh := checkUnique_ok.mp fresh
  refine ⟨_, identity, ?_, rfl, row.id.symm, ?_, ?_, rfl⟩
  · exact ⟨rfl, strict_ok.mp foundRaw, rfl, rfl, rfl, rfl, row.new, row.kind,
      row.occurrence, row.request, row.org⟩
  · intro other member
    obtain ⟨different, ordinals⟩ := fresh other member
    refine ⟨different, fun same => ?_⟩
    obtain ⟨sameRun, sameOrdinal⟩ := Prod.ext_iff.mp same
    exact (ordinals sameRun).1 sameOrdinal
  · intro other member
    refine ⟨row.fresh other member, ?_⟩
    rcases row.once other member with none | different
    · rw [row.occurrence] at none
      cases none
    · exact different

theorem NewOccurrences.nil (run : DetectorRun) : NewOccurrences ledger run [] where
  unique := by simp
  ordinals := by simp
  uniqueItems := by simp
  uniqueWork := by simp
  each := by simp

/-- A first occurrence and then the others. -/
theorem NewOccurrences.cons {source : BatchSource} {run : DetectorRun} {entry : Json × Nat}
    {occurrence : DetectionOccurrence} {identity : WorkItem}
    {rest : List (DetectionOccurrence × WorkItem)}
    (sameRun : source.run = run) (named : source.call.run = run.id)
    (first : Observed source entry (occurrence, identity))
    (fresh : ∀ other ∈ ledger.occurrences, other.id ≠ occurrence.id
      ∧ (other.detectorRunId, other.toolOrdinal)
        ≠ (occurrence.detectorRunId, occurrence.toolOrdinal))
    (freshWork : ∀ other ∈ ledger.items, other.id ≠ identity.id
      ∧ other.occurrenceId ≠ identity.occurrenceId)
    (others : NewOccurrences
      { ledger with
        occurrences := ledger.occurrences ++ [occurrence]
        items := ledger.items ++ [identity] } run rest)
    : NewOccurrences ledger run ((occurrence, identity) :: rest) := by
  subst sameRun
  have occurrences : ledger.occurrences ++ ((occurrence, identity) :: rest).map Prod.fst
      = ledger.occurrences ++ [occurrence] ++ rest.map Prod.fst := by simp
  have items : ledger.items ++ ((occurrence, identity) :: rest).map Prod.snd
      = ledger.items ++ [identity] ++ rest.map Prod.snd := by simp
  refine ⟨?_, ?_, ?_, ?_, ?_⟩
  · intro unique
    rw [occurrences]
    exact others.unique (unique.append_one fun other member => (fresh other member).1)
  · intro unique
    rw [occurrences]
    exact others.ordinals (unique.append_one fun other member => (fresh other member).2)
  · intro unique
    rw [items]
    exact others.uniqueItems (unique.append_one fun other member => (freshWork other member).1)
  · intro unique
    rw [items]
    apply others.uniqueWork
    intro left leftMember right rightMember present same
    rcases List.mem_append.mp leftMember with leftMember | leftMember
      <;> rcases List.mem_append.mp rightMember with rightMember | rightMember
    · exact unique left leftMember right rightMember present same
    · rw [List.mem_singleton.mp rightMember] at same
      exact absurd same (freshWork left leftMember).2
    · rw [List.mem_singleton.mp leftMember] at same
      exact absurd same.symm (freshWork right rightMember).2
    · rw [List.mem_singleton.mp leftMember, List.mem_singleton.mp rightMember]
  · intro pair member
    rcases List.mem_cons.mp member with rfl | later
    · exact ⟨first.run.trans named, first.request, first.org, first.work, first.kind,
        first.occurrence, first.workRequest, first.workOrg⟩
    · exact others.each pair later

variable {run : DetectorRun}

/-- The loop over the occurrences, by induction on them. -/
theorem insertOccurrences_ok {entries : List Json} {ids works : List Uuid}
    (sameRun : source.run = run) (named : source.call.run = run.id)
    (done : insertOccurrences sha256 env source entries index ledger = .ok (ids, works, after))
    : ∃ added, NewOccurrences ledger run added
      ∧ List.Forall₂ (Observed source) (entries.zipIdx index) added
      ∧ ids = added.map (·.1.id) ∧ works = added.map (·.2.id)
      ∧ after = { ledger with
          occurrences := ledger.occurrences ++ added.map Prod.fst
          items := ledger.items ++ added.map Prod.snd } := by
  induction entries generalizing index ledger ids works with
  | nil =>
      cases done
      exact ⟨[], .nil run, .nil, rfl, rfl, by simp⟩
  | cons entry rest ih =>
      obtain ⟨⟨id, work, middle⟩, first, done⟩ := bind_ok.mp done
      obtain ⟨⟨laterIds, laterWorks, last⟩, later, done⟩ := bind_ok.mp done
      cases done
      obtain ⟨occurrence, identity, observed, rfl, rfl, fresh, freshWork, rfl⟩ :=
        insertOccurrence_ok first
      obtain ⟨added, new, pairs, rfl, rfl, rfl⟩ := ih later
      exact ⟨(occurrence, identity) :: added, .cons sameRun named observed fresh freshWork new,
        .cons observed pairs, rfl, rfl, by simp⟩

variable {value : Json} {batch : Batch}

theorem checkRawBatch_ok (done : checkRawBatch sha256 batch = .ok value)
    : envelope sha256 .detectionBatch batch.data batch.digest = .ok value
      ∧ batch.rawResults.length = (value.get "occurrences").items.length
      ∧ batch.witnesses.length = batch.rawResults.length := by
  unfold checkRawBatch at done
  obtain ⟨read, opened, done⟩ := bind_ok.mp done
  obtain ⟨_, done⟩ := check_ok.mp done
  obtain ⟨counts, done⟩ := check_ok.mp done
  obtain ⟨_, done⟩ := check_ok.mp done
  obtain ⟨_, done⟩ := check_ok.mp done
  obtain ⟨_, done⟩ := check_ok.mp done
  cases done
  exact ⟨opened, require_ok_iff.mp counts⟩

/-- The loop of `v1_semantic` over the occurrences finds their positions. -/
theorem checkOccurrences_ok (done : checkOccurrences value = .ok ())
    : (value.get "occurrences").items.map (fun item => (item.get "tool_ordinal").integer)
      = (List.range (value.get "occurrences").items.length).map Int.ofNat := by
  unfold checkOccurrences at done
  obtain ⟨_, done⟩ := check_ok.mp done
  obtain ⟨_, done⟩ := check_ok.mp done
  have each := visit_ok.mp done
  apply List.ext_getElem (by simp)
  intro index inside _
  rw [List.length_map] at inside
  obtain ⟨ordinal, _⟩ := check_ok.mp
    (each ((value.get "occurrences").items[index], index)
      (List.mem_zipIdx_iff_getElem?.mpr (List.getElem?_eq_getElem inside)))
  rw [List.getElem_map, List.getElem_map, List.getElem_range]
  exact require_ok_iff.mp ordinal

/-- The results of a batch have the ordinals of their positions. -/
theorem observed_ordinals {added : List (DetectionOccurrence × WorkItem)} {data digest : Bytes}
    (read : envelope sha256 .detectionBatch data digest = .ok value)
    (pairs : List.Forall₂ (Observed source) (value.get "occurrences").items.zipIdx added)
    : added.map (·.1.toolOrdinal)
      = (List.range (value.get "occurrences").items.length).map Int.ofNat := by
  obtain ⟨_, _, semantic⟩ := envelope_ok read
  obtain ⟨ordinals, _⟩ := check_ok.mp semantic
  have same : (value.get "occurrences").items.zipIdx.map
      (fun entry => (entry.1.get "tool_ordinal").integer) = added.map (·.1.toolOrdinal) := by
    generalize (value.get "occurrences").items.zipIdx = entries at pairs
    induction pairs with
    | nil => rfl
    | cons observed _ ih => rw [List.map_cons, List.map_cons, ih, observed.ordinal]
  rw [← same, ← checkOccurrences_ok ordinals]
  conv_rhs => rw [← List.zipIdx_map_fst 0 (value.get "occurrences").items, List.map_map]
  rfl

/-- The rows of a batch that its run has kept. -/
structure Kept (ledger : Ledger) (batch : Batch) (run : DetectorRun) (reply : BatchReply) : Prop where
  schema : run.resultSchema = some .detectionBatch
  bytes : run.resultBytes = some batch.data
  digest : run.resultDigest = some batch.digest
  stdout : run.stdout = some batch.stdout
  stderr : run.stderr = some batch.stderr
  ids : reply.occurrenceIds = (ledger.occurrencesOf run.id).map (·.id)
  works : List.Forall₂ (fun (row : DetectionOccurrence) (work : Uuid) =>
      batch.rawResults[row.toolOrdinal.toNat]? = some row.rawResultBytes
      ∧ batch.witnesses[row.toolOrdinal.toNat]?.join = row.witnessBytes
      ∧ ∃ item, ledger.items.find? (fun item => item.occurrenceId = some row.id) = some item
        ∧ item.id = work)
    (ledger.occurrencesOf run.id) reply.identityWorkIds

variable {reply : BatchReply}

theorem replayBatch_ok (done : replayBatch ledger batch run = .ok (reply, after))
    : Kept ledger batch run reply ∧ reply.runId = run.id ∧ reply.replayed = true
      ∧ after = ledger := by
  unfold replayBatch at done
  obtain ⟨same, done⟩ := check_ok.mp done
  obtain ⟨works, collected, done⟩ := bind_ok.mp done
  cases done
  obtain ⟨schema, bytes, digest, stdout, stderr⟩ := require_ok_iff.mp same
  refine ⟨⟨schema, bytes, digest, stdout, stderr, rfl, ?_⟩, rfl, rfl, rfl⟩
  rw [List.forall₂_map_right_iff]
  refine (collect_ok_iff.mp collected).imp ?_
  intro row item found
  obtain ⟨raw, found⟩ := check_ok.mp found
  obtain ⟨raw, witness⟩ := require_ok_iff.mp raw
  exact ⟨raw, witness, item, strict_ok.mp found, rfl⟩

/-- What `retain_detection_batch_v1` writes for an open run. -/
def Ledger.retainRows (ledger : Ledger) (run : DetectorRun)
    (added : List (DetectionOccurrence × WorkItem)) (batch : Batch) (value : Json)
    (moment : Instant) : Ledger :=
  { ledger with
    occurrences := ledger.occurrences ++ added.map Prod.fst
    items := ledger.items ++ added.map Prod.snd
    runs := updateWhere (fun row => row.id = run.id) (·.retain batch value moment) ledger.runs }

variable {call : Call} {moment : Instant}

theorem retainBatch_ok (named : batch.run = run.id)
    (done : retainBatch sha256 env ledger call batch value run moment = .ok (reply, after))
    : ∃ locked attempt, Live ledger call .captureDetection locked attempt moment
      ∧ ∃ added source, NewOccurrences ledger run added ∧ source.call = batch
        ∧ List.Forall₂ (Observed source) (value.get "occurrences").items.zipIdx added
        ∧ reply = ⟨run.id, added.map (·.1.id), added.map (·.2.id), false⟩
        ∧ after = (ledger.retainRows run added batch value moment).refreshed
            (some run.requestId) := by
  unfold retainBatch at done
  obtain ⟨⟨locked, attempt⟩, live, done⟩ := bind_ok.mp done
  obtain ⟨sealed, _, done⟩ := bind_ok.mp done
  obtain ⟨sealedValue, _, done⟩ := bind_ok.mp done
  obtain ⟨found, _, done⟩ := bind_ok.mp done
  obtain ⟨binding, _, done⟩ := bind_ok.mp done
  obtain ⟨_, done⟩ := check_ok.mp done
  obtain ⟨request, _, done⟩ := bind_ok.mp done
  obtain ⟨requested, _, done⟩ := bind_ok.mp done
  obtain ⟨⟨ids, works, inserted⟩, loop, done⟩ := bind_ok.mp done
  obtain ⟨_, done⟩ := check_ok.mp done
  obtain ⟨ended, refresh, done⟩ := bind_ok.mp done
  cases done
  obtain ⟨added, new, pairs, rfl, rfl, rfl⟩ := insertOccurrences_ok rfl named loop
  refine ⟨locked, attempt, lockLive_ok live, added, _, new, rfl, pairs, ?_, ?_⟩
  · rw [named]
  · rw [named] at refresh
    exact refreshStages_ok refresh

/-- `retain_detection_batch_v1` answers the batch of a terminal run, or ends an open run with
its batch.
-/
theorem retainDetectionBatch_ok
    (done : retainDetectionBatch sha256 env ledger call batch = .ok (reply, after))
    : ∃ value, checkRawBatch sha256 batch = .ok value
      ∧ ∃ run ∈ ledger.runs, run.orgId = call.org ∧ run.id = batch.run
        ∧ run.workItemId = call.work ∧ run.workAttemptId = call.attempt
        ∧ ((¬run.state.IsOpen ∧ Kept ledger batch run reply ∧ reply.runId = run.id
            ∧ reply.replayed = true ∧ after = ledger)
          ∨ (run.state.IsOpen
            ∧ ∃ locked attempt, Live ledger call .captureDetection locked attempt (env.clock 1)
              ∧ ∃ added source, NewOccurrences ledger run added ∧ source.call = batch
                ∧ List.Forall₂ (Observed source) (value.get "occurrences").items.zipIdx added
                ∧ reply = ⟨run.id, added.map (·.1.id), added.map (·.2.id), false⟩
                ∧ after = (ledger.retainRows run added batch value (env.clock 1)).refreshed
                    (some run.requestId))) := by
  unfold retainDetectionBatch at done
  obtain ⟨value, checked, done⟩ := bind_ok.mp done
  obtain ⟨_, _, done⟩ := bind_ok.mp done
  obtain ⟨run, found, done⟩ := bind_ok.mp done
  obtain ⟨requested, _, done⟩ := bind_ok.mp done
  obtain ⟨_, done⟩ := check_ok.mp done
  obtain ⟨member, org, id, work, attempt⟩ := row_of_find? (expectRow_ok.mp found)
  refine ⟨value, checked, run, member, org, id, work, attempt, ?_⟩
  split at done
  · rename_i unsettled
    exact .inr ⟨unsettled, retainBatch_ok id.symm done⟩
  · rename_i settled
    exact .inl ⟨settled, replayBatch_ok done⟩

/-- `fail_detector_run_v1` answers the failure of a terminal run, or ends an open run. -/
theorem failDetectorRun_ok {failure : Failure} {reply : FailureReply}
    (done : failDetectorRun sha256 env ledger call failure = .ok (reply, after))
    : checkFailure sha256 failure = .ok ()
      ∧ ∃ run ∈ ledger.runs, run.orgId = call.org ∧ run.id = failure.run
        ∧ run.workItemId = call.work ∧ run.workAttemptId = call.attempt
        ∧ ((¬run.state.IsOpen ∧ run.resultSchema = some .runFailure
            ∧ run.resultBytes = some failure.data ∧ run.resultDigest = some failure.digest
            ∧ run.failurePrefix = some failure.failurePrefix
            ∧ reply = ⟨run.id, true⟩ ∧ after = ledger)
          ∨ (run.state.IsOpen
            ∧ ∃ locked attempt, Live ledger call .captureDetection locked attempt (env.clock 1)
              ∧ reply = ⟨run.id, false⟩
              ∧ after = { ledger with
                  runs := updateWhere (fun row => row.id = run.id)
                    (·.fail failure (env.clock 1)) ledger.runs }.refreshed
                      (some run.requestId))) := by
  unfold failDetectorRun at done
  obtain ⟨checked, done⟩ := check_ok.mp done
  obtain ⟨_, _, done⟩ := bind_ok.mp done
  obtain ⟨run, found, done⟩ := bind_ok.mp done
  obtain ⟨member, org, id, work, attempt⟩ := row_of_find? (expectRow_ok.mp found)
  refine ⟨checked, run, member, org, id, work, attempt, ?_⟩
  split at done
  · rename_i unsettled
    obtain ⟨⟨locked, row⟩, live, done⟩ := bind_ok.mp done
    obtain ⟨ended, refresh, done⟩ := bind_ok.mp done
    cases done
    exact .inr ⟨unsettled, locked, row, lockLive_ok live, rfl, refreshStages_ok refresh⟩
  · rename_i settled
    obtain ⟨same, done⟩ := check_ok.mp done
    cases done
    obtain ⟨schema, bytes, digest, failurePrefix⟩ := require_ok_iff.mp same
    exact .inl ⟨settled, schema, bytes, digest, failurePrefix, rfl, rfl⟩

-- The end of an attempt

theorem checkInventory_ok {request : Uuid} (done : checkInventory ledger value request = .ok ())
    : ledger.Inventoried request := by
  unfold checkInventory at done
  obtain ⟨sealed, found, done⟩ := bind_ok.mp done
  obtain ⟨content, stored, done⟩ := bind_ok.mp done
  obtain ⟨keys, done⟩ := check_ok.mp done
  obtain ⟨_, done⟩ := check_ok.mp done
  obtain ⟨settled, noPartial⟩ := check_ok.mp done
  obtain ⟨member, own⟩ := row_of_find? (expectRow_ok.mp found)
  have settled := require_ok_iff.mp settled
  refine ⟨sealed, member, own, ⟨content, stored, require_ok_iff.mp keys⟩, ?_,
    require_ok_iff.mp noPartial⟩
  intro run among ownRun unsettled
  exact settled ⟨run, among, ownRun, unsettled⟩

variable {locked : Locked}

/-- A detection that reports completion has its inventory. -/
theorem checkStatus_inventoried (done : checkStatus ledger value .captureDetection locked = .ok ())
    (completed : isCompleted value)
    : ledger.Inventoried locked.work.requestId := by
  unfold checkStatus at done
  rw [if_pos completed] at done
  unfold checkCompletion at done
  obtain ⟨_, done⟩ := check_ok.mp done
  obtain ⟨policy, _, done⟩ := bind_ok.mp done
  obtain ⟨_, done⟩ := check_ok.mp done
  exact checkInventory_ok done

theorem endState_ne_running (value : Json) (expire : Bool) : endState value expire ≠ .running := by
  unfold endState
  split
  · simp
  · split <;> simp

variable {kind : WorkKind} {attempt : WorkAttempt} {work : WorkItem}

theorem settledState_ne_running
    : settledState ledger value kind work attempt ≠ .running := by
  unfold settledState
  split
  · simp
  · split <;> simp

theorem settledState_eq_completed
    (completed : settledState ledger value kind work attempt = .completed)
    : isCompleted value := by
  unfold settledState at completed
  split at completed
  · cases completed
  · split at completed
    · assumption
    · cases completed

theorem settledState_of_completed (completed : isCompleted value)
    : settledState ledger value kind work attempt = .completed := by
  unfold settledState
  rw [if_neg fun retry => retry.1 completed, if_pos completed]

/-- What `v1_finish` writes for a running attempt. -/
def Ledger.endRows (ledger : Ledger) (work : WorkItem) (attempt : WorkAttempt)
    (runs : List DetectorRun) (leases : List CaptureLease) (result : AttemptState)
    (state : WorkState) (moment : Instant) (data digest : Bytes) : Ledger :=
  { ledger with
    runs
    attempts := updateWhere (fun row => row.id = attempt.id)
      (·.finish result moment .attemptResult data digest) ledger.attempts
    leases
    items := updateWhere (fun item => item.id = work.id)
      (·.settle state attempt.attemptNumber moment data digest) ledger.items }

variable {ending : Ending} {reply : FinishReply}

theorem endRunning_ok (ofKind : locked.work.kind = kind)
    (done : endRunning sha256 ledger ending value kind locked attempt moment = .ok (reply, after))
    : ∃ runs leases state,
      Ended ledger locked attempt runs leases (endState value ending.expire) state
      ∧ reply.attemptId = attempt.id ∧ reply.replayed = false
      ∧ after = (ledger.endRows locked.work attempt runs leases (endState value ending.expire)
          state moment ending.data ending.digest).refreshed (some locked.work.requestId) := by
  unfold endRunning at done
  obtain ⟨_, done⟩ := check_ok.mp done
  obtain ⟨status, done⟩ := check_ok.mp done
  unfold endAttempt at done
  obtain ⟨released, release, done⟩ := bind_ok.mp done
  obtain ⟨ended, refresh, done⟩ := bind_ok.mp done
  obtain ⟨_, done⟩ := check_ok.mp done
  cases done
  obtain ⟨leases, releases, rfl⟩ := releaseAll_ok release
  by_cases interrupts : kind = .captureDetection ∧ ¬isCompleted value
  · simp only [if_pos interrupts] at releases refresh
    refine ⟨_, leases, _, ?_, rfl, rfl, refreshStages_ok refresh⟩
    exact ⟨endState_ne_running _ _, settledState_ne_running, releases, .inl ⟨moment, _, _, rfl⟩,
      fun _ completed => absurd (settledState_eq_completed completed) interrupts.2⟩
  · simp only [if_neg interrupts] at releases refresh
    refine ⟨_, leases, _, ?_, rfl, rfl, refreshStages_ok refresh⟩
    refine ⟨endState_ne_running _ _, settledState_ne_running, releases, .inr ⟨rfl, ?_⟩, ?_⟩
    · intro detection
      apply settledState_of_completed
      exact Classical.not_not.mp fun failed => interrupts ⟨ofKind.symm.trans detection, failed⟩
    · intro detection completed
      rw [ofKind] at detection
      subst detection
      exact ⟨rfl, checkStatus_inventoried status (settledState_eq_completed completed)⟩

/-- `v1_finish` answers the result of a terminal attempt, or ends the running one: a live one, or
one whose lease has run out.
-/
theorem finish_ok (done : finish sha256 env ledger call kind ending = .ok (reply, after))
    : ∃ value, envelope sha256 .attemptResult ending.data ending.digest = .ok value
      ∧ ∃ locked attempt, Held ledger call kind locked attempt
        ∧ ((attempt.state ≠ .running ∧ attempt.resultBytes = some ending.data
            ∧ attempt.resultDigest = some ending.digest
            ∧ attempt.state = endState value ending.expire
            ∧ reply = ⟨attempt.id, attempt.state, locked.work.state, locked.work.revision, true⟩
            ∧ after = ledger)
          ∨ (Current ledger call kind locked attempt
            ∧ (ending.expire = false → Live ledger call kind locked attempt (env.clock 1))
            ∧ ∃ runs leases state moment,
              Ended ledger locked attempt runs leases (endState value ending.expire) state
              ∧ reply.attemptId = attempt.id ∧ reply.replayed = false
              ∧ after = (ledger.endRows locked.work attempt runs leases
                  (endState value ending.expire) state moment ending.data
                  ending.digest).refreshed (some locked.work.requestId))) := by
  unfold finish at done
  obtain ⟨value, read, done⟩ := bind_ok.mp done
  obtain ⟨⟨locked, attempt⟩, lock, done⟩ := bind_ok.mp done
  have held := lockAttempt_ok lock
  refine ⟨value, read, ?_⟩
  dsimp only at done
  split at done
  · rename_i terminal
    unfold replayEnding at done
    obtain ⟨same, done⟩ := check_ok.mp done
    cases done
    obtain ⟨bytes, digest, state⟩ := require_ok_iff.mp same
    exact ⟨locked, attempt, held, .inl ⟨terminal, bytes, digest, state, rfl, rfl⟩⟩
  · rename_i running
    split at done
    · rename_i expires
      obtain ⟨expired, done⟩ := check_ok.mp done
      unfold checkExpired at expired
      obtain ⟨workRunning, active, token, revision, _, _⟩ := require_ok_iff.mp expired
      obtain ⟨runs, leases, state, ended, facts⟩ := endRunning_ok held.workKind done
      refine ⟨locked, attempt, held, .inr ⟨?_, ?_, runs, leases, state, _, ended, facts⟩⟩
      · exact { held with
          running := workRunning, active, revision
          fencing := token.trans held.token.symm, attemptRunning := not_ne_iff.mp running }
      · intro kept
        rw [kept] at expires
        cases expires
    · obtain ⟨⟨lockedAgain, attemptAgain⟩, live, done⟩ := bind_ok.mp done
      have live := lockLive_ok live
      obtain ⟨runs, leases, state, ended, facts⟩ := endRunning_ok live.workKind done
      exact ⟨lockedAgain, attemptAgain, live.toHeld,
        .inr ⟨live.toCurrent, fun _ => live, runs, leases, state, _, ended, facts⟩⟩

theorem map_ok {α β : Type} {outcome : Except SqlError (α × Ledger)} {wrap : α → β} {reply : β}
    (done : outcome.map (.map wrap id) = .ok (reply, after))
    : ∃ answer, outcome = .ok (answer, after) ∧ reply = wrap answer := by
  cases outcome with
  | error _ => cases done
  | ok pair =>
      cases done
      exact ⟨pair.1, rfl, rfl⟩

variable {during : Instant → Prop}

theorem Ledger.Becomes.refl : ledger.Becomes sha256 during ledger :=
  ⟨none, ledger, .unchanged, rfl⟩

/-- What a lease action of a live attempt does. -/
theorem LeaseAction.becomes {action : LeaseAction} {consumer : CaptureLease} {now : Instant}
    (live : Live ledger call kind locked attempt now) (member : consumer ∈ ledger.leases)
    (own : consumer.workAttemptId = attempt.id)
    : ledger.Becomes sha256 during (action.result ledger locked.work attempt consumer now) := by
  cases action with
  | acquire => exact .refl
  | renew => exact ⟨none, _, .leaseRenewed live member own, rfl⟩
  | release data digest => exact ⟨none, _, .leaseReleased live member own, rfl⟩

/-- Every operation that succeeds has one of the effects. Witness: the inversion of each. -/
theorem perform_becomes {operation : Operation} {reply : Reply}
    (timely : ∀ reading, during (env.clock reading))
    (done : perform sha256 env ledger operation = .ok (reply, after))
    : ledger.Becomes sha256 during after := by
  cases operation with
  | createRequest call =>
      obtain ⟨answer, done, _⟩ := map_ok done
      obtain ⟨_, _, ⟨_, _, _, _, rfl⟩ | ⟨request, item, new, _, _, rfl⟩⟩ := createRequest_ok done
      · exact .refl
      · exact ⟨none, _, .created new, rfl⟩
  | cancelRequest call =>
      obtain ⟨answer, done, _⟩ := map_ok done
      obtain ⟨_, _, _, _, _, _, rfl⟩ | ⟨row, member, _, _, uncancelled, _, _, leases, released, rfl⟩ :=
        cancelRequest_ok done
      · exact .refl
      · exact ⟨some row.id, _, .cancelled member uncancelled released, rfl⟩
  | claimRetirement call =>
      obtain ⟨answer, done, _⟩ := map_ok done
      obtain ⟨capture, member, _, _, _, unretired, retirable, _, rfl⟩ := claimRetirement_ok done
      exact ⟨none, _, .cleanupClaimed member (timely 0) unretired retirable, rfl⟩
  | finishRetirement call =>
      obtain ⟨answer, done, _⟩ := map_ok done
      obtain ⟨_, _, capture, member, _, _, ⟨_, _, _, _, rfl⟩ | ⟨retiring, _, _, claimed, _, rfl⟩⟩ :=
        finishRetirement_ok done
      · exact .refl
      · exact ⟨none, _, .captureRetired member (timely 0) retiring claimed, rfl⟩
  | claim call =>
      obtain ⟨answer, done, _⟩ := map_ok done
      obtain ⟨_, rfl⟩ | ⟨locked, attempt, leases, new, rfl⟩ := claim_ok done
      · exact .refl
      · exact ⟨_, _, .claimed new, rfl⟩
  | renew call kind =>
      obtain ⟨answer, done, _⟩ := map_ok done
      obtain ⟨locked, attempt, live, rfl⟩ := renew_ok done
      exact ⟨none, _, .renewed live, rfl⟩
  | captureLease call kind action =>
      obtain ⟨answer, done, _⟩ := map_ok done
      obtain ⟨_, _, _, _, _, _, _, rfl⟩ | ⟨locked, attempt, consumer, live, member, own, _, rfl⟩ :=
        captureLease_ok done
      · exact .refl
      · exact LeaseAction.becomes live member own
  | registerCaptureAndSeal call registration =>
      obtain ⟨answer, done, _⟩ := map_ok done
      obtain ⟨_, _, _, locked, attempt, live, _, ⟨_, _, _, _, _, _, rfl⟩
        | ⟨capture, sealed, lease, new, _, _, rfl⟩⟩ := registerCaptureAndSeal_ok done
      · exact .refl
      · exact ⟨none, _, .registered live new, rfl⟩
  | beginDetectorRun call data digest =>
      obtain ⟨answer, done, _⟩ := map_ok done
      obtain ⟨locked, attempt, live, ⟨rfl, _⟩ | ⟨run, new, rfl⟩⟩ := beginDetectorRun_ok done
      · exact .refl
      · exact ⟨none, _, .begun live new, rfl⟩
  | retainDetectionBatch call batch =>
      obtain ⟨answer, done, _⟩ := map_ok done
      obtain ⟨value, checked, run, member, _, _, work, own, ⟨_, _, _, _, rfl⟩
        | ⟨unsettled, locked, attempt, live, added, source, new, _, pairs, _, rfl⟩⟩ :=
        retainDetectionBatch_ok done
      · exact .refl
      · have count : batch.rawResults.length = added.length := by
          rw [(checkRawBatch_ok checked).2.1, ← pairs.length_eq, List.length_zipIdx]
        have read := (checkRawBatch_ok checked).1
        exact ⟨_, _, .retained live member work own unsettled count new read
          (observed_ordinals read pairs), rfl⟩
  | failDetectorRun call failure =>
      obtain ⟨answer, done, _⟩ := map_ok done
      obtain ⟨_, run, member, _, _, work, own, ⟨_, _, _, _, _, _, rfl⟩
        | ⟨unsettled, locked, attempt, live, _, rfl⟩⟩ := failDetectorRun_ok done
      · exact .refl
      · exact ⟨_, _, .runFailed live member work own unsettled, rfl⟩
  | finish call kind ending =>
      obtain ⟨answer, done, _⟩ := map_ok done
      obtain ⟨_, _, locked, attempt, _, ⟨_, _, _, _, _, rfl⟩
        | ⟨current, _, runs, leases, state, moment, ended, _, _, rfl⟩⟩ := finish_ok done
      · exact .refl
      · exact ⟨_, _, .ended current ended, rfl⟩

end Scanipy.Db.Execution

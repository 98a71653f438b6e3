import Scanipy.Db.Execution.Batches

/-! Replays in the execution ledger: every operation leaves a record of the evidence that it was
given, which persists, and a later call about the same thing either brings that evidence again and
is answered from the record, or fails.
-/

namespace Scanipy.Db.Execution

open Library Python Services.Scan.OccurrenceStore

variable {sha256 : Bytes → Bytes} {env : Environment} {ledger before after : Ledger}

-- Records

/-- What a call submits evidence about. -/
inductive Target where
  | key (org : Uuid) (key : Text)
  | cancellation (request : Uuid)
  | sealing (request : Uuid)
  | run (id : Uuid)
  | attempt (id : Uuid)
  | lease (attempt : Uuid)
  | capture (id : Uuid)
  deriving DecidableEq

/-- The bytes of a call, by argument; an absent witness has none. -/
abbrev Evidence := List (List (Option Bytes))

/-- The target of a call, for the operations that are replayed. -/
def Ledger.target (ledger : Ledger) : Operation → Option Target
  | .createRequest call =>
      match storedJson call.data with
      | .ok value => some (.key call.org (value.get "idempotency_key").chars)
      | .error _ => none
  | .cancelRequest call => some (.cancellation call.request)
  | .registerCaptureAndSeal call _ =>
      (ledger.items.find? fun item => item.id = call.work).map fun item => .sealing item.requestId
  | .retainDetectionBatch _ batch => some (.run batch.run)
  | .failDetectorRun _ failure => some (.run failure.run)
  | .finish call _ _ => some (.attempt call.attempt)
  | .captureLease call _ (.release _ _) => some (.lease call.attempt)
  | .finishRetirement call => some (.capture call.capture)
  | .claimRetirement _ | .claim _ | .renew _ _ | .captureLease _ _ .acquire
  | .captureLease _ _ .renew | .beginDetectorRun _ _ _ => none

/-- The evidence of a call that the ledger compares with its rows. -/
def Operation.compared : Operation → Evidence
  | .createRequest call =>
      [[some call.data, some call.digest, some call.policyBytes, some call.policyDigest]]
  | .cancelRequest call => [[some call.data, some call.digest]]
  | .registerCaptureAndSeal _ registration =>
      [[some registration.data, some registration.digest, some registration.content,
          some registration.contentDigest, some registration.spec,
          some registration.authorityEvidence],
        registration.detectors.map some, registration.rules.map some]
  | .retainDetectionBatch _ batch =>
      [[some batch.data, some batch.digest, some batch.stdout, some batch.stderr],
        batch.rawResults.map some, batch.witnesses]
  | .failDetectorRun _ failure =>
      [[some failure.data, some failure.digest, some failure.failurePrefix]]
  | .finish _ _ ending => [[some ending.data, some ending.digest]]
  | .captureLease _ _ (.release data digest) => [[some data, some digest]]
  | .finishRetirement call => [[some call.data, some call.digest]]
  | .claimRetirement _ | .claim _ | .renew _ _ | .captureLease _ _ .acquire
  | .captureLease _ _ .renew | .beginDetectorRun _ _ _ => []

/-- The inventory of a registration, which only the digest in its seal binds. -/
def Operation.inventory : Operation → Evidence
  | .registerCaptureAndSeal _ registration =>
      [[some registration.inventory, some registration.inventoryDigest]]
  | _ => []

/-- All evidence of a call. -/
def Operation.evidence (operation : Operation) : Evidence :=
  operation.compared ++ operation.inventory

/-- The identifiers of an answer. -/
def Reply.identifiers : Reply → List (List Uuid)
  | .request reply => [[reply.requestId], reply.workItemId.toList]
  | .cancelled reply => [[reply.requestId]]
  | .retired reply => [[reply.captureId]]
  | .lease reply => [[reply.leaseId]]
  | .sealed reply => [[reply.captureId, reply.sealId]]
  | .run reply => [[reply.runId], reply.occurrenceIds]
  | .batch reply => [[reply.runId], reply.occurrenceIds, reply.identityWorkIds]
  | .failure reply => [[reply.runId]]
  | .finished reply => [[reply.attemptId]]
  | .retirement reply => [[reply.captureId]]
  | .claimed reply => [reply.toList.map (·.attemptId)]
  | .renewed reply => [[reply.attemptId]]

/-- The answer says that it repeats an earlier one. -/
def Reply.replayed : Reply → Bool
  | .request reply => reply.replayed
  | .cancelled reply => reply.replayed
  | .retired reply => reply.replayed
  | .lease reply => reply.replayed
  | .sealed reply => reply.replayed
  | .run reply => reply.replayed
  | .batch reply => reply.replayed
  | .failure reply => reply.replayed
  | .finished reply => reply.replayed
  | .retirement _ | .claimed _ | .renewed _ => false

/-- The batch of a run, with its occurrences and their identity work. -/
structure Ledger.RecordsBatch (ledger : Ledger) (run : DetectorRun) (evidence : Evidence)
    (identifiers : List (List Uuid)) : Prop where
  schema : run.resultSchema = some .detectionBatch
  evidence : evidence = [[run.resultBytes, run.resultDigest, run.stdout, run.stderr],
    (ledger.kept run.id).map fun row => some row.rawResultBytes,
    (ledger.kept run.id).map (·.witnessBytes)]
  identifiers : ∃ works, identifiers = [[run.id], (ledger.kept run.id).map (·.id), works]
    ∧ List.Forall₂ (fun (row : DetectionOccurrence) (work : Uuid) =>
        ∃ item ∈ ledger.items, item.id = work ∧ item.occurrenceId = some row.id)
      (ledger.kept run.id) works

/-- The failure of a run. -/
structure DetectorRun.RecordsFailure (run : DetectorRun) (evidence : Evidence)
    (identifiers : List (List Uuid)) : Prop where
  schema : run.resultSchema = some .runFailure
  evidence : evidence = [[run.resultBytes, run.resultDigest, run.failurePrefix]]
  identifiers : identifiers = [[run.id]]

variable (sha256) in
/-- The record of the evidence about a target, and of the answer to it. -/
def Ledger.Records (ledger : Ledger) (target : Target) (evidence : Evidence)
    (identifiers : List (List Uuid)) : Prop :=
  match target with
  | .key org key => ∃ row ∈ ledger.requests, row.orgId = org ∧ row.idempotencyKey = key
      ∧ evidence = [[some row.requestBytes, some row.requestDigest, some row.plannedPolicyBytes,
          some row.plannedPolicyDigest]]
      ∧ identifiers = [[row.id], row.activeDetectionWorkId.toList]
  | .cancellation request => ∃ row ∈ ledger.requests, row.id = request
      ∧ (∃ data, row.cancellationBytes = some data
        ∧ evidence = [[some data, some (digestOf sha256 .cancellation data)]])
      ∧ identifiers = [[row.id]]
  | .sealing request => ∃ row ∈ ledger.seals, row.requestId = request
      ∧ evidence = [[some row.sealBytes, some row.sealDigest, some row.acceptedContentBytes,
            some (digestOf sha256 .acceptedContent row.acceptedContentBytes),
            some row.acceptedSpecBytes, some row.acceptanceEvidenceBytes],
          row.acceptedDetectorBytes.map some, row.acceptedRuleBytes.map some]
      ∧ identifiers = [[row.captureId, row.id]]
  | .run id => ∃ row ∈ ledger.runs, row.id = id ∧ ¬row.state.IsOpen
      ∧ (ledger.RecordsBatch row evidence identifiers
        ∨ row.RecordsFailure evidence identifiers)
  | .attempt id => ∃ row ∈ ledger.attempts, row.id = id ∧ row.state ≠ .running
      ∧ evidence = [[row.resultBytes, row.resultDigest]] ∧ identifiers = [[row.id]]
  | .lease attempt => ∃ row ∈ ledger.leases, row.workAttemptId = attempt ∧ row.releasedAt ≠ none
      ∧ evidence = [[row.releaseBytes, row.releaseDigest]] ∧ identifiers = [[row.id]]
  | .capture id => ∃ row ∈ ledger.captures, row.id = id ∧ row.retentionState = .retired
      ∧ evidence = [[row.retirementBytes, row.retirementDigest]] ∧ identifiers = [[row.id]]

/-- The identity work of the same occurrences is the same, by induction on them. -/
theorem identityWork_unique {rows : List DetectionOccurrence} {left right : List Uuid}
    (keyed : Keyed sha256 ledger)
    (leftWork : List.Forall₂ (fun (row : DetectionOccurrence) (work : Uuid) =>
      ∃ item ∈ ledger.items, item.id = work ∧ item.occurrenceId = some row.id) rows left)
    (rightWork : List.Forall₂ (fun (row : DetectionOccurrence) (work : Uuid) =>
      ∃ item ∈ ledger.items, item.id = work ∧ item.occurrenceId = some row.id) rows right)
    : left = right := by
  induction leftWork generalizing right with
  | nil =>
      cases rightWork
      rfl
  | cons first _ ih =>
      cases rightWork with
      | cons second others =>
          obtain ⟨item, member, rfl, ofRow⟩ := first
          obtain ⟨other, otherMember, rfl, otherRow⟩ := second
          rw [ih others, keyed.oneIdentity item member other otherMember (by simp [ofRow])
            (ofRow.trans otherRow.symm)]

variable {target : Target}

/-- There is one record of a target at most. Witness: the keys of the tables. -/
theorem Ledger.Records.unique {left right : Evidence} {leftIds rightIds : List (List Uuid)}
    (keyed : Keyed sha256 ledger) (leftRecord : ledger.Records sha256 target left leftIds)
    (rightRecord : ledger.Records sha256 target right rightIds)
    : left = right ∧ leftIds = rightIds := by
  cases target with
  | key org key =>
      obtain ⟨row, member, ofOrg, ofKey, rfl, rfl⟩ := leftRecord
      obtain ⟨other, otherMember, otherOrg, otherKey, rfl, rfl⟩ := rightRecord
      have same := keyed.requestKeys.eq member otherMember
        (Prod.ext (ofOrg.trans otherOrg.symm) (ofKey.trans otherKey.symm))
      rw [same]
      exact ⟨rfl, rfl⟩
  | cancellation request =>
      obtain ⟨row, member, ofRequest, ⟨data, stored, rfl⟩, rfl⟩ := leftRecord
      obtain ⟨other, otherMember, otherRequest, ⟨otherData, otherStored, rfl⟩, rfl⟩ := rightRecord
      have same := keyed.requestIds.eq member otherMember (ofRequest.trans otherRequest.symm)
      subst same
      rw [stored] at otherStored
      cases otherStored
      exact ⟨rfl, rfl⟩
  | sealing request =>
      obtain ⟨row, member, ofRequest, rfl, rfl⟩ := leftRecord
      obtain ⟨other, otherMember, otherRequest, rfl, rfl⟩ := rightRecord
      rw [keyed.sealRequests.eq member otherMember (ofRequest.trans otherRequest.symm)]
      exact ⟨rfl, rfl⟩
  | run id =>
      obtain ⟨row, member, ofId, _, leftKind⟩ := leftRecord
      obtain ⟨other, otherMember, otherId, _, rightKind⟩ := rightRecord
      have same := keyed.runIds.eq member otherMember (ofId.trans otherId.symm)
      subst same
      rcases leftKind with leftBatch | leftFailure <;> rcases rightKind with rightBatch | rightFailure
      · obtain ⟨works, leftNames, leftWork⟩ := leftBatch.identifiers
        obtain ⟨otherWorks, rightNames, rightWork⟩ := rightBatch.identifiers
        refine ⟨leftBatch.evidence.trans rightBatch.evidence.symm, ?_⟩
        rw [leftNames, rightNames, identityWork_unique keyed leftWork rightWork]
      · have schema := leftBatch.schema.symm.trans rightFailure.schema
        cases schema
      · have schema := leftFailure.schema.symm.trans rightBatch.schema
        cases schema
      · exact ⟨leftFailure.evidence.trans rightFailure.evidence.symm,
          leftFailure.identifiers.trans rightFailure.identifiers.symm⟩
  | attempt id =>
      obtain ⟨row, member, ofId, _, rfl, rfl⟩ := leftRecord
      obtain ⟨other, otherMember, otherId, _, rfl, rfl⟩ := rightRecord
      rw [keyed.attemptIds.eq member otherMember (ofId.trans otherId.symm)]
      exact ⟨rfl, rfl⟩
  | lease attempt =>
      obtain ⟨row, member, own, _, rfl, rfl⟩ := leftRecord
      obtain ⟨other, otherMember, otherOwn, _, rfl, rfl⟩ := rightRecord
      rw [keyed.leaseAttempts.eq member otherMember (own.trans otherOwn.symm)]
      exact ⟨rfl, rfl⟩
  | capture id =>
      obtain ⟨row, member, ofId, _, rfl, rfl⟩ := leftRecord
      obtain ⟨other, otherMember, otherId, _, rfl, rfl⟩ := rightRecord
      rw [keyed.captureIds.eq member otherMember (ofId.trans otherId.symm)]
      exact ⟨rfl, rfl⟩

/-- Records persist. Witness: they are kept in fixed columns and in rows that are settled. -/
theorem Ledger.Records.persist {evidence : Evidence} {identifiers : List (List Uuid)}
    (record : before.Records sha256 target evidence identifiers) (persists : Persists before after)
    (chains : before.Chains) (chainsAfter : after.Chains)
    : after.Records sha256 target evidence identifiers := by
  cases target with
  | key org key =>
      obtain ⟨row, member, rfl, rfl, rfl, rfl⟩ := record
      obtain ⟨later, laterMember, fixed, _⟩ := persists.requests row member
      have columns := ScanRequest.mk.inj fixed
      exact ⟨later, laterMember, by simp [columns], by simp [columns], by simp [columns],
        by simp [columns]⟩
  | cancellation request =>
      obtain ⟨row, member, rfl, ⟨data, stored, rfl⟩, rfl⟩ := record
      obtain ⟨later, laterMember, fixed, kept⟩ := persists.requests row member
      have columns := ScanRequest.mk.inj fixed
      refine ⟨later, laterMember, columns.1, ⟨data, ?_, rfl⟩, by simp [columns]⟩
      rw [kept (by simp [stored]), stored]
  | sealing request =>
      obtain ⟨row, member, facts⟩ := record
      exact ⟨row, persists.seals member, facts⟩
  | run id =>
      obtain ⟨row, member, rfl, concluded, kind⟩ := record
      obtain ⟨later, laterMember, _, settled⟩ := persists.runs row member
      have same := settled concluded
      subst same
      have kept := persists.kept chains chainsAfter member concluded
      refine ⟨later, laterMember, rfl, concluded, kind.imp ?_ id⟩
      intro batch
      obtain ⟨works, names, work⟩ := batch.identifiers
      refine ⟨batch.schema, by rw [kept]; exact batch.evidence, works, by rw [kept]; exact names, ?_⟩
      rw [kept]
      refine work.imp ?_
      intro occurrence identity ⟨item, among, id, ofOccurrence⟩
      obtain ⟨next, nextMember, fixed, _⟩ := persists.items item among
      have columns := WorkItem.mk.inj fixed
      exact ⟨next, nextMember, columns.1.trans id, columns.2.2.2.2.2.1.trans ofOccurrence⟩
  | attempt id =>
      obtain ⟨row, member, ofId, concluded, facts⟩ := record
      obtain ⟨later, laterMember, _, settled⟩ := persists.attempts row member
      have same := settled concluded
      subst same
      exact ⟨later, laterMember, ofId, concluded, facts⟩
  | lease attempt =>
      obtain ⟨row, member, own, released, facts⟩ := record
      obtain ⟨later, laterMember, _, settled⟩ := persists.leases row member
      have same := settled released
      subst same
      exact ⟨later, laterMember, own, released, facts⟩
  | capture id =>
      obtain ⟨row, member, ofId, retired, facts⟩ := record
      obtain ⟨later, laterMember, _, settled⟩ := persists.captures row member
      have same := settled retired
      subst same
      exact ⟨later, laterMember, ofId, retired, facts⟩

/-- Refreshed stages touch no record. -/
theorem Ledger.Records.refreshed {evidence : Evidence} {identifiers : List (List Uuid)}
    (record : ledger.Records sha256 target evidence identifiers) (chains : ledger.Chains)
    (subject : Option Uuid)
    : (ledger.refreshed subject).Records sha256 target evidence identifiers :=
  record.persist (Ledger.persists_refreshed subject) chains
    (chains_of_eq chains (Ledger.refreshed_runs subject) (Ledger.refreshed_occurrences subject))

-- Answers

variable (sha256) in
/-- A call that succeeds leaves the record of its evidence, and if its target has a record already
it changes nothing and says so.
-/
structure Answers (before after : Ledger) (target : Target) (operation : Operation) (reply : Reply)
    : Prop where
  records : after.Records sha256 target operation.compared reply.identifiers
  replays : ∀ evidence identifiers, before.Records sha256 target evidence identifiers
    → after = before ∧ reply.replayed = true

variable {operation : Operation} {reply : Reply}

/-- An answer from the record. -/
theorem Answers.replay (records : ledger.Records sha256 target operation.compared reply.identifiers)
    (replayed : reply.replayed = true)
    : Answers sha256 ledger ledger target operation reply :=
  ⟨records, fun _ _ _ => ⟨rfl, replayed⟩⟩

/-- A first answer. -/
theorem Answers.first (records : after.Records sha256 target operation.compared reply.identifiers)
    (unrecorded : ∀ evidence identifiers, ¬before.Records sha256 target evidence identifiers)
    : Answers sha256 before after target operation reply :=
  ⟨records, fun evidence identifiers record => absurd record (unrecorded evidence identifiers)⟩

theorem createRequest_answers {call : CreateRequest} {reply : RequestReply}
    (named : ledger.target (.createRequest call) = some target)
    (done : createRequest sha256 env ledger call = .ok (reply, after))
    : Answers sha256 ledger after target (.createRequest call) (.request reply) := by
  obtain ⟨value, read, outcome⟩ := createRequest_ok done
  have ofKey : target = .key call.org (value.get "idempotency_key").chars := by
    simp only [Ledger.target, (envelope_ok read).1] at named
    exact (Option.some.inj named).symm
  subst ofKey
  have recorded {row : ScanRequest} {rows : Ledger} (member : row ∈ rows.requests)
      (records : row.Records call (value.get "idempotency_key").chars)
      : rows.Records sha256 (.key call.org (value.get "idempotency_key").chars)
          (Operation.createRequest call).compared [[row.id], row.activeDetectionWorkId.toList] := by
    refine ⟨row, member, records.org, records.key, ?_, rfl⟩
    rw [records.bytes, records.digest, records.policyBytes, records.policyDigest]
    rfl
  rcases outcome with ⟨row, member, records, rfl, rfl⟩ | ⟨request, item, new, records, rfl, rfl⟩
  · exact .replay (recorded member records) rfl
  · refine .first (recorded (mem_append_one _ _) records) ?_
    intro evidence identifiers ⟨row, member, org, key, _⟩
    exact new.freshKey row member ⟨org.trans records.org.symm, key.trans records.key.symm⟩

theorem cancelRequest_answers {call : CancelRequest} {reply : CancelReply}
    (keyed : Keyed sha256 ledger) (chains : ledger.Chains)
    (named : ledger.target (.cancelRequest call) = some target)
    (done : cancelRequest sha256 env ledger call = .ok (reply, after))
    : Answers sha256 ledger after target (.cancelRequest call) (.cancelled reply) := by
  cases named
  obtain ⟨value, read⟩ := cancelRequest_read done
  have digest := (envelope_ok read).2.1
  rcases cancelRequest_ok done with ⟨row, member, _, id, stored, rfl, rfl⟩
    | ⟨row, member, _, id, uncancelled, requestId, _, leases, released, rfl⟩
  · refine .replay ⟨row, member, id, ⟨call.data, stored, ?_⟩, rfl⟩ rfl
    rw [Operation.compared, digest]
  · refine .first ?_ ?_
    · have chainsAfter : ({ ledger with leases }.cancelRows row.id (env.clock 0) call.data
          call.digest).Chains :=
        chains_interrupted chains rfl (fun _ _ met => (of_decide_eq_true met).2) rfl
      refine Ledger.Records.refreshed ?_ chainsAfter _
      refine ⟨_, mem_updateWhere_of_met member (decide_eq_true rfl), id, ⟨call.data, rfl, ?_⟩, ?_⟩
      · rw [Operation.compared, digest]
      · exact congrArg (fun id => [[id]]) requestId
    · intro evidence identifiers ⟨other, otherMember, otherId, ⟨data, stored, _⟩, _⟩
      rw [keyed.requestIds.eq otherMember member (otherId.trans id.symm), uncancelled] at stored
      cases stored

theorem finishRetirement_answers {call : FinishRetirement} {reply : RetirementReply}
    (keyed : Keyed sha256 ledger) (named : ledger.target (.finishRetirement call) = some target)
    (done : finishRetirement sha256 env ledger call = .ok (reply, after))
    : Answers sha256 ledger after target (.finishRetirement call) (.retired reply) := by
  cases named
  obtain ⟨value, read, capture, member, _, id, ⟨retired, stored, digest, rfl, rfl⟩
    | ⟨retiring, _, _, _, rfl, rfl⟩⟩ := finishRetirement_ok done
  · refine .replay ⟨capture, member, id, retired, ?_, rfl⟩ rfl
    rw [stored, digest]
    rfl
  · refine .first ⟨_, mem_updateWhere_of_met member (decide_eq_true rfl), id, rfl, rfl, rfl⟩ ?_
    intro evidence identifiers ⟨other, otherMember, otherId, retired, _⟩
    rw [keyed.captureIds.eq otherMember member (otherId.trans id.symm), retiring] at retired
    cases retired

variable {call : Call}

theorem captureLease_answers {kind : WorkKind} {data digest : Bytes} {reply : LeaseReply}
    (keyed : Keyed sha256 ledger)
    (named : ledger.target (.captureLease call kind (.release data digest)) = some target)
    (done : captureLease sha256 env ledger call kind (.release data digest) = .ok (reply, after))
    : Answers sha256 ledger after target (.captureLease call kind (.release data digest))
        (.lease reply) := by
  cases named
  rcases captureLease_ok done with ⟨consumer, member, own, released,
      ⟨_, _, same, bytes, digested⟩, id, replayed, rfl⟩
    | ⟨locked, attempt, consumer, live, member, own, id, rfl⟩
  · cases same
    refine .replay ⟨consumer, member, own, released, ?_, congrArg (fun id => [[id]]) id⟩ replayed
    rw [bytes, digested]
    rfl
  · refine .first ⟨_, mem_updateWhere_of_met member (decide_eq_true rfl), ?_, by
      simp [CaptureLease.release], rfl, congrArg (fun id => [[id]]) id⟩ ?_
    · exact own.trans live.attemptId
    · intro evidence identifiers record
      obtain ⟨lease, leaseMember, ofAttempt, released, _⟩ := record
      exact released (live.unreleased keyed leaseMember (ofAttempt.trans live.attemptId.symm))

theorem registerCaptureAndSeal_answers {registration : Registration} {reply : SealReply}
    (keyed : Keyed sha256 ledger)
    (named : ledger.target (.registerCaptureAndSeal call registration) = some target)
    (done : registerCaptureAndSeal sha256 env ledger call registration = .ok (reply, after))
    : Answers sha256 ledger after target (.registerCaptureAndSeal call registration)
        (.sealed reply) := by
  obtain ⟨value, inventory, checked, locked, attempt, live, _, outcome⟩ :=
    registerCaptureAndSeal_ok done
  obtain ⟨_, _, ⟨accepted, content⟩, _⟩ := checkRegistration_ok checked
  have contentDigest := (envelope_ok content).2.1
  have found : (ledger.items.find? fun item => item.id = call.work) = some locked.work :=
    find?_eq_some_of_sole live.workMember (decide_eq_true live.workId) fun other member selected =>
      keyed.itemIds.eq member live.workMember ((of_decide_eq_true selected).trans live.workId.symm)
  have ofRequest : target = .sealing locked.work.requestId := by
    simp only [Ledger.target, found, Option.map_some] at named
    exact (Option.some.inj named).symm
  subst ofRequest
  have recorded {row : ScanSeal} {rows : Ledger} (member : row ∈ rows.seals)
      (own : row.requestId = locked.work.requestId) (records : row.Records registration)
      : rows.Records sha256 (.sealing locked.work.requestId)
          (Operation.registerCaptureAndSeal call registration).compared
          [[row.captureId, row.id]] := by
    refine ⟨row, member, own, ?_, rfl⟩
    rw [records.bytes, records.digest, records.content, records.spec, records.detectors,
      records.rules, records.evidence, ← contentDigest]
    rfl
  rcases outcome with ⟨old, member, _, own, records, rfl, rfl⟩
    | ⟨capture, sealed, lease, new, records, rfl, rfl⟩
  · exact .replay (recorded member own records) rfl
  · refine .first ?_ ?_
    · have names : [[capture.id, sealed.id]] = [[sealed.captureId, sealed.id]] := by
        rw [new.sealCapture]
      change Ledger.Records sha256 _ _ _ [[capture.id, sealed.id]]
      rw [names]
      exact recorded (mem_append_one _ _) new.sealRequest records
    · intro evidence identifiers ⟨row, member, own, _⟩
      exact (new.freshSeal row member).2 (own.trans new.sealRequest.symm)

theorem finish_answers {kind : WorkKind} {ending : Ending} {reply : FinishReply}
    (keyed : Keyed sha256 ledger) (chains : ledger.Chains)
    (named : ledger.target (.finish call kind ending) = some target)
    (done : finish sha256 env ledger call kind ending = .ok (reply, after))
    : Answers sha256 ledger after target (.finish call kind ending) (.finished reply) := by
  cases named
  obtain ⟨value, read, locked, attempt, held, ⟨concluded, bytes, digest, _, rfl, rfl⟩
    | ⟨current, _, runs, leases, state, moment, ended, id, _, rfl⟩⟩ := finish_ok done
  · refine .replay ⟨attempt, held.attemptMember, held.attemptId, concluded, ?_, rfl⟩ rfl
    rw [bytes, digest]
    rfl
  · refine .first ?_ ?_
    · have effect : Effect sha256 (fun _ => True) ledger (some locked.work.requestId)
          (ledger.endRows locked.work attempt runs leases (endState value ending.expire) state
            moment ending.data ending.digest) := .ended current ended
      refine Ledger.Records.refreshed ?_ (effect.chains keyed chains) _
      exact ⟨_, mem_updateWhere_of_met held.attemptMember (decide_eq_true rfl), held.attemptId,
        ended.terminal, rfl, congrArg (fun id => [[id]]) id⟩
    · intro evidence identifiers ⟨row, member, ofId, concluded, _⟩
      rw [keyed.attemptIds.eq member held.attemptMember (ofId.trans held.attemptId.symm)] at concluded
      exact concluded current.attemptRunning

theorem failDetectorRun_answers {failure : Failure} {reply : FailureReply}
    (keyed : Keyed sha256 ledger) (chains : ledger.Chains)
    (named : ledger.target (.failDetectorRun call failure) = some target)
    (done : failDetectorRun sha256 env ledger call failure = .ok (reply, after))
    : Answers sha256 ledger after target (.failDetectorRun call failure) (.failure reply) := by
  cases named
  obtain ⟨checked, run, member, _, id, work, own,
    ⟨concluded, schema, bytes, digest, failurePrefix, rfl, rfl⟩
    | ⟨unsettled, locked, attempt, live, rfl, rfl⟩⟩ := failDetectorRun_ok done
  · refine .replay ⟨run, member, id, concluded, .inr ⟨schema, ?_, rfl⟩⟩ rfl
    rw [bytes, digest, failurePrefix]
    rfl
  · refine .first ?_ ?_
    · have effect : Effect sha256 (fun _ => True) ledger (some run.requestId)
          { ledger with
            runs := updateWhere (fun row => row.id = run.id) (·.fail failure (env.clock 1))
              ledger.runs } := .runFailed live member work own unsettled
      refine Ledger.Records.refreshed ?_ (effect.chains keyed chains) _
      refine ⟨_, mem_updateWhere_of_met member (decide_eq_true rfl), id, ?_, .inr ⟨rfl, rfl, rfl⟩⟩
      simp [DetectorRun.fail, DetectorRun.finish, RunState.IsOpen]
    · intro evidence identifiers record
      obtain ⟨row, rowMember, ofId, concluded, _⟩ := record
      rw [keyed.runIds.eq rowMember member (ofId.trans id.symm)] at concluded
      exact concluded unsettled

-- Batches

/-- A list that another one's elements give position by position. -/
theorem map_eq_of_getElem? {α β : Type} {values : List α} {rows : List β} {column : β → α}
    (lengths : values.length = rows.length)
    (each : ∀ (index : Nat) (row : β), rows[index]? = some row
      → values[index]? = some (column row))
    : rows.map column = values := by
  apply List.ext_getElem?
  intro index
  rw [List.getElem?_map]
  cases found : rows[index]? with
  | some row => exact (each index row found).symm
  | none =>
      rw [List.getElem?_eq_none_iff] at found
      exact (List.getElem?_eq_none_iff.mpr (lengths ▸ found)).symm

/-- An element of a list with optional elements, in its place. -/
theorem getElem?_of_join {α : Type} {values : List (Option α)} {index : Nat} {value : Option α}
    (inside : index < values.length) (same : values[index]?.join = value)
    : values[index]? = some value := by
  rw [List.getElem?_eq_getElem inside, Option.join_some] at same
  rw [List.getElem?_eq_getElem inside, same]

/-- The occurrences of a numbered run are in the order of their ordinals already. -/
theorem occurrencesOf_eq_kept {run : Uuid} {count : Nat}
    (ordinals : (ledger.kept run).map (·.toolOrdinal) = (List.range count).map Int.ofNat)
    : ledger.occurrencesOf run = ledger.kept run := by
  refine List.Pairwise.insertionSort_eq ?_
  have ordered : ((ledger.kept run).map (·.toolOrdinal)).Pairwise (· ≤ ·) := by
    rw [ordinals, List.pairwise_map]
    exact List.pairwise_lt_range.imp fun less => Int.ofNat_le.mpr (Nat.le_of_lt less)
  exact List.pairwise_map.mp ordered

/-- A batch that its run has kept is the one in its record. -/
theorem Kept.records {batch : Batch} {run : DetectorRun} {reply : BatchReply} {value : Json}
    (kept : Kept ledger batch run reply) (numbers : ledger.Numbers run)
    (checked : checkRawBatch sha256 batch = .ok value) (named : reply.runId = run.id)
    : ledger.RecordsBatch run (Operation.retainDetectionBatch call batch).compared
        (Reply.batch reply).identifiers := by
  obtain ⟨_, data, content, bytes, stored, ordinals⟩ := numbers
  obtain ⟨read, rawCount, witnessCount⟩ := checkRawBatch_ok checked
  have same : content = value := by
    rw [kept.bytes] at bytes
    cases bytes
    rw [(envelope_ok read).1] at stored
    cases stored
    rfl
  subst same
  have order := occurrencesOf_eq_kept ordinals
  have count : (ledger.kept run.id).length = (content.get "occurrences").items.length := by
    simpa using congrArg List.length ordinals
  have works := kept.works
  rw [order] at works
  -- the ordinal of an occurrence is its position
  have position {index : Nat} {row : DetectionOccurrence}
      (found : (ledger.kept run.id)[index]? = some row)
      : row.toolOrdinal.toNat = index ∧ index < (ledger.kept run.id).length := by
    obtain ⟨inside, _⟩ := List.getElem?_eq_some_iff.mp found
    have ordinal := congrArg (·[index]?) ordinals
    simp only [List.getElem?_map, found, List.getElem?_range (count ▸ inside),
      Option.map_some, Option.some.injEq] at ordinal
    rw [ordinal]
    exact ⟨rfl, inside⟩
  have bytesOf {row : DetectionOccurrence} (member : row ∈ ledger.kept run.id)
      : batch.rawResults[row.toolOrdinal.toNat]? = some row.rawResultBytes
        ∧ batch.witnesses[row.toolOrdinal.toNat]?.join = row.witnessBytes := by
    obtain ⟨_, _, raw, witness, _⟩ := exists_related_of_mem works member
    exact ⟨raw, witness⟩
  have raws : (ledger.kept run.id).map (·.rawResultBytes) = batch.rawResults := by
    refine map_eq_of_getElem? (rawCount.trans count.symm) ?_
    intro index row found
    have raw := (bytesOf (List.mem_of_getElem? found)).1
    rw [(position found).1] at raw
    exact raw
  have witnesses : (ledger.kept run.id).map (·.witnessBytes) = batch.witnesses := by
    refine map_eq_of_getElem? (witnessCount.trans (rawCount.trans count.symm)) ?_
    intro index row found
    have witness := (bytesOf (List.mem_of_getElem? found)).2
    rw [(position found).1] at witness
    refine getElem?_of_join ?_ witness
    rw [witnessCount, rawCount, ← count]
    exact (position found).2
  refine ⟨kept.schema, ?_, reply.identityWorkIds, ?_, ?_⟩
  · rw [kept.bytes, kept.digest, kept.stdout, kept.stderr, witnesses, Operation.compared, ← raws,
      List.map_map]
    rfl
  · rw [Reply.identifiers, named, kept.ids, order]
  · refine works.imp ?_
    intro row work ⟨_, _, item, found, id⟩
    obtain ⟨member, own⟩ := row_of_find? found
    exact ⟨item, member, id, own⟩

/-- The rows of a result, by its position; by induction on the results. -/
theorem observed_at {source : BatchSource} {entries : List Json} {start index : Nat}
    {added : List (DetectionOccurrence × WorkItem)} {pair : DetectionOccurrence × WorkItem}
    (pairs : List.Forall₂ (Observed source) (entries.zipIdx start) added)
    (found : added[index]? = some pair)
    : ∃ entry, Observed source (entry, start + index) pair := by
  induction entries generalizing start index added with
  | nil =>
      cases pairs
      cases found
  | cons entry rest ih =>
      cases pairs with
      | cons observed others =>
          cases index with
          | zero =>
              cases found
              exact ⟨entry, observed⟩
          | succ index =>
              obtain ⟨later, facts⟩ := ih others found
              refine ⟨later, ?_⟩
              rw [Nat.add_right_comm] at facts
              exact facts

/-- The rows of a new batch are in its record. -/
theorem retained_records {batch : Batch} {run : DetectorRun} {value : Json} {source : BatchSource}
    {added : List (DetectionOccurrence × WorkItem)} {moment : Instant} (chains : ledger.Chains)
    (member : run ∈ ledger.runs) (unsettled : run.state.IsOpen)
    (new : NewOccurrences ledger run added) (ofBatch : source.call = batch)
    (pairs : List.Forall₂ (Observed source) (value.get "occurrences").items.zipIdx added)
    (checked : checkRawBatch sha256 batch = .ok value)
    : (ledger.retainRows run added batch value moment).RecordsBatch (run.retain batch value moment)
        (Operation.retainDetectionBatch call batch).compared
        (Reply.batch ⟨run.id, added.map (·.1.id), added.map (·.2.id), false⟩).identifiers := by
  obtain ⟨_, rawCount, witnessCount⟩ := checkRawBatch_ok checked
  have count : batch.rawResults.length = added.length := by
    rw [rawCount, ← pairs.length_eq, List.length_zipIdx]
  have kept : (ledger.retainRows run added batch value moment).kept
      (run.retain batch value moment).id = added.map Prod.fst :=
    kept_retained chains member unsettled new
  have observed {index : Nat} {pair : DetectionOccurrence × WorkItem}
      (found : added[index]? = some pair)
      : batch.rawResults[index]? = some pair.1.rawResultBytes
        ∧ batch.witnesses[index]?.join = pair.1.witnessBytes := by
    obtain ⟨entry, facts⟩ := observed_at pairs found
    have raw := facts.raw
    have witness := facts.witness
    rw [ofBatch, Nat.zero_add] at raw witness
    exact ⟨raw, witness⟩
  have raws : added.map (·.1.rawResultBytes) = batch.rawResults :=
    map_eq_of_getElem? count fun index pair found => (observed found).1
  have witnesses : added.map (·.1.witnessBytes) = batch.witnesses := by
    refine map_eq_of_getElem? (witnessCount.trans count) fun index pair found => ?_
    refine getElem?_of_join ?_ (observed found).2
    rw [witnessCount, count]
    exact (List.getElem?_eq_some_iff.mp found).1
  refine ⟨rfl, ?_, added.map (·.2.id), ?_, ?_⟩
  · rw [kept, Operation.compared, ← raws, ← witnesses]
    simp only [List.map_map]
    rfl
  · rw [kept, List.map_map]
    rfl
  · rw [kept, List.forall₂_map_left_iff, List.forall₂_map_right_iff, List.forall₂_same]
    intro pair among
    exact ⟨pair.2, List.mem_append_right _ (List.mem_map_of_mem among), rfl,
      (new.each pair among).2.2.2.2.2.1⟩

theorem retainDetectionBatch_answers {batch : Batch} {reply : BatchReply}
    (keyed : Keyed sha256 ledger) (chains : ledger.Chains) (numbered : ledger.Numbered)
    (named : ledger.target (.retainDetectionBatch call batch) = some target)
    (done : retainDetectionBatch sha256 env ledger call batch = .ok (reply, after))
    : Answers sha256 ledger after target (.retainDetectionBatch call batch) (.batch reply) := by
  cases named
  obtain ⟨value, checked, run, member, _, id, work, own, ⟨concluded, kept, named, replayed, rfl⟩
    | ⟨unsettled, locked, attempt, live, added, source, new, ofBatch, pairs, rfl, rfl⟩⟩ :=
    retainDetectionBatch_ok done
  · refine .replay ⟨run, member, id, concluded, .inl ?_⟩ replayed
    exact kept.records (numbered run member kept.schema) checked named
  · refine .first ?_ ?_
    · have effect : Effect sha256 (fun _ => True) ledger (some run.requestId)
          (ledger.retainRows run added batch value (env.clock 1)) := by
        have read := (checkRawBatch_ok checked).1
        refine .retained live member work own unsettled ?_ new read (observed_ordinals read pairs)
        rw [(checkRawBatch_ok checked).2.1, ← pairs.length_eq, List.length_zipIdx]
      refine Ledger.Records.refreshed ?_ (effect.chains keyed chains) _
      exact ⟨_, mem_updateWhere_of_met member (decide_eq_true rfl), id, not_open_batchState value,
        .inl (retained_records chains member unsettled new ofBatch pairs checked)⟩
    · intro evidence identifiers record
      obtain ⟨row, rowMember, ofId, concluded, _⟩ := record
      rw [keyed.runIds.eq rowMember member (ofId.trans id.symm)] at concluded
      exact concluded unsettled

/-- The operations that answer a replay. -/
def Operation.Replayable : Operation → Prop
  | .createRequest _ | .cancelRequest _ | .registerCaptureAndSeal _ _ | .retainDetectionBatch _ _
  | .failDetectorRun _ _ | .finish _ _ _ | .captureLease _ _ (.release _ _)
  | .finishRetirement _ => True
  | .claimRetirement _ | .claim _ | .renew _ _ | .captureLease _ _ .acquire
  | .captureLease _ _ .renew | .beginDetectorRun _ _ _ => False

/-- Every call with a target is answered by its record. Witness: the inversion of each operation. -/
theorem perform_answers (keyed : Keyed sha256 ledger) (chains : ledger.Chains)
    (numbered : ledger.Numbered) (named : ledger.target operation = some target)
    (done : perform sha256 env ledger operation = .ok (reply, after))
    : Answers sha256 ledger after target operation reply := by
  cases operation with
  | createRequest call =>
      obtain ⟨answer, answered, rfl⟩ := map_ok done
      exact createRequest_answers named answered
  | cancelRequest call =>
      obtain ⟨answer, answered, rfl⟩ := map_ok done
      exact cancelRequest_answers keyed chains named answered
  | finishRetirement call =>
      obtain ⟨answer, answered, rfl⟩ := map_ok done
      exact finishRetirement_answers keyed named answered
  | captureLease call kind action =>
      cases action with
      | acquire | renew => cases named
      | release data digest =>
          obtain ⟨answer, answered, rfl⟩ := map_ok done
          exact captureLease_answers keyed named answered
  | registerCaptureAndSeal call registration =>
      obtain ⟨answer, answered, rfl⟩ := map_ok done
      exact registerCaptureAndSeal_answers keyed named answered
  | retainDetectionBatch call batch =>
      obtain ⟨answer, answered, rfl⟩ := map_ok done
      exact retainDetectionBatch_answers keyed chains numbered named answered
  | failDetectorRun call failure =>
      obtain ⟨answer, answered, rfl⟩ := map_ok done
      exact failDetectorRun_answers keyed chains named answered
  | finish call kind ending =>
      obtain ⟨answer, answered, rfl⟩ := map_ok done
      exact finish_answers keyed chains named answered
  | claimRetirement | claim | renew | beginDetectorRun => cases named

/-- A call that is replayed and succeeds has a target. -/
theorem target_of_done (keyed : Keyed sha256 ledger) (replayable : operation.Replayable)
    (done : perform sha256 env ledger operation = .ok (reply, after))
    : ∃ target, ledger.target operation = some target := by
  cases operation with
  | createRequest call =>
      obtain ⟨answer, done, _⟩ := map_ok done
      obtain ⟨value, read, _⟩ := createRequest_ok done
      exact ⟨.key call.org (value.get "idempotency_key").chars,
        by simp only [Ledger.target, (envelope_ok read).1]⟩
  | registerCaptureAndSeal call registration =>
      obtain ⟨answer, done, _⟩ := map_ok done
      obtain ⟨_, _, _, locked, _, live, _⟩ := registerCaptureAndSeal_ok done
      have found : (ledger.items.find? fun item => item.id = call.work) = some locked.work :=
        find?_eq_some_of_sole live.workMember (decide_eq_true live.workId)
          fun other member selected => keyed.itemIds.eq member live.workMember
            ((of_decide_eq_true selected).trans live.workId.symm)
      exact ⟨.sealing locked.work.requestId,
        by simp only [Ledger.target, found, Option.map_some]⟩
  | captureLease call kind action =>
      cases action with
      | acquire | renew => cases replayable
      | release => exact ⟨_, rfl⟩
  | cancelRequest | finishRetirement | retainDetectionBatch | failDetectorRun | finish =>
      exact ⟨_, rfl⟩
  | claimRetirement | claim | renew | beginDetectorRun => cases replayable

/-- The target of a call stays the same. -/
theorem target_later (persists : Persists before after) (keyedAfter : Keyed sha256 after)
    (named : before.target operation = some target)
    : after.target operation = some target := by
  cases operation with
  | registerCaptureAndSeal call registration =>
      obtain ⟨item, found, rfl⟩ := Option.map_eq_some_iff.mp named
      obtain ⟨member, id⟩ := row_of_find? found
      obtain ⟨later, laterMember, fixed, _⟩ := persists.items item member
      have columns := WorkItem.mk.inj fixed
      have laterId : later.id = call.work := columns.1.trans id
      have found : (after.items.find? fun item => item.id = call.work) = some later :=
        find?_eq_some_of_sole laterMember (decide_eq_true laterId) fun other among selected =>
          keyedAfter.itemIds.eq among laterMember ((of_decide_eq_true selected).trans laterId.symm)
      have request : later.requestId = item.requestId := columns.2.2.2.1
      simp only [Ledger.target, found, Option.map_some, request]
  | captureLease call kind action => cases action <;> exact named
  | createRequest | cancelRequest | finishRetirement | retainDetectionBatch | failDetectorRun
  | finish | claimRetirement | claim | renew | beginDetectorRun => exact named

-- Histories

/-- A call that succeeds at a time. -/
theorem History.performed (history : History sha256) {time : Nat}
    (answered : history.outcomes time = .ok reply)
    : ∃ env, perform sha256 env (history.ledger time) (history.calls time)
        = .ok (reply, history.ledger (time + 1)) := by
  obtain ⟨env, _, ⟨other, outcome, done⟩ | ⟨raised, outcome, _⟩⟩ := (history.steps time).cases
  · rw [answered] at outcome
    cases outcome
    exact ⟨env, done⟩
  · rw [answered] at outcome
    cases outcome

/-- A call that fails at a time changes nothing. -/
theorem History.unchanged_of_error (history : History sha256) {time : Nat} {raised : SqlError}
    (refused : history.outcomes time = .error raised)
    : history.ledger (time + 1) = history.ledger time := by
  obtain ⟨env, _, ⟨reply, outcome, _⟩ | ⟨_, _, same⟩⟩ := (history.steps time).cases
  · rw [refused] at outcome
    cases outcome
  · exact same

/-- Two successes about one target: the later one brings the compared evidence again, changes nothing
and repeats the answer. Witness: the record of the first persists, and there is only one.
-/
theorem History.repeated (history : History sha256) {first second : Nat} {again : Reply}
    (ordered : first < second)
    (named : (history.ledger first).target (history.calls first) = some target)
    (namedAgain : (history.ledger second).target (history.calls second) = some target)
    (answered : history.outcomes first = .ok reply)
    (answeredAgain : history.outcomes second = .ok again)
    : history.ledger (second + 1) = history.ledger second
      ∧ (history.calls second).compared = (history.calls first).compared
      ∧ again.replayed = true ∧ again.identifiers = reply.identifiers := by
  obtain ⟨_, done⟩ := history.performed answered
  obtain ⟨_, doneAgain⟩ := history.performed answeredAgain
  have answers := perform_answers (history.keyed first) (history.chains first)
    (history.numbered first) named done
  have answersAgain := perform_answers (history.keyed second) (history.chains second)
    (history.numbered second) namedAgain doneAgain
  have record := answers.records.persist (history.persists ordered) (history.chains _)
    (history.chains _)
  obtain ⟨same, replayed⟩ := answersAgain.replays _ _ record
  have recordAgain := answersAgain.records
  rw [same] at recordAgain
  obtain ⟨evidence, identifiers⟩ := recordAgain.unique (history.keyed second) record
  exact ⟨same, evidence, replayed, identifiers⟩

/-- The bytes that the registrations of a history hash for their inventories. -/
def History.inventories (history : History sha256) : Set Bytes :=
  {bytes | ∃ time call registration,
    history.calls time = .registerCaptureAndSeal call registration
      ∧ bytes = EnvelopeName.sourceInventory.schemaText.utf8 ++ pyb "\n" ++ registration.inventory}

/-- Only a registration is about the seal of a request. -/
theorem register_of_sealing {request : Uuid}
    (named : ledger.target operation = some (.sealing request))
    : ∃ call registration, operation = .registerCaptureAndSeal call registration := by
  cases operation with
  | registerCaptureAndSeal call registration => exact ⟨call, registration, rfl⟩
  | createRequest call =>
      simp only [Ledger.target] at named
      split at named <;> cases named
  | captureLease call kind action => cases action <;> cases named
  | cancelRequest | finishRetirement | retainDetectionBatch | failDetectorRun | finish
  | claimRetirement | claim | renew | beginDetectorRun => cases named

/-- The seal binds the inventory through its digest. -/
theorem registration_inventory_eq {left right : Registration} {leftValue rightValue : Json × Json}
    (leftChecked : checkRegistration sha256 left = .ok leftValue)
    (rightChecked : checkRegistration sha256 right = .ok rightValue) (sameData : left.data = right.data)
    (injective : ∀ name : EnvelopeName, name = .sourceInventory
      → digestOf sha256 name left.inventory = digestOf sha256 name right.inventory
      → left.inventory = right.inventory)
    : left.inventory = right.inventory ∧ left.inventoryDigest = right.inventoryDigest := by
  obtain ⟨leftSeal, leftInventory, _, leftBound⟩ := checkRegistration_ok leftChecked
  obtain ⟨rightSeal, rightInventory, _, rightBound⟩ := checkRegistration_ok rightChecked
  have sameValue : leftValue.1 = rightValue.1 := by
    have stored := (envelope_ok leftSeal).1
    rw [sameData, (envelope_ok rightSeal).1] at stored
    exact (Except.ok.inj stored).symm
  have sameDigest : left.inventoryDigest = right.inventoryDigest := by
    rw [sameValue, rightBound] at leftBound
    exact (Python.hex_injective (Json.str.inj leftBound)).symm
  refine ⟨injective .sourceInventory rfl ?_, sameDigest⟩
  rw [← (envelope_ok leftInventory).2.1, ← (envelope_ok rightInventory).2.1, sameDigest]

/-- Two successes about one target bring the same inventory. -/
theorem History.inventory_eq (history : History sha256) {first second : Nat} {again : Reply}
    (collisionFree : Set.InjOn sha256 history.inventories)
    (named : (history.ledger first).target (history.calls first) = some target)
    (namedAgain : (history.ledger second).target (history.calls second) = some target)
    (answered : history.outcomes first = .ok reply)
    (answeredAgain : history.outcomes second = .ok again)
    (same : (history.calls second).compared = (history.calls first).compared)
    : (history.calls second).inventory = (history.calls first).inventory := by
  obtain ⟨_, done⟩ := history.performed answered
  obtain ⟨_, doneAgain⟩ := history.performed answeredAgain
  by_cases sealing : ∃ request, target = .sealing request
  · obtain ⟨request, rfl⟩ := sealing
    obtain ⟨call, registration, called⟩ := register_of_sealing named
    obtain ⟨callAgain, registrationAgain, calledAgain⟩ := register_of_sealing namedAgain
    rw [called] at done same
    rw [calledAgain] at doneAgain same
    obtain ⟨_, performed, _⟩ := map_ok done
    obtain ⟨_, performedAgain, _⟩ := map_ok doneAgain
    obtain ⟨value, inventory, checked, _⟩ := registerCaptureAndSeal_ok performed
    obtain ⟨valueAgain, inventoryAgain, checkedAgain, _⟩ :=
      registerCaptureAndSeal_ok performedAgain
    have sameData : registrationAgain.data = registration.data := by
      simp only [Operation.compared, List.cons.injEq, Option.some.injEq] at same
      exact same.1.1
    obtain ⟨bytes, digest⟩ := registration_inventory_eq checkedAgain checked sameData
      fun name named hashed => by
        subst named
        exact List.append_cancel_left (collisionFree ⟨second, callAgain, registrationAgain,
          calledAgain, rfl⟩ ⟨first, call, registration, called, rfl⟩ hashed)
    rw [called, calledAgain, Operation.inventory, Operation.inventory, bytes, digest]
  · have none {operation : Operation} {time : Nat}
        (named : (history.ledger time).target operation = some target)
        : operation.inventory = [] := by
      cases operation with
      | registerCaptureAndSeal call registration =>
          obtain ⟨item, _, same⟩ := Option.map_eq_some_iff.mp named
          exact absurd ⟨item.requestId, same.symm⟩ sealing
      | createRequest | cancelRequest | finishRetirement | retainDetectionBatch | failDetectorRun
      | finish | claimRetirement | claim | renew | beginDetectorRun | captureLease => rfl
    rw [none named, none namedAgain]

/-- In every history, a call that has succeeded once and is made again answers with the same
identifiers and says that it is replayed, or fails; a call about the same target with other evidence
fails; and neither changes a row, if SHA-256 tells the inventories of the history apart. So no key
has two requests, no request two captures or seals, no ordinal of a run two occurrences and no
occurrence two identity items. Witness: each success leaves a record that persists, and the keys of
the tables.
-/
theorem history_replays (history : History sha256)
    : (∀ first second, first < second → (history.calls first).Replayable
        → history.calls second = history.calls first
        → ∀ reply, history.outcomes first = .ok reply
          → history.ledger (second + 1) = history.ledger second
            ∧ ((∃ raised, history.outcomes second = .error raised)
              ∨ ∃ again, history.outcomes second = .ok again ∧ again.replayed = true
                ∧ again.identifiers = reply.identifiers))
      ∧ (Set.InjOn sha256 history.inventories → ∀ first second target, first < second
        → (history.ledger first).target (history.calls first) = some target
        → (history.ledger second).target (history.calls second) = some target
        → (history.calls second).evidence ≠ (history.calls first).evidence
        → ∀ reply, history.outcomes first = .ok reply
          → (∃ raised, history.outcomes second = .error raised)
            ∧ history.ledger (second + 1) = history.ledger second)
      ∧ ∀ time, UniqueBy (fun row => (row.orgId, row.idempotencyKey)) (history.ledger time).requests
        ∧ UniqueBy (·.ownerRequestId) (history.ledger time).captures
        ∧ UniqueBy (·.requestId) (history.ledger time).seals
        ∧ UniqueBy (fun row => (row.detectorRunId, row.toolOrdinal)) (history.ledger time).occurrences
        ∧ ∀ left ∈ (history.ledger time).items, ∀ right ∈ (history.ledger time).items,
          left.occurrenceId ≠ none → left.occurrenceId = right.occurrenceId → left = right := by
  refine ⟨?_, ?_, ?_⟩
  · intro first second ordered replayable same reply answered
    obtain ⟨_, done⟩ := history.performed answered
    obtain ⟨target, named⟩ := target_of_done (history.keyed first) replayable done
    have namedAgain := target_later (history.persists (Nat.le_of_lt ordered))
      (history.keyed second) named
    rw [← same] at namedAgain
    cases outcome : history.outcomes second with
    | error raised => exact ⟨history.unchanged_of_error outcome, .inl ⟨raised, rfl⟩⟩
    | ok again =>
        obtain ⟨unchanged, _, replayed, identifiers⟩ :=
          history.repeated ordered named namedAgain answered outcome
        exact ⟨unchanged, .inr ⟨again, rfl, replayed, identifiers⟩⟩
  · intro collisionFree first second target ordered named namedAgain differs reply answered
    cases outcome : history.outcomes second with
    | error raised => exact ⟨⟨raised, rfl⟩, history.unchanged_of_error outcome⟩
    | ok again =>
        obtain ⟨_, compared, _⟩ := history.repeated ordered named namedAgain answered outcome
        have inventory := history.inventory_eq collisionFree named namedAgain answered outcome
          compared
        exact absurd (by rw [Operation.evidence, compared, inventory]; rfl) differs
  · intro time
    have keyed := history.keyed time
    refine ⟨keyed.requestKeys, keyed.captureOwners, keyed.sealRequests, keyed.ordinals, ?_⟩
    intro left leftMember right rightMember present same
    exact keyed.itemIds.eq leftMember rightMember
      (keyed.oneIdentity left leftMember right rightMember present same)

end Scanipy.Db.Execution

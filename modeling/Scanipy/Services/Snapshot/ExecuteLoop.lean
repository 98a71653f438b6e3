import Scanipy.Library.Programs
import Scanipy.Python.Json
import Scanipy.Services.Substrate.ObjectStore

/-! The execute loop of the snapshot worker on a dequeued message: its calls of the object store,
of the status port and of the queue, and its completion metric, whatever each collaborator does.
The clock of the metric and the log lines are left out.
-/

namespace Scanipy.Services.Snapshot

open Library Python Substrate

/-- `SnapshotJob`. -/
structure SnapshotJob where
  snapshotId : Text
  orgId : Text
  codebaseId : Text
  commitSha : Text
  envDigest : Text
  cloneUrl : Text
  parentSnapshotId : Option Text

/-- What `str` shows of the exceptions of the loop. -/
inductive Failure where
  | malformed (missing : List Text)
  | envDigestMismatch (named bound : Text)
  | incremental (snapshotId parent : Text)
  | nativeAcquisition
  | objectStore (raised : ObjectStoreError)
  | collaborator (text : Text)

/-- What is raised: an `Exception`, or another `BaseException`. -/
inductive Fault where
  | exception (failure : Failure)
  | interrupt

/-- What a call of a collaborator does. -/
inductive Answer (α : Type) where
  | returned (value : α)
  | raised (text : Text)
  | interrupted

namespace Answer

variable {α : Type}

def outcome : Answer α → Except Fault α
  | returned value => .ok value
  | raised text => .error (.exception (.collaborator text))
  | interrupted => .error .interrupt

/-- What the call raises. -/
def fault (answer : Answer α) : Option Fault :=
  match answer.outcome with
  | .ok _ => none
  | .error thrown => some thrown

def Returns (answer : Answer α) : Bool :=
  answer.fault.isNone

end Answer

/-- `_REQUIRED_JOB_FIELDS`. -/
def requiredJobFields : List Text :=
  [py "snapshot_id", py "org_id", py "codebase_id", py "commit_sha", py "env_digest",
    py "clone_url"]

/-- `body.get(field)`, with the empty text for a field that is not there. -/
def jobField (body : Dict Text Text) (field : Text) : Text :=
  (body.get? field).getD []

/-- `_parse_snapshot_job`. -/
def parseSnapshotJob (body : Dict Text Text) : Except Fault SnapshotJob :=
  let missing := requiredJobFields.filter fun field => jobField body field = []
  if missing ≠ [] then .error (.exception (.malformed missing))
  else
    let parent := jobField body (py "parent_snapshot_id")
    .ok
      { snapshotId := jobField body (py "snapshot_id")
        orgId := jobField body (py "org_id")
        codebaseId := jobField body (py "codebase_id")
        commitSha := jobField body (py "commit_sha")
        envDigest := jobField body (py "env_digest")
        cloneUrl := jobField body (py "clone_url")
        parentSnapshotId := if parent = [] then none else some parent }

/-- The artifacts of `SNAPSHOT_ARTIFACT_TYPES` less `delta_graph`, which a bootstrap has not. -/
inductive BootstrapArtifact where
  | cpgTarball | reverseSymbolIndex | dynamicCallGraph | preconditionStatus
  deriving DecidableEq, Repr

def BootstrapArtifact.name : BootstrapArtifact → Text
  | cpgTarball => py "cpg_tarball"
  | reverseSymbolIndex => py "reverse_symbol_index"
  | dynamicCallGraph => py "dynamic_call_graph"
  | preconditionStatus => py "precondition_status"

def bootstrapArtifacts : List BootstrapArtifact :=
  [.cpgTarball, .reverseSymbolIndex, .dynamicCallGraph, .preconditionStatus]

inductive SnapshotStatusState where
  | ready | failed
  deriving DecidableEq, Repr

/-- `SnapshotStatusReport`. -/
structure SnapshotStatusReport where
  snapshotId : Text
  state : SnapshotStatusState
  envDigest : Text
  preconditionStatus : Option Text := none
  snapshotDigest : Option Text := none
  error : Option Failure := none

/-- A call of the loop, and whether it returned; the metric always does. -/
inductive Event where
  | put (orgId key : Text) (artifact : BootstrapArtifact) (body : Bytes) (done : Bool)
  | report (status : SnapshotStatusReport) (done : Bool)
  | ack (receiptHandle : Text) (done : Bool)
  | fail (receiptHandle : Text) (done : Bool)
  | completed (success : Bool) (preconditionStatus : Text)

/-- What each call that the loop may make does, in the order of the calls. The parser stands with
the builders of the bodies, and the language mix with the precondition.
-/
structure Collaborators where
  materializer : Option (Answer Unit)
  objectStore : Answer Unit
  workspace : Answer Unit
  detect : Answer Text
  parseSource : Answer (BootstrapArtifact → Bytes)
  put : BootstrapArtifact → Answer Unit
  cleanup : Answer Unit
  reportReady : Answer Unit
  ack : Answer Unit
  reportFailed : Answer Unit
  fail : Answer Unit

/-- The calls so far, with the local variables that the handler reads. -/
structure Progress where
  events : List Event := []
  job : Option SnapshotJob := none
  cwVerdict : Option Text := none

abbrev Loop := Metered Progress Fault

def ask {α : Type} (answer : Answer α) : Loop α :=
  Metered.lift answer.outcome

def update (change : Progress → Progress) : Loop Unit :=
  fun progress => (.ok (), change progress)

def note (event : Event) : Loop Unit :=
  update fun progress => { progress with events := progress.events ++ [event] }

/-- A call that is an event. -/
def call (event : Bool → Event) (answer : Answer Unit) : Loop Unit := do
  note (event answer.Returns)
  ask answer

section

variable (sha256 : Bytes → Bytes) (table : CodePoint → Text) (envDigest : Text)
  (collaborators : Collaborators)

/-- The constructor of `SnapshotKeyBuilder`. -/
def keyBuilder (job : SnapshotJob) : Except ObjectStoreError (SnapshotKeyBuilder table) := do
  let orgId ← validateComponent table "org_id" job.orgId
  let codebaseId ← validateComponent table "codebase_id" job.codebaseId
  let commitSha ← validateComponent table "commit_sha" job.commitSha
  let envDigest ← validateComponent table "env_digest" envDigest
  .ok ⟨orgId, codebaseId, commitSha, envDigest⟩

/-- An error of the object store as the loop meets it. -/
def stored {α : Type} (outcome : Except ObjectStoreError α) : Except Fault α :=
  outcome.mapError fun raised => .exception (.objectStore raised)

/-- The upload of the artifacts. -/
def putArtifacts (job : SnapshotJob) (builder : SnapshotKeyBuilder table)
    (bodies : BootstrapArtifact → Bytes) : List BootstrapArtifact → Loop Unit
  | [] => pure ()
  | artifact :: rest => do
      let key ← Metered.lift (stored (builder.artifactKey artifact.name))
      call (.put job.orgId key artifact (bodies artifact)) (collaborators.put artifact)
      putArtifacts job builder bodies rest

/-- The digest of the bodies with their names. -/
def snapshotDigest (bodies : BootstrapArtifact → Bytes) : Text :=
  py "sha256:" ++ hex (sha256 (bootstrapArtifacts.flatMap fun artifact =>
    artifact.name.utf8 ++ pyb ":" ++ bodies artifact))

/-- The guards on a job. -/
def guardJob (job : SnapshotJob) : Except Fault Unit := do
  demand (job.envDigest = envDigest) (.exception (.envDigestMismatch job.envDigest envDigest))
  match job.parentSnapshotId with
  | none => .ok ()
  | some parent => .error (.exception (.incremental job.snapshotId parent))

/-- The injected materialiser; without one the loop refuses to acquire a source itself. -/
def materializerOf : Except Fault (Answer Unit) :=
  match collaborators.materializer with
  | none => .error (.exception .nativeAcquisition)
  | some materializer => .ok materializer

/-- The `try` block of `run_execute_loop`, up to its report. -/
def prepare (body : Dict Text Text) : Loop SnapshotStatusReport := do
  let job ← Metered.lift (parseSnapshotJob body)
  update fun progress => { progress with job := some job }
  Metered.lift (guardJob envDigest job)
  let materializer ← Metered.lift (materializerOf collaborators)
  ask collaborators.objectStore
  ask collaborators.workspace
  ask materializer
  let verdict ← ask collaborators.detect
  update fun progress => { progress with cwVerdict := some verdict }
  let bodies ← ask collaborators.parseSource
  let builder ← Metered.lift (stored (keyBuilder table envDigest job))
  putArtifacts table collaborators job builder bodies bootstrapArtifacts
  ask collaborators.cleanup
  pure ⟨job.snapshotId, .ready, envDigest, some verdict, some (snapshotDigest sha256 bodies), none⟩

/-- The report of a failure, whose own exception is logged. -/
def reportFailure (failure : Failure) : Option SnapshotJob → Loop Unit
  | none => pure ()
  | some job =>
      tryCatch
        (call (.report ⟨job.snapshotId, .failed, envDigest, none, none, some failure⟩)
          collaborators.reportFailed)
        fun
          | .exception _ => pure ()
          | .interrupt => throw .interrupt

/-- The `except` block of `run_execute_loop`. -/
def handleFailure (receiptHandle : Text) (failure : Failure) : Loop Unit := fun progress =>
  (do
    reportFailure envDigest collaborators failure progress.job
    call (.fail receiptHandle) collaborators.fail
    note (.completed false (progress.cwVerdict.getD (py "unknown")))) progress

/-- The end of the `try` block, and the metric after it. -/
def publish (receiptHandle : Text) (report : SnapshotStatusReport) : Loop Unit := do
  call (.report report) collaborators.reportReady
  call (.ack receiptHandle) collaborators.ack
  note (.completed true (report.preconditionStatus.getD []))

/-- `run_execute_loop` on a message that it received. -/
def runExecuteLoop (receiptHandle : Text) (body : Dict Text Text) : Loop Unit :=
  tryCatch
    (prepare sha256 table envDigest collaborators body >>= publish collaborators receiptHandle)
    fun
      | .exception failure => handleFailure envDigest collaborators receiptHandle failure
      | .interrupt => throw .interrupt

end

section

variable {sha256 : Bytes → Bytes} {table : CodePoint → Text} {envDigest : Text}
  {collaborators : Collaborators}

/-- What a computation does: it raises the fault, or returns; and where it is then. -/
def Does {α : Type} (act : Loop α) (start : Progress) (fault : Option Fault)
    (raises : Progress → Prop) (returns : α → Progress → Prop) : Prop :=
  match fault with
  | some thrown => ∃ progress, act start = (.error thrown, progress) ∧ raises progress
  | none => ∃ value progress, act start = (.ok value, progress) ∧ returns value progress

variable {start : Progress} {raises : Progress → Prop}

/-- A sequence raises what its first part that raises does. -/
theorem Does.bind {α β : Type} {first : Loop α} {rest : α → Loop β} {fault later : Option Fault}
    {between : α → Progress → Prop} {returns : β → Progress → Prop}
    (head : Does first start fault raises between) (tail : ∀ value progress, between value progress
      → Does (rest value) progress later raises returns)
    : Does (first >>= rest) start (fault.or later) raises returns := by
  cases fault with
  | some thrown =>
      obtain ⟨progress, ran, after⟩ := head
      exact ⟨progress, Metered.bind_error ran, after⟩
  | none =>
      obtain ⟨value, progress, ran, after⟩ := head
      have run := tail value progress after
      unfold Does at run ⊢
      rwa [Option.none_or, Metered.bind_ok ran]

/-- What an outcome raises. -/
def faultOf {α : Type} : Except Fault α → Option Fault
  | .ok _ => none
  | .error thrown => some thrown

theorem Does.lift {α : Type} (outcome : Except Fault α) (kept : raises start)
    : Does (Metered.lift outcome) start (faultOf outcome) raises fun value progress =>
        outcome = .ok value ∧ progress = start := by
  cases outcome with
  | ok value => exact ⟨value, start, rfl, rfl, rfl⟩
  | error thrown => exact ⟨start, rfl, kept⟩

theorem Answer.fault_eq {α : Type} (answer : Answer α)
    : answer.fault = faultOf answer.outcome := by
  cases answer <;> rfl

theorem Does.ask {α : Type} (answer : Answer α) (kept : raises start)
    : Does (ask answer) start answer.fault raises fun _ progress => progress = start := by
  rw [answer.fault_eq]
  have lifted := Does.lift answer.outcome kept
  unfold Does at lifted ⊢
  split at lifted
  · exact lifted
  · obtain ⟨value, progress, ran, _, same⟩ := lifted
    exact ⟨value, progress, ran, same⟩

theorem Does.congr {α : Type} {act other : Loop α} {fault : Option Fault}
    {returns : α → Progress → Prop} (same : act start = other start)
    (does : Does other start fault raises returns)
    : Does act start fault raises returns := by
  unfold Does at does ⊢
  rwa [same]

/-- The progress after an event. -/
def Progress.noted (progress : Progress) (event : Event) : Progress :=
  { progress with events := progress.events ++ [event] }

theorem Does.call (event : Bool → Event) (answer : Answer Unit) {start : Progress}
    {raises : Progress → Prop} (kept : raises (start.noted (event false)))
    : Does (call event answer) start answer.fault raises fun _ progress =>
        progress = start.noted (event true) := by
  cases answer with
  | returned value => exact ⟨(), _, rfl, rfl⟩
  | raised text => exact ⟨_, rfl, kept⟩
  | interrupted => exact ⟨_, rfl, kept⟩

/-- What is seen of the calls so far: the artifacts stored, whether `ready` was reported with success
and with all of them stored, whether a failure was reported after that, whether the message was
acknowledged before it, how often the message was settled, the last state reported, and the metrics.
-/
structure Seen where
  stored : List BootstrapArtifact := []
  ready : Bool := false
  whole : Bool := false
  contradicted : Bool := false
  early : Bool := false
  settled : Nat := 0
  last : Option SnapshotStatusState := none
  metrics : List Bool := []

def Seen.step (before : Seen) : Event → Seen
  | .put _ _ artifact _ done =>
      { before with stored := if done then artifact :: before.stored else before.stored }
  | .report status done =>
      let isReady := done && status.state = .ready
      { before with
        ready := before.ready || isReady
        whole := before.whole || isReady && bootstrapArtifacts.all before.stored.contains
        contradicted := before.contradicted || before.ready && status.state = .failed
        last := some status.state }
  | .ack _ done =>
      { before with
        early := before.early || !before.whole
        settled := before.settled + done.toNat }
  | .fail _ done => { before with settled := before.settled + done.toNat }
  | .completed success _ => { before with metrics := before.metrics ++ [success] }

def seen (events : List Event) : Seen :=
  events.foldl Seen.step {}

theorem seen_noted (progress : Progress) (event : Event)
    : seen (progress.noted event).events = (seen progress.events).step event :=
  List.foldl_append

/-- Every artifact has its key. -/
theorem artifactKey_ok (builder : SnapshotKeyBuilder table) (artifact : BootstrapArtifact)
    : ∃ key, builder.artifactKey artifact.name = .ok key := by
  have known : snapshotArtifactSuffixes.get? artifact.name ≠ none := by
    cases artifact <;> decide
  rw [SnapshotKeyBuilder.artifactKey]
  cases found : snapshotArtifactSuffixes.get? artifact.name with
  | none => exact absurd found known
  | some suffix => exact ⟨_, rfl⟩

/-- The first fault of the uploads. -/
def putFault (put : BootstrapArtifact → Answer Unit) : List BootstrapArtifact → Option Fault
  | [] => none
  | artifact :: rest => (put artifact).fault.or (putFault put rest)

/-- There are only puts so far, and the job is as it is. -/
def Uploading (job : Option SnapshotJob) (progress : Progress) : Prop :=
  progress.job = job ∧ ∃ stored, seen progress.events = { stored }

/-- The upload stores the artifacts unless a put raises, by induction on the artifacts. -/
theorem putArtifacts_does (job : SnapshotJob) (builder : SnapshotKeyBuilder table)
    (bodies : BootstrapArtifact → Bytes) (artifacts : List BootstrapArtifact)
    {stored : List BootstrapArtifact} (known : start.job = some job)
    (before : seen start.events = { stored })
    : Does (putArtifacts table collaborators job builder bodies artifacts) start
        (putFault collaborators.put artifacts) (Uploading (some job))
        fun _ progress => progress.job = some job
          ∧ seen progress.events = { stored := artifacts.reverse ++ stored } := by
  induction artifacts generalizing start stored with
  | nil => exact ⟨(), start, rfl, known, before⟩
  | cons artifact rest ih =>
      obtain ⟨key, minted⟩ := artifactKey_ok builder artifact
      have ran : putArtifacts table collaborators job builder bodies (artifact :: rest) start
          = (call (.put job.orgId key artifact (bodies artifact)) (collaborators.put artifact)
            >>= fun _ => putArtifacts table collaborators job builder bodies rest) start := by
        rw [putArtifacts, minted]
        rfl
      refine Does.congr ran (.bind (.call _ _ ⟨known, stored, ?_⟩) fun _ progress same => ?_)
      · rw [seen_noted, before]
        rfl
      · rw [same, List.reverse_cons, List.append_assoc]
        refine ih known ?_
        rw [seen_noted, before]
        rfl

theorem Does.update {β : Type} {change : Progress → Progress} {rest : Unit → Loop β}
    {fault : Option Fault} {returns : β → Progress → Prop}
    (does : Does (rest ()) (change start) fault raises returns)
    : Does (update change >>= rest) start fault raises returns :=
  does

/-- What the materialiser raises, when there is one. -/
def materializerFault (collaborators : Collaborators) : Option Fault :=
  collaborators.materializer.bind Answer.fault

/-- The first fault before the report: of the guards and of the collaborators, in their order. -/
def firstFault (table : CodePoint → Text) (envDigest : Text) (collaborators : Collaborators)
    (body : Dict Text Text) : Option Fault :=
  match parseSnapshotJob body with
  | .error thrown => some thrown
  | .ok job =>
      (faultOf (guardJob envDigest job)).or <|
      (faultOf (materializerOf collaborators)).or <|
      collaborators.objectStore.fault.or <|
      collaborators.workspace.fault.or <|
      (materializerFault collaborators).or <|
      collaborators.detect.fault.or <|
      collaborators.parseSource.fault.or <|
      (faultOf (stored (keyBuilder table envDigest job))).or <|
      (putFault collaborators.put bootstrapArtifacts).or <|
      collaborators.cleanup.fault.or none

variable (sha256 table envDigest collaborators) in
/-- The work before the report makes puts only, all of them unless something raises. -/
theorem prepare_does (body : Dict Text Text)
    : Does (prepare sha256 table envDigest collaborators body) {}
        (firstFault table envDigest collaborators body)
        (Uploading (parseSnapshotJob body).toOption)
        fun report progress => report.state = .ready
          ∧ (∃ job, parseSnapshotJob body = .ok job ∧ progress.job = some job)
          ∧ seen progress.events = { stored := bootstrapArtifacts.reverse } := by
  rw [prepare, firstFault]
  cases parsed : parseSnapshotJob body with
  | error thrown => exact ⟨{}, rfl, rfl, [], rfl⟩
  | ok job =>
      have uploading (verdict : Option Text)
          : Uploading (some job) { job := some job, cwVerdict := verdict } :=
        ⟨rfl, [], rfl⟩
      refine Does.congr (Metered.bind_ok rfl) (Does.update ?_)
      refine .bind (.lift _ (uploading none)) fun _ _ passed => ?_
      rw [passed.2]
      refine .bind (.lift _ (uploading none)) fun materializer _ given => ?_
      have injected : materializerFault collaborators = materializer.fault := by
        rw [materializerFault]
        cases found : collaborators.materializer with
        | none =>
            rw [materializerOf, found] at given
            cases given.1
        | some answer =>
            rw [materializerOf, found] at given
            rw [← Except.ok.inj given.1]
            rfl
      rw [given.2, injected]
      refine .bind (.ask _ (uploading none)) fun _ _ same => ?_
      rw [same]
      refine .bind (.ask _ (uploading none)) fun _ _ same => ?_
      rw [same]
      refine .bind (.ask _ (uploading none)) fun _ _ same => ?_
      rw [same]
      refine .bind (.ask _ (uploading none)) fun verdict _ same => ?_
      rw [same]
      refine Does.update (.bind (.ask _ (uploading (some verdict))) fun bodies _ same => ?_)
      rw [same]
      refine .bind (.lift _ (uploading _)) fun builder _ built => ?_
      rw [built.2]
      refine .bind (putArtifacts_does job builder bodies _ rfl rfl) fun _ progress uploaded =>
        .bind (.ask _ ⟨uploaded.1, _, uploaded.2⟩) fun _ _ same => ?_
      rw [same]
      refine ⟨_, progress, rfl, rfl, ⟨job, rfl, uploaded.1⟩, ?_⟩
      rw [uploaded.2, List.append_nil]

/-- One outcome for a message: no failure is reported after a successful report of `ready`; the
message is acknowledged only after such a report with all the artifacts stored; one acknowledgement
or failure of it returns; and there is one metric, which agrees with the last state reported.
-/
structure Consistent (seen : Seen) : Prop where
  final : seen.contradicted = false
  acked : seen.early = false
  settled : seen.settled = 1
  completed : ∃ success, seen.metrics = [success]
    ∧ ∀ state ∈ seen.last, success = true ↔ state = .ready

/-- Every call up to the report returns and so does the acknowledgement; or an exception is raised
first, and then the failure of the message returns and no call of the handler is interrupted.
-/
def Settles (table : CodePoint → Text) (envDigest : Text) (collaborators : Collaborators)
    (body : Dict Text Text) : Prop :=
  match (firstFault table envDigest collaborators body).or collaborators.reportReady.fault with
  | none => collaborators.ack.fault = none
  | some (.exception _) =>
      ((parseSnapshotJob body).toOption ≠ none
        → collaborators.reportFailed.fault ≠ some .interrupt)
      ∧ collaborators.fail.fault = none
  | some .interrupt => False

/-- The loop on a message, by what its `try` block does. -/
theorem runExecuteLoop_eq (receiptHandle : Text) (body : Dict Text Text)
    : runExecuteLoop sha256 table envDigest collaborators receiptHandle body {}
      = match (prepare sha256 table envDigest collaborators body
          >>= publish collaborators receiptHandle) {} with
        | (.ok value, progress) => (.ok value, progress)
        | (.error (.exception failure), progress) =>
            handleFailure envDigest collaborators receiptHandle failure progress
        | (.error .interrupt, progress) => (.error .interrupt, progress) := by
  unfold runExecuteLoop
  simp only [tryCatch, tryCatchThe, MonadExceptOf.tryCatch]
  split <;> rename_i ran <;> rw [ran]
  split <;> rfl

/-- Without a metric the outcome is not consistent. -/
theorem not_consistent_of_unmetered {seen : Seen} (unmetered : seen.metrics = [])
    : ¬Consistent seen := by
  intro consistent
  obtain ⟨success, metered, _⟩ := consistent.completed
  cases unmetered.symm.trans metered

/-- What the report of a failure lets through. -/
def reportFault (collaborators : Collaborators) : Option SnapshotJob → Option Fault
  | none => none
  | some _ =>
      match collaborators.reportFailed with
      | .interrupted => some .interrupt
      | _ => none

/-- What is seen after the report of a failure. -/
def afterReport (envDigest : Text) (collaborators : Collaborators) (failure : Failure)
    (before : Seen) : Option SnapshotJob → Seen
  | none => before
  | some job => before.step <|
      .report ⟨job.snapshotId, .failed, envDigest, none, none, some failure⟩
        collaborators.reportFailed.Returns

theorem afterReport_metrics (failure : Failure) (before : Seen) (job : Option SnapshotJob)
    : (afterReport envDigest collaborators failure before job).metrics = before.metrics := by
  cases job <;> rfl

theorem reportFailure_does (failure : Failure) (job : Option SnapshotJob)
    (unmetered : (seen start.events).metrics = [])
    : Does (reportFailure envDigest collaborators failure job) start
        (reportFault collaborators job) (fun progress => (seen progress.events).metrics = [])
        fun _ progress => seen progress.events
          = afterReport envDigest collaborators failure (seen start.events) job := by
  cases job with
  | none => exact ⟨(), start, rfl, rfl⟩
  | some job =>
      rw [reportFault, afterReport, ← seen_noted]
      cases answered : collaborators.reportFailed with
      | returned value =>
          refine ⟨(), _, ?_, rfl⟩
          rw [reportFailure, answered]
          rfl
      | raised text =>
          refine ⟨(), _, ?_, rfl⟩
          rw [reportFailure, answered]
          rfl
      | interrupted =>
          refine ⟨start.noted <| .report
            ⟨job.snapshotId, .failed, envDigest, none, none, some failure⟩ false, ?_, ?_⟩
          · rw [reportFailure, answered]
            rfl
          · exact (congrArg Seen.metrics (seen_noted _ _)).trans unmetered

variable (envDigest collaborators) in
/-- The handler reports the failure, fails the message and records the metric, unless an interrupt
of the report or anything of the queue stops it before the metric.
-/
theorem handleFailure_does (receiptHandle : Text) (failure : Failure)
    (unmetered : (seen start.events).metrics = [])
    : Does (handleFailure envDigest collaborators receiptHandle failure) start
        ((reportFault collaborators start.job).or (collaborators.fail.fault.or none))
        (fun progress => (seen progress.events).metrics = [])
        fun _ progress => ∃ verdict, seen progress.events
          = ((afterReport envDigest collaborators failure (seen start.events) start.job).step
            (.fail receiptHandle true)).step (.completed false verdict) := by
  refine Does.congr rfl
    (.bind (reportFailure_does failure start.job unmetered) fun _ progress reported => ?_)
  refine .bind (.call _ _ ?_) fun _ later same => ?_
  · rw [seen_noted, reported, Seen.step, afterReport_metrics, unmetered]
  · rw [same]
    refine ⟨(), _, rfl, start.cwVerdict.getD (py "unknown"), ?_⟩
    rw [← reported, ← seen_noted, ← seen_noted]
    rfl

/-- What is seen when the handler begins, unless `ready` was reported with success. -/
structure Pending (seen : Seen) : Prop where
  ready : seen.ready = false
  contradicted : seen.contradicted = false
  early : seen.early = false
  settled : seen.settled = 0
  metrics : seen.metrics = []

/-- The reports and the settlement of the handler are one outcome. -/
theorem consistent_failed {receiptHandle verdict : Text} (failure : Failure) {before : Seen}
    {job : Option SnapshotJob} (pending : Pending before) (unreported : job = none → before.last = none)
    : Consistent (((afterReport envDigest collaborators failure before job).step
        (.fail receiptHandle true)).step (.completed false verdict)) := by
  cases job with
  | none =>
      refine ⟨pending.contradicted, pending.early, ?_, false, ?_, ?_⟩
      · simp [afterReport, Seen.step, pending.settled]
      · simp [afterReport, Seen.step, pending.metrics]
      · simp [afterReport, Seen.step, unreported rfl]
  | some job =>
      refine ⟨?_, pending.early, ?_, false, ?_, ?_⟩
      · simp [afterReport, Seen.step, pending.contradicted, pending.ready]
      · simp [afterReport, Seen.step, pending.settled]
      · simp [afterReport, Seen.step, pending.metrics]
      · simp [afterReport, Seen.step]

/-- The handler gives one outcome exactly when the failure of the message returns, and its report is
not interrupted where there is a job.
-/
theorem consistent_handleFailure (receiptHandle : Text) (failure : Failure)
    (pending : Pending (seen start.events))
    (unreported : start.job = none → (seen start.events).last = none)
    : Consistent (seen
        (handleFailure envDigest collaborators receiptHandle failure start).2.events)
      ↔ (start.job ≠ none → collaborators.reportFailed.fault ≠ some .interrupt)
        ∧ collaborators.fail.fault = none := by
  have ran := handleFailure_does envDigest collaborators receiptHandle failure pending.metrics
  have passed : reportFault collaborators start.job = none
      ↔ (start.job ≠ none → collaborators.reportFailed.fault ≠ some .interrupt) := by
    cases start.job with
    | none => simp [reportFault]
    | some job =>
        cases answered : collaborators.reportFailed <;>
          simp [reportFault, answered, Answer.fault, Answer.outcome]
  rw [← passed]
  cases first : reportFault collaborators start.job with
  | some thrown =>
      rw [first] at ran
      obtain ⟨progress, ended, unmetered⟩ := ran
      rw [ended]
      exact iff_of_false (not_consistent_of_unmetered unmetered) (by simp)
  | none =>
      cases second : collaborators.fail.fault with
      | some thrown =>
          rw [first, second] at ran
          obtain ⟨progress, ended, unmetered⟩ := ran
          rw [ended]
          exact iff_of_false (not_consistent_of_unmetered unmetered) (by simp)
      | none =>
          rw [first, second] at ran
          obtain ⟨_, progress, ended, verdict, same⟩ := ran
          rw [ended, same]
          exact iff_of_true (consistent_failed failure pending unreported) ⟨rfl, rfl⟩

/-- A failure that is handled after a report of `ready` is not one outcome. -/
theorem not_consistent_of_ready (receiptHandle : Text) (failure : Failure) {job : SnapshotJob}
    (known : start.job = some job) (ready : (seen start.events).ready = true)
    (unmetered : (seen start.events).metrics = [])
    : ¬Consistent (seen
        (handleFailure envDigest collaborators receiptHandle failure start).2.events) := by
  have ran := handleFailure_does envDigest collaborators receiptHandle failure unmetered
  cases fault : (reportFault collaborators start.job).or (collaborators.fail.fault.or none) with
  | some thrown =>
      rw [fault] at ran
      obtain ⟨progress, ended, unmetered⟩ := ran
      rw [ended]
      exact not_consistent_of_unmetered unmetered
  | none =>
      rw [fault] at ran
      obtain ⟨_, progress, ended, verdict, same⟩ := ran
      rw [ended, same, known]
      intro consistent
      have kept := consistent.final
      simp [afterReport, Seen.step, ready] at kept

/-- After the work before it, the report of `ready` and the acknowledgement settle the message. -/
theorem consistent_publish {report : SnapshotStatusReport} {job : SnapshotJob}
    (receiptHandle : Text) (known : start.job = some job) (isReady : report.state = .ready)
    (before : seen start.events = { stored := bootstrapArtifacts.reverse })
    : Consistent (seen (match publish collaborators receiptHandle report start with
        | (.ok value, progress) => ((Except.ok value : Except Fault Unit), progress)
        | (.error (.exception failure), progress) =>
            handleFailure envDigest collaborators receiptHandle failure progress
        | (.error .interrupt, progress) => (.error .interrupt, progress)).2.events)
      ↔ match collaborators.reportReady.fault with
        | none => collaborators.ack.fault = none
        | some (.exception _) =>
            collaborators.reportFailed.fault ≠ some .interrupt ∧ collaborators.fail.fault = none
        | some .interrupt => False := by
  have reporting : Does (call (.report report) collaborators.reportReady) start _
      (fun progress => progress = start.noted (.report report false)) _ :=
    Does.call _ _ rfl
  cases reported : collaborators.reportReady.fault with
  | some thrown =>
      rw [reported] at reporting
      obtain ⟨progress, ran, same⟩ := reporting
      have after : seen progress.events
          = { stored := bootstrapArtifacts.reverse, last := some .ready } := by
        rw [same, seen_noted, before, Seen.step, isReady]
        rfl
      rw [publish, Metered.bind_error ran]
      cases thrown with
      | interrupt =>
          exact iff_of_false (not_consistent_of_unmetered (by rw [after])) id
      | exception failure =>
          have job : progress.job ≠ none := by
            rw [same]
            exact known.trans_ne (Option.some_ne_none _)
          refine (consistent_handleFailure receiptHandle failure ?_ fun lost => absurd lost job).trans ?_
          · rw [after]
            exact ⟨rfl, rfl, rfl, rfl, rfl⟩
          · simp [job]
  | none =>
      rw [reported] at reporting
      obtain ⟨_, progress, ran, same⟩ := reporting
      have after : seen progress.events
          = { stored := bootstrapArtifacts.reverse, ready := true, whole := true,
              last := some .ready } := by
        rw [same, seen_noted, before, Seen.step, isReady]
        rfl
      have acking : Does (call (.ack receiptHandle) collaborators.ack) progress _
          (fun later => later = progress.noted (.ack receiptHandle false)) _ :=
        Does.call _ _ rfl
      rw [publish, Metered.bind_ok ran]
      cases acked : collaborators.ack.fault with
      | some thrown =>
          rw [acked] at acking
          obtain ⟨later, ended, last⟩ := acking
          rw [Metered.bind_error ended]
          have noted : seen later.events
              = { stored := bootstrapArtifacts.reverse, ready := true, whole := true,
                  last := some .ready } := by
            rw [last, seen_noted, after]
            rfl
          refine iff_of_false ?_ (by simp)
          cases thrown with
          | interrupt => exact not_consistent_of_unmetered (by rw [noted])
          | exception failure =>
              have held : later.job = some job := by
                rw [last, same]
                exact known
              refine not_consistent_of_ready receiptHandle failure held ?_ ?_
              · rw [noted]
              · rw [noted]
      | none =>
          rw [acked] at acking
          obtain ⟨_, later, ended, last⟩ := acking
          rw [Metered.bind_ok ended]
          refine iff_of_true ?_ rfl
          have done : seen (later.noted (.completed true (report.preconditionStatus.getD []))).events
              = { stored := bootstrapArtifacts.reverse, ready := true, whole := true, settled := 1,
                  last := some .ready, metrics := [true] } := by
            rw [last, seen_noted, seen_noted, after]
            rfl
          change Consistent (seen (later.noted _).events)
          rw [done]
          exact ⟨rfl, rfl, rfl, true, rfl, by simp⟩

/-- A message has one consistent outcome exactly when its calls settle it. -/
theorem consistent_iff_settles (receiptHandle : Text) (body : Dict Text Text)
    : Consistent (seen
        (runExecuteLoop sha256 table envDigest collaborators receiptHandle body {}).2.events)
      ↔ Settles table envDigest collaborators body := by
  have prepared := prepare_does sha256 table envDigest collaborators body
  rw [runExecuteLoop_eq, Settles]
  cases first : firstFault table envDigest collaborators body with
  | some thrown =>
      rw [first] at prepared
      obtain ⟨progress, ran, known, stored, before⟩ := prepared
      rw [Metered.bind_error ran]
      cases thrown with
      | interrupt => exact iff_of_false (not_consistent_of_unmetered (by rw [before])) id
      | exception failure =>
          rw [← known]
          refine consistent_handleFailure receiptHandle failure ?_ fun _ => by rw [before]
          rw [before]
          exact ⟨rfl, rfl, rfl, rfl, rfl⟩
  | none =>
      rw [first] at prepared
      obtain ⟨report, progress, ran, isReady, ⟨job, parsed, known⟩, before⟩ := prepared
      rw [Metered.bind_ok ran, Option.none_or, parsed]
      refine (consistent_publish receiptHandle known isReady before).trans ?_
      cases collaborators.reportReady.fault with
      | none => rfl
      | some thrown => cases thrown <;> simp [Except.toOption]

end

/-- Collaborators that all return, but for the acknowledgement. -/
def lostAcknowledgement : Collaborators where
  materializer := some (.returned ())
  objectStore := .returned ()
  workspace := .returned ()
  detect := .returned (py "unknown")
  parseSource := .returned fun _ => []
  put := fun _ => .returned ()
  cleanup := .returned ()
  reportReady := .returned ()
  ack := .raised (py "timeout")
  reportFailed := .returned ()
  fail := .returned ()

/-- A body with one character for each field. -/
def shortBody : Dict Text Text :=
  requiredJobFields.map fun field => (field, py "a")

/-- An acknowledgement that raises leaves a failure reported after a report of `ready`. -/
theorem failed_after_ready
    : ¬Consistent (seen (runExecuteLoop (fun bytes => bytes) (fun point => [point]) (py "a")
        lostAcknowledgement (py "handle") shortBody {}).2.events) := by
  intro consistent
  have contradicted : (seen (runExecuteLoop (fun bytes => bytes) (fun point => [point]) (py "a")
      lostAcknowledgement (py "handle") shortBody {}).2.events).contradicted = true := by
    decide +kernel
  cases contradicted.symm.trans consistent.final

end Scanipy.Services.Snapshot

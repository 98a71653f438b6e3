import Scanipy.Library.Postconditions
import Scanipy.Tools.Worker.Journal.Control

/-! Every kind of event makes one of the moves: what its handler checks, and what it does to the
control of the replay.
-/

namespace Scanipy.Tools.Worker.Journal

open Library
open Library.Metered (lift visit)
open Python

variable {callId : Text} {ids : PySet (IdNamespace × Text)}

theorem mem_namedCalls
    : callId ∈ namedCalls ids ↔ (.call, callId) ∈ ids := by
  simp [namedCalls]

theorem namedCalls_add_call (fresh : (.call, callId) ∉ ids)
    : namedCalls (ids.add (.call, callId)) = namedCalls ids ++ [callId] := by
  simp [namedCalls, PySet.add, fresh]

variable {ns : IdNamespace} {value : Text}

theorem namedCalls_add_other (other : ns ≠ .call)
    : namedCalls (ids.add (ns, value)) = namedCalls ids := by
  unfold PySet.add
  split
  · rfl
  · simp [namedCalls, other]

/-- A replay with the control of another. -/
def SameControl (replay after : Replay) : Prop :=
  after.control = replay.control

@[simp]
theorem allM_ok_true_iff {α : Type} {test : α → Except JournalError Bool} {items : List α}
    : allM test items = .ok true ↔ ∀ item ∈ items, test item = .ok true := by
  induction items with
  | nil => simp [allM]
  | cons head rest ih =>
      rw [allM, List.forall_mem_cons, bind_ok]
      constructor
      · rintro ⟨holds, first, others⟩
        cases holds with
        | true => exact ⟨first, ih.mp others⟩
        | false => cases others
      · rintro ⟨first, others⟩
        exact ⟨true, first, ih.mpr others⟩

variable {replay : Replay}

namespace Replay

/-- An identifier of another namespace than calls leaves the control. -/
theorem unique_control (other : ns ≠ .call)
    : Yields (replay.unique ns value) (SameControl replay) := by
  refine .bind fun _ _ => .ok ?_
  simp [SameControl, control, namedCalls_add_other other]

/-- Nothing went wrong where an event is productive. -/
theorem productive_calm {m : Manifest} (done : productive m replay = .ok ())
    : replay.control.Calm := by
  obtain ⟨flagged, rest⟩ := check_ok.mp done
  obtain ⟨_, rest⟩ := check_ok.mp rest
  obtain ⟨sound, healthy, rest⟩ := bind_ok.mp rest
  have flags := demand_ok.mp flagged
  obtain rfl : sound = true := demand_ok.mp rest
  rw [allM_ok_true_iff] at healthy
  refine ⟨flags.1, flags.2.1, flags.2.2, ?_⟩
  intro entry listed finished
  have checked := healthy entry.2 (List.mem_map_of_mem listed)
  rwa [if_neg (by simp [Option.ne_none_iff_isSome.mpr finished])] at checked

theorem disposed_control (done : replay.disposed = .ok true)
    : replay.control.Disposed :=
  fun entry listed => allM_ok_true_iff.mp done entry.2 (List.mem_map_of_mem listed)

end Replay

section Handlers

variable {imports : Imports} {m : Manifest}

theorem bindPrerequisite_control {p : Json} {identity : Text} {pair : Text × Text}
    : Yields (bindPrerequisite m replay p identity pair) (SameControl replay) :=
  .bind fun _ _ => .bind fun _ _ => .bind fun _ _ => .bind fun _ _ => .bind fun _ _ => .ok rfl

variable {source : Text}

theorem prerequisite_control {reference : Json} {boundary : Option Text}
    : Metered.Returns (prerequisite imports m replay reference source boundary)
        (SameControl replay) := by
  refine .skip fun _ => .skip fun _ => .skip fun _ => .skip fun _ => .skip fun _ => .skip fun _ =>
    .skip fun _ => .skip fun _ => .skip fun _ => .bind (.lift bindPrerequisite_control) ?_
  intro after same
  refine .skip fun _ => .skip fun _ => .skip fun _ => ?_
  dsimp only
  split
  · exact .skip fun _ => .skip fun _ => .skip fun _ => .skip fun _ => .skip fun _ => .skip fun _ =>
      .pure same
  · exact .skip fun _ => .skip fun _ => .skip fun _ => .skip fun _ => .skip fun _ => .pure same

-- Calls and spools

variable {event : Event}

theorem reserve_moves (kind : event.kind = .reserved)
    : Yields (reserve m replay event) fun after => Move event replay.control after.control := by
  refine .bind fun _ opened => ?_
  have first := demand_ok.mp opened
  exact .bind fun _ _ => .bind fun _ _ => .bind fun _ _ => .bind fun _ _ => .bind fun _ _ =>
    .bind fun _ _ => .bind fun _ _ => .bind fun _ _ => .bind fun _ _ =>
      .ok (.reserved kind first.1 first.2)

/-- What the checks of an intent establish. -/
structure Planned (replay : Replay) (payload : Json) (callId operation : Text) (after : Replay)
    : Prop where
  control : after.control = { replay.control with
    named := replay.control.named ++ [callId]
    ordinaryCalls := if replay.control.Closing then replay.ordinaryCalls
      else replay.ordinaryCalls + 1 }
  fresh : callId ∉ replay.control.named
  numbered : field payload "call_sequence" = .ok (.int (replay.calls.length + 1))
  few : replay.calls.length < 16
  ordinary : ¬replay.control.Closing → replay.control.Calm ∧ replay.ordinaryCalls < 12
  creates : operation = py "container-create"
    → ¬replay.control.Closing ∧ replay.phase = .loaded ∧ ¬replay.control.HasIntent "container-create"
  starts : operation = py "container-start-attached"
    → ¬replay.control.Closing ∧ replay.phase = .created ∧ replay.startId = none

theorem countOrdinary_yields
    : Yields (replay.countOrdinary m) fun after =>
        after.ids = replay.ids
        ∧ after.control = { replay.control with
            ordinaryCalls := if replay.control.Closing then replay.ordinaryCalls
              else replay.ordinaryCalls + 1 }
        ∧ (¬replay.control.Closing → replay.control.Calm ∧ replay.ordinaryCalls < 12) := by
  unfold Replay.countOrdinary
  by_cases closing : replay.Closing
  · have same : replay.control.Closing := closing
    rw [if_pos closing]
    refine .ok ⟨rfl, ?_, fun other => absurd same other⟩
    rw [if_pos same]
    rfl
  · have other : ¬replay.control.Closing := closing
    rw [if_neg closing]
    refine .bind fun _ productive => .bind fun _ counted => .ok ⟨rfl, ?_, fun _ => ?_⟩
    · rw [if_neg other]
      rfl
    · exact ⟨Replay.productive_calm productive, demand_ok.mp counted⟩

variable {operation : Text}

/-- A new container and its start are allowed where the phase asks for them. -/
theorem needOperation_ok (allowed : replay.needOperation operation = .ok ())
    : (operation = py "container-create" → ¬replay.control.Closing ∧ replay.phase = .loaded
        ∧ ¬replay.control.HasIntent "container-create")
      ∧ (operation = py "container-start-attached"
        → ¬replay.control.Closing ∧ replay.phase = .created ∧ replay.startId = none) := by
  unfold Replay.needOperation at allowed
  split at allowed
  next closing =>
    have listed := demand_ok.mp allowed
    refine ⟨?_, ?_⟩
    · rintro rfl
      exact absurd listed (by decide)
    · rintro rfl
      exact absurd listed (by decide)
  next other =>
    split at allowed
    next reserved =>
      have listed := demand_ok.mp allowed
      refine ⟨?_, ?_⟩
      · rintro rfl
        exact absurd listed (by decide)
      · rintro rfl
        exact absurd listed (by decide)
    next =>
      split at allowed
      next create =>
        have asked : replay.phase = .loaded ∧ ¬replay.HasIntent "container-create" :=
          demand_ok.mp allowed
        refine ⟨fun _ => ⟨other, asked⟩, ?_⟩
        intro start
        exact absurd (create.symm.trans start) (by decide)
      next notCreate =>
        refine ⟨fun create => absurd create notCreate, fun start => ?_⟩
        rw [if_pos start] at allowed
        have asked : replay.phase = .created ∧ replay.startId = none := demand_ok.mp allowed
        exact ⟨other, asked⟩

variable {payload : Json}

theorem planIntent_yields
    : Yields (replay.planIntent m payload callId operation)
        (Planned replay payload callId operation) := by
  unfold Replay.planIntent
  refine .bind fun counted ran => .bind fun named added => .bind fun sequence read => ?_
  refine .bind fun _ numbered => .bind fun _ few => .bind fun _ allowed => .bind fun _ _ =>
    .bind fun _ _ => .ok ?_
  obtain ⟨sameIds, control, ordinary⟩ := countOrdinary_yields ran
  obtain ⟨fresh, same⟩ := check_ok.mp added
  have fresh := demand_ok.mp fresh
  obtain rfl := Except.ok.inj same
  obtain ⟨creates, starts⟩ := needOperation_ok allowed
  rw [sameIds] at fresh
  refine ⟨?_, fun member => fresh (mem_namedCalls.mp member), ?_, demand_ok.mp few, ordinary,
    creates, starts⟩
  · calc _ = { counted.control with named := namedCalls (counted.ids.add (.call, callId)) } := rfl
      _ = _ := by rw [control, sameIds, namedCalls_add_call fresh]; rfl
  · rw [read, demand_ok.mp numbered]

/-- A new call, in the control. -/
theorem recordIntent_control {planned : Replay}
    (plan : Planned replay payload callId operation planned) (view intentView : Stored)
    : ∃ call : Call, call.operation = operation ∧ call.outcome = none
        ∧ (recordIntent planned event callId operation view intentView).control
          = replay.control.intend callId operation call := by
  let call : Call :=
    ⟨event.payload, operation, intentView, view, event.digest, event.sequence, none⟩
  refine ⟨call, rfl, rfl, ?_⟩
  by_cases started : operation = py "container-start-attached"
  · have recorded : (recordIntent planned event callId operation view intentView).control
        = { planned.control with
            calls := planned.control.calls.set callId call
            startId := some callId
            phase := .startIntended } := by
      simp only [recordIntent, if_pos started]
      rfl
    rw [recorded, plan.control]
    simp [Control.intend, started, Replay.control]
  · have recorded : (recordIntent planned event callId operation view intentView).control
        = { planned.control with calls := planned.control.calls.set callId call } := by
      simp only [recordIntent, if_neg started]
      rfl
    rw [recorded, plan.control]
    simp [Control.intend, started, Replay.control]

theorem intent_moves (kind : event.kind = .callIntent)
    : Metered.Returns (intent imports m replay event) fun after =>
        Move event replay.control after.control := by
  refine .step fun callId named => .step fun operation ran => ?_
  refine .bind (.lift planIntent_yields) fun planned plan => ?_
  refine .skip fun _ => .skip fun _ => .skip fun _ => .skip fun _ => .skip fun _ => .skip fun _ =>
    .skip fun _ => .pure ?_
  obtain ⟨call, runs, pending, recorded⟩ := recordIntent_control plan _ _
  rw [recorded]
  exact .intended kind named ran plan.fresh plan.numbered plan.few plan.ordinary plan.creates
    plan.starts runs pending

/-- The control up to an overrun that may have come up. -/
def Grows (replay after : Replay) : Prop :=
  ∃ overrun : Bool, (replay.overrun = true → overrun = true)
    ∧ after.control = { replay.control with overrun }

theorem SameControl.grows {after : Replay} (same : SameControl replay after)
    : Grows replay after :=
  ⟨replay.overrun, id, same⟩

theorem Grows.trans {first second third : Replay} (early : Grows first second)
    (late : Grows second third)
    : Grows first third := by
  obtain ⟨before, kept, earlier⟩ := early
  obtain ⟨after, again, later⟩ := late
  have middle : second.overrun = before := congrArg Control.overrun earlier
  refine ⟨after, fun overrun => again (middle ▸ kept overrun), ?_⟩
  rw [later, earlier]

variable {found : Json}

theorem resultErrors_control
    : Metered.Returns (resultErrors imports replay callId found source) (SameControl replay) := by
  refine .skip fun reference => ?_
  split
  · exact .pure rfl
  · exact .skip fun _ => .skip fun _ => .skip fun _ => .skip fun _ => .skip fun _ => .skip fun _ =>
      .skip fun _ => .skip fun _ => .pure rfl

variable {attached : Bool} {maximum : Int}

theorem countStream_grows {reported : Json}
    : Yields (countStream replay attached maximum reported) (Grows replay) := by
  refine .bind fun observed _ => .bind fun kept _ => .bind fun retained _ => .ok ?_
  refine ⟨_, ?_, rfl⟩
  intro overrun
  simp [overrun]

variable {stream : String}

theorem streamCustody_grows {output : Json}
    : Metered.Returns (streamCustody imports replay callId stream maximum output source)
        (Grows replay) := by
  refine .skip fun bytes => ?_
  split
  · exact .pure (SameControl.grows rfl)
  · refine .skip fun _ => .skip fun size => .skip fun spooled => ?_
    have grown : Grows replay { replay with overrun := replay.overrun || decide (size > maximum) } :=
      ⟨_, fun overrun => by simp [overrun], rfl⟩
    dsimp only
    split
    · exact .skip fun _ => .pure grown
    · exact .pure grown

theorem resultStream_grows {outcome : Json}
    : Metered.Returns (resultStream imports m callId attached outcome source replay stream)
        (Grows replay) := by
  refine .skip fun output => ?_
  split
  · refine .pure (SameControl.grows ?_)
    split <;> rfl
  · refine .skip fun reported => .bind (.lift countStream_grows) fun counted grown => ?_
    exact .skip fun _ => .skip fun _ => streamCustody_grows.mono fun _ further => grown.trans further

theorem resultOutcome_grows
    : Metered.Returns (resultOutcome imports m replay callId found source) (Grows replay) := by
  refine .skip fun outcome => .skip fun attached => ?_
  split
  · refine .pure (SameControl.grows ?_)
    split <;> rfl
  · refine .skip fun _ => .skip fun _ => .skip fun _ => .skip fun _ => .skip fun _ => ?_
    exact .foldlM (fun _ _ grown => resultStream_grows.mono fun _ further => grown.trans further)
      (SameControl.grows rfl)

theorem openCall_yields {digest : Json} {reason : Reason}
    : Yields (openCall replay callId digest reason) fun call =>
        replay.calls.get? callId = some call ∧ call.outcome = none := by
  intro call opened
  unfold openCall at opened
  cases found : replay.calls.get? callId with
  | none =>
      rw [found] at opened
      cases opened
  | some other =>
      rw [found] at opened
      obtain ⟨pending, same⟩ := check_ok.mp opened
      obtain rfl := Except.ok.inj same
      exact ⟨rfl, Option.isNone_iff_eq_none.mp (demand_ok.mp pending).1⟩

theorem result_moves (kind : event.kind = .callResult)
    : Metered.Returns (result imports m replay event) fun after =>
        Move event replay.control after.control := by
  refine .step fun reference refers => .step fun callId named => .skip fun _ => ?_
  refine .bind (.lift openCall_yields) fun call opened => ?_
  refine .skip fun _ => .skip fun _ => .skip fun _ => .skip fun _ => .skip fun _ => .skip fun _ =>
    .skip fun _ => .skip fun _ => .bind resultErrors_control fun failed same => ?_
  refine .bind resultOutcome_grows fun counted grown => .pure ?_
  obtain ⟨overrun, kept, control⟩ := same.grows.trans grown
  have calls : counted.calls = replay.calls := congrArg Control.calls control
  have flag : counted.overrun = overrun := congrArg Control.overrun control
  have recorded : ∀ outcome, (recordResult counted callId call outcome).control
      = { replay.control with
          calls := replay.control.calls.set callId { call with outcome := some outcome }
          overrun := counted.overrun
            || decide (counted.observedBytes > 4 * mib ∨ counted.retainedBytes > 4 * mib) } := by
    intro outcome
    calc _ = { counted.control with
          calls := counted.control.calls.set callId { call with outcome := some outcome }
          overrun := counted.overrun
            || decide (counted.observedBytes > 4 * mib ∨ counted.retainedBytes > 4 * mib) } := rfl
      _ = _ := by rw [control]
  rw [recorded]
  refine .settled kind refers named opened.1 opened.2 ?_
  intro overran
  rw [flag, kept overran, Bool.true_or]

theorem registrationEvent_moves (kind : event.kind = .spoolRegistered)
    : Metered.Returns (registrationEvent imports m replay event) fun after =>
        Move event replay.control after.control := by
  refine .step fun callId named => .step fun _ known => .skip fun _ => .skip fun _ => ?_
  refine .skip fun _ => .skip fun _ => .skip fun _ => .skip fun _ => .skip fun _ => .pure ?_
  exact .registered kind named (demand_ok.mp known).2

/-- The call and the stream of a collection are those of its registration. -/
theorem openCollection_yields {stream : Text} (read : fieldText event.payload "stream" = .ok stream)
    : Yields (openCollection replay event.payload stream) fun found =>
        replay.control.collectedKey event = .ok (found.1, stream)
        ∧ (found.1, stream) ∉ replay.collections.keys := by
  refine .bind fun digest named => .bind fun registered prior => .bind fun callId called => ?_
  refine .bind fun _ fresh => ?_
  have fresh := demand_ok.mp fresh
  have stored : replay.byDigest.get? digest = some registered := by
    unfold Replay.prior at prior
    cases found : replay.byDigest.get? digest with
    | none =>
        rw [found] at prior
        cases prior
    | some other =>
        rw [found] at prior
        obtain ⟨_, same⟩ := check_ok.mp prior
        rw [Except.ok.inj same]
  have key : replay.control.collectedKey event = .ok (callId, stream) := by
    have looked : replay.control.byDigest.get? digest = some registered := stored
    simp only [Control.collectedKey, read, named, ok_bind, looked, called]
  split
  · exact .bind fun _ _ => .ok ⟨key, fresh⟩
  · exact .error

theorem collectionEvent_moves (kind : event.kind = .spoolCollected)
    : Metered.Returns (collectionEvent imports m replay event) fun after =>
        Move event replay.control after.control := by
  refine .step fun stream read => .bind (.lift (openCollection_yields read)) fun found opened => ?_
  refine .skip fun _ => .skip fun _ => .skip fun _ => .skip fun _ => .skip fun _ => .skip fun _ => ?_
  refine .skip fun exceeds => .pure ?_
  refine .collected kind opened.1 opened.2 ?_
  intro overran
  have before : replay.overrun = true := overran
  rw [before, Bool.true_or]

-- Lifecycle events

theorem enterRecovery_moves (kind : event.kind = .recoveryEntered)
    : Yields (enterRecovery replay event) fun after => Move event replay.control after.control := by
  refine .bind fun _ _ => .bind fun _ _ => .bind fun _ _ => .bind fun named added => .ok ?_
  have same : SameControl replay named := Replay.unique_control (by decide) added
  have moved := Move.recovered (c := replay.control) kind
  exact same ▸ moved

theorem load_moves (kind : event.kind = .loaded)
    : Metered.Returns (load imports m replay event) fun after =>
        Move event replay.control after.control := by
  refine .step fun _ loadable => .skip fun reference => .bind prerequisite_control ?_
  intro after same
  refine .pure ?_
  obtain ⟨productive, rest⟩ := check_ok.mp loadable
  obtain ⟨metadata, _, rest⟩ := bind_ok.mp rest
  have phase := (demand_ok.mp (check_ok.mp rest).1).1
  have moved := Move.loaded (c := replay.control) kind (Replay.productive_calm productive) phase
  exact same ▸ moved

theorem create_moves (kind : event.kind = .created)
    : Yields (create m replay event) fun after => Move event replay.control after.control := by
  refine .bind fun _ productive => .bind fun _ asked => .bind fun _ _ => .bind fun _ _ =>
    .bind fun _ _ => .bind fun _ _ => .ok ?_
  exact .created kind (Replay.productive_calm productive) (demand_ok.mp asked).1

theorem start_moves (kind : event.kind = .started)
    : Yields (start m replay event) fun after => Move event replay.control after.control := by
  refine .bind fun _ productive => .bind fun _ _ => .bind fun _ asked => .bind fun _ _ =>
    .bind fun _ _ => .ok ?_
  exact .started kind (Replay.productive_calm productive) (demand_ok.mp asked).1

variable {sample : Json}

theorem kernelRefs_control
    : Metered.Returns (kernelRefs imports replay sample source) (SameControl replay) :=
  .skip fun _ => .skip fun _ => .skip fun _ => .skip fun _ => .skip fun _ => .pure rfl

/-- What the guards of an observation establish. -/
theorem needObservable_yields
    : Yields (needObservable m replay event sample) fun after =>
        SameControl replay after ∧ replay.control.Calm
        ∧ (replay.phase = .started ∨ replay.phase = .observed) := by
  refine .bind fun _ productive => .bind fun _ asked => .bind fun _ _ => .bind fun _ _ =>
    .bind fun _ _ => .bind fun named added => ?_
  refine .bind fun _ _ => .bind fun _ _ => .bind fun _ _ => .bind fun _ _ => .bind fun _ _ =>
    .bind fun _ _ => .ok ?_
  exact ⟨Replay.unique_control (by decide) added, Replay.productive_calm productive,
    demand_ok.mp asked⟩

theorem observe_moves (kind : event.kind = .observed)
    : Metered.Returns (observe imports m replay event) fun after =>
        Move event replay.control after.control := by
  refine .skip fun sample => .bind (.lift needObservable_yields) fun named observable => ?_
  refine .bind kernelRefs_control fun counted kept => .skip fun _ => .bind prerequisite_control ?_
  intro after last
  have same : SameControl replay after := last.trans (kept.trans observable.1)
  have moved := Move.observed (c := replay.control) kind observable.2.1 observable.2.2
  exact .pure (same ▸ moved)

theorem intendRelease_moves (kind : event.kind = .releaseIntent)
    : Metered.Returns (intendRelease imports m replay event) fun after =>
        Move event replay.control after.control := by
  refine .step fun _ releasable => .skip fun _ => .bind prerequisite_control fun after same => ?_
  refine .skip fun _ => .skip fun _ => .pure ?_
  obtain ⟨productive, rest⟩ := check_ok.mp releasable
  obtain ⟨_, _, asked⟩ := bind_ok.mp rest
  have phase := (demand_ok.mp asked).1
  have moved :=
    Move.releaseIntended (c := replay.control) kind (Replay.productive_calm productive) phase
  exact same ▸ moved

theorem release_moves (kind : event.kind = .released)
    : Metered.Returns (release imports m replay event) fun after =>
        Move event replay.control after.control := by
  refine .step fun _ released => .skip fun _ => .bind prerequisite_control fun after same => ?_
  refine .skip fun _ => .skip fun _ => .pure ?_
  obtain ⟨calm, rest⟩ := check_ok.mp released
  obtain ⟨_, rest⟩ := check_ok.mp rest
  obtain ⟨_, _, rest⟩ := bind_ok.mp rest
  have phase := (demand_ok.mp (check_ok.mp rest).1).1
  have flags := demand_ok.mp calm
  have moved := Move.released (c := replay.control) kind flags.1 flags.2 phase
  exact same ▸ moved

theorem exitDomain_moves (kind : event.kind = .domainExited)
    : Metered.Returns (exitDomain imports m replay event) fun after =>
        Move event replay.control after.control := by
  refine .step fun _ exited => .skip fun packet => ?_
  have flags := demand_ok.mp (check_ok.mp exited).1
  have moved := Move.exited (c := replay.control) kind flags.1 flags.2
  dsimp only
  split
  · exact .skip fun _ => .pure moved
  · exact .pure moved

/-- A complete cleanup is the first, and every call is disposed of. -/
theorem needComplete_ok (complete : needComplete replay payload = .ok ())
    : replay.cleanup = none ∧ replay.control.Disposed := by
  obtain ⟨_, _, rest⟩ := bind_ok.mp complete
  obtain ⟨asked, rest⟩ := check_ok.mp rest
  obtain ⟨disposed, ran, rest⟩ := bind_ok.mp rest
  obtain rfl : disposed = true := demand_ok.mp (check_ok.mp rest).1
  exact ⟨(demand_ok.mp asked).1, Replay.disposed_control ran⟩

theorem cleanUp_moves (kind : event.kind = .cleanup)
    : Yields (cleanUp replay event) fun after => Move event replay.control after.control := by
  refine .bind fun _ _ => .bind fun named added => .bind fun _ _ => .bind fun _ _ =>
    .bind fun inspected _ => ?_
  have same : SameControl replay named := Replay.unique_control (by decide) added
  have ending : Yields (do
      let state ← field event.payload "state"
      if state = .str (py "complete") then do
        needComplete named event.payload
        .ok { named with cleanup := some event.digest, phase := .cleanup }
      else
        .ok { named with phase := .cleanup }) fun after =>
          Move event replay.control after.control := by
    refine .bind fun state stated => ?_
    split
    next complete =>
      subst complete
      refine .bind fun _ needed => .ok ?_
      obtain ⟨first, disposed⟩ := needComplete_ok needed
      have moved := Move.completed (c := named.control) kind stated first disposed
      rw [same] at moved
      exact same ▸ moved
    next other =>
      have moved := Move.partlyCleaned (c := replay.control) kind stated other
      exact .ok (same ▸ moved)
  dsimp only
  split
  · exact .bind fun _ _ => ending
  · exact ending

/-- What the guards of an admission establish. -/
theorem needAdmissible_ok (kind : event.kind = .admitted)
    (admissible : needAdmissible m replay event.payload = .ok ())
    : Move event replay.control { replay.control with phase := .admitted } := by
  obtain ⟨productive, rest⟩ := check_ok.mp admissible
  obtain ⟨cleanup, _, rest⟩ := bind_ok.mp rest
  obtain ⟨exit, _, rest⟩ := bind_ok.mp rest
  obtain ⟨asked, rest⟩ := check_ok.mp rest
  obtain ⟨sound, settled, rest⟩ := bind_ok.mp rest
  obtain ⟨healthy, rest⟩ := check_ok.mp rest
  obtain ⟨exited, prior, rest⟩ := bind_ok.mp rest
  obtain ⟨validation, validated, rest⟩ := bind_ok.mp rest
  obtain ⟨packet, result, rest⟩ := bind_ok.mp rest
  obtain ⟨valid, rest⟩ := check_ok.mp rest
  obtain ⟨digest, hashed, rest⟩ := bind_ok.mp rest
  obtain ⟨found, claimed, equal⟩ := bind_ok.mp rest
  obtain ⟨phase, cleaned, exits⟩ := demand_ok.mp asked
  obtain rfl : sound = true := demand_ok.mp healthy
  obtain rfl : found = digest := demand_ok.mp equal
  obtain ⟨rfl, _⟩ := demand_ok.mp valid
  have stored : replay.byDigest.get? exit = some exited ∧ exited.kind = .domainExited := by
    unfold Replay.prior at prior
    cases looked : replay.byDigest.get? exit with
    | none =>
        rw [looked] at prior
        cases prior
    | some other =>
        rw [looked] at prior
        obtain ⟨named, same⟩ := check_ok.mp prior
        obtain rfl := Except.ok.inj same
        exact ⟨rfl, demand_ok.mp named⟩
  refine .admitted kind (Replay.productive_calm productive) phase ?_ ?_ exits stored.1 stored.2
    validated result hashed claimed
  · intro entry listed
    exact allM_ok_true_iff.mp settled entry.2 (List.mem_map_of_mem listed)
  · intro missing
    have absent : replay.cleanup = none := missing
    rw [absent] at cleaned
    cases cleaned

theorem admitRun_moves (kind : event.kind = .admitted)
    : Metered.Returns (admitRun imports m replay event) fun after =>
        Move event replay.control after.control := by
  refine .step fun _ admissible => .skip fun _ => .bind prerequisite_control fun after same => ?_
  have moved := needAdmissible_ok kind admissible
  exact .pure (same ▸ moved)

theorem keepKernel_control
    : Metered.Returns (keepKernel imports replay payload source) (SameControl replay) := by
  refine .skip fun kernel => ?_
  split
  · exact .pure rfl
  · exact .skip fun _ => .skip fun _ => .skip fun _ => .pure rfl

theorem needFailed_ok (failed : needFailed replay payload = .ok ())
    : replay.orphaned = false ∧ replay.control.Disposed
      ∧ (replay.cleanup ≠ none ∨ ¬replay.HasIntent "container-create") := by
  obtain ⟨orphaned, rest⟩ := check_ok.mp failed
  obtain ⟨disposed, ran, rest⟩ := bind_ok.mp rest
  obtain ⟨all, rest⟩ := check_ok.mp rest
  have cleaned := demand_ok.mp (check_ok.mp rest).1
  obtain rfl : disposed = true := demand_ok.mp all
  exact ⟨demand_ok.mp orphaned, Replay.disposed_control ran, cleaned⟩

theorem fail_moves (kind : event.kind = .failed)
    : Metered.Returns (fail imports replay event) fun after =>
        Move event replay.control after.control := by
  refine .skip fun _ => .bind keepKernel_control fun kept same => .skip fun _ => ?_
  refine .step fun _ failed => .pure ?_
  obtain ⟨orphaned, disposed, cleaned⟩ := needFailed_ok failed
  have moved := Move.failed (c := kept.control) kind orphaned disposed cleaned
  rw [same] at moved
  exact same ▸ moved

theorem orphan_moves (kind : event.kind = .orphaned)
    : Metered.Returns (orphan imports replay event) fun after =>
        Move event replay.control after.control := by
  refine .skip fun _ => .bind keepKernel_control fun kept same => .skip fun _ => .pure ?_
  have moved := Move.orphaned (c := replay.control) kind
  exact same ▸ moved

theorem reconcile_moves (kind : event.kind = .reconciled)
    : Yields (reconcile replay event) fun after => Move event replay.control after.control := by
  refine .bind fun _ asked => .bind fun disposed ran => .bind fun _ all => ?_
  refine .bind fun _ _ => .bind fun _ _ => .bind fun _ _ => .ok ?_
  obtain ⟨orphaned, recovery, cleaned⟩ := demand_ok.mp asked
  obtain rfl : disposed = true := demand_ok.mp all
  exact .reconciled kind orphaned recovery cleaned (Replay.disposed_control ran)

theorem handle_moves
    : Metered.Returns (handle imports m replay event) fun after =>
        Move event replay.control after.control := by
  unfold handle
  cases kind : event.kind with
  | reserved => exact .lift (reserve_moves kind)
  | callIntent => exact intent_moves kind
  | callResult => exact result_moves kind
  | spoolRegistered => exact registrationEvent_moves kind
  | spoolCollected => exact collectionEvent_moves kind
  | recoveryEntered => exact .lift (enterRecovery_moves kind)
  | loaded => exact load_moves kind
  | created => exact .lift (create_moves kind)
  | started => exact .lift (start_moves kind)
  | observed => exact observe_moves kind
  | releaseIntent => exact intendRelease_moves kind
  | released => exact release_moves kind
  | domainExited => exact exitDomain_moves kind
  | cleanup => exact .lift (cleanUp_moves kind)
  | admitted => exact admitRun_moves kind
  | failed => exact fail_moves kind
  | orphaned => exact orphan_moves kind
  | reconciled => exact .lift (reconcile_moves kind)

theorem bindContainer_control
    : Yields (bindContainer replay event) (SameControl replay) := by
  unfold bindContainer
  split
  · exact .bind fun _ _ => .ok rfl
  · split
    · exact .bind fun _ _ => .ok rfl
    · exact .ok rfl

variable {requestDigest : Text}

/-- What every event passes: the attempt has not ended, and the event is the next. -/
theorem admitEvent_yields
    : Yields (admitEvent m requestDigest replay event) fun after =>
        SameControl replay after
        ∧ (replay.phase ≠ .failed ∧ replay.phase ≠ .admitted ∧ replay.phase ≠ .reconciled)
        ∧ event.sequence = replay.byDigest.length + 1 := by
  refine .bind fun _ going => .bind fun _ next => .bind fun _ _ => .bind fun named added => ?_
  refine .bind fun _ _ => .bind fun _ _ => .bind fun bound container => ?_
  refine .bind fun _ _ => .bind fun _ _ => .ok ?_
  have same : SameControl replay named := Replay.unique_control (by decide) added
  have kept := bindContainer_control container
  exact ⟨kept.trans same, demand_ok.mp going, (demand_ok.mp next).1⟩

/-- The event was applied: the attempt had not ended, the event made its move and was filed. -/
structure Applied (event : Event) (before after : Control) : Prop where
  going : before.phase ≠ .failed ∧ before.phase ≠ .admitted ∧ before.phase ≠ .reconciled
  next : event.sequence = before.byDigest.length + 1
  moved : ∃ middle, Move event before middle
    ∧ after = { middle with byDigest := middle.byDigest.set event.digest event }

theorem apply_applied
    : Metered.Returns (apply imports m requestDigest replay event) fun after =>
        Applied event replay.control after.control := by
  refine .bind (.lift admitEvent_yields) fun admitted opened => .skip fun _ => ?_
  refine .bind handle_moves fun handled moved => .pure ?_
  rw [opened.1] at moved
  exact ⟨opened.2.1, opened.2.2, handled.control, moved, rfl⟩

end Handlers

end Scanipy.Tools.Worker.Journal

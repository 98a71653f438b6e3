import Scanipy.Tools.Worker.Journal.Moves

/-! The history of a journal: its events one after another, with the replay before and after each.
A fact about an event that every later event keeps relates the event to all later ones; a fact
about all events so far is carried from the start.
-/

namespace Scanipy.Tools.Worker.Journal

open Library Python

/-- An event that was applied, with the replay before and after it. -/
structure Step where
  before : Replay
  event : Event
  after : Replay

section Journals

variable (imports : Imports)

/-- The steps of the events, up to the first that is refused. -/
def stepsFrom (m : Manifest) (requestDigest : Text) (replay : Replay)
    : List Event → Pool → List Step
  | [], _ => []
  | event :: rest, pool =>
      match apply imports m requestDigest replay event pool with
      | (.ok after, next) => ⟨replay, event, after⟩ :: stepsFrom m requestDigest after rest next
      | (.error _, _) => []

/-- The steps of a journal, up to the first event that is refused. -/
def journalSteps (manifest : Bytes) (events : List Bytes) (blobs : List EvidenceBlob)
    : List Step :=
  match openJournal imports manifest events blobs with
  | .error _ => []
  | .ok opened =>
      match seed imports opened.manifest opened.pool with
      | (.ok (requestDigest, replay), pool) =>
          stepsFrom imports opened.manifest requestDigest replay opened.events pool
      | (.error _, _) => []

end Journals

/-- The event was applied between the two controls of the step. -/
def Step.Applies (step : Step) : Prop :=
  Applied step.event step.before.control step.after.control

/-- The steps lead from one control to another. -/
def Leads (c : Control) : List Step → Control → Prop
  | [], last => last = c
  | step :: rest, last => step.before.control = c ∧ step.Applies ∧ Leads step.after.control rest last

variable {c : Control} {steps : List Step}

/-- The last control is the one after the last step, by list induction. -/
theorem Leads.last {last : Control} (leads : Leads c steps last) (nonempty : steps ≠ [])
    : (steps.map fun step => step.after.control).getLast? = some last := by
  induction steps generalizing c with
  | nil => exact absurd rfl nonempty
  | cons step rest ih =>
      obtain ⟨-, -, later⟩ := leads
      cases rest with
      | nil =>
          obtain rfl := later
          rfl
      | cons next rest => exact ih later (by simp)

theorem leads_append {last : Control} {past rest : List Step}
    : Leads c (past ++ rest) last ↔ ∃ middle, Leads c past middle ∧ Leads middle rest last := by
  induction past generalizing c with
  | nil => simp [Leads]
  | cons step past ih =>
      simp only [List.cons_append, Leads, ih]
      constructor
      · rintro ⟨here, applied, middle, before, after⟩
        exact ⟨middle, ⟨here, applied, before⟩, after⟩
      · rintro ⟨middle, ⟨here, applied, before⟩, after⟩
        exact ⟨here, applied, middle, before, after⟩

/-- What the first control has and every step carries on holds of the last, by reverse list
induction.
-/
theorem Leads.carries {holds : List Step → Control → Prop} {last : Control}
    (leads : Leads c steps last) (start : holds [] c)
    (carries : ∀ past (step : Step), holds past step.before.control → step.Applies
      → holds (past ++ [step]) step.after.control)
    : holds steps last := by
  induction steps using List.reverseRecOn generalizing last with
  | nil =>
      obtain rfl := leads
      exact start
  | append_singleton past step ih =>
      obtain ⟨middle, before, here, applied, rfl⟩ := leads_append.mp leads
      subst here
      exact carries past step (ih before) applied

/-- What a control has and every step keeps, every step starts from, by list induction. -/
theorem Leads.before {last : Control} (leads : Leads c steps last) (holds : Control → Prop)
    (start : holds c)
    (keeps : ∀ step : Step, holds step.before.control → step.Applies → holds step.after.control)
    : ∀ step ∈ steps, holds step.before.control ∧ step.Applies := by
  induction steps generalizing c with
  | nil => simp
  | cons step rest ih =>
      obtain ⟨rfl, applied, later⟩ := leads
      intro other member
      rcases List.mem_cons.mp member with rfl | after
      · exact ⟨start, applied⟩
      · exact ih later (keeps step start applied) other after

/-- A mark that every event leaves, that later events keep and that rules out what does not fit,
relates every event to all later ones. By list induction.
-/
theorem Leads.pairwise {related : Step → Step → Prop} {last : Control} (leads : Leads c steps last)
    (sound : Control → Prop) (marks : Step → Control → Prop) (start : sound c)
    (keeps : ∀ step : Step, sound step.before.control → step.Applies → sound step.after.control)
    (leaves : ∀ step : Step, step.Applies → marks step step.after.control)
    (kept : ∀ earlier step : Step, sound step.before.control → marks earlier step.before.control
      → step.Applies → marks earlier step.after.control)
    (relates : ∀ earlier step : Step, marks earlier step.before.control → step.Applies
      → related earlier step)
    : steps.Pairwise related := by
  induction steps generalizing c with
  | nil => exact .nil
  | cons step rest ih =>
      obtain ⟨rfl, applied, later⟩ := leads
      refine .cons ?_ (ih later (keeps step start applied))
      have carried := later.before (fun c => sound c ∧ marks step c)
        ⟨keeps step start applied, leaves step applied⟩ fun other both applied =>
          ⟨keeps other both.1 applied, kept step other both.1 both.2 applied⟩
      intro other member
      obtain ⟨marked, further⟩ := carried other member
      exact relates step other marked.2 further

section Journals

variable {imports : Imports} {m : Manifest} {requestDigest : Text}

/-- The steps of the events lead somewhere, by list induction on the events. -/
theorem stepsFrom_leads (replay : Replay) (events : List Event) (pool : Pool)
    : ∃ last, Leads replay.control (stepsFrom imports m requestDigest replay events pool) last := by
  induction events generalizing replay pool with
  | nil => exact ⟨_, rfl⟩
  | cons event rest ih =>
      rw [stepsFrom]
      split
      next after next ran =>
        obtain ⟨last, leads⟩ := ih after next
        exact ⟨last, rfl, apply_applied ran, leads⟩
      next => exact ⟨_, rfl⟩

/-- Where no event is refused, the steps are of all the events, and lead to the last replay. By list
induction on the events.
-/
theorem stepsFrom_complete {replay final : Replay} {events : List Event} {pool last : Pool}
    (ran : events.foldlM (apply imports m requestDigest) replay pool = (.ok final, last))
    : (stepsFrom imports m requestDigest replay events pool).map Step.event = events
      ∧ Leads replay.control (stepsFrom imports m requestDigest replay events pool)
        final.control := by
  induction events generalizing replay pool with
  | nil =>
      obtain ⟨same, -⟩ := Prod.mk.inj ran
      obtain rfl := Except.ok.inj same
      exact ⟨rfl, rfl⟩
  | cons event rest ih =>
      rw [List.foldlM_cons] at ran
      obtain ⟨after, next, first, others⟩ := Metered.bind_returns.mp ran
      obtain ⟨same, leads⟩ := ih others
      rw [stepsFrom, first]
      exact ⟨congrArg (event :: ·) same, rfl, apply_applied first, leads⟩

/-- What the replay of every journal starts from. -/
def Control.start : Control where
  phase := .reserved
  recovery := false
  orphaned := false
  overrun := false
  calls := []
  ordinaryCalls := 0
  named := []
  registrations := []
  collections := []
  cleanup := none
  domainExit := none
  startId := none
  byDigest := []

theorem seed_control
    : Metered.Returns (seed imports m) fun seeded => seeded.2.control = .start := by
  refine .skip fun _ => .skip fun _ => .skip fun _ => .skip fun _ => .skip fun _ => ?_
  dsimp only
  split
  · exact .skip fun _ => .bind prerequisite_control fun _ same => .pure same
  · exact .bind prerequisite_control fun _ same => .pure same

/-- The steps of a journal lead from the start. -/
theorem journalSteps_leads (manifest : Bytes) (events : List Bytes) (blobs : List EvidenceBlob)
    : ∃ last, Leads .start (journalSteps imports manifest events blobs) last := by
  unfold journalSteps
  split
  · exact ⟨_, rfl⟩
  · split
    next opened _ _ requestDigest replay pool seeded =>
      have start : replay.control = .start := seed_control seeded
      rw [← start]
      exact stepsFrom_leads replay opened.events pool
    next => exact ⟨_, rfl⟩

theorem eventOf_record {record : ParsedJournalRecord}
    : Yields (eventOf record) fun event => event.record = record :=
  .bind fun _ _ => .bind fun _ _ => .bind fun _ _ => .bind fun _ _ => .bind fun _ _ =>
    .bind fun _ _ => .bind fun _ _ => .bind fun _ _ => .bind fun _ _ => .bind fun _ _ =>
      .bind fun _ _ => .bind fun _ _ => .bind fun _ _ => .ok rfl

variable {manifest : Bytes} {events : List Bytes} {blobs : List EvidenceBlob}

/-- The events of an opened journal are all of its events, decoded. -/
theorem openJournal_events
    : Yields (openJournal imports manifest events blobs) fun opened =>
        Metered.collect (decodeJournalRecord imports .event) events
          = .ok (opened.events.map Event.record)
        ∧ opened.events.length = events.length ∧ events ≠ [] := by
  refine .bind fun _ _ => .bind fun _ _ => .bind fun _ started => .bind fun _ _ => ?_
  refine .bind fun _ _ => .bind fun _ _ => .bind fun parsed decoded => .bind fun _ _ => ?_
  refine .bind fun _ _ => .bind fun opened read => .ok ?_
  have records : List.Forall₂ Eq (opened.map Event.record) parsed :=
    List.forall₂_map_left_iff.mpr
      ((collect_ok_iff.mp read).flip.imp fun _ _ done => eventOf_record done)
  rw [List.forall₂_eq_eq_eq] at records
  refine ⟨by rw [decoded, records], ?_, List.ne_nil_of_length_pos (demand_ok.mp started)⟩
  calc opened.length = parsed.length := (collect_ok_iff.mp read).length_eq.symm
    _ = events.length := (collect_ok_iff.mp decoded).length_eq.symm

/-- The history of a journal that is accepted: all its events, up to the phase that the report
declares.
-/
theorem replayJournal_history {report : JournalStructureReport}
    (accepted : replayJournal imports manifest events blobs = .ok report)
    : Metered.collect (decodeJournalRecord imports .event) events = .ok report.events
      ∧ (journalSteps imports manifest events blobs).map (fun step => step.event.record)
        = report.events
      ∧ ∃ last, Leads .start (journalSteps imports manifest events blobs) last
        ∧ journalSteps imports manifest events blobs ≠ [] ∧ report.declaredPhase = last.phase := by
  obtain ⟨opened, ran, rest⟩ := bind_ok.mp accepted
  obtain ⟨⟨final, pool⟩, replayed, rest⟩ := bind_ok.mp rest
  obtain ⟨values, -, same⟩ := bind_ok.mp rest
  obtain rfl := Except.ok.inj same
  obtain ⟨again, reran, played⟩ := bind_ok.mp replayed
  obtain rfl : opened = again := Except.ok.inj (ran.symm.trans reran)
  obtain ⟨decoded, counted, nonempty⟩ := openJournal_events ran
  rw [← counted, List.take_length] at played
  split at played
  next _ _ replayed =>
    cases played
    obtain ⟨⟨requestDigest, replay⟩, seededPool, seeded, folded⟩ :=
      Metered.bind_returns.mp replayed
    obtain ⟨all, leads⟩ := stepsFrom_complete folded
    have steps : journalSteps imports manifest events blobs
        = stepsFrom imports opened.manifest requestDigest replay opened.events seededPool := by
      rw [journalSteps, ran]
      simp only [seeded]
    have start : replay.control = .start := seed_control seeded
    have records := congrArg (List.map Event.record) all
    rw [List.map_map] at records
    refine ⟨decoded, steps ▸ records, final.control, ?_, ?_, rfl⟩
    · rw [steps, ← start]
      exact leads
    · rw [steps]
      intro empty
      rw [empty] at all
      exact nonempty (List.eq_nil_of_length_eq_zero (by rw [← counted, ← all]; rfl))
  next => cases played

end Journals

end Scanipy.Tools.Worker.Journal

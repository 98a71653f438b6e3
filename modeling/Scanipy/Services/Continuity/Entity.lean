import Scanipy.Library.History
import Scanipy.Services.Continuity.Records

/-! Entities: human decisions, the lifecycle, and the transitions between snapshots. -/

namespace Scanipy.Services.Continuity

open Library Python

/-- `_VERDICTS` and `_SUPPRESSIONS`; every other value is refused. -/
inductive DecisionValue where
  | unreviewed
  | confirmed
  | falsePositive
  | active
  | inactive
  deriving DecidableEq, Repr

/-- Membership in `_VERDICTS`. -/
def DecisionValue.IsVerdict : DecisionValue → Prop
  | .unreviewed | .confirmed | .falsePositive => True
  | .active | .inactive => False

instance (value : DecisionValue) : Decidable value.IsVerdict :=
  match value with
  | .unreviewed | .confirmed | .falsePositive => isTrue trivial
  | .active | .inactive => isFalse id

/-- `DimensionDecision.__post_init__`. -/
def decisionPostInit (eventId : Text) (references : List Text) : Except PyError Unit := do
  checkText eventId "human decision event id"
  checkReferences references false

/-- `DimensionDecision`. -/
structure DimensionDecision where
  value : DecisionValue
  eventId : Text
  revision : Nat
  references : List Text
  authorizedGeneration : Option Nat
  accepted : decisionPostInit eventId references = .ok ()
  deriving DecidableEq

/-- `ReferenceMetadata.__post_init__`. -/
def metadataPostInit (eventId : Text) (references : List Text) : Except PyError Unit := do
  checkText eventId "reference metadata event id"
  checkReferences references true

/-- `ReferenceMetadata`. -/
structure ReferenceMetadata where
  eventId : Text
  revision : Nat
  references : List Text
  accepted : metadataPostInit eventId references = .ok ()
  deriving DecidableEq

inductive TargetScope where
  | occurrence
  | entity
  deriving DecidableEq, Repr

/-- The checks of one decision of a snapshot. -/
def checkDecision (targetScope : TargetScope) (revision : Nat) (verdict : Bool)
    (decision : DimensionDecision)
    : Except PyError Unit := do
  raiseUnless ((decision.value.IsVerdict ↔ verdict = true) ∧ decision.revision ≤ revision)
    "decision dimension/value/revision mismatch"
  raiseUnless
    ((targetScope = .entity → decision.authorizedGeneration ≠ none)
      ∧ (targetScope = .occurrence → decision.authorizedGeneration = none))
    "authorization generation must match decision scope"

/-- `DecisionSnapshot.__post_init__`. -/
def decisionsPostInit (targetScope : TargetScope) (targetId : Text) (revision : Nat)
    (verdict suppression : Option DimensionDecision) (metadata : Option ReferenceMetadata)
    : Except PyError Unit := do
  checkText targetId "decision target id"
  Metered.visit (checkDecision targetScope revision true) verdict.toList
  Metered.visit (checkDecision targetScope revision false) suppression.toList
  raiseUnless (∀ event ∈ metadata, event.revision ≤ revision) "invalid reference metadata/revision"
  raiseUnless
    (verdict.toList.map DimensionDecision.eventId
      ++ suppression.toList.map DimensionDecision.eventId
      ++ metadata.toList.map ReferenceMetadata.eventId).Nodup
    "decision events must have distinct event ids"

/-- `DecisionSnapshot`. -/
structure DecisionSnapshot where
  targetScope : TargetScope
  targetId : Text
  cohort : CohortKey
  revision : Nat
  verdict : Option DimensionDecision
  suppression : Option DimensionDecision
  metadata : Option ReferenceMetadata
  accepted : decisionsPostInit targetScope targetId revision verdict suppression metadata = .ok ()
  deriving DecidableEq

-- Entities

inductive Lifecycle where
  | «open»
  | resolved
  | reappeared
  | uncertain
  deriving DecidableEq, Repr

/-- `EntitySnapshot.__post_init__`. -/
def entityPostInit (entityId : Text) (cohort : CohortKey) (decisions : DecisionSnapshot)
    (lifecycleGeneration : Nat)
    : Except PyError Unit := do
  checkText entityId "entity id"
  raiseUnless
    (decisions.targetScope = .entity ∧ decisions.targetId = entityId ∧ decisions.cohort = cohort)
    "entity decision target/scope mismatch"
  Metered.visit
    (fun decision : DimensionDecision =>
      raiseUnless (∃ generation ∈ decision.authorizedGeneration, generation ≤ lifecycleGeneration)
        "entity cannot carry future/absent authorization generation")
    (decisions.verdict.toList ++ decisions.suppression.toList)

/-- `EntitySnapshot`. -/
structure EntitySnapshot where
  entityId : Text
  cohort : CohortKey
  lifecycle : Lifecycle
  revision : Nat
  decisions : DecisionSnapshot
  lifecycleGeneration : Nat
  accepted : entityPostInit entityId cohort decisions lifecycleGeneration = .ok ()
  deriving DecidableEq

inductive LifecycleAction where
  | resolve
  | reappear
  | markUncertain
  | openForReview
  deriving DecidableEq, Repr

/-- `_LIFECYCLE_TARGETS`. -/
def LifecycleAction.target : LifecycleAction → Lifecycle
  | .resolve => .resolved
  | .reappear => .reappeared
  | .markUncertain => .uncertain
  | .openForReview => .open

/-- `EntityLifecycleEvent.__post_init__`. -/
def lifecycleEventPostInit (eventId entityId : Text) (evidenceRefs : List Text)
    : Except PyError Unit := do
  checkText eventId "lifecycle event id"
  checkText entityId "lifecycle entity id"
  checkReferences evidenceRefs true

/-- `EntityLifecycleEvent`. -/
structure EntityLifecycleEvent where
  eventId : Text
  entityId : Text
  cohort : CohortKey
  action : LifecycleAction
  previousRevision : Nat
  previousGeneration : Nat
  evidenceRefs : List Text
  accepted : lifecycleEventPostInit eventId entityId evidenceRefs = .ok ()

inductive Dimension where
  | verdict
  | suppression
  | metadata
  deriving DecidableEq, Repr

/-- `DimensionDecision | ReferenceMetadata`. -/
inductive HumanEvent where
  | decision (made : DimensionDecision)
  | metadata (noted : ReferenceMetadata)
  deriving DecidableEq

namespace HumanEvent

def eventId : HumanEvent → Text
  | .decision made => made.eventId
  | .metadata noted => noted.eventId

def revision : HumanEvent → Nat
  | .decision made => made.revision
  | .metadata noted => noted.revision

end HumanEvent

/-- `HumanAuthorization.__post_init__`. -/
def authorizationPostInit (entityId : Text) (dimension : Dimension) (event : HumanEvent)
    (authorityRef : Text)
    : Except PyError Unit := do
  checkText entityId "human authorization target"
  checkText authorityRef "trusted human authority reference"
  match dimension, event with
  | .metadata, .metadata _ => .ok ()
  | .metadata, .decision _ =>
      .error (.valueError "metadata event cannot grant dimension authorization")
  | .verdict, .decision decision =>
      raiseUnless (decision.value.IsVerdict ∧ decision.authorizedGeneration ≠ none)
        "entity human authorization dimension/generation mismatch"
  | .suppression, .decision decision =>
      raiseUnless (¬decision.value.IsVerdict ∧ decision.authorizedGeneration ≠ none)
        "entity human authorization dimension/generation mismatch"
  | .verdict, .metadata _ | .suppression, .metadata _ =>
      .error (.valueError "entity human authorization dimension/generation mismatch")

/-- `HumanAuthorization`. -/
structure HumanAuthorization where
  entityId : Text
  cohort : CohortKey
  dimension : Dimension
  event : HumanEvent
  authorityRef : Text
  accepted : authorizationPostInit entityId dimension event authorityRef = .ok ()

/-- `getattr(decisions, name)`. -/
def DecisionSnapshot.dimension (decisions : DecisionSnapshot) : Dimension → Option HumanEvent
  | .verdict => decisions.verdict.map HumanEvent.decision
  | .suppression => decisions.suppression.map HumanEvent.decision
  | .metadata => decisions.metadata.map HumanEvent.metadata

-- Transitions

/-- What a fresh event must do beyond naming its target: a decision is for the current
generation, metadata keep the references they had.
-/
def checkFreshEvent (generation : Nat) (old : Option HumanEvent) : HumanEvent → Except PyError Unit
  | .decision decision =>
      raiseUnless (decision.authorizedGeneration = some generation)
        "fresh human event must authorize the current lifecycle generation"
  | .metadata metadata =>
      match old with
      | some (.metadata previous) =>
          raiseUnless (previous.references ⊆ metadata.references)
            "reference metadata additions must preserve previous references"
      | _ => .ok ()

/-- One round of the loop over the dimensions. -/
def checkDimension (previous current : EntitySnapshot)
    (byDimension : Dict Dimension HumanAuthorization) (name : Dimension)
    : Except PyError Unit :=
  let old := previous.decisions.dimension name
  let new := current.decisions.dimension name
  match byDimension.get? name with
  | none =>
      raiseUnless (new = old) "unchanged dimension cannot be restamped without its own human event"
  | some authorization => do
      raiseUnless
        (authorization.entityId = current.entityId ∧ authorization.cohort = current.cohort
          ∧ new ≠ old ∧ new = some authorization.event
          ∧ authorization.event.revision = current.decisions.revision)
        "fresh human event must match exact target/dimension/new revision"
      checkFreshEvent current.lifecycleGeneration old authorization.event

/-- `validate_entity_transition`. -/
def validateEntityTransition (previous current : EntitySnapshot)
    (lifecycleEvent : Option EntityLifecycleEvent) (humanAuthorizations : List HumanAuthorization)
    : Except PyError Unit := do
  raiseUnless (current.entityId = previous.entityId ∧ current.cohort = previous.cohort)
    "entity transition cannot change target or scope"
  raiseUnless (current.revision = previous.revision + 1)
    "entity transition requires exactly the next revision"
  raiseUnless
    (current.lifecycleGeneration
      = previous.lifecycleGeneration + if previous.lifecycle ≠ current.lifecycle then 1 else 0)
    "generation must advance exactly once per lifecycle-state change"
  if previous.lifecycle ≠ current.lifecycle then
    raiseUnless
      (∃ event ∈ lifecycleEvent,
        event.entityId = current.entityId ∧ event.cohort = current.cohort
        ∧ event.previousRevision = previous.revision
        ∧ event.previousGeneration = previous.lifecycleGeneration
        ∧ event.action.target = current.lifecycle)
      "lifecycle change requires an exact typed lifecycle event"
  else
    raiseUnless (lifecycleEvent.isNone = true) "lifecycle event requires an actual state change"
  raiseUnless (previous.lifecycle ≠ current.lifecycle ∨ humanAuthorizations.isEmpty = false)
    "entity transition has no lifecycle or human event"
  raiseUnless
    (current.decisions.revision
      = previous.decisions.revision + if humanAuthorizations.isEmpty = false then 1 else 0)
    "decision revision must advance exactly once per human-event transaction"
  let byDimension := Dict.ofPairs (humanAuthorizations.map fun item => (item.dimension, item))
  raiseUnless (byDimension.length = humanAuthorizations.length)
    "duplicate human authorization dimension in transition"
  let oldIds :=
    previous.decisions.verdict.toList.map DimensionDecision.eventId
    ++ previous.decisions.suppression.toList.map DimensionDecision.eventId
    ++ previous.decisions.metadata.toList.map ReferenceMetadata.eventId
  let eventIds :=
    humanAuthorizations.map (fun item => item.event.eventId)
    ++ lifecycleEvent.toList.map EntityLifecycleEvent.eventId
  raiseUnless (eventIds.Nodup ∧ ∀ eventId ∈ eventIds, eventId ∉ oldIds)
    "transition event ids must be unique and not restamp current events"
  Metered.visit (checkDimension previous current byDimension) [.verdict, .suppression, .metadata]

/-- The snapshots follow each other by some lifecycle event and human authorizations. -/
def EntityStep (previous current : EntitySnapshot) : Prop :=
  ∃ lifecycleEvent humanAuthorizations,
    validateEntityTransition previous current lifecycleEvent humanAuthorizations = .ok ()

/-- A history of an entity. -/
abbrev EntityRun (entities : Nat → EntitySnapshot) (length : Nat) : Prop :=
  Run EntityStep entities length

/-- The generation advances with the lifecycle, by one. -/
theorem EntityStep.generation {previous current : EntitySnapshot}
    (step : EntityStep previous current)
    : current.lifecycleGeneration
      = previous.lifecycleGeneration + if previous.lifecycle ≠ current.lifecycle then 1 else 0 := by
  obtain ⟨_, _, ran⟩ := step
  simp only [validateEntityTransition, check_ok, raiseUnless_ok] at ran
  exact ran.2.2.1

/-- Where the generation is the same at both ends of a history, it and the lifecycle are the
same throughout. Witness: generations only grow, so none advanced.
-/
theorem EntityRun.steady {entities : Nat → EntitySnapshot} {length : Nat}
    (run : EntityRun entities length)
    (same : (entities length).lifecycleGeneration = (entities 0).lifecycleGeneration) {i : Nat}
    (bounded : i ≤ length)
    : (entities i).lifecycle = (entities 0).lifecycle
      ∧ (entities i).lifecycleGeneration = (entities 0).lifecycleGeneration := by
  have grows {first last : Nat} (ordered : first ≤ last) (inside : last ≤ length)
      : (entities first).lifecycleGeneration ≤ (entities last).lifecycleGeneration := by
    refine run.forward
      (fun entity => (entities first).lifecycleGeneration ≤ entity.lifecycleGeneration) ?_
      (Nat.le_refl _) ordered inside
    intro before after step bound
    rw [step.generation]
    exact Nat.le_add_right_of_le bound
  induction i with
  | zero => exact ⟨rfl, rfl⟩
  | succ i ih =>
      obtain ⟨lifecycle, generation⟩ := ih (Nat.le_of_succ_le bounded)
      have advance := (run i bounded).generation
      have later := grows bounded (Nat.le_refl length)
      have unchanged : (entities i).lifecycle = (entities (i + 1)).lifecycle := by
        by_contra changed
        rw [if_pos changed] at advance
        omega
      rw [if_neg (not_not.mpr unchanged)] at advance
      exact ⟨unchanged.symm.trans lifecycle, advance.trans generation⟩

end Scanipy.Services.Continuity

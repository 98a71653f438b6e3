import Scanipy.Services.Continuity.Matching

/-! `effective_decisions`: the decisions that hold for an occurrence, its own and those it
inherits from an entity through a link.
-/

namespace Scanipy.Services.Continuity

open Library Python

-- Resolution

inductive DecisionSource where
  | default
  | occurrence
  | entity
  deriving DecidableEq, Repr

/-- `EffectiveDimension`. -/
structure EffectiveDimension where
  value : DecisionValue
  source : DecisionSource
  eventId : Option Text := none
  references : List Text := []
  deriving DecidableEq

/-- `EffectiveDecisions`. -/
structure EffectiveDecisions where
  verdict : EffectiveDimension
  suppression : EffectiveDimension
  inheritanceActive : Bool
  inheritanceBlockReason : Option String
  deriving DecidableEq

section Resolution

variable {sha256 : Bytes → Bytes}

/-- The link is about this occurrence. Its digest is computed only where the ids agree. -/
def linkDescribes (sha256 : Bytes → Bytes) (link : LinkProposal) (occurrence : OccurrenceView)
    : Except PyError Bool :=
  if link.currentOccurrenceId ≠ occurrence.occurrenceId then
    .ok false
  else do
    let digest ← occurrenceDigest sha256 occurrence
    .ok (link.currentOccurrenceDigest = digest ∧ link.guards.cohort = occurrence.cohort
      ∧ link.guards.currentScanId = occurrence.scanId ∧ link.guards.entityId = link.entityId)

/-- The link is about the identity that the occurrence has under the policy. -/
def linkIdentifies (entry : PolicyEntry sha256) (link : LinkProposal) (occurrence : OccurrenceView)
    : Except PyError Bool :=
  if link.profile ∉ entry.definition.profiles then
    .ok false
  else do
    let profile ← profileOf occurrence
    .ok (profile = some link.profile
      ∧ occurrence.sliced.artifact.digest = some link.sliceDigest
      ∧ occurrence.graph.artifact.digest = some link.currentGraphDigest)

/-- A human event of the current generation stands in the snapshot. -/
def CurrentlyAuthorized (entity : EntitySnapshot) : Prop :=
  ∃ decision ∈ entity.decisions.verdict.toList ++ entity.decisions.suppression.toList,
    decision.authorizedGeneration = some entity.lifecycleGeneration

instance (entity : EntitySnapshot) : Decidable (CurrentlyAuthorized entity) :=
  List.decidableBEx (fun decision : DimensionDecision =>
    decision.authorizedGeneration = some entity.lifecycleGeneration) _

/-- The checks of the entity: the decisions inherited, or the reason for none. -/
def entityAuthority (occurrence : OccurrenceView) (link : LinkProposal)
    : Option EntitySnapshot → Except String DecisionSnapshot
  | none => .error "entity_scope_or_identity_mismatch"
  | some entity =>
      if entity.entityId ≠ link.entityId ∨ entity.cohort ≠ occurrence.cohort then
        .error "entity_scope_or_identity_mismatch"
      else if entity.revision < link.guards.entityRevision
          ∨ entity.decisions.revision < link.guards.decisionRevision then
        .error "stale_entity_or_decision_snapshot"
      else if link.inheritEntityDecisions = false ∨ entity.lifecycle ≠ .open then
        .error "entity_requires_fresh_human_review"
      else if entity.lifecycleGeneration ≠ link.guards.entityLifecycleGeneration then
        .error "link_requires_current_lifecycle_generation_adjudication"
      else if ¬CurrentlyAuthorized entity then
        .error "no_current_generation_human_authorization"
      else
        .ok entity.decisions

/-- The checks of the policy, then those of the entity. -/
def policyAuthority (occurrence : OccurrenceView) (link : LinkProposal)
    (entity : Option EntitySnapshot) (registry : PolicyRegistrySnapshot sha256)
    : Except PyError (Except String DecisionSnapshot) :=
  match registry.active link.guards.policyDigest with
  | none => .ok (.error "policy_revoked_or_reactivation_needs_adjudication")
  | some entry =>
      if entry.activationEventId ≠ link.guards.activationEventId then
        .ok (.error "policy_revoked_or_reactivation_needs_adjudication")
      else if registry.revision < link.guards.registryRevision then
        .ok (.error "stale_registry_snapshot")
      else do
        let identified ← linkIdentifies entry link occurrence
        if identified = false then
          .ok (.error "link_identity_policy_mismatch")
        else
          .ok (entityAuthority occurrence link entity)

/-- `inherited` and `reason`. -/
def inheritedDecisions (occurrence : OccurrenceView) (link : Option LinkProposal)
    (entity : Option EntitySnapshot) (registry : PolicyRegistrySnapshot sha256)
    : Except PyError (Except String DecisionSnapshot) :=
  match link with
  | none => .ok (.error "no_authorized_link")
  | some link => do
      let described ← linkDescribes sha256 link occurrence
      if described = false then
        .ok (.error "link_occurrence_scope_or_content_mismatch")
      else
        policyAuthority occurrence link entity registry

/-- `dimension`: the decision of the occurrence, else that of the entity for its current
generation, else the default.
-/
def effectiveDimension (entity : Option EntitySnapshot) (default : DecisionValue)
    (direct inherited : Option DimensionDecision)
    : EffectiveDimension :=
  match direct with
  | some decision => ⟨decision.value, .occurrence, some decision.eventId, decision.references⟩
  | none =>
      match entity, inherited with
      | some entity, some decision =>
          if decision.authorizedGeneration = some entity.lifecycleGeneration then
            ⟨decision.value, .entity, some decision.eventId, decision.references⟩
          else
            { value := default, source := .default }
      | _, _ => { value := default, source := .default }

/-- `effective_decisions`. -/
def effectiveDecisions (occurrence : OccurrenceView) (link : Option LinkProposal)
    (entity : Option EntitySnapshot) (registry : PolicyRegistrySnapshot sha256)
    (direct : Option DecisionSnapshot)
    : Except PyError EffectiveDecisions := do
  raiseUnless
    (∀ decisions ∈ direct,
      decisions.targetScope = .occurrence ∧ decisions.targetId = occurrence.occurrenceId
      ∧ decisions.cohort = occurrence.cohort)
    "direct decision belongs to another occurrence/scope"
  let resolved ← inheritedDecisions occurrence link entity registry
  let inherited := resolved.toOption
  .ok {
    verdict := effectiveDimension entity .unreviewed (direct.bind DecisionSnapshot.verdict)
      (inherited.bind DecisionSnapshot.verdict)
    suppression := effectiveDimension entity .inactive (direct.bind DecisionSnapshot.suppression)
      (inherited.bind DecisionSnapshot.suppression)
    inheritanceActive := inherited.isSome
    inheritanceBlockReason :=
      match resolved with
      | .ok _ => none
      | .error reason => some reason }

-- What inheritance shows

variable {entity : EntitySnapshot}

/-- A dimension taken from the entity is the inherited decision, authorized in the current
generation.
-/
theorem effectiveDimension_entity {default : DecisionValue}
    {direct inherited : Option DimensionDecision}
    (taken : (effectiveDimension (some entity) default direct inherited).source = .entity)
    : ∃ decision,
        inherited = some decision
        ∧ (effectiveDimension (some entity) default direct inherited).eventId
          = some decision.eventId
        ∧ decision.authorizedGeneration = some entity.lifecycleGeneration := by
  cases direct with
  | some decision => simp [effectiveDimension] at taken
  | none =>
      cases inherited with
      | none => simp [effectiveDimension] at taken
      | some decision =>
          by_cases authorized : decision.authorizedGeneration = some entity.lifecycleGeneration
          · exact ⟨decision, rfl, by simp [effectiveDimension, authorized], authorized⟩
          · simp [effectiveDimension, authorized] at taken

variable {occurrence : OccurrenceView} {link : LinkProposal} {decisions : DecisionSnapshot}

/-- What the entity grants is its own snapshot, open and of the generation of the link. -/
theorem entityAuthority_eq_ok
    (granted : entityAuthority occurrence link (some entity) = .ok decisions)
    : decisions = entity.decisions
      ∧ entity.lifecycle = .open
      ∧ entity.lifecycleGeneration = link.guards.entityLifecycleGeneration := by
  simp only [entityAuthority] at granted
  split_ifs at granted with _ _ review generation
  simp only [not_or, ne_eq, not_not] at review generation
  exact ⟨(Except.ok.inj granted).symm, review.2, generation⟩

/-- Where decisions are inherited the policy is active under the event of the link, and the
entity grants them.
-/
theorem inheritedDecisions_eq_ok {entity : Option EntitySnapshot}
    {registry : PolicyRegistrySnapshot sha256}
    (resolved : inheritedDecisions occurrence (some link) entity registry = .ok (.ok decisions))
    : (∃ entry, registry.active link.guards.policyDigest = some entry
        ∧ entry.activationEventId = link.guards.activationEventId)
      ∧ entityAuthority occurrence link entity = .ok decisions := by
  simp only [inheritedDecisions] at resolved
  obtain ⟨described, _, resolved⟩ := bind_ok.mp resolved
  split_ifs at resolved
  · simp at resolved
  · unfold policyAuthority at resolved
    cases found : registry.active link.guards.policyDigest with
    | none => simp [found] at resolved
    | some entry =>
        simp only [found] at resolved
        split_ifs at resolved with other stale
        · simp at resolved
        · simp at resolved
        · obtain ⟨identified, _, resolved⟩ := bind_ok.mp resolved
          split_ifs at resolved
          · simp at resolved
          · exact ⟨⟨entry, rfl, not_not.mp other⟩, Except.ok.inj resolved⟩

/-- Where a policy is active under an event that was used before, it was active under that
event throughout. Witness: by induction downwards, a step that starts a period takes an unused
event.
-/
theorem RegistryRun.active_throughout {registries : Nat → PolicyRegistrySnapshot sha256}
    {length : Nat} (run : RegistryRun registries length) {policyDigest event : Text}
    (used : event ∈ (registries 0).usedActivationEventIds)
    (finish : ∃ entry, (registries length).active policyDigest = some entry
      ∧ entry.activationEventId = event) {i : Nat} (bounded : i ≤ length)
    : ∃ entry, (registries i).active policyDigest = some entry
        ∧ entry.activationEventId = event := by
  refine run.backward (fun registry => event ∈ registry.usedActivationEventIds)
    (fun registry => ∃ entry, registry.active policyDigest = some entry
      ∧ entry.activationEventId = event)
    ?_ (fun j _ inside => run.used (Nat.zero_le j) inside.le used) finish bounded (Nat.le_refl length)
  intro before after step known ⟨entry, active, same⟩
  obtain ⟨member, digest, state⟩ := after.active_eq_some_iff.mp active
  rcases (registryStep_of_ok step).entries entry member with
    ⟨_, unused⟩ | ⟨prior, among, priorDigest, unchanged, kept⟩
  · exact absurd known (same ▸ unused)
  · have priorState : prior.state = .active := by
      cases priorCase : prior.state with
      | active => rfl
      | revoked => exact absurd ⟨priorCase, state⟩ unchanged
    refine ⟨prior, ?_, kept.symm.trans same⟩
    exact before.active_eq_some_iff.mpr ⟨among, priorDigest.trans digest, priorState⟩

/-- Inherited decisions never outlive their authority. A link of a plan made against the first
registry and the first snapshot of the entity passes decisions on only where the policy was
active under the same event in every registry since, and the entity open in the same generation
in every snapshot since; a dimension taken from the entity was authorized in that generation.
Witness: used events stay used and generations only grow, so equal ends have equal middles.
-/
theorem inheritance_within_authority (sha256 : Bytes → Bytes)
    (before after : DetectionInventory sha256) (policyDigest : Text) (lineage : LineageSnapshot)
    (predecessorEntities : List PredecessorEntity) (plan : ContinuityPlan)
    (registries : Nat → PolicyRegistrySnapshot sha256) (registryLength : Nat)
    (entities : Nat → EntitySnapshot) (entityLength : Nat)
    (planned : planContinuity before after policyDigest (registries 0) lineage predecessorEntities
      = .ok plan)
    (registryRun : RegistryRun registries registryLength)
    (entityRun : EntityRun entities entityLength)
    (link : LinkProposal) (proposed : link ∈ plan.links)
    (association : PredecessorEntity) (among : association ∈ predecessorEntities)
    (associated : association.occurrenceId = link.predecessorOccurrenceId)
    (start : association.entity = entities 0)
    (occurrence : OccurrenceView) (direct : Option DecisionSnapshot) (result : EffectiveDecisions)
    (resolved : effectiveDecisions occurrence (some link) (some (entities entityLength))
      (registries registryLength) direct = .ok result)
    (inherits : result.inheritanceActive = true)
    : (∀ i ≤ registryLength, ∃ entry,
        (registries i).active policyDigest = some entry
        ∧ entry.activationEventId = link.guards.activationEventId)
      ∧ (∀ i ≤ entityLength,
          (entities i).lifecycle = .open
          ∧ (entities i).lifecycleGeneration = link.guards.entityLifecycleGeneration)
      ∧ (result.verdict.source = .entity → ∃ decision,
          (entities entityLength).decisions.verdict = some decision
          ∧ result.verdict.eventId = some decision.eventId
          ∧ decision.authorizedGeneration = some link.guards.entityLifecycleGeneration)
      ∧ (result.suppression.source = .entity → ∃ decision,
          (entities entityLength).decisions.suppression = some decision
          ∧ result.suppression.eventId = some decision.eventId
          ∧ decision.authorizedGeneration = some link.guards.entityLifecycleGeneration) := by
  obtain ⟨old, new, entry, linked⟩ := linked_of_mem_links planned proposed among associated
  simp only [effectiveDecisions, check_ok] at resolved
  obtain ⟨inherited, resolves, built⟩ := bind_ok.mp resolved.2
  have result_eq := Except.ok.inj built
  subst result_eq
  cases inherited with
  | error reason => simp [Except.toOption] at inherits
  | ok decisions =>
      obtain ⟨active, granted⟩ := inheritedDecisions_eq_ok resolves
      obtain ⟨rfl, opened, generation⟩ := entityAuthority_eq_ok granted
      rw [linked.joins.policyDigest] at active
      have used : link.guards.activationEventId ∈ (registries 0).usedActivationEventIds := by
        rw [linked.joins.activationEventId]
        exact (registries 0).event_used
          ((registries 0).active_eq_some_iff.mp linked.comparable.active).1
      have planGeneration
          : (entities 0).lifecycleGeneration = link.guards.entityLifecycleGeneration := by
        rw [linked.joins.generation, start]
      refine ⟨fun i bounded => registryRun.active_throughout used active bounded,
        fun i bounded => ?_, fun taken => ?_, fun taken => ?_⟩
      · have steady {i : Nat} (inside : i ≤ entityLength) :=
          entityRun.steady (generation.trans planGeneration.symm) inside
        obtain ⟨lifecycle, same⟩ := steady bounded
        refine ⟨?_, same.trans planGeneration⟩
        rw [lifecycle, ← (steady (Nat.le_refl _)).1, opened]
      · obtain ⟨decision, found, event, authorized⟩ := effectiveDimension_entity taken
        exact ⟨decision, found, event, authorized.trans (congrArg some generation)⟩
      · obtain ⟨decision, found, event, authorized⟩ := effectiveDimension_entity taken
        exact ⟨decision, found, event, authorized.trans (congrArg some generation)⟩

end Resolution

/-- The entity after a human suppressed it in the same generation. -/
def suppressedEntity : EntitySnapshot where
  entityId := py "entity"
  cohort := reviewedCohort
  lifecycle := .open
  revision := 1
  decisions := {
    targetScope := .entity, targetId := py "entity", cohort := reviewedCohort, revision := 1
    verdict := confirmedEntity.decisions.verdict
    suppression := some {
      value := .active, eventId := py "event-2", revision := 1, references := []
      authorizedGeneration := some 0, accepted := by decide +kernel }
    metadata := none, accepted := by decide +kernel }
  lifecycleGeneration := 0
  accepted := by decide +kernel

def suppression : HumanAuthorization where
  entityId := py "entity"
  cohort := reviewedCohort
  dimension := .suppression
  event := .decision {
    value := .active, eventId := py "event-2", revision := 1, references := []
    authorizedGeneration := some 0, accepted := by decide }
  authorityRef := py "reviewer"
  accepted := by decide

/-- The snapshots of the entity. -/
def suppressing : Nat → EntitySnapshot
  | 0 => confirmedEntity
  | _ => suppressedEntity

theorem suppressing_runs : EntityRun suppressing 1 := by
  intro i inside
  obtain rfl : i = 0 := by omega
  exact ⟨none, [suppression], by decide +kernel⟩

theorem scanRegistry_runs : RegistryRun (fun i => scanRegistry (i + 1)) 1 := by
  intro i inside
  obtain rfl : i = 0 := by omega
  decide +kernel

theorem effectiveDecisions_scans
    : effectiveDecisions newOccurrence (some scanLink) (some suppressedEntity) (scanRegistry 2) none
      = .ok {
          verdict := ⟨.confirmed, .entity, some (py "event-1"), []⟩
          suppression := ⟨.active, .entity, some (py "event-2"), []⟩
          inheritanceActive := true
          inheritanceBlockReason := none } := by
  simp only [effectiveDecisions, inheritedDecisions, linkDescribes, newOccurrence_digest, ok_bind]
  decide +kernel

theorem inheritance_within_authority_scans
    : (∀ i ≤ 1, ∃ entry,
        (scanRegistry (i + 1)).active scanLink.guards.policyDigest = some entry
        ∧ entry.activationEventId = py "activation-1")
      ∧ ∀ i ≤ 1, (suppressing i).lifecycle = .open ∧ (suppressing i).lifecycleGeneration = 0 := by
  obtain ⟨policy, entity, _⟩ := inheritance_within_authority scanSha256 oldInventory newInventory
    scanLink.guards.policyDigest scanLineage [scanAssociation] scanPlan
    (fun i => scanRegistry (i + 1)) 1 suppressing 1 planContinuity_scans scanRegistry_runs
    suppressing_runs scanLink List.mem_cons_self scanAssociation List.mem_cons_self rfl rfl
    newOccurrence none _ effectiveDecisions_scans rfl
  exact ⟨policy, entity⟩

end Scanipy.Services.Continuity

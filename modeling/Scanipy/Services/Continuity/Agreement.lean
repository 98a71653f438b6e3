import Scanipy.Services.Continuity.Effective

/-! Planner and reader: what a plan writes into a link is what the reader of the link checks,
and the plan does not depend on the order in which its inputs are listed.
-/

namespace Scanipy.Services.Continuity

open Analysis Library Python

section Agreement

variable {sha256 : Bytes → Bytes} {before after : DetectionInventory sha256} {policyDigest : Text}
  {registry : PolicyRegistrySnapshot sha256} {lineage : LineageSnapshot}
  {predecessorEntities : List PredecessorEntity}

-- What the planner writes

/-- The fields of a link that a reader compares, as the planner writes them. -/
structure Recorded (policyDigest : Text) (registry : PolicyRegistrySnapshot sha256)
    (entry : PolicyEntry sha256) (new : OccurrenceView) (entity : EntitySnapshot)
    (link : LinkProposal) : Prop where
  occurrenceId : link.currentOccurrenceId = new.occurrenceId
  digest : occurrenceDigest sha256 new = .ok link.currentOccurrenceDigest
  profile : profileOf new = .ok (some link.profile)
  sliceDigest : new.sliced.artifact.digest = some link.sliceDigest
  graphDigest : new.graph.artifact.digest = some link.currentGraphDigest
  inherits : link.inheritEntityDecisions = decide (entity.lifecycle = .open)
  entityId : link.entityId = entity.entityId
  cohort : link.guards.cohort = new.cohort
  scanId : link.guards.currentScanId = new.scanId
  registryRevision : link.guards.registryRevision = registry.revision
  policyDigest : link.guards.policyDigest = policyDigest
  activationEventId : link.guards.activationEventId = entry.activationEventId
  guardedEntityId : link.guards.entityId = entity.entityId
  entityRevision : link.guards.entityRevision = entity.revision
  generation : link.guards.entityLifecycleGeneration = entity.lifecycleGeneration
  decisionRevision : link.guards.decisionRevision = entity.decisions.revision

variable {entry : PolicyEntry sha256} {new : OccurrenceView} {entity : EntitySnapshot}
  {link : LinkProposal}

variable {profiles : Dict Text CompatibilityProfile}

theorem proposeLink_records {old : OccurrenceView} (member : new ∈ after.occurrences)
    (described : profileOf new = .ok (profiles.get? new.occurrenceId))
    (ran : proposeLink before after policyDigest registry lineage entry profiles new old entity
      = .ok link)
    : Recorded policyDigest registry entry new entity link := by
  obtain ⟨scanId, cohort⟩ := after.closed.2 new member
  unfold proposeLink at ran
  split at ran
  next sliceDigest graphDigest _ profile sliced graphed _ profiled =>
    obtain ⟨guards, built, ran⟩ := bind_ok.mp ran
    obtain ⟨digest, digested, ran⟩ := bind_ok.mp ran
    obtain ⟨_, rfl⟩ := construct_ok.mp built
    cases ran
    exact {
      occurrenceId := rfl, digest := digested, profile := profiled ▸ described
      sliceDigest := sliced, graphDigest := graphed, inherits := rfl, entityId := rfl
      cohort := cohort.symm, scanId := scanId.symm, registryRevision := rfl, policyDigest := rfl
      activationEventId := rfl, guardedEntityId := rfl, entityRevision := rfl, generation := rfl
      decisionRevision := rfl }
  next => cases ran

/-- A round that links an occurrence proposes the link to a predecessor with an entity. -/
theorem dispose_link {associations : Dict Text EntitySnapshot}
    {previous current : List OccurrenceView} {disposition : OccurrenceDisposition}
    (ran : dispose before after policyDigest registry lineage entry associations profiles previous
      current new = .ok disposition) (proposed : disposition.link = some link)
    : ∃ old entity,
        associations.get? old.occurrenceId = some entity
        ∧ proposeLink before after policyDigest registry lineage entry profiles new old entity
          = .ok link := by
  simp only [dispose] at ran
  split at ran
  · cases ran
    cases proposed
  · split at ran
    · cases ran
      cases proposed
    next old _ =>
      split at ran
      · cases ran
        cases proposed
      next entity associated =>
        obtain ⟨written, wrote, ran⟩ := bind_ok.mp ran
        cases ran
        cases proposed
        exact ⟨old, entity, associated, wrote⟩

/-- Every link of a plan records its occurrence and the entity associated with its predecessor,
which is of the same cohort, under the active policy.
-/
theorem recorded_of_mem_links {plan : ContinuityPlan}
    (planned : planContinuity before after policyDigest registry lineage predecessorEntities
      = .ok plan) (proposed : link ∈ plan.links) (member : new ∈ after.occurrences)
    (linked : new.occurrenceId = link.currentOccurrenceId) {association : PredecessorEntity}
    (among : association ∈ predecessorEntities)
    (associated : association.occurrenceId = link.predecessorOccurrenceId)
    : ∃ entry,
        registry.active policyDigest = some entry
        ∧ link.profile ∈ entry.definition.profiles
        ∧ association.entity.cohort = new.cohort
        ∧ Recorded policyDigest registry entry new association.entity link := by
  obtain ⟨associations, listed, keys, apart, cohorts, same, ran⟩ := planGroup_of_planned planned
  rcases planGroup_ok listed apart ran with
    ⟨_, reason, rfl⟩ | ⟨entry, profiles, dispositions, comparable, described, disposed, rfl⟩
  · simp [blockedPlan, ContinuityPlan.links] at proposed
  · obtain ⟨disposition, disposes, carries⟩ := ContinuityPlan.mem_links.mp proposed
    obtain ⟨found, foundMember, round⟩ := exists_mem_of_result disposed disposes
    obtain ⟨old, entity, stored, wrote⟩ := dispose_link round carries
    have foundAfter := after.byId_perm.mem_iff.mp foundMember
    have described := described found (List.mem_append_right _ foundMember)
    have records := proposeLink_records foundAfter described wrote
    obtain ⟨predecessorId, _⟩ := proposeLink_ok wrote
    have occurrence : found = new := List.inj_on_of_nodup_map after.closed.1 foundAfter member
      (records.occurrenceId.symm.trans linked.symm)
    have snapshot : associations.get? old.occurrenceId = some association.entity := by
      rw [← predecessorId, ← associated]
      apply Dict.get?_of_mem keys
      rw [listed]
      exact List.mem_map_of_mem among
    have entitySame : entity = association.entity := by
      rw [stored] at snapshot
      exact Option.some.inj snapshot
    subst occurrence entitySame
    refine ⟨entry, comparable.active, ?_, ?_, records⟩
    · obtain ⟨profile, allowed, own⟩ :=
        comparable.eligible found (List.mem_append_right _ foundAfter)
      rw [records.profile] at own
      cases own
      exact allowed
    · rw [cohorts association among, same, (after.closed.2 found foundAfter).2]

theorem entityAuthority_recorded (cohort : entity.cohort = new.cohort)
    (records : Recorded policyDigest registry entry new entity link)
    : entityAuthority new link (some entity)
      = if entity.lifecycle ≠ .open then .error "entity_requires_fresh_human_review"
        else if CurrentlyAuthorized entity then .ok entity.decisions
        else .error "no_current_generation_human_authorization" := by
  have identified : ¬(entity.entityId ≠ link.entityId ∨ entity.cohort ≠ new.cohort) := by
    simp [records.entityId, cohort]
  have fresh : ¬(entity.revision < link.guards.entityRevision
      ∨ entity.decisions.revision < link.guards.decisionRevision) := by
    simp [records.entityRevision, records.decisionRevision]
  simp only [entityAuthority, if_neg identified, if_neg fresh, records.inherits, records.generation]
  by_cases opened : entity.lifecycle = .open <;> by_cases current : CurrentlyAuthorized entity
    <;> simp [opened, current]

/-- The reader reaches the checks of the lifecycle and of the human authorization. -/
theorem inheritedDecisions_recorded (active : registry.active policyDigest = some entry)
    (allowed : link.profile ∈ entry.definition.profiles) (cohort : entity.cohort = new.cohort)
    (records : Recorded policyDigest registry entry new entity link)
    : inheritedDecisions new (some link) (some entity) registry
      = .ok (if entity.lifecycle ≠ .open then .error "entity_requires_fresh_human_review"
        else if CurrentlyAuthorized entity then .ok entity.decisions
        else .error "no_current_generation_human_authorization") := by
  have describes : linkDescribes sha256 link new = .ok true := by
    simp [linkDescribes, records.occurrenceId, records.digest, records.cohort, records.scanId,
      records.guardedEntityId, records.entityId, ok_bind]
  have identifies : linkIdentifies entry link new = .ok true := by
    simp [linkIdentifies, allowed, records.profile, records.sliceDigest, records.graphDigest,
      ok_bind]
  simp only [inheritedDecisions, describes, ok_bind, policyAuthority, records.policyDigest, active,
    records.activationEventId, records.registryRevision, identifies]
  simp [entityAuthority_recorded cohort records]

-- Rearranged inputs

/-- The same inventory with its tuples in another order. -/
structure Rearranged (inventory other : DetectionInventory sha256) : Prop where
  scanId : other.scanId = inventory.scanId
  captureId : other.captureId = inventory.captureId
  sourceTreeDigest : other.sourceTreeDigest = inventory.sourceTreeDigest
  cohort : other.cohort = inventory.cohort
  detectionState : other.detectionState = inventory.detectionState
  isSealed : other.sealed = inventory.sealed
  sealedOccurrenceIds : other.sealedOccurrenceIds.Perm inventory.sealedOccurrenceIds
  occurrences : other.occurrences.Perm inventory.occurrences
  evidenceRefs : other.evidenceRefs.Perm inventory.evidenceRefs

variable {occurrences : List OccurrenceView} {others : List OccurrenceView}

/-- Occurrences with distinct ids sort into one list. -/
theorem sortedBy_occurrences (perm : others.Perm occurrences)
    (distinct : (occurrences.map OccurrenceView.occurrenceId).Nodup)
    : sortedBy OccurrenceView.occurrenceId others
      = sortedBy OccurrenceView.occurrenceId occurrences :=
  (sortedBy_eq_of_perm perm.symm fun _ first _ second same =>
    List.inj_on_of_nodup_map distinct first second same).symm

variable {ids refs : List Text}

/-- The digest covers the tuples as sets. -/
theorem inventoryJson_perm {scanId captureId sourceTreeDigest : Text} {cohort : CohortKey}
    {detectionState : DetectionState} {isSealed : Bool} {otherIds : List Text}
    {otherRefs : List Text} (idsPerm : otherIds.Perm ids) (perm : others.Perm occurrences)
    (refsPerm : otherRefs.Perm refs)
    (distinct : (occurrences.map OccurrenceView.occurrenceId).Nodup)
    : inventoryJson scanId captureId sourceTreeDigest cohort detectionState isSealed otherIds others
        otherRefs
      = inventoryJson scanId captureId sourceTreeDigest cohort detectionState isSealed ids
          occurrences refs := by
  simp only [inventoryJson, sorted_eq_sorted.mpr idsPerm, sorted_eq_sorted.mpr refsPerm,
    sortedBy_occurrences perm distinct]

/-- The content digest of an inventory is that of its fields. -/
theorem DetectionInventory.contentDigest_eq (inventory : DetectionInventory sha256)
    : hashJson sha256 "scanipy-continuity-inventory/1"
        (inventoryJson inventory.scanId inventory.captureId inventory.sourceTreeDigest
          inventory.cohort inventory.detectionState inventory.sealed inventory.sealedOccurrenceIds
          inventory.occurrences inventory.evidenceRefs)
      = .ok inventory.contentDigest := by
  have accepted := inventory.accepted
  simp only [inventoryPostInit, inventoryDigest, check_ok] at accepted
  obtain ⟨_, _, _, _, _, _, _, _, _, digested⟩ := accepted
  obtain ⟨expected, computed, same⟩ := bind_ok.mp digested
  rw [computed, raiseUnless_ok.mp same]

variable {inventory other : DetectionInventory sha256}

theorem Rearranged.contentDigest (rearranged : Rearranged inventory other)
    : other.contentDigest = inventory.contentDigest := by
  have own := other.contentDigest_eq
  rw [rearranged.scanId, rearranged.captureId, rearranged.sourceTreeDigest, rearranged.cohort,
    rearranged.detectionState, rearranged.isSealed,
    inventoryJson_perm rearranged.sealedOccurrenceIds rearranged.occurrences
      rearranged.evidenceRefs inventory.closed.1,
    inventory.contentDigest_eq] at own
  exact (Except.ok.inj own).symm

theorem Rearranged.byId (rearranged : Rearranged inventory other)
    : other.byId = inventory.byId :=
  sortedBy_occurrences rearranged.occurrences inventory.closed.1

/-- The constructor accepts every rearrangement under the same content digest. -/
def DetectionInventory.rearrange (inventory : DetectionInventory sha256) (ids : List Text)
    (occurrences : List OccurrenceView) (refs : List Text)
    (idsPerm : ids.Perm inventory.sealedOccurrenceIds)
    (perm : occurrences.Perm inventory.occurrences) (refsPerm : refs.Perm inventory.evidenceRefs)
    : DetectionInventory sha256 :=
  { inventory with
    sealedOccurrenceIds := ids
    occurrences
    evidenceRefs := refs
    accepted := by
      have accepted := inventory.accepted
      have listed := perm.map OccurrenceView.occurrenceId
      simp only [inventoryPostInit, inventoryDigest, checkReferences, check_ok,
        raiseUnless_ok, visit_ok, List.subset_def,
        inventoryJson_perm idsPerm perm refsPerm inventory.closed.1, idsPerm.mem_iff, perm.mem_iff,
        refsPerm.mem_iff, listed.mem_iff, idsPerm.nodup_iff, refsPerm.nodup_iff, listed.nodup_iff,
        refsPerm.length_eq, ne_eq, List.eq_nil_iff_length_eq_zero] at accepted ⊢
      exact accepted }

theorem DetectionInventory.rearrange_rearranged (inventory : DetectionInventory sha256)
    (idsPerm : ids.Perm inventory.sealedOccurrenceIds)
    (perm : occurrences.Perm inventory.occurrences) (refsPerm : refs.Perm inventory.evidenceRefs)
    : Rearranged inventory (inventory.rearrange ids occurrences refs idsPerm perm refsPerm) :=
  ⟨rfl, rfl, rfl, rfl, rfl, rfl, idsPerm, perm, refsPerm⟩

section Plans

variable {other next : DetectionInventory sha256} {associations others : Dict Text EntitySnapshot}
  (first : Rearranged before other) (second : Rearranged after next)

include first second

/-- The links name the scans, the cohort and the content digests, and nothing in a tuple. -/
theorem proposeLink_rearranged
    : proposeLink other next policyDigest registry lineage
      = proposeLink before after policyDigest registry lineage := by
  have digest := first.contentDigest
  have nextDigest := second.contentDigest
  have scanId := first.scanId
  have nextScanId := second.scanId
  have cohort := second.cohort
  cases before
  cases after
  cases other
  cases next
  simp only at digest nextDigest scanId nextScanId cohort
  subst digest nextDigest scanId nextScanId cohort
  rfl

theorem dispose_rearranged (same : ∀ id, others.get? id = associations.get? id)
    (entry : PolicyEntry sha256) (profiles : Dict Text CompatibilityProfile)
    (previous current : List OccurrenceView)
    : dispose other next policyDigest registry lineage entry others profiles previous current
      = dispose before after policyDigest registry lineage entry associations profiles previous
          current := by
  funext item
  simp only [dispose, same, proposeLink_rearranged first second]

theorem planGroup_rearranged (same : ∀ id, others.get? id = associations.get? id)
    (perm : List.Perm others associations) (previous current : List OccurrenceView)
    : planGroup other next policyDigest registry lineage others previous current
      = planGroup before after policyDigest registry lineage associations previous current := by
  simp only [planGroup, first.isSealed, second.isSealed, first.detectionState,
    second.detectionState, (perm.map fun association => association.2.entityId).nodup_iff,
    dispose_rearranged first second same]

/-- A plan depends on its tuples as sets. Witness: the occurrences are sorted by their distinct
ids, the digests cover sorted tuples, and the association table is read by id.
-/
theorem planContinuity_rearranged {entities : List PredecessorEntity}
    (perm : entities.Perm predecessorEntities)
    : planContinuity other next policyDigest registry lineage entities
      = planContinuity before after policyDigest registry lineage predecessorEntities := by
  have previous : sortedBy OccurrenceView.occurrenceId other.occurrences
      = sortedBy OccurrenceView.occurrenceId before.occurrences := first.byId
  have current : sortedBy OccurrenceView.occurrenceId next.occurrences
      = sortedBy OccurrenceView.occurrenceId after.occurrences := second.byId
  have empty : (Dict.keys ([] : Dict Text EntitySnapshot)).Nodup := List.nodup_nil
  have ids := perm.map PredecessorEntity.occurrenceId
  have associable
      : Associable before.cohort
          ((sortedBy OccurrenceView.occurrenceId before.occurrences).map OccurrenceView.occurrenceId)
          entities []
        ↔ Associable before.cohort
          ((sortedBy OccurrenceView.occurrenceId before.occurrences).map OccurrenceView.occurrenceId)
          predecessorEntities [] := by
    simp only [Associable, perm.mem_iff, Dict.keys, List.map_nil, List.nil_append, ids.nodup_iff]
  simp only [planContinuity, first.cohort, second.cohort, first.scanId, second.scanId, previous,
    current, associate_eq empty, associable]
  congr 1
  funext _
  congr 1
  funext _
  congr 1
  funext _
  split_ifs with once
  · have listed := perm.map fun association => (association.occurrenceId, association.entity)
    simp only [List.nil_append, ok_bind]
    refine planGroup_rearranged first second (fun id => ?_) listed _ _
    have keys : (Dict.keys (predecessorEntities.map fun association =>
        (association.occurrenceId, association.entity))).Nodup := by
      simpa [Dict.keys, Function.comp_def] using once.1
    exact Dict.get?_perm listed keys id
  · rfl

end Plans

/-- Planner and reader agree. For every link of a plan the reader of the same registry, asked
for the linked occurrence and the entity of its predecessor, lets decisions through exactly where
that entity is open and has a human decision of its current generation; otherwise it names one of
these two conditions and no mismatch. And a plan, returned or refused, is the same for every order
of the tuples it is made from. Witness: the reader compares what the planner recorded from the
same values, and the planner reads its tuples sorted or by id.
-/
theorem planner_reader_agree (sha256 : Bytes → Bytes) (before after : DetectionInventory sha256)
    (policyDigest : Text) (registry : PolicyRegistrySnapshot sha256) (lineage : LineageSnapshot)
    (predecessorEntities : List PredecessorEntity)
    : (∀ plan,
        planContinuity before after policyDigest registry lineage predecessorEntities = .ok plan
        → ∀ link ∈ plan.links,
          (∃ new ∈ after.occurrences, new.occurrenceId = link.currentOccurrenceId)
          ∧ (∃ association ∈ predecessorEntities,
              association.occurrenceId = link.predecessorOccurrenceId)
          ∧ ∀ new ∈ after.occurrences, new.occurrenceId = link.currentOccurrenceId
            → ∀ association ∈ predecessorEntities,
              association.occurrenceId = link.predecessorOccurrenceId
            → ∃ result,
                effectiveDecisions new (some link) (some association.entity) registry none
                  = .ok result
                ∧ (result.inheritanceActive = true
                  ↔ association.entity.lifecycle = .open ∧ CurrentlyAuthorized association.entity)
                ∧ (result.inheritanceBlockReason = none
                  ∨ result.inheritanceBlockReason = some "entity_requires_fresh_human_review"
                  ∨ result.inheritanceBlockReason
                    = some "no_current_generation_human_authorization"))
      ∧ ∀ (other next : DetectionInventory sha256) (entities : List PredecessorEntity),
          Rearranged before other → Rearranged after next → entities.Perm predecessorEntities
          → planContinuity other next policyDigest registry lineage entities
            = planContinuity before after policyDigest registry lineage predecessorEntities := by
  refine ⟨fun plan planned link proposed => ⟨?_, ?_, ?_⟩,
    fun other next entities first second perm => planContinuity_rearranged first second perm⟩
  · obtain ⟨_, new, _, _, member, linked⟩ := exists_linked_of_mem_links planned proposed
    exact ⟨new, member, linked.joins.currentOccurrenceId.symm⟩
  · obtain ⟨_, _, _, association, _, linked⟩ := exists_linked_of_mem_links planned proposed
    exact ⟨association, linked.among,
      linked.associated.trans linked.joins.predecessorOccurrenceId.symm⟩
  · intro new member linked association among associated
    obtain ⟨entry, active, allowed, cohort, records⟩ :=
      recorded_of_mem_links planned proposed member linked among associated
    have resolved := inheritedDecisions_recorded active allowed cohort records
    simp only [effectiveDecisions, resolved]
    by_cases opened : association.entity.lifecycle = .open
    · by_cases current : CurrentlyAuthorized association.entity
      · simp [opened, current, raiseUnless, ok_bind, Except.toOption]
      · simp [opened, current, raiseUnless, ok_bind, Except.toOption]
    · simp [opened, raiseUnless, ok_bind, Except.toOption]

end Agreement

theorem planner_reader_agree_scans
    : (∃ result,
        effectiveDecisions newOccurrence (some scanLink) (some confirmedEntity) (scanRegistry 1) none
          = .ok result
        ∧ (result.inheritanceActive = true
          ↔ confirmedEntity.lifecycle = .open ∧ CurrentlyAuthorized confirmedEntity))
      ∧ planContinuity
          (oldInventory.rearrange [py "old"] [oldOccurrence] [py "evidence"] (List.Perm.refl _)
            (List.Perm.refl _) (List.Perm.refl _))
          newInventory scanLink.guards.policyDigest (scanRegistry 1) scanLineage [scanAssociation]
        = planContinuity oldInventory newInventory scanLink.guards.policyDigest (scanRegistry 1)
            scanLineage [scanAssociation] := by
  obtain ⟨agree, rearranged⟩ := planner_reader_agree scanSha256 oldInventory newInventory
    scanLink.guards.policyDigest (scanRegistry 1) scanLineage [scanAssociation]
  obtain ⟨_, _, reads⟩ := agree scanPlan planContinuity_scans scanLink List.mem_cons_self
  constructor
  · obtain ⟨result, resolved, active, _⟩ := reads newOccurrence List.mem_cons_self rfl
      scanAssociation List.mem_cons_self rfl
    exact ⟨result, resolved, active⟩
  · refine rearranged _ _ _ (oldInventory.rearrange_rearranged _ _ _) ?_ (List.Perm.refl _)
    exact ⟨rfl, rfl, rfl, rfl, rfl, rfl, List.Perm.refl _, List.Perm.refl _, List.Perm.refl _⟩

end Scanipy.Services.Continuity

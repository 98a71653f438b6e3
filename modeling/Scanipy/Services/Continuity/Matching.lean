import Mathlib.Data.Finset.Card
import Scanipy.Services.Continuity.Plan

/-! What a plan links: a partial matching between the occurrences of two scans. -/

namespace Scanipy.Services.Continuity

open Analysis Library Python

/-- Every association is of an id and a cohort that are asked for, and no id comes twice. -/
def Associable (cohort : CohortKey) (previousIds : List Text)
    (predecessorEntities : List PredecessorEntity) (start : Dict Text EntitySnapshot) : Prop :=
  (start.keys ++ predecessorEntities.map PredecessorEntity.occurrenceId).Nodup
  ∧ ∀ association ∈ predecessorEntities,
      association.occurrenceId ∈ previousIds ∧ association.entity.cohort = cohort

instance (cohort : CohortKey) (previousIds : List Text)
    (predecessorEntities : List PredecessorEntity) (start : Dict Text EntitySnapshot)
    : Decidable (Associable cohort previousIds predecessorEntities start) :=
  inferInstanceAs (Decidable (_ ∧ _))

variable {predecessorEntities : List PredecessorEntity}

/-- The association table lists the associations as they come, or one of them is refused.
Witness: the loop refuses an id that it has, by induction on the associations.
-/
theorem associate_eq {cohort : CohortKey} {previousIds : List Text}
    {start : Dict Text EntitySnapshot} (distinct : start.keys.Nodup)
    : associate cohort previousIds predecessorEntities start
      = if Associable cohort previousIds predecessorEntities start then
          .ok (start ++ predecessorEntities.map fun association =>
            (association.occurrenceId, association.entity))
        else
          .error (.valueError
            "invalid/duplicate/cross-scope predecessor entity association") := by
  induction predecessorEntities generalizing start with
  | nil => simp [associate, Associable, distinct]
  | cons association rest ih =>
      by_cases accepted : association.occurrenceId ∈ previousIds
          ∧ association.entity.cohort = cohort ∧ association.occurrenceId ∉ start.keys
      · have later : Associable cohort previousIds rest
              (start.set association.occurrenceId association.entity)
            ↔ Associable cohort previousIds (association :: rest) start := by
          simp [Associable, Dict.set_of_not_mem accepted.2.2, Dict.keys, accepted.1, accepted.2.1]
        simp only [associate, raiseUnless, if_pos accepted, ok_bind,
          ih (Dict.nodup_keys_set distinct _ _), later]
        simp [Dict.set_of_not_mem accepted.2.2]
      · have refused : ¬Associable cohort previousIds (association :: rest) start := by
          intro associable
          obtain ⟨once, within⟩ := associable
          obtain ⟨known, same⟩ := within association List.mem_cons_self
          refine accepted ⟨known, same, fun present => ?_⟩
          exact (List.nodup_append.mp once).2.2 _ present _ List.mem_cons_self rfl
        simp only [associate, raiseUnless, if_neg accepted, if_neg refused]
        rfl

/-- The occurrence has a profile, and it is allowed. -/
def Eligible (allowed : List CompatibilityProfile) (item : OccurrenceView) : Prop :=
  ∃ profile ∈ allowed, profileOf item = .ok (some profile)

variable {profiles : Dict Text CompatibilityProfile}

variable {allowed : List CompatibilityProfile} {items : List OccurrenceView}
  {start : Dict Text CompatibilityProfile}

/-- A complete profile table holds the profile of every occurrence, and all are allowed.
By induction on the occurrences: a later one has another id and overwrites nothing.
-/
theorem collectProfiles_eq_some (ran : collectProfiles allowed items start = .ok (some profiles))
    (distinct : (items.map OccurrenceView.occurrenceId).Nodup)
    : (∀ item ∈ items, Eligible allowed item
        ∧ profileOf item = .ok (profiles.get? item.occurrenceId))
      ∧ ∀ id ∉ items.map OccurrenceView.occurrenceId, profiles.get? id = start.get? id := by
  induction items generalizing start with
  | nil =>
      simp only [collectProfiles, Except.ok.injEq, Option.some.injEq] at ran
      simp [ran]
  | cons head rest ih =>
      simp only [collectProfiles] at ran
      obtain ⟨found, described, ran⟩ := bind_ok.mp ran
      cases found with
      | none => simp at ran
      | some profile =>
          simp only at ran
          split at ran
          next allowedProfile =>
            obtain ⟨fresh, restDistinct⟩ := List.nodup_cons.mp distinct
            obtain ⟨each, others⟩ := ih ran restDistinct
            have own : profiles.get? head.occurrenceId = some profile := by
              simp [others _ fresh, Dict.get?_set]
            refine ⟨?_, fun id outside => ?_⟩
            · intro item member
              rcases List.mem_cons.mp member with rfl | later
              · exact ⟨⟨profile, allowedProfile, described⟩, by simp [described, own]⟩
              · exact each item later
            · simp only [List.map_cons, List.mem_cons, not_or] at outside
              simp [others id outside.2, Dict.get?_set, Ne.symm outside.1]
          next => simp at ran

/-- Where the table stays incomplete some occurrence is not eligible, by induction on the
occurrences.
-/
theorem collectProfiles_eq_none (ran : collectProfiles allowed items start = .ok none)
    : ∃ item ∈ items, ¬Eligible allowed item := by
  induction items generalizing start with
  | nil => simp [collectProfiles] at ran
  | cons head rest ih =>
      simp only [collectProfiles] at ran
      obtain ⟨found, described, ran⟩ := bind_ok.mp ran
      cases found with
      | none => exact ⟨head, List.mem_cons_self, by simp [Eligible, described]⟩
      | some profile =>
          simp only at ran
          split at ran
          next =>
            obtain ⟨item, member, ineligible⟩ := ih ran
            exact ⟨item, List.mem_cons_of_mem _ member, ineligible⟩
          next refused => exact ⟨head, List.mem_cons_self, by simp [Eligible, described, refused]⟩

/-- The profile and the slice digest of an occurrence. -/
def identityOf (item : OccurrenceView) : Except PyError (Option CompatibilityProfile) × Option Text :=
  (profileOf item, item.sliced.artifact.digest)

/-- No other occurrence of the group has the identity of this one. -/
def Alone (group : List OccurrenceView) (item : OccurrenceView) : Prop :=
  ∀ other ∈ group, identityOf other = identityOf item → other = item

/-- Both have one identity, and each is the only one of its scan that has it. -/
structure Counterpart (previous current : List OccurrenceView) (old new : OccurrenceView)
    : Prop where
  predecessor : old ∈ previous
  identity : identityOf old = identityOf new
  oldAlone : Alone previous old
  newAlone : Alone current new

variable {old new : OccurrenceView} {previous current : List OccurrenceView}

variable {other : OccurrenceView}

theorem Counterpart.old_unique (here : Counterpart previous current old new)
    (there : Counterpart previous current other new)
    : old = other :=
  there.oldAlone old here.predecessor (here.identity.trans there.identity.symm)

theorem Counterpart.new_unique (here : Counterpart previous current old new)
    (there : Counterpart previous current old other) (member : new ∈ current)
    : new = other :=
  there.newAlone new member (here.identity.symm.trans there.identity)

/-- A key counted at most once in a list without repetition has at most one holder. -/
theorem count_map_le_one_iff {γ κ : Type} [DecidableEq γ] [BEq κ] [LawfulBEq κ] {items : List γ}
    (distinct : items.Nodup) (key : γ → κ) (value : κ)
    : (items.map key).count value ≤ 1
      ↔ ∀ first ∈ items, ∀ second ∈ items, key first = value → key second = value → first = second := by
  have counted : (items.map key).count value
      = (items.filter fun item => key item == value).toFinset.card := by
    rw [List.toFinset_card_of_nodup (distinct.filter _), ← List.countP_eq_length_filter,
      List.count, List.countP_map, Function.comp_def]
  rw [counted, Finset.card_le_one]
  simp only [List.mem_toFinset, List.mem_filter, beq_iff_eq, and_imp]
  exact ⟨fun h first firstMember second secondMember same other =>
      h first firstMember same second secondMember other,
    fun h first firstMember same second secondMember other =>
      h first firstMember second secondMember same other⟩

section Rounds

variable {profiles : Dict Text CompatibilityProfile} {previous current : List OccurrenceView}
  (described : ∀ item ∈ previous ++ current, profileOf item = .ok (profiles.get? item.occurrenceId))

include described

theorem identityKey_eq {first second : OccurrenceView} (firstMember : first ∈ previous ++ current)
    (secondMember : second ∈ previous ++ current)
    : identityKey profiles first = identityKey profiles second
      ↔ identityOf first = identityOf second := by
  simp [identityKey, identityOf, described first firstMember, described second secondMember]

variable (previousDistinct : previous.Nodup) (currentDistinct : current.Nodup)

include previousDistinct currentDistinct

/-- The counts and the lookup of a round find the counterpart. -/
theorem counterpart_iff (old : OccurrenceView) (member : new ∈ current)
    : Counterpart previous current old new
      ↔ (previous.map (identityKey profiles)).count (identityKey profiles new) ≤ 1
        ∧ (current.map (identityKey profiles)).count (identityKey profiles new) ≤ 1
        ∧ previous.find? (fun item => identityKey profiles item = identityKey profiles new)
          = some old := by
  have inCurrent := List.mem_append_right previous member
  rw [count_map_le_one_iff previousDistinct, count_map_le_one_iff currentDistinct]
  constructor
  · intro counterpart
    have key {item : OccurrenceView} (among : item ∈ previous)
        (same : identityKey profiles item = identityKey profiles new)
        : item = old := by
      rw [identityKey_eq described (List.mem_append_left _ among) inCurrent] at same
      exact counterpart.oldAlone item among (same.trans counterpart.identity.symm)
    have own : identityKey profiles old = identityKey profiles new :=
      (identityKey_eq described (List.mem_append_left _ counterpart.predecessor) inCurrent).mpr
        counterpart.identity
    refine ⟨fun first firstMember second secondMember firstKey secondKey => ?_,
      fun first firstMember second secondMember firstKey secondKey => ?_, ?_⟩
    · rw [key firstMember firstKey, key secondMember secondKey]
    · rw [identityKey_eq described (List.mem_append_right _ firstMember) inCurrent] at firstKey
      rw [identityKey_eq described (List.mem_append_right _ secondMember) inCurrent] at secondKey
      rw [counterpart.newAlone first firstMember firstKey,
        counterpart.newAlone second secondMember secondKey]
    · obtain ⟨found, lookup⟩ : ∃ found,
          previous.find? (fun item => identityKey profiles item = identityKey profiles new)
            = some found := by
        refine Option.isSome_iff_exists.mp (List.find?_isSome.mpr ⟨old, counterpart.predecessor, ?_⟩)
        simp [own]
      have matched := List.find?_some lookup
      simp only [decide_eq_true_eq] at matched
      rw [lookup, key (List.mem_of_find?_eq_some lookup) matched]
  · intro ⟨oldOnce, newOnce, lookup⟩
    have among := List.mem_of_find?_eq_some lookup
    have own := List.find?_some lookup
    simp only [decide_eq_true_eq] at own
    have identity := (identityKey_eq described (List.mem_append_left _ among) inCurrent).mp own
    refine ⟨among, identity, fun other otherMember same => ?_, fun other otherMember same => ?_⟩
    · refine oldOnce other otherMember old among ?_ own
      exact (identityKey_eq described (List.mem_append_left _ otherMember) inCurrent).mpr
        (same.trans identity)
    · refine newOnce other otherMember new member ?_ rfl
      exact (identityKey_eq described (List.mem_append_right _ otherMember) inCurrent).mpr same

end Rounds

-- Links

/-- The link joins the two occurrences to the entity, under the policy entry. -/
structure Joins {sha256 : Bytes → Bytes} (policyDigest : Text) (entry : PolicyEntry sha256)
    (entity : EntitySnapshot) (old new : OccurrenceView) (link : LinkProposal) : Prop where
  predecessorOccurrenceId : link.predecessorOccurrenceId = old.occurrenceId
  currentOccurrenceId : link.currentOccurrenceId = new.occurrenceId
  entityId : link.entityId = entity.entityId
  policyDigest : link.guards.policyDigest = policyDigest
  activationEventId : link.guards.activationEventId = entry.activationEventId
  generation : link.guards.entityLifecycleGeneration = entity.lifecycleGeneration
  inherits : link.inheritEntityDecisions = true → entity.lifecycle = .open

section Links

variable {sha256 : Bytes → Bytes} {before after : DetectionInventory sha256} {policyDigest : Text}
  {registry : PolicyRegistrySnapshot sha256} {lineage : LineageSnapshot}

variable {link : LinkProposal} {entry : PolicyEntry sha256}

theorem proposeLink_ok {entity : EntitySnapshot}
    (ran : proposeLink before after policyDigest registry lineage entry profiles new old entity
      = .ok link)
    : Joins policyDigest entry entity old new link := by
  unfold proposeLink at ran
  split at ran
  next =>
    obtain ⟨guards, built, ran⟩ := bind_ok.mp ran
    obtain ⟨digest, _, ran⟩ := bind_ok.mp ran
    obtain ⟨_, rfl⟩ := construct_ok.mp built
    cases ran
    exact ⟨rfl, rfl, rfl, rfl, rfl, rfl, of_decide_eq_true⟩
  next => cases ran

variable {disposition : OccurrenceDisposition} {associations : Dict Text EntitySnapshot}

/-- What a round of the plan does with an occurrence: it is linked to its counterpart, or it
has none that has an entity.
-/
theorem dispose_ok (described : ∀ item ∈ previous ++ current,
      profileOf item = .ok (profiles.get? item.occurrenceId)) (previousDistinct : previous.Nodup)
    (currentDistinct : current.Nodup) (member : new ∈ current)
    (ran : dispose before after policyDigest registry lineage entry associations profiles previous
      current new = .ok disposition)
    : disposition.occurrenceId = new.occurrenceId
      ∧ ((∃ old entity link,
          Counterpart previous current old new
          ∧ associations.get? old.occurrenceId = some entity
          ∧ Joins policyDigest entry entity old new link
          ∧ disposition.status = .linked ∧ disposition.link = some link)
        ∨ ((∀ old, Counterpart previous current old new
            → associations.get? old.occurrenceId = none)
          ∧ disposition.status ≠ .linked ∧ disposition.link = none)) := by
  have counterpart (old : OccurrenceView) :=
    counterpart_iff described previousDistinct currentDistinct old member
  simp only [dispose] at ran
  split at ran
  next ambiguous =>
    cases ran
    refine ⟨rfl, .inr ⟨fun old found => ?_, by simp, rfl⟩⟩
    obtain ⟨oldOnce, newOnce, _⟩ := (counterpart old).mp found
    omega
  next unambiguous =>
    cases lookup : previous.find? (fun old =>
      identityKey profiles old = identityKey profiles new) with
    | none =>
        simp only [lookup, Except.ok.injEq] at ran
        subst ran
        refine ⟨rfl, .inr ⟨fun old found => ?_, by simp, rfl⟩⟩
        rw [((counterpart old).mp found).2.2] at lookup
        cases lookup
    | some old =>
        have found : Counterpart previous current old new := by
          apply (counterpart old).mpr
          exact ⟨by omega, by omega, lookup⟩
        simp only [lookup] at ran
        cases linked : associations.get? old.occurrenceId with
        | none =>
            simp only [linked, Except.ok.injEq] at ran
            subst ran
            refine ⟨rfl, .inr ⟨fun other otherFound => ?_, by simp, rfl⟩⟩
            rw [otherFound.old_unique found]
            exact linked
        | some entity =>
            simp only [linked] at ran
            obtain ⟨link, proposed, ran⟩ := bind_ok.mp ran
            cases ran
            exact ⟨rfl, .inl ⟨old, entity, link, found, linked, proposeLink_ok proposed, rfl,
              rfl⟩⟩

/-- No group block applies: both scans are complete, the policy is active, entities and sinks
are unambiguous, and every occurrence is eligible.
-/
structure Comparable (before after : DetectionInventory sha256) (policyDigest : Text)
    (registry : PolicyRegistrySnapshot sha256) (predecessorEntities : List PredecessorEntity)
    (entry : PolicyEntry sha256) : Prop where
  isSealed : before.sealed = true ∧ after.sealed = true
  completed : before.detectionState = .completed ∧ after.detectionState = .completed
  active : registry.active policyDigest = some entry
  entities : (predecessorEntities.map fun association => association.entity.entityId).Nodup
  sinks : ¬SharedSink before.occurrences ∧ ¬SharedSink after.occurrences
  eligible : ∀ item ∈ before.occurrences ++ after.occurrences,
    Eligible entry.definition.profiles item

/-- The occurrences of an inventory in the order of the plan. -/
def DetectionInventory.byId (inventory : DetectionInventory sha256) : List OccurrenceView :=
  sortedBy OccurrenceView.occurrenceId inventory.occurrences

theorem DetectionInventory.byId_perm (inventory : DetectionInventory sha256)
    : inventory.byId.Perm inventory.occurrences :=
  sortedBy_perm _ _

theorem DetectionInventory.byId_ids (inventory : DetectionInventory sha256)
    : (inventory.byId.map OccurrenceView.occurrenceId).Nodup :=
  (inventory.byId_perm.map _).nodup_iff.mpr inventory.closed.1

theorem sharedSink_byId (inventory : DetectionInventory sha256)
    : SharedSink inventory.byId ↔ SharedSink inventory.occurrences :=
  not_congr (inventory.byId_perm.map _).nodup_iff

variable {plan : ContinuityPlan}

/-- A group is either blocked, or comparable and disposed of occurrence by occurrence. -/
theorem planGroup_ok (listed : associations = predecessorEntities.map fun association =>
      (association.occurrenceId, association.entity))
    (apart : ((before.byId ++ after.byId).map OccurrenceView.occurrenceId).Nodup)
    (ran : planGroup before after policyDigest registry lineage associations before.byId after.byId
      = .ok plan)
    : ((∀ entry, ¬Comparable before after policyDigest registry predecessorEntities entry)
        ∧ ∃ reason, plan = blockedPlan before.byId after.byId reason)
      ∨ ∃ entry profiles dispositions,
          Comparable before after policyDigest registry predecessorEntities entry
          ∧ (∀ item ∈ before.byId ++ after.byId,
              profileOf item = .ok (profiles.get? item.occurrenceId))
          ∧ Metered.collect
              (dispose before after policyDigest registry lineage entry associations profiles
                before.byId after.byId)
              after.byId
            = .ok dispositions
          ∧ plan = {
              dispositions
              retainedPredecessorIds := sorted ((before.byId.map OccurrenceView.occurrenceId).filter
                fun id => id ∉ dispositions.filterMap fun disposition =>
                  disposition.link.map LinkProposal.predecessorOccurrenceId) } := by
  have members {item : OccurrenceView}
      : item ∈ before.byId ++ after.byId ↔ item ∈ before.occurrences ++ after.occurrences := by
    simp [before.byId_perm.mem_iff, after.byId_perm.mem_iff]
  have entityIds : associations.map (fun association => association.2.entityId)
      = predecessorEntities.map fun association => association.entity.entityId := by
    simp [listed]
  simp only [planGroup, sharedSink_byId, entityIds] at ran
  split at ran
  next unsealed =>
    refine .inl ⟨fun entry comparable => ?_, _, (Except.ok.inj ran).symm⟩
    simp [comparable.isSealed] at unsealed
  next isSealed =>
    split at ran
    next incomplete =>
      refine .inl ⟨fun entry comparable => ?_, _, (Except.ok.inj ran).symm⟩
      simp [comparable.completed] at incomplete
    next completed =>
      cases found : registry.active policyDigest with
      | none =>
          simp only [found] at ran
          refine .inl ⟨fun entry comparable => ?_, _, (Except.ok.inj ran).symm⟩
          simp [comparable.active] at found
      | some entry =>
          have sameEntry {other : PolicyEntry sha256}
              (comparable : Comparable before after policyDigest registry predecessorEntities other)
              : other = entry := by
            simpa [comparable.active] using found
          simp only [found] at ran
          split at ran
          next ambiguous =>
            refine .inl ⟨fun entry comparable => ?_, _, (Except.ok.inj ran).symm⟩
            exact ambiguous comparable.entities
          next entities =>
            split at ran
            next shared =>
              refine .inl ⟨fun entry comparable => ?_, _, (Except.ok.inj ran).symm⟩
              simp [comparable.sinks] at shared
            next sinks =>
              obtain ⟨collected, collects, ran⟩ := bind_ok.mp ran
              cases collected with
              | none =>
                  refine .inl ⟨fun other comparable => ?_, _, (Except.ok.inj ran).symm⟩
                  obtain ⟨item, member, ineligible⟩ := collectProfiles_eq_none collects
                  cases sameEntry comparable
                  exact ineligible (comparable.eligible item (members.mp member))
              | some profiles =>
                  obtain ⟨dispositions, disposed, ran⟩ := bind_ok.mp ran
                  obtain ⟨each, _⟩ := collectProfiles_eq_some collects apart
                  have comparable
                      : Comparable before after policyDigest registry predecessorEntities entry := {
                    isSealed := by simpa using isSealed
                    completed := by simpa using completed
                    active := found
                    entities := not_not.mp entities
                    sinks := not_or.mp sinks
                    eligible := fun item member => (each item (members.mpr member)).1 }
                  exact .inr ⟨entry, profiles, dispositions, comparable,
                    fun item member => (each item member).2, disposed, (Except.ok.inj ran).symm⟩

/-- The link joins an occurrence to its counterpart and the entity of that. -/
structure Linked (before after : DetectionInventory sha256) (policyDigest : Text)
    (registry : PolicyRegistrySnapshot sha256) (predecessorEntities : List PredecessorEntity)
    (old new : OccurrenceView) (entry : PolicyEntry sha256) (association : PredecessorEntity)
    (link : LinkProposal) : Prop where
  comparable : Comparable before after policyDigest registry predecessorEntities entry
  counterpart : Counterpart before.occurrences after.occurrences old new
  among : association ∈ predecessorEntities
  associated : association.occurrenceId = old.occurrenceId
  joins : Joins policyDigest entry association.entity old new link

/-- What a plan says of an occurrence, in terms of the inputs: it is linked to its counterpart
and the entity of that, or the scans are not comparable or there is no such counterpart.
-/
inductive Disposed (before after : DetectionInventory sha256) (policyDigest : Text)
    (registry : PolicyRegistrySnapshot sha256) (predecessorEntities : List PredecessorEntity)
    (new : OccurrenceView) : OccurrenceDisposition → Prop where
  | linked {old : OccurrenceView} {entry : PolicyEntry sha256} {association : PredecessorEntity}
      {link : LinkProposal} {reason : String}
      (linked : Linked before after policyDigest registry predecessorEntities old new entry
        association link)
      : Disposed before after policyDigest registry predecessorEntities new
          ⟨new.occurrenceId, .linked, reason, some link⟩
  | unlinked {status : DispositionStatus} {reason : String}
      (lacking : ∀ entry,
        Comparable before after policyDigest registry predecessorEntities entry
        → ∀ old, Counterpart before.occurrences after.occurrences old new
        → ∀ association ∈ predecessorEntities, association.occurrenceId ≠ old.occurrenceId)
      (apart : status ≠ .linked)
      : Disposed before after policyDigest registry predecessorEntities new
          ⟨new.occurrenceId, status, reason, none⟩

theorem counterpart_byId
    : Counterpart before.byId after.byId old new
      ↔ Counterpart before.occurrences after.occurrences old new := by
  have alone {inventory : DetectionInventory sha256} {item : OccurrenceView}
      : Alone inventory.byId item ↔ Alone inventory.occurrences item :=
    forall_congr' fun other => imp_congr inventory.byId_perm.mem_iff Iff.rfl
  constructor
  · intro found
    exact ⟨before.byId_perm.mem_iff.mp found.predecessor, found.identity, alone.mp found.oldAlone,
      alone.mp found.newAlone⟩
  · intro found
    exact ⟨before.byId_perm.mem_iff.mpr found.predecessor, found.identity,
      alone.mpr found.oldAlone, alone.mpr found.newAlone⟩

/-- The links that a plan proposes. -/
def ContinuityPlan.links (plan : ContinuityPlan) : List LinkProposal :=
  plan.dispositions.filterMap OccurrenceDisposition.link

theorem ContinuityPlan.mem_links
    : link ∈ plan.links ↔ ∃ disposition ∈ plan.dispositions, disposition.link = some link :=
  List.mem_filterMap

/-- A plan that is returned is the plan of its groups: the association table lists the
associations, which are of the cohort of the earlier scan, and no id stands in both scans.
-/
theorem planGroup_of_planned
    (planned : planContinuity before after policyDigest registry lineage predecessorEntities
      = .ok plan)
    : ∃ associations : Dict Text EntitySnapshot,
        associations = predecessorEntities.map (fun association =>
          (association.occurrenceId, association.entity))
        ∧ associations.keys.Nodup
        ∧ ((before.byId ++ after.byId).map OccurrenceView.occurrenceId).Nodup
        ∧ (∀ association ∈ predecessorEntities, association.entity.cohort = before.cohort)
        ∧ before.cohort = after.cohort
        ∧ planGroup before after policyDigest registry lineage associations before.byId after.byId
          = .ok plan := by
  simp only [planContinuity, check_ok, raiseUnless_ok] at planned
  obtain ⟨_, ⟨cohort, _⟩, fresh, planned⟩ := planned
  have empty : (Dict.keys ([] : Dict Text EntitySnapshot)).Nodup := List.nodup_nil
  rw [associate_eq empty] at planned
  split_ifs at planned with associable
  · obtain ⟨keys, within⟩ := associable
    refine ⟨_, rfl, ?_, ?_, fun association among => (within association among).2, cohort, planned⟩
    · simpa [Dict.keys, Function.comp_def] using keys
    · rw [List.map_append]
      refine List.Nodup.append before.byId_ids after.byId_ids fun id old new => ?_
      obtain ⟨item, member, rfl⟩ := List.mem_map.mp new
      exact fresh item member old
  · cases planned

/-- A plan disposes of the current occurrences one by one and retains the predecessors that
no link names.
-/
theorem planContinuity_eq_ok
    (planned : planContinuity before after policyDigest registry lineage predecessorEntities
      = .ok plan)
    : List.Forall₂ (Disposed before after policyDigest registry predecessorEntities) after.byId
        plan.dispositions
      ∧ plan.retainedPredecessorIds
        = sorted ((before.byId.map OccurrenceView.occurrenceId).filter
            fun id => id ∉ plan.links.map LinkProposal.predecessorOccurrenceId)
      ∧ (plan.groupBlockReason = none
        ↔ ∃ entry, Comparable before after policyDigest registry predecessorEntities entry)
      ∧ (predecessorEntities.map PredecessorEntity.occurrenceId).Nodup := by
  obtain ⟨associations, listed, keys, apart, _, _, ran⟩ := planGroup_of_planned planned
  have entities {id : Text} {entity : EntitySnapshot}
      : associations.get? id = some entity
        ↔ ∃ association ∈ predecessorEntities,
            association.occurrenceId = id ∧ association.entity = entity := by
    constructor
    · intro found
      simpa [listed] using Dict.mem_of_get? found
    · rintro ⟨association, among, rfl, rfl⟩
      apply Dict.get?_of_mem keys
      rw [listed]
      exact List.mem_map_of_mem among
  have once : (predecessorEntities.map PredecessorEntity.occurrenceId).Nodup := by
    simpa [listed, Dict.keys, Function.comp_def] using keys
  rcases planGroup_ok listed apart ran with
    ⟨incomparable, reason, rfl⟩ | ⟨entry, profiles, dispositions, comparable, described, disposed,
      rfl⟩
  · refine ⟨?_, ?_, by simp [blockedPlan, incomparable], once⟩
    · simp only [blockedPlan, List.forall₂_map_right_iff, List.forall₂_same]
      exact fun new member => .unlinked (fun entry comparable => absurd comparable (incomparable entry))
        (by simp)
    · simp [blockedPlan, ContinuityPlan.links]
  · refine ⟨?_, ?_, by simpa using ⟨entry, comparable⟩, once⟩
    · have rounds := (List.forall₂_and_left after.byId dispositions).mpr
        ⟨fun _ member => member, collect_ok_iff.mp disposed⟩
      refine rounds.imp fun new disposition round => ?_
      obtain ⟨member, round⟩ := round
      obtain ⟨id, outcome⟩ := dispose_ok described before.byId_ids.of_map after.byId_ids.of_map
        member round
      obtain ⟨occurrenceId, status, reason, link⟩ := disposition
      simp only at id outcome
      subst id
      rcases outcome with ⟨old, entity, link, counterpart, found, joins, rfl, rfl⟩ | ⟨lacking, status, rfl⟩
      · obtain ⟨association, among, same, rfl⟩ := entities.mp found
        exact .linked ⟨comparable, counterpart_byId.mp counterpart, among, same, joins⟩
      · refine .unlinked (fun _ _ old counterpart association among same => ?_) status
        have found := entities.mpr ⟨association, among, same, rfl⟩
        simp [lacking old (counterpart_byId.mpr counterpart)] at found
    · simp [ContinuityPlan.links, List.map_filterMap]

-- The matching

variable {predecessorEntities : List PredecessorEntity}

theorem Disposed.occurrenceId
    (disposed : Disposed before after policyDigest registry predecessorEntities new disposition)
    : disposition.occurrenceId = new.occurrenceId := by
  cases disposed <;> rfl

theorem Disposed.status
    (disposed : Disposed before after policyDigest registry predecessorEntities new disposition)
    : disposition.status = .linked ↔ disposition.link ≠ none := by
  cases disposed with
  | linked => simp
  | unlinked _ apart => simp [apart]

theorem Disposed.of_link
    (disposed : Disposed before after policyDigest registry predecessorEntities new disposition)
    (proposed : disposition.link = some link)
    : ∃ old entry association,
        Linked before after policyDigest registry predecessorEntities old new entry association
          link := by
  cases disposed with
  | linked linked =>
      cases proposed
      exact ⟨_, _, _, linked⟩
  | unlinked => cases proposed

variable {association : PredecessorEntity}

/-- The links of two occurrences have different predecessors and different entities. Witness:
an occurrence has one counterpart, and no entity has two predecessors.
-/
theorem Linked.apart {otherOld otherNew : OccurrenceView} {otherEntry : PolicyEntry sha256}
    {otherAssociation : PredecessorEntity} {otherLink : LinkProposal}
    (here : Linked before after policyDigest registry predecessorEntities old new entry association
      link) (there : Linked before after policyDigest registry predecessorEntities otherOld otherNew
      otherEntry otherAssociation otherLink) (member : new ∈ after.occurrences)
    (different : new.occurrenceId ≠ otherNew.occurrenceId)
    : link.predecessorOccurrenceId ≠ otherLink.predecessorOccurrenceId
      ∧ link.entityId ≠ otherLink.entityId := by
  have predecessors : old.occurrenceId ≠ otherOld.occurrenceId := by
    intro same
    have oldSame : old = otherOld := List.inj_on_of_nodup_map before.closed.1
      here.counterpart.predecessor there.counterpart.predecessor same
    subst oldSame
    exact different (by rw [here.counterpart.new_unique there.counterpart member])
  refine ⟨?_, fun same => ?_⟩
  · rw [here.joins.predecessorOccurrenceId, there.joins.predecessorOccurrenceId]
    exact predecessors
  · rw [here.joins.entityId, there.joins.entityId] at same
    have associationSame : association = otherAssociation :=
      List.inj_on_of_nodup_map here.comparable.entities here.among there.among same
    apply predecessors
    rw [← here.associated, ← there.associated, associationSame]

theorem exists_linked_of_mem_links
    (planned : planContinuity before after policyDigest registry lineage predecessorEntities
      = .ok plan) (proposed : link ∈ plan.links)
    : ∃ old new entry association,
        new ∈ after.occurrences
        ∧ Linked before after policyDigest registry predecessorEntities old new entry association
            link := by
  obtain ⟨disposition, member, same⟩ := ContinuityPlan.mem_links.mp proposed
  obtain ⟨new, among, round⟩ :=
    exists_related_of_mem (planContinuity_eq_ok planned).1.flip member
  obtain ⟨old, entry, association, linked⟩ := round.of_link same
  exact ⟨old, new, entry, association, after.byId_perm.mem_iff.mp among, linked⟩

/-- A link of a plan goes to the entity associated with its predecessor. Witness: a predecessor
is associated once, and has one entity.
-/
theorem linked_of_mem_links
    (planned : planContinuity before after policyDigest registry lineage predecessorEntities
      = .ok plan) (proposed : link ∈ plan.links) (among : association ∈ predecessorEntities)
    (associated : association.occurrenceId = link.predecessorOccurrenceId)
    : ∃ old new entry,
        Linked before after policyDigest registry predecessorEntities old new entry association
          link := by
  obtain ⟨_, _, _, once⟩ := planContinuity_eq_ok planned
  obtain ⟨old, new, entry, found, _, linked⟩ := exists_linked_of_mem_links planned proposed
  have foundSame : found = association := by
    refine List.inj_on_of_nodup_map once linked.among among ?_
    rw [linked.associated, associated, linked.joins.predecessorOccurrenceId]
  exact ⟨old, new, entry, foundSame ▸ linked⟩

/-- A plan is a partial matching. Every current occurrence has one disposition; links pair
distinct predecessors, distinct occurrences and distinct entities; two occurrences are linked
exactly when the scans are comparable, both have the same identity that no other of their scan
has, with a profile of the active policy, and the predecessor has an entity; the predecessors
retained are those without link.
-/
theorem planContinuity_matching (sha256 : Bytes → Bytes) (before after : DetectionInventory sha256)
    (policyDigest : Text) (registry : PolicyRegistrySnapshot sha256) (lineage : LineageSnapshot)
    (predecessorEntities : List PredecessorEntity) (plan : ContinuityPlan)
    (planned : planContinuity before after policyDigest registry lineage predecessorEntities
      = .ok plan)
    : (plan.dispositions.map OccurrenceDisposition.occurrenceId).Perm
        (after.occurrences.map OccurrenceView.occurrenceId)
      ∧ (plan.dispositions.map OccurrenceDisposition.occurrenceId).Nodup
      ∧ (∀ disposition ∈ plan.dispositions,
          (disposition.status = .linked ↔ disposition.link ≠ none)
          ∧ ∀ link, disposition.link = some link
            → link.currentOccurrenceId = disposition.occurrenceId)
      ∧ plan.links.Pairwise (fun first second =>
          first.predecessorOccurrenceId ≠ second.predecessorOccurrenceId
          ∧ first.currentOccurrenceId ≠ second.currentOccurrenceId
          ∧ first.entityId ≠ second.entityId)
      ∧ (∀ link ∈ plan.links,
          ∃ old ∈ before.occurrences, ∃ new ∈ after.occurrences,
            ∃ association ∈ predecessorEntities,
              link.predecessorOccurrenceId = old.occurrenceId
              ∧ link.currentOccurrenceId = new.occurrenceId
              ∧ association.occurrenceId = old.occurrenceId
              ∧ link.entityId = association.entity.entityId)
      ∧ (plan.groupBlockReason = none
          ↔ ∃ entry, Comparable before after policyDigest registry predecessorEntities entry)
      ∧ (∀ old ∈ before.occurrences, ∀ new ∈ after.occurrences,
          (∃ link ∈ plan.links,
            link.predecessorOccurrenceId = old.occurrenceId
            ∧ link.currentOccurrenceId = new.occurrenceId)
          ↔ ∃ entry,
              Comparable before after policyDigest registry predecessorEntities entry
              ∧ identityOf old = identityOf new
              ∧ Alone before.occurrences old
              ∧ Alone after.occurrences new
              ∧ Eligible entry.definition.profiles new
              ∧ ∃ association ∈ predecessorEntities,
                  association.occurrenceId = old.occurrenceId)
      ∧ plan.retainedPredecessorIds.Nodup
      ∧ ∀ id, id ∈ plan.retainedPredecessorIds
          ↔ id ∈ before.occurrences.map OccurrenceView.occurrenceId
            ∧ ∀ link ∈ plan.links, link.predecessorOccurrenceId ≠ id := by
  obtain ⟨disposed, retained, unblocked, _⟩ := planContinuity_eq_ok planned
  have ids : plan.dispositions.map OccurrenceDisposition.occurrenceId
      = after.byId.map OccurrenceView.occurrenceId := by
    symm
    rw [← List.forall₂_eq_eq_eq, List.forall₂_map_left_iff, List.forall₂_map_right_iff]
    exact disposed.imp fun new disposition round => round.occurrenceId.symm
  have distinct : (plan.dispositions.map OccurrenceDisposition.occurrenceId).Nodup :=
    ids ▸ after.byId_ids
  have rounds {disposition : OccurrenceDisposition} (member : disposition ∈ plan.dispositions)
      : ∃ new ∈ after.occurrences,
          Disposed before after policyDigest registry predecessorEntities new disposition := by
    obtain ⟨new, among, round⟩ := exists_related_of_mem disposed.flip member
    exact ⟨new, after.byId_perm.mem_iff.mp among, round⟩
  refine ⟨ids ▸ after.byId_perm.map _, distinct, fun disposition member => ?_, ?_,
    fun link member => ?_, unblocked, fun old oldMember new newMember => ?_, ?_, fun id => ?_⟩
  · obtain ⟨new, _, round⟩ := rounds member
    refine ⟨round.status, fun link proposed => ?_⟩
    obtain ⟨_, _, _, linked⟩ := round.of_link proposed
    rw [linked.joins.currentOccurrenceId, round.occurrenceId]
  · apply List.pairwise_filterMap.mpr
    refine List.Pairwise.imp_of_mem ?_ (List.pairwise_map.mp distinct)
    intro first second firstMember secondMember different link proposed otherLink otherProposed
    obtain ⟨new, member, round⟩ := rounds firstMember
    obtain ⟨otherNew, _, otherRound⟩ := rounds secondMember
    obtain ⟨_, _, _, linked⟩ := round.of_link proposed
    obtain ⟨_, _, _, otherLinked⟩ := otherRound.of_link otherProposed
    rw [round.occurrenceId, otherRound.occurrenceId] at different
    obtain ⟨predecessors, entities⟩ := linked.apart otherLinked member different
    refine ⟨predecessors, ?_, entities⟩
    rw [linked.joins.currentOccurrenceId, otherLinked.joins.currentOccurrenceId]
    exact different
  · obtain ⟨disposition, among, proposed⟩ := ContinuityPlan.mem_links.mp member
    obtain ⟨new, newMember, round⟩ := rounds among
    obtain ⟨old, _, association, linked⟩ := round.of_link proposed
    exact ⟨old, linked.counterpart.predecessor, new, newMember, association, linked.among,
      linked.joins.predecessorOccurrenceId, linked.joins.currentOccurrenceId, linked.associated,
      linked.joins.entityId⟩
  · constructor
    · intro ⟨link, member, oldId, newId⟩
      obtain ⟨disposition, among, proposed⟩ := ContinuityPlan.mem_links.mp member
      obtain ⟨found, foundMember, round⟩ := rounds among
      obtain ⟨predecessor, entry, association, linked⟩ := round.of_link proposed
      have oldSame : predecessor = old := List.inj_on_of_nodup_map before.closed.1
        linked.counterpart.predecessor oldMember (linked.joins.predecessorOccurrenceId.symm.trans oldId)
      have newSame : found = new := List.inj_on_of_nodup_map after.closed.1 foundMember newMember
        (linked.joins.currentOccurrenceId.symm.trans newId)
      subst oldSame newSame
      exact ⟨entry, linked.comparable, linked.counterpart.identity, linked.counterpart.oldAlone,
        linked.counterpart.newAlone,
        linked.comparable.eligible _ (List.mem_append_right _ newMember), association, linked.among,
        linked.associated⟩
    · intro ⟨entry, comparable, identity, oldAlone, newAlone, _, association, among, associated⟩
      obtain ⟨disposition, member, round⟩ :=
        exists_related_of_mem disposed (after.byId_perm.mem_iff.mpr newMember)
      have counterpart : Counterpart before.occurrences after.occurrences old new :=
        ⟨oldMember, identity, oldAlone, newAlone⟩
      cases round with
      | linked linked =>
          refine ⟨_, ContinuityPlan.mem_links.mpr ⟨_, member, rfl⟩, ?_,
            linked.joins.currentOccurrenceId⟩
          rw [linked.joins.predecessorOccurrenceId, linked.counterpart.old_unique counterpart]
      | unlinked lacking =>
          exact absurd associated (lacking entry comparable old counterpart association among)
  · rw [retained, (sorted_perm _).nodup_iff]
    exact before.byId_ids.filter _
  · have listed : id ∈ before.byId.map OccurrenceView.occurrenceId
        ↔ id ∈ before.occurrences.map OccurrenceView.occurrenceId :=
      (before.byId_perm.map _).mem_iff
    simp [retained, listed]

end Links

-- Two scans

def reviewedCohort : CohortKey where
  orgId := py "org"
  codebaseId := py "codebase"
  repositoryId := py "repository"
  lineageId := py "main"
  origin := .deterministicCore
  engine := py "ifds"
  detectorId := py "detector"
  vulnerabilityClass := py "sql-injection"
  language := py "java"
  ruleSemanticDigest := digestText 5
  sVersion := py "1.2.3"
  accepted := by decide +kernel

theorem reviewedCohort_encodable : reviewedCohort.json.Encodable := by
  simp [CohortKey.json, reviewedCohort, Origin.text]

def graphSeen : IdentityObservation where
  artifact := {
    status := .completed, digest := some (hex (toBytes 32 6))
    fingerprintClass := some (py "strong"), ns := some graphV2, accepted := by decide +kernel }
  evidenceRefs := [py "evidence"]
  failureReason := none
  accepted := by decide +kernel

def sliceSeen : IdentityObservation where
  artifact := {
    status := .completed, digest := some (hex (toBytes 32 7))
    fingerprintClass := some (py "strong"), ns := some sliceV2, accepted := by decide +kernel }
  evidenceRefs := [py "evidence"]
  failureReason := none
  accepted := by decide +kernel

theorem seen_encodable : graphSeen.json.Encodable ∧ sliceSeen.json.Encodable := by
  simp [IdentityObservation.json, graphSeen, sliceSeen, ArtifactStatus.text, optionalText, textArray,
    graphV2, sliceV2]

/-- An occurrence of the first scan. -/
def oldOccurrence : OccurrenceView where
  occurrenceId := py "old"
  scanId := py "scan-1"
  captureId := py "capture-1"
  sourceTreeDigest := digestText 8
  cohort := reviewedCohort
  rawResultDigest := digestText 9
  scanLocalSinkBinding := py "sink"
  duplicateAmbiguity := false
  graph := graphSeen
  sliced := sliceSeen
  binding := some reviewedBinding
  accepted := by decide +kernel

/-- The same in the second scan. -/
def newOccurrence : OccurrenceView where
  occurrenceId := py "new"
  scanId := py "scan-2"
  captureId := py "capture-2"
  sourceTreeDigest := digestText 10
  cohort := reviewedCohort
  rawResultDigest := digestText 11
  scanLocalSinkBinding := py "sink"
  duplicateAmbiguity := false
  graph := graphSeen
  sliced := sliceSeen
  binding := some reviewedBinding
  accepted := by decide +kernel

/-- The content of an inventory with this one occurrence. -/
def scanJson (occurrence : OccurrenceView) : Json :=
  inventoryJson occurrence.scanId occurrence.captureId occurrence.sourceTreeDigest reviewedCohort
    .completed true [occurrence.occurrenceId] [occurrence] [py "evidence"]

/-- SHA-256 on the contents compared. -/
def scanSha256 : Bytes → Bytes :=
  tableHash [
    (hashed policyNamespace reviewedPolicy.json,
      0x18fb28ba6964a6d7d5c3effe811f76643b995931e4411094346007a4421d6a14),
    (hashed "scanipy-continuity-inventory/1" (scanJson oldOccurrence),
      0x94640146ba126a48819746c95d8a1e5a226091d308ff3f3be60647095b5154fc),
    (hashed "scanipy-continuity-inventory/1" (scanJson newOccurrence),
      0x609587e8f6622e074abc248bf980220da1692ca8d350816ad1a3bfd73dcd99c7),
    (hashed "scanipy-continuity-occurrence-view/1" newOccurrence.json,
      0x4744fd7ad98d926bc16286597ba9d4c2ad55e1d9c26c314967155e47220dba12)]

theorem occurrences_encodable : oldOccurrence.json.Encodable ∧ newOccurrence.json.Encodable := by
  simp [OccurrenceView.json, oldOccurrence, newOccurrence, reviewedCohort_encodable, seen_encodable,
    reviewedBinding_encodable]

theorem scans_encodable
    : (scanJson oldOccurrence).Encodable ∧ (scanJson newOccurrence).Encodable := by
  have ids : oldOccurrence.occurrenceId.Encodable ∧ newOccurrence.occurrenceId.Encodable := by
    simp [oldOccurrence, newOccurrence]
  simp [scanJson, inventoryJson, textArray, sorted, sortedBy, reviewedCohort_encodable,
    occurrences_encodable, ids, DetectionState.text]
  simp [oldOccurrence, newOccurrence]

/-- The contents differ, each within its first hundred bytes. -/
theorem contents_differ
    : hashed policyNamespace reviewedPolicy.json
        ≠ hashed "scanipy-continuity-inventory/1" (scanJson oldOccurrence)
      ∧ hashed policyNamespace reviewedPolicy.json
        ≠ hashed "scanipy-continuity-inventory/1" (scanJson newOccurrence)
      ∧ hashed policyNamespace reviewedPolicy.json
        ≠ hashed "scanipy-continuity-occurrence-view/1" newOccurrence.json
      ∧ hashed "scanipy-continuity-inventory/1" (scanJson oldOccurrence)
        ≠ hashed "scanipy-continuity-inventory/1" (scanJson newOccurrence)
      ∧ hashed "scanipy-continuity-inventory/1" (scanJson oldOccurrence)
        ≠ hashed "scanipy-continuity-occurrence-view/1" newOccurrence.json
      ∧ hashed "scanipy-continuity-inventory/1" (scanJson newOccurrence)
        ≠ hashed "scanipy-continuity-occurrence-view/1" newOccurrence.json := by
  decide +kernel

theorem oldInventory_digest
    : hashJson scanSha256 "scanipy-continuity-inventory/1" (scanJson oldOccurrence)
      = .ok (digestText 0x94640146ba126a48819746c95d8a1e5a226091d308ff3f3be60647095b5154fc) := by
  apply hashJson_ok scans_encodable.1
  rw [scanSha256, tableHash_tail contents_differ.1, tableHash_head]

theorem newInventory_digest
    : hashJson scanSha256 "scanipy-continuity-inventory/1" (scanJson newOccurrence)
      = .ok (digestText 0x609587e8f6622e074abc248bf980220da1692ca8d350816ad1a3bfd73dcd99c7) := by
  obtain ⟨_, policy, _, old, _⟩ := contents_differ
  apply hashJson_ok scans_encodable.2
  rw [scanSha256, tableHash_tail policy, tableHash_tail old, tableHash_head]

theorem newOccurrence_digest
    : occurrenceDigest scanSha256 newOccurrence
      = .ok (digestText 0x4744fd7ad98d926bc16286597ba9d4c2ad55e1d9c26c314967155e47220dba12) := by
  obtain ⟨_, _, policy, _, old, new⟩ := contents_differ
  apply hashJson_ok occurrences_encodable.2
  rw [scanSha256, tableHash_tail policy, tableHash_tail old, tableHash_tail new, tableHash_head]

theorem scanPolicy_digest
    : reviewedPolicy.digest scanSha256
      = .ok (digestText 0x18fb28ba6964a6d7d5c3effe811f76643b995931e4411094346007a4421d6a14) :=
  hashJson_ok reviewedPolicy_encodable (tableHash_head _ _ _)

/-- A sealed inventory with one occurrence. -/
def scanInventory (occurrence : OccurrenceView) (digest : Nat)
    (known : hashJson scanSha256 "scanipy-continuity-inventory/1" (scanJson occurrence)
      = .ok (digestText digest))
    (named : IsText occurrence.scanId ∧ IsText occurrence.captureId ∧ IsText occurrence.occurrenceId)
    (digests : IsDigest occurrence.sourceTreeDigest ∧ IsDigest (digestText digest))
    (cohort : occurrence.cohort = reviewedCohort)
    : DetectionInventory scanSha256 where
  scanId := occurrence.scanId
  captureId := occurrence.captureId
  sourceTreeDigest := occurrence.sourceTreeDigest
  cohort := reviewedCohort
  detectionState := .completed
  sealed := true
  sealedOccurrenceIds := [occurrence.occurrenceId]
  occurrences := [occurrence]
  evidenceRefs := [py "evidence"]
  contentDigest := digestText digest
  accepted := by
    have evidence : checkReferences [py "evidence"] true = .ok () := by decide
    have content := known
    simp only [scanJson] at content
    simp [inventoryPostInit, inventoryDigest, content, ok_bind, check_ok, checkText,
      checkDigest, named, digests, evidence, visit_ok, cohort]

def oldInventory : DetectionInventory scanSha256 :=
  scanInventory oldOccurrence _ oldInventory_digest (by decide) (by decide) rfl

def newInventory : DetectionInventory scanSha256 :=
  scanInventory newOccurrence _ newInventory_digest (by decide) (by decide) rfl

def scanLineage : LineageSnapshot where
  cohort := reviewedCohort
  predecessorScanId := py "scan-1"
  currentScanId := py "scan-2"
  revision := 0
  accepted := by decide

def scanEntry : PolicyEntry scanSha256 :=
  reviewedEntry scanPolicy_digest .active (py "activation-1") activationOne_isText

/-- The policy is active; the revision is free. -/
def scanRegistry (revision : Nat) : PolicyRegistrySnapshot scanSha256 where
  revision
  entries := [scanEntry]
  usedActivationEventIds := [py "activation-1"]
  accepted := by decide

/-- The entity of the old occurrence, confirmed by a human. -/
def confirmedEntity : EntitySnapshot where
  entityId := py "entity"
  cohort := reviewedCohort
  lifecycle := .open
  revision := 0
  decisions := {
    targetScope := .entity, targetId := py "entity", cohort := reviewedCohort, revision := 0
    verdict := some {
      value := .confirmed, eventId := py "event-1", revision := 0, references := []
      authorizedGeneration := some 0, accepted := by decide +kernel }
    suppression := none, metadata := none, accepted := by decide +kernel }
  lifecycleGeneration := 0
  accepted := by decide +kernel

def scanAssociation : PredecessorEntity where
  occurrenceId := py "old"
  entity := confirmedEntity
  accepted := by decide

def scanLink : LinkProposal where
  predecessorOccurrenceId := py "old"
  currentOccurrenceId := py "new"
  entityId := py "entity"
  currentOccurrenceDigest :=
    digestText 0x4744fd7ad98d926bc16286597ba9d4c2ad55e1d9c26c314967155e47220dba12
  profile := {
    engine := py "ifds", detectorId := py "detector", vulnerabilityClass := py "sql-injection"
    language := py "java", ruleSemanticDigest := digestText 5, sVersion := py "1.2.3"
    binding := reviewedBinding, graphNamespace := graphV2, sliceNamespace := sliceV2
    accepted := reviewedProfile_accepted }
  sliceDigest := hex (toBytes 32 7)
  predecessorGraphDigest := hex (toBytes 32 6)
  currentGraphDigest := hex (toBytes 32 6)
  inheritEntityDecisions := true
  guards := {
    cohort := reviewedCohort, predecessorScanId := py "scan-1", currentScanId := py "scan-2"
    lineageRevision := 0, registryRevision := 1
    policyDigest := digestText 0x18fb28ba6964a6d7d5c3effe811f76643b995931e4411094346007a4421d6a14
    activationEventId := py "activation-1", entityId := py "entity", entityRevision := 0
    entityLifecycleGeneration := 0, decisionRevision := 0
    predecessorInventoryDigest :=
      digestText 0x94640146ba126a48819746c95d8a1e5a226091d308ff3f3be60647095b5154fc
    currentInventoryDigest :=
      digestText 0x609587e8f6622e074abc248bf980220da1692ca8d350816ad1a3bfd73dcd99c7
    accepted := by decide +kernel }

def scanPlan : ContinuityPlan where
  dispositions := [⟨py "new", .linked, "unique_eligible_identity", some scanLink⟩]
  retainedPredecessorIds := []

theorem planContinuity_scans
    : planContinuity oldInventory newInventory
        (digestText 0x18fb28ba6964a6d7d5c3effe811f76643b995931e4411094346007a4421d6a14)
        (scanRegistry 1) scanLineage [scanAssociation]
      = .ok scanPlan := by
  have current : sortedBy OccurrenceView.occurrenceId newInventory.occurrences = [newOccurrence] := by
    simp [newInventory, scanInventory, sortedBy]
  simp only [planContinuity, planGroup, current, Metered.collect, dispose, proposeLink,
    newOccurrence_digest, ok_bind]
  decide

theorem planContinuity_matching_scans
    : ∃ entry,
        Comparable oldInventory newInventory
          (digestText 0x18fb28ba6964a6d7d5c3effe811f76643b995931e4411094346007a4421d6a14)
          (scanRegistry 1) [scanAssociation] entry
        ∧ identityOf oldOccurrence = identityOf newOccurrence
        ∧ Alone oldInventory.occurrences oldOccurrence
        ∧ Alone newInventory.occurrences newOccurrence
        ∧ Eligible entry.definition.profiles newOccurrence
        ∧ ∃ association ∈ [scanAssociation],
            association.occurrenceId = oldOccurrence.occurrenceId := by
  obtain ⟨_, _, _, _, _, _, links, _⟩ := planContinuity_matching scanSha256 oldInventory newInventory
    _ (scanRegistry 1) scanLineage [scanAssociation] scanPlan planContinuity_scans
  apply (links oldOccurrence List.mem_cons_self newOccurrence List.mem_cons_self).mp
  exact ⟨scanLink, List.mem_cons_self, rfl, rfl⟩

end Scanipy.Services.Continuity

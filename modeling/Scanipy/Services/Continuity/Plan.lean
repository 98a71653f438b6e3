import Scanipy.Services.Continuity.Entity
import Scanipy.Services.Continuity.Registry

/-! `plan_continuity`: which occurrences of a scan continue occurrences of the scan before. -/

namespace Scanipy.Services.Continuity

open Analysis Library Python

/-- `PredecessorEntity`. -/
structure PredecessorEntity where
  occurrenceId : Text
  entity : EntitySnapshot
  accepted : checkText occurrenceId "predecessor occurrence id" = .ok ()

/-- `LineageSnapshot.__post_init__`. -/
def lineagePostInit (predecessorScanId currentScanId : Text) : Except PyError Unit := do
  checkText predecessorScanId "predecessor scan"
  checkText currentScanId "current scan"
  raiseUnless (predecessorScanId ≠ currentScanId)
    "continuity requires distinct predecessor/current scans"

/-- `LineageSnapshot`. -/
structure LineageSnapshot where
  cohort : CohortKey
  predecessorScanId : Text
  currentScanId : Text
  revision : Nat
  accepted : lineagePostInit predecessorScanId currentScanId = .ok ()

/-- `GuardRevisions.__post_init__`. -/
def guardsPostInit (predecessorScanId currentScanId policyDigest activationEventId entityId
    predecessorInventoryDigest currentInventoryDigest : Text)
    : Except PyError Unit := do
  checkText predecessorScanId "guard identifier"
  checkText currentScanId "guard identifier"
  checkText activationEventId "guard identifier"
  checkText entityId "guard identifier"
  raiseUnless (predecessorScanId ≠ currentScanId)
    "guards require distinct predecessor/current scans"
  checkDigest policyDigest "guard digest"
  checkDigest predecessorInventoryDigest "guard digest"
  checkDigest currentInventoryDigest "guard digest"

/-- `GuardRevisions`. -/
structure GuardRevisions where
  cohort : CohortKey
  predecessorScanId : Text
  currentScanId : Text
  lineageRevision : Nat
  registryRevision : Nat
  policyDigest : Text
  activationEventId : Text
  entityId : Text
  entityRevision : Nat
  entityLifecycleGeneration : Nat
  decisionRevision : Nat
  predecessorInventoryDigest : Text
  currentInventoryDigest : Text
  accepted : guardsPostInit predecessorScanId currentScanId policyDigest activationEventId entityId
    predecessorInventoryDigest currentInventoryDigest = .ok ()
  deriving DecidableEq

/-- `LinkProposal`. -/
structure LinkProposal where
  predecessorOccurrenceId : Text
  currentOccurrenceId : Text
  entityId : Text
  currentOccurrenceDigest : Text
  profile : CompatibilityProfile
  sliceDigest : Text
  predecessorGraphDigest : Text
  currentGraphDigest : Text
  inheritEntityDecisions : Bool
  guards : GuardRevisions
  deriving DecidableEq

inductive DispositionStatus where
  | linked
  | newIdentity
  | blocked
  deriving DecidableEq, Repr

/-- `OccurrenceDisposition`. -/
structure OccurrenceDisposition where
  occurrenceId : Text
  status : DispositionStatus
  reason : String
  link : Option LinkProposal := none
  deriving DecidableEq

/-- `ContinuityPlan`. -/
structure ContinuityPlan where
  dispositions : List OccurrenceDisposition
  retainedPredecessorIds : List Text
  groupBlockReason : Option String := none
  deriving DecidableEq

-- Planning

/-- The conditions under which `_profile` describes an occurrence. -/
def Describable (occurrence : OccurrenceView) : Prop :=
  occurrence.cohort.origin = .deterministicCore
  ∧ (occurrence.cohort.engine = py "ifds" ∨ occurrence.cohort.engine = py "ide")
  ∧ occurrence.graph.artifact.status = .completed
  ∧ occurrence.sliced.artifact.status = .completed
  ∧ occurrence.graph.artifact.fingerprintClass = some (py "strong")
  ∧ occurrence.sliced.artifact.fingerprintClass = some (py "strong")
  ∧ occurrence.graph.artifact.ns = some graphV2
  ∧ occurrence.sliced.artifact.ns = some sliceV2
  ∧ occurrence.duplicateAmbiguity = false

instance (occurrence : OccurrenceView) : Decidable (Describable occurrence) :=
  inferInstanceAs (Decidable (_ ∧ _))

/-- `_profile`. A cohort with a wildcard raises from the constructor of the profile. -/
def profileOf (occurrence : OccurrenceView) : Except PyError (Option CompatibilityProfile) :=
  match occurrence.binding with
  | none => .ok none
  | some binding =>
      if Describable occurrence then
        let cohort := occurrence.cohort
        construct
          (profilePostInit cohort.engine cohort.detectorId cohort.vulnerabilityClass cohort.language
            cohort.ruleSemanticDigest cohort.sVersion graphV2 sliceV2)
          fun accepted => some {
            engine := cohort.engine, detectorId := cohort.detectorId
            vulnerabilityClass := cohort.vulnerabilityClass, language := cohort.language
            ruleSemanticDigest := cohort.ruleSemanticDigest, sVersion := cohort.sVersion
            binding, graphNamespace := graphV2, sliceNamespace := sliceV2, accepted }
      else
        .ok none

/-- The loop over `predecessor_entities`: the result is `associations`. -/
def associate (cohort : CohortKey) (previousIds : List Text)
    : List PredecessorEntity → Dict Text EntitySnapshot → Except PyError (Dict Text EntitySnapshot)
  | [], associations => .ok associations
  | association :: rest, associations => do
      raiseUnless
        (association.occurrenceId ∈ previousIds ∧ association.entity.cohort = cohort
          ∧ association.occurrenceId ∉ associations.keys)
        "invalid/duplicate/cross-scope predecessor entity association"
      associate cohort previousIds rest
        (associations.set association.occurrenceId association.entity)

/-- The loop over `previous + current`: the result is `profiles`, or nothing where a potential
competitor is not eligible.
-/
def collectProfiles (allowed : List CompatibilityProfile)
    : List OccurrenceView → Dict Text CompatibilityProfile
      → Except PyError (Option (Dict Text CompatibilityProfile))
  | [], profiles => .ok (some profiles)
  | item :: rest, profiles => do
      let profile ← profileOf item
      match profile with
      | none => .ok none
      | some profile =>
          if profile ∈ allowed then
            collectProfiles allowed rest (profiles.set item.occurrenceId profile)
          else
            .ok none

/-- `key`. The lookup hits for every occurrence compared. -/
def identityKey (profiles : Dict Text CompatibilityProfile) (item : OccurrenceView)
    : Option CompatibilityProfile × Option Text :=
  (profiles.get? item.occurrenceId, item.sliced.artifact.digest)

section Plan

variable {sha256 : Bytes → Bytes}

/-- The link of an occurrence to its only predecessor. -/
def proposeLink (before after : DetectionInventory sha256) (policyDigest : Text)
    (registry : PolicyRegistrySnapshot sha256) (lineage : LineageSnapshot)
    (entry : PolicyEntry sha256) (profiles : Dict Text CompatibilityProfile)
    (item predecessor : OccurrenceView) (entity : EntitySnapshot)
    : Except PyError LinkProposal :=
  match item.sliced.artifact.digest, item.graph.artifact.digest, predecessor.graph.artifact.digest,
    profiles.get? item.occurrenceId with
  | some sliceDigest, some graphDigest, some predecessorGraphDigest, some profile => do
      let guards ← construct
        (guardsPostInit before.scanId after.scanId policyDigest entry.activationEventId
          entity.entityId before.contentDigest after.contentDigest)
        fun accepted => {
          cohort := after.cohort, predecessorScanId := before.scanId
          currentScanId := after.scanId, lineageRevision := lineage.revision
          registryRevision := registry.revision, policyDigest
          activationEventId := entry.activationEventId, entityId := entity.entityId
          entityRevision := entity.revision
          entityLifecycleGeneration := entity.lifecycleGeneration
          decisionRevision := entity.decisions.revision
          predecessorInventoryDigest := before.contentDigest
          currentInventoryDigest := after.contentDigest, accepted : GuardRevisions }
      let currentOccurrenceDigest ← occurrenceDigest sha256 item
      .ok {
        predecessorOccurrenceId := predecessor.occurrenceId
        currentOccurrenceId := item.occurrenceId, entityId := entity.entityId
        currentOccurrenceDigest, profile, sliceDigest, predecessorGraphDigest
        currentGraphDigest := graphDigest
        inheritEntityDecisions := entity.lifecycle = .open, guards }
  | _, _, _, _ => .error .assertionError

/-- One round of the loop over `current`. -/
def dispose (before after : DetectionInventory sha256) (policyDigest : Text)
    (registry : PolicyRegistrySnapshot sha256) (lineage : LineageSnapshot)
    (entry : PolicyEntry sha256) (associations : Dict Text EntitySnapshot)
    (profiles : Dict Text CompatibilityProfile) (previous current : List OccurrenceView)
    (item : OccurrenceView)
    : Except PyError OccurrenceDisposition :=
  let identity := identityKey profiles item
  if 1 < (previous.map (identityKey profiles)).count identity
      ∨ 1 < (current.map (identityKey profiles)).count identity then
    .ok {
      occurrenceId := item.occurrenceId, status := .blocked, reason := "ambiguous_equal_slice" }
  else
    match previous.find? fun old => identityKey profiles old = identity with
    | none =>
        .ok {
          occurrenceId := item.occurrenceId, status := .newIdentity
          reason := "no_equal_eligible_predecessor" }
    | some predecessor =>
        match associations.get? predecessor.occurrenceId with
        | none =>
            .ok {
              occurrenceId := item.occurrenceId, status := .blocked
              reason := "predecessor_entity_unavailable" }
        | some entity => do
            let link ← proposeLink before after policyDigest registry lineage entry profiles item
              predecessor entity
            .ok {
              occurrenceId := item.occurrenceId, status := .linked
              reason := "unique_eligible_identity", link := some link }

/-- `blocked`: no occurrence is linked and every predecessor is retained. -/
def blockedPlan (previous current : List OccurrenceView) (reason : String) : ContinuityPlan where
  dispositions := current.map fun item =>
    { occurrenceId := item.occurrenceId, status := .blocked, reason }
  retainedPredecessorIds := sorted (previous.map OccurrenceView.occurrenceId)
  groupBlockReason := some reason

/-- Two occurrences of one scan at one sink. -/
def SharedSink (group : List OccurrenceView) : Prop :=
  ¬(group.map OccurrenceView.scanLocalSinkBinding).Nodup

instance (group : List OccurrenceView) : Decidable (SharedSink group) :=
  inferInstanceAs (Decidable (¬_))

/-- The part of `plan_continuity` behind its checks of the inputs. -/
def planGroup (before after : DetectionInventory sha256) (policyDigest : Text)
    (registry : PolicyRegistrySnapshot sha256) (lineage : LineageSnapshot)
    (associations : Dict Text EntitySnapshot) (previous current : List OccurrenceView)
    : Except PyError ContinuityPlan :=
  if before.sealed = false ∨ after.sealed = false then
    .ok (blockedPlan previous current "unsealed_detection_inventory")
  else if before.detectionState ≠ .completed ∨ after.detectionState ≠ .completed then
    .ok (blockedPlan previous current "detection_incomplete")
  else
    match registry.active policyDigest with
    | none => .ok (blockedPlan previous current "matching_policy_inactive_or_unaccepted")
    | some entry =>
        if ¬(associations.map fun association => association.2.entityId).Nodup then
          .ok (blockedPlan previous current "ambiguous_predecessor_entity")
        else if SharedSink previous ∨ SharedSink current then
          .ok (blockedPlan previous current "multiple_occurrences_at_one_sink")
        else do
          let profiles ← collectProfiles entry.definition.profiles (previous ++ current) []
          match profiles with
          | none =>
              .ok (blockedPlan previous current "ineligible_or_unsupported_potential_competitor")
          | some profiles => do
              let dispositions ← Metered.collect
                (dispose before after policyDigest registry lineage entry associations profiles
                  previous current)
                current
              let used := dispositions.filterMap fun disposition =>
                disposition.link.map LinkProposal.predecessorOccurrenceId
              .ok {
                dispositions
                retainedPredecessorIds := sorted ((previous.map OccurrenceView.occurrenceId).filter
                  fun id => id ∉ used) }

/-- `plan_continuity`. -/
def planContinuity (before after : DetectionInventory sha256) (policyDigest : Text)
    (registry : PolicyRegistrySnapshot sha256) (lineage : LineageSnapshot)
    (predecessorEntities : List PredecessorEntity)
    : Except PyError ContinuityPlan := do
  checkDigest policyDigest "matching policy digest"
  raiseUnless
    (before.cohort = after.cohort ∧ lineage.cohort = after.cohort
      ∧ lineage.predecessorScanId = before.scanId ∧ lineage.currentScanId = after.scanId)
    "comparison scope or explicit lineage mismatch"
  let previous := sortedBy OccurrenceView.occurrenceId before.occurrences
  let current := sortedBy OccurrenceView.occurrenceId after.occurrences
  let previousIds := previous.map OccurrenceView.occurrenceId
  raiseUnless (∀ item ∈ current, item.occurrenceId ∉ previousIds)
    "occurrence ids must distinguish separate scans"
  let associations ← associate before.cohort previousIds predecessorEntities []
  planGroup before after policyDigest registry lineage associations previous current

end Plan

end Scanipy.Services.Continuity

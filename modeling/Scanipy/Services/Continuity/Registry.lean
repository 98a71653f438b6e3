import Scanipy.Library.History
import Scanipy.Services.Continuity.Records

/-! The policy registry: its snapshots, the transitions between them, and what a whole
history of transitions keeps of the activation events.
-/

namespace Scanipy.Services.Continuity

open Analysis Library Python

/-- One field of a policy profile. -/
def checkProfileText (value : Text) : Except PyError Unit :=
  checkExactText value "policy compatibility profile" "policy profiles have no wildcard"

/-- `CompatibilityProfile.__post_init__`. -/
def profilePostInit (engine detectorId vulnerabilityClass language ruleSemanticDigest sVersion
    graphNamespace sliceNamespace : Text)
    : Except PyError Unit := do
  checkProfileText engine
  checkProfileText detectorId
  checkProfileText vulnerabilityClass
  checkProfileText language
  checkProfileText sVersion
  raiseUnless (engine = py "ifds" ∨ engine = py "ide")
    "only deterministic-core engines can receive continuity policy"
  checkDigest ruleSemanticDigest "policy rule semantics"
  raiseUnless (graphNamespace = graphV2 ∧ sliceNamespace = sliceV2)
    "unsupported continuity namespace; explicit implementation required"

/-- `CompatibilityProfile`. -/
structure CompatibilityProfile where
  engine : Text
  detectorId : Text
  vulnerabilityClass : Text
  language : Text
  ruleSemanticDigest : Text
  sVersion : Text
  binding : IdentityBinding
  graphNamespace : Text
  sliceNamespace : Text
  accepted : profilePostInit engine detectorId vulnerabilityClass language ruleSemanticDigest
    sVersion graphNamespace sliceNamespace = .ok ()
  deriving DecidableEq

/-- `asdict(profile)`. -/
def CompatibilityProfile.json (profile : CompatibilityProfile) : Json :=
  .obj [
    (py "engine", .str profile.engine),
    (py "detector_id", .str profile.detectorId),
    (py "vulnerability_class", .str profile.vulnerabilityClass),
    (py "language", .str profile.language),
    (py "rule_semantic_digest", .str profile.ruleSemanticDigest),
    (py "s_version", .str profile.sVersion),
    (py "binding", profile.binding.json),
    (py "graph_namespace", .str profile.graphNamespace),
    (py "slice_namespace", .str profile.sliceNamespace)]

/-- `POLICY_NAMESPACE`. -/
def policyNamespace : String := "scanipy-continuity-policy/1"

/-- `PolicyDefinition.__post_init__`. -/
def definitionPostInit (profiles : List CompatibilityProfile) (evidenceRefs : List Text)
    (reviewRevisionRef ns : Text)
    : Except PyError Unit := do
  raiseUnless (ns = py policyNamespace) "unsupported matching policy namespace"
  raiseUnless (profiles ≠ []) "policy requires nonempty immutable exact profiles"
  raiseUnless profiles.Nodup "duplicate policy profile"
  checkReferences evidenceRefs true
  checkText reviewRevisionRef "review revision reference"

/-- `PolicyDefinition`. -/
structure PolicyDefinition where
  profiles : List CompatibilityProfile
  evidenceRefs : List Text
  reviewRevisionRef : Text
  ns : Text
  accepted : definitionPostInit profiles evidenceRefs reviewRevisionRef ns = .ok ()

/-- `asdict(definition)`. -/
def PolicyDefinition.json (definition : PolicyDefinition) : Json :=
  .obj [
    (py "profiles", .arr (definition.profiles.map CompatibilityProfile.json)),
    (py "evidence_refs", textArray definition.evidenceRefs),
    (py "review_revision_ref", .str definition.reviewRevisionRef),
    (py "namespace", .str definition.ns)]

/-- `PolicyDefinition.digest`. -/
def PolicyDefinition.digest (sha256 : Bytes → Bytes) (definition : PolicyDefinition)
    : Except PyError Text :=
  hashJson sha256 policyNamespace definition.json

inductive PolicyState where
  | active
  | revoked
  deriving DecidableEq, Repr

/-- `PolicyEntry.__post_init__`. -/
def entryPostInit (sha256 : Bytes → Bytes) (definition : PolicyDefinition)
    (contentDigest activationEventId : Text)
    : Except PyError Unit := do
  let expected ← definition.digest sha256
  raiseUnless (contentDigest = expected) "registry policy content digest mismatch"
  checkText activationEventId "activation event id"

/-- `PolicyEntry`. -/
structure PolicyEntry (sha256 : Bytes → Bytes) where
  definition : PolicyDefinition
  contentDigest : Text
  state : PolicyState
  activationEventId : Text
  accepted : entryPostInit sha256 definition contentDigest activationEventId = .ok ()

/-- `PolicyRegistrySnapshot.__post_init__`. -/
def registryPostInit {sha256 : Bytes → Bytes} (entries : List (PolicyEntry sha256))
    (usedActivationEventIds : List Text)
    : Except PyError Unit := do
  raiseUnless (entries.map PolicyEntry.contentDigest).Nodup "ambiguous duplicate registry policy"
  raiseUnless (entries.map PolicyEntry.activationEventId).Nodup
    "activation event id must identify one policy activation"
  Metered.visit (fun eventId => checkText eventId "historical activation event id")
    usedActivationEventIds
  raiseUnless usedActivationEventIds.Nodup "duplicate historical activation event id"
  raiseUnless (entries.map PolicyEntry.activationEventId ⊆ usedActivationEventIds)
    "registry activation is missing from retained activation history"

/-- `PolicyRegistrySnapshot`. -/
structure PolicyRegistrySnapshot (sha256 : Bytes → Bytes) where
  revision : Nat
  entries : List (PolicyEntry sha256)
  usedActivationEventIds : List Text
  accepted : registryPostInit entries usedActivationEventIds = .ok ()

variable {sha256 : Bytes → Bytes}

/-- `PRODUCTION_POLICY_REGISTRY`. -/
def productionPolicyRegistry (sha256 : Bytes → Bytes) : PolicyRegistrySnapshot sha256 where
  revision := 0
  entries := []
  usedActivationEventIds := []
  accepted := rfl

namespace PolicyRegistrySnapshot

/-- `PolicyRegistrySnapshot.active`. -/
def active (registry : PolicyRegistrySnapshot sha256) (digest : Text)
    : Option (PolicyEntry sha256) :=
  registry.entries.find? fun entry => entry.contentDigest = digest ∧ entry.state = .active

/-- The entries by their digest. -/
def byDigest (registry : PolicyRegistrySnapshot sha256) : Dict Text (PolicyEntry sha256) :=
  Dict.ofPairs (registry.entries.map fun entry => (entry.contentDigest, entry))

end PolicyRegistrySnapshot

/-- One round of the loop of `validate_registry_transition`: what it adds to `introduced`. -/
def introducedEvent (old : Dict Text (PolicyEntry sha256)) (oldActivationIds : List Text)
    (entry : PolicyEntry sha256)
    : Except PyError (List Text) :=
  match old.get? entry.contentDigest with
  | none => do
      raiseUnless (entry.activationEventId ∉ oldActivationIds)
        "new policy requires a fresh activation event"
      .ok [entry.activationEventId]
  | some prior =>
      if prior.state = .revoked ∧ entry.state = .active then do
        raiseUnless (entry.activationEventId ∉ oldActivationIds)
          "reactivation requires a fresh activation event"
        .ok [entry.activationEventId]
      else do
        raiseUnless (entry.activationEventId = prior.activationEventId)
          "activation event can change only on explicit reactivation"
        .ok []

/-- `validate_registry_transition`. -/
def validateRegistryTransition (previous current : PolicyRegistrySnapshot sha256)
    : Except PyError Unit := do
  raiseUnless (current.revision = previous.revision + 1)
    "registry transition requires exactly the next revision"
  let old := previous.byDigest
  let new := current.byDigest
  raiseUnless (old.keys ⊆ new.keys) "registry retains revoked policies; removal is forbidden"
  let oldActivationIds := previous.usedActivationEventIds
  let newActivationIds := current.usedActivationEventIds
  raiseUnless (oldActivationIds ⊆ newActivationIds)
    "registry must retain every historical activation event id"
  let introduced ← Metered.collect (introducedEvent old oldActivationIds) (new.map Prod.snd)
  let introduced := introduced.flatten
  let added := newActivationIds.filter fun eventId => eventId ∉ oldActivationIds
  raiseUnless (added ⊆ introduced ∧ introduced ⊆ added)
    "activation history additions must match actual activation events"

-- What a transition does

variable {entry : PolicyEntry sha256} {digest : Text}

namespace PolicyRegistrySnapshot

theorem checks (registry : PolicyRegistrySnapshot sha256)
    : (registry.entries.map PolicyEntry.contentDigest).Nodup
      ∧ (registry.entries.map PolicyEntry.activationEventId).Nodup
      ∧ registry.entries.map PolicyEntry.activationEventId ⊆ registry.usedActivationEventIds := by
  have accepted := registry.accepted
  simp only [registryPostInit, check_ok, raiseUnless_ok] at accepted
  exact ⟨accepted.1, accepted.2.1, accepted.2.2.2.2⟩

theorem byDigest_eq (registry : PolicyRegistrySnapshot sha256)
    : registry.byDigest = registry.entries.map fun entry => (entry.contentDigest, entry) := by
  refine Dict.ofPairs_eq_self ?_
  simpa [Function.comp_def] using registry.checks.1

variable {first second : PolicyEntry sha256}

theorem entry_unique (registry : PolicyRegistrySnapshot sha256)
    (firstMember : first ∈ registry.entries) (secondMember : second ∈ registry.entries)
    (same : first.contentDigest = second.contentDigest)
    : first = second :=
  List.inj_on_of_nodup_map registry.checks.1 firstMember secondMember same

theorem entry_of_event (registry : PolicyRegistrySnapshot sha256)
    (firstMember : first ∈ registry.entries) (secondMember : second ∈ registry.entries)
    (same : first.activationEventId = second.activationEventId)
    : first = second :=
  List.inj_on_of_nodup_map registry.checks.2.1 firstMember secondMember same

theorem event_used (registry : PolicyRegistrySnapshot sha256) (member : entry ∈ registry.entries)
    : entry.activationEventId ∈ registry.usedActivationEventIds :=
  registry.checks.2.2 (List.mem_map_of_mem member)

theorem byDigest_get? (registry : PolicyRegistrySnapshot sha256)
    : registry.byDigest.get? digest = some entry
      ↔ entry ∈ registry.entries ∧ entry.contentDigest = digest := by
  rw [registry.byDigest_eq]
  constructor
  · intro found
    obtain ⟨stored, member, same⟩ := List.mem_map.mp (Dict.mem_of_get? found)
    cases same
    exact ⟨member, rfl⟩
  · rintro ⟨member, rfl⟩
    refine Dict.get?_of_mem ?_ (List.mem_map_of_mem member)
    simpa [Dict.keys, Function.comp_def] using registry.checks.1

theorem active_eq_some_iff (registry : PolicyRegistrySnapshot sha256)
    : registry.active digest = some entry
      ↔ entry ∈ registry.entries ∧ entry.contentDigest = digest ∧ entry.state = .active := by
  constructor
  · intro found
    refine ⟨List.mem_of_find?_eq_some found, ?_⟩
    simpa using List.find?_some found
  · rintro ⟨member, rfl, state⟩
    obtain ⟨other, found⟩ : ∃ other, registry.active entry.contentDigest = some other := by
      refine Option.isSome_iff_exists.mp (List.find?_isSome.mpr ⟨entry, member, ?_⟩)
      simp [state]
    have matched : other.contentDigest = entry.contentDigest ∧ other.state = .active := by
      simpa using List.find?_some found
    have same := registry.entry_unique (List.mem_of_find?_eq_some found) member matched.1
    rw [found, same]

end PolicyRegistrySnapshot

/-- The entry starts an activation period: its policy is new, or was revoked and is active
now.
-/
def Activates (previous : PolicyRegistrySnapshot sha256) (entry : PolicyEntry sha256) : Prop :=
  ∀ prior ∈ previous.entries,
    prior.contentDigest = entry.contentDigest → prior.state = .revoked ∧ entry.state = .active

/-- Everything a transition can do. -/
structure RegistryStep (previous current : PolicyRegistrySnapshot sha256) : Prop where
  kept : ∀ prior ∈ previous.entries,
    ∃ entry ∈ current.entries, entry.contentDigest = prior.contentDigest
  used : previous.usedActivationEventIds ⊆ current.usedActivationEventIds
  entries : ∀ entry ∈ current.entries,
    (Activates previous entry ∧ entry.activationEventId ∉ previous.usedActivationEventIds)
    ∨ ∃ prior ∈ previous.entries,
        prior.contentDigest = entry.contentDigest
        ∧ ¬(prior.state = .revoked ∧ entry.state = .active)
        ∧ entry.activationEventId = prior.activationEventId
  introduced : ∀ event ∈ current.usedActivationEventIds,
    event ∉ previous.usedActivationEventIds
    → ∃ entry ∈ current.entries, Activates previous entry ∧ entry.activationEventId = event

variable {previous : PolicyRegistrySnapshot sha256}

/-- An accepted entry starts a period with a fresh event, which is introduced, or keeps its
event.
-/
theorem introducedEvent_ok {used : List Text} {introduced : List Text}
    (ran : introducedEvent previous.byDigest used entry = .ok introduced)
    : ((Activates previous entry ∧ entry.activationEventId ∉ used)
        ∧ introduced = [entry.activationEventId])
      ∨ ((∃ prior ∈ previous.entries,
          prior.contentDigest = entry.contentDigest
          ∧ ¬(prior.state = .revoked ∧ entry.state = .active)
          ∧ entry.activationEventId = prior.activationEventId)
        ∧ introduced = []) := by
  unfold introducedEvent at ran
  cases found : previous.byDigest.get? entry.contentDigest with
  | none =>
      simp only [found, check_ok, raiseUnless_ok, Except.ok.injEq] at ran
      refine .inl ⟨⟨fun prior member same => ?_, ran.1⟩, ran.2.symm⟩
      rw [previous.byDigest_get?.mpr ⟨member, same⟩] at found
      cases found
  | some prior =>
      obtain ⟨member, digest⟩ := previous.byDigest_get?.mp found
      simp only [found] at ran
      split at ran
      next reactivated =>
        simp only [check_ok, raiseUnless_ok, Except.ok.injEq] at ran
        refine .inl ⟨⟨fun other otherMember same => ?_, ran.1⟩, ran.2.symm⟩
        rw [previous.entry_unique otherMember member (same.trans digest.symm)]
        exact reactivated
      next unchanged =>
        simp only [check_ok, raiseUnless_ok, Except.ok.injEq] at ran
        exact .inr ⟨⟨prior, member, digest, unchanged, ran.1⟩, ran.2.symm⟩

variable {current : PolicyRegistrySnapshot sha256}

theorem registryStep_of_ok (ran : validateRegistryTransition previous current = .ok ())
    : RegistryStep previous current := by
  simp only [validateRegistryTransition, check_ok, raiseUnless_ok] at ran
  obtain ⟨_, kept, used, ran⟩ := ran
  obtain ⟨introduced, looped, ran⟩ := bind_ok.mp ran
  obtain ⟨added, _⟩ := raiseUnless_ok.mp ran
  have listed : current.byDigest.map Prod.snd = current.entries := by
    simp [current.byDigest_eq, Function.comp_def]
  rw [listed] at looped
  refine ⟨fun prior member => ?_, used, fun entry member => ?_, fun event after before => ?_⟩
  · have key : prior.contentDigest ∈ current.byDigest.keys := by
      refine kept ?_
      rw [previous.byDigest_eq, Dict.keys, List.map_map]
      exact List.mem_map_of_mem member
    rw [current.byDigest_eq, Dict.keys, List.map_map] at key
    obtain ⟨entry, among, same⟩ := List.mem_map.mp key
    exact ⟨entry, among, same⟩
  · obtain ⟨events, _, round⟩ := exists_result_of_mem looped member
    exact (introducedEvent_ok round).imp And.left And.left
  · have new := added (List.mem_filter.mpr ⟨after, by simpa using before⟩)
    obtain ⟨events, listedEvents, inside⟩ := List.mem_flatten.mp new
    obtain ⟨entry, member, round⟩ := exists_mem_of_result looped listedEvents
    rcases introducedEvent_ok round with ⟨⟨activates, _⟩, rfl⟩ | ⟨_, rfl⟩
    · exact ⟨entry, member, activates, (List.mem_singleton.mp inside).symm⟩
    · cases inside

-- Histories

/-- The transition starts an activation period of the policy with this digest, under this
event.
-/
def Introduces (previous current : PolicyRegistrySnapshot sha256) (digest event : Text) : Prop :=
  ∃ entry ∈ current.entries,
    entry.contentDigest = digest ∧ entry.activationEventId = event ∧ Activates previous entry

/-- A history of the registry: every step passes `validate_registry_transition`. -/
abbrev RegistryRun (registries : Nat → PolicyRegistrySnapshot sha256) (length : Nat) : Prop :=
  Run (fun previous current => validateRegistryTransition previous current = .ok ()) registries length

variable {event : Text}

theorem Introduces.fresh (step : RegistryStep previous current)
    (introduces : Introduces previous current digest event)
    : event ∉ previous.usedActivationEventIds ∧ event ∈ current.usedActivationEventIds := by
  obtain ⟨entry, member, rfl, rfl, activates⟩ := introduces
  refine ⟨?_, current.event_used member⟩
  rcases step.entries entry member with ⟨_, unused⟩ | ⟨prior, among, digest, unchanged, _⟩
  · exact unused
  · exact absurd (activates prior among digest) unchanged

section Histories

variable {registries : Nat → PolicyRegistrySnapshot sha256} {length : Nat}
  (run : RegistryRun registries length)

include run

theorem RegistryRun.step {i : Nat} (inside : i < length)
    : RegistryStep (registries i) (registries (i + 1)) :=
  registryStep_of_ok (run i inside)

variable {i : Nat} {j : Nat}

theorem RegistryRun.used (ordered : i ≤ j) (bounded : j ≤ length)
    (member : event ∈ (registries i).usedActivationEventIds)
    : event ∈ (registries j).usedActivationEventIds :=
  run.forward (fun registry => event ∈ registry.usedActivationEventIds)
    (fun _ _ step known => (registryStep_of_ok step).used known) member ordered bounded

/-- An event is introduced once. Witness: it is unused before its introduction and used from
then on; in one snapshot it belongs to one entry.
-/
theorem RegistryRun.introduces_unique (first : i < length) (second : j < length) {other : Text}
    (here : Introduces (registries i) (registries (i + 1)) digest event)
    (there : Introduces (registries j) (registries (j + 1)) other event)
    : i = j ∧ digest = other := by
  obtain ⟨unused, used⟩ := here.fresh (run.step first)
  obtain ⟨unusedThere, usedThere⟩ := there.fresh (run.step second)
  obtain rfl : i = j := by
    rcases Nat.lt_trichotomy i j with before | same | after
    · exact absurd (run.used before second.le used) unusedThere
    · exact same
    · exact absurd (run.used after first.le usedThere) unused
  obtain ⟨entry, member, rfl, rfl, _⟩ := here
  obtain ⟨found, among, rfl, same, _⟩ := there
  exact ⟨rfl, by rw [(registries (i + 1)).entry_of_event among member same]⟩

/-- From an empty history on, every used event was introduced. By induction on the position. -/
theorem RegistryRun.introduced (start : registries 0 = productionPolicyRegistry sha256)
    (bounded : i ≤ length) (member : event ∈ (registries i).usedActivationEventIds)
    : ∃ k < i, ∃ digest, Introduces (registries k) (registries (k + 1)) digest event := by
  induction i with
  | zero =>
      rw [start] at member
      cases member
  | succ i ih =>
      by_cases old : event ∈ (registries i).usedActivationEventIds
      · obtain ⟨k, before, introduced⟩ := ih (Nat.le_of_succ_le bounded) old
        exact ⟨k, Nat.lt_succ_of_lt before, introduced⟩
      · obtain ⟨entry, among, activates, rfl⟩ := (run.step bounded).introduced event member old
        exact ⟨i, Nat.lt_succ_self i, entry.contentDigest, entry, among, rfl, rfl, activates⟩

/-- The event of an entry is that of the last activation of its policy. By induction on the
position: an entry that starts a period holds the event introduced there, every other holds
that of its policy before.
-/
theorem RegistryRun.held (start : registries 0 = productionPolicyRegistry sha256)
    (bounded : i ≤ length) (member : entry ∈ (registries i).entries)
    : ∃ k < i,
        Introduces (registries k) (registries (k + 1)) entry.contentDigest entry.activationEventId
        ∧ ∀ j, k < j → j < i → ∀ event,
            ¬Introduces (registries j) (registries (j + 1)) entry.contentDigest event := by
  induction i generalizing entry with
  | zero =>
      rw [start] at member
      cases member
  | succ i ih =>
      rcases (run.step bounded).entries entry member with
        ⟨activates, _⟩ | ⟨prior, among, digest, unchanged, event⟩
      · refine ⟨i, Nat.lt_succ_self i, ⟨entry, member, rfl, rfl, activates⟩, fun j after before => ?_⟩
        omega
      · obtain ⟨k, earlier, introduced, quiet⟩ := ih (Nat.le_of_succ_le bounded) among
        rw [digest, ← event] at introduced
        refine ⟨k, Nat.lt_succ_of_lt earlier, introduced, fun j after before other again => ?_⟩
        rcases Nat.lt_succ_iff_lt_or_eq.mp before with inside | rfl
        · exact quiet j after inside other (digest ▸ again)
        · obtain ⟨found, foundMember, foundDigest, _, activates⟩ := again
          rw [(registries (j + 1)).entry_unique foundMember member foundDigest] at activates
          exact unchanged (activates prior among digest)

end Histories

/-- In a history from the empty registry every event that was ever used is introduced for one
policy in one transition; an entry holds only an event of its own policy, introduced at the
last activation of it; and no policy disappears.
Witness: used events only grow, and an introduced event was unused before.
-/
theorem activationEvents_single_use (sha256 : Bytes → Bytes)
    (registries : Nat → PolicyRegistrySnapshot sha256) (length : Nat)
    (start : registries 0 = productionPolicyRegistry sha256)
    (run : RegistryRun registries length)
    : (∀ i ≤ length, ∀ event ∈ (registries i).usedActivationEventIds,
        ∃ k < i, ∃ digest,
          Introduces (registries k) (registries (k + 1)) digest event
          ∧ ∀ other < length, ∀ otherDigest,
              Introduces (registries other) (registries (other + 1)) otherDigest event
              → other = k ∧ otherDigest = digest)
      ∧ (∀ i ≤ length, ∀ entry ∈ (registries i).entries,
          entry.activationEventId ∈ (registries i).usedActivationEventIds
          ∧ ∀ k < length, ∀ digest,
              Introduces (registries k) (registries (k + 1)) digest entry.activationEventId
              → k < i
                ∧ digest = entry.contentDigest
                ∧ ∀ j, k < j → j < i → ∀ event,
                    ¬Introduces (registries j) (registries (j + 1)) entry.contentDigest event)
      ∧ ∀ i j, i ≤ j → j ≤ length → ∀ entry ∈ (registries i).entries,
          ∃ later ∈ (registries j).entries, later.contentDigest = entry.contentDigest := by
  refine ⟨fun i bounded event member => ?_, fun i bounded entry member => ?_,
    fun i j ordered bounded entry member => ?_⟩
  · obtain ⟨k, before, digest, introduced⟩ := run.introduced start bounded member
    have inside : k < length := Nat.lt_of_lt_of_le before bounded
    refine ⟨k, before, digest, introduced, fun other otherInside otherDigest again => ?_⟩
    exact run.introduces_unique otherInside inside again introduced
  · refine ⟨(registries i).event_used member, fun k inside digest introduced => ?_⟩
    obtain ⟨first, before, held, quiet⟩ := run.held start bounded member
    obtain ⟨rfl, rfl⟩ := run.introduces_unique inside (Nat.lt_of_lt_of_le before bounded) introduced
      held
    exact ⟨before, rfl, quiet⟩
  · refine run.forward (fun registry =>
      ∃ later ∈ registry.entries, later.contentDigest = entry.contentDigest) ?_
      ⟨entry, member, rfl⟩ ordered bounded
    rintro before after step ⟨later, among, same⟩
    obtain ⟨found, foundMember, digest⟩ := (registryStep_of_ok step).kept later among
    exact ⟨found, foundMember, digest.trans same⟩

/-- A digest of the form that `_digest` accepts. -/
def digestText (value : Nat) : Text :=
  py "sha256:" ++ hex (toBytes 32 value)

def reviewedBinding : IdentityBinding where
  identityPolicyDigest := digestText 1
  modelProfile := py "model/1"
  normalizationProfile := py "normalization/1"
  budgetPolicy := py "budget/1"
  observedFullEnvironmentManifestDigest := digestText 2
  analysisCodeRevision := hex (toBytes 20 3)
  analysisCodeContentDigest := digestText 4
  accepted := by decide +kernel

theorem reviewedProfile_accepted
    : profilePostInit (py "ifds") (py "detector") (py "sql-injection") (py "java") (digestText 5)
        (py "1.2.3") graphV2 sliceV2 = .ok () := by
  decide +kernel

theorem activationOne_isText : IsText (py "activation-1") := by
  decide

/-- A policy for one detector. -/
def reviewedPolicy : PolicyDefinition where
  profiles := [{
    engine := py "ifds", detectorId := py "detector", vulnerabilityClass := py "sql-injection"
    language := py "java", ruleSemanticDigest := digestText 5, sVersion := py "1.2.3"
    binding := reviewedBinding, graphNamespace := graphV2, sliceNamespace := sliceV2
    accepted := reviewedProfile_accepted }]
  evidenceRefs := [py "evidence"]
  reviewRevisionRef := py "review-1"
  ns := py policyNamespace
  accepted := by decide +kernel

/-- The policy in a registry, its digest known. -/
def reviewedEntry
    (known : reviewedPolicy.digest sha256
      = .ok (digestText 0x18fb28ba6964a6d7d5c3effe811f76643b995931e4411094346007a4421d6a14))
    (state : PolicyState) (event : Text) (named : IsText event)
    : PolicyEntry sha256 where
  definition := reviewedPolicy
  contentDigest := digestText 0x18fb28ba6964a6d7d5c3effe811f76643b995931e4411094346007a4421d6a14
  state
  activationEventId := event
  accepted := by simp [entryPostInit, known, ok_bind, check_ok, checkText, named]

@[simp]
theorem digestText_encodable (value : Nat) : (digestText value).Encodable :=
  Text.Encodable.append (py_encodable _) (hex_encodable _)

theorem reviewedBinding_encodable : reviewedBinding.json.Encodable := by
  simp [IdentityBinding.json, reviewedBinding]

theorem reviewedPolicy_encodable : reviewedPolicy.json.Encodable := by
  simp [PolicyDefinition.json, CompatibilityProfile.json, reviewedBinding_encodable, textArray,
    reviewedPolicy, graphV2, sliceV2]

theorem hashJson_ok {sha256 : Bytes → Bytes} {ns : String} {value : Json} {digest : Nat}
    (encodable : value.Encodable) (known : sha256 (hashed ns value) = toBytes 32 digest)
    : hashJson sha256 ns value = .ok (digestText digest) := by
  have written := Json.dumps_encodable value encodable
  simp only [hashed] at known
  simp only [hashJson, Text.encode, written, if_true, known, digestText]

/-- SHA-256 on the content of the policy. -/
def policySha256 : Bytes → Bytes :=
  tableHash [(hashed policyNamespace reviewedPolicy.json,
    0x18fb28ba6964a6d7d5c3effe811f76643b995931e4411094346007a4421d6a14)]

theorem reviewedPolicy_digest
    : reviewedPolicy.digest policySha256
      = .ok (digestText 0x18fb28ba6964a6d7d5c3effe811f76643b995931e4411094346007a4421d6a14) :=
  hashJson_ok reviewedPolicy_encodable (tableHash_head _ _ _)

/-- The policy is accepted, revoked, and accepted again. -/
def reactivation : Nat → PolicyRegistrySnapshot policySha256
  | 0 => productionPolicyRegistry policySha256
  | 1 => {
      revision := 1
      entries := [reviewedEntry reviewedPolicy_digest .active (py "activation-1") activationOne_isText]
      usedActivationEventIds := [py "activation-1"]
      accepted := by decide }
  | 2 => {
      revision := 2
      entries := [reviewedEntry reviewedPolicy_digest .revoked (py "activation-1") activationOne_isText]
      usedActivationEventIds := [py "activation-1"]
      accepted := by decide }
  | _ => {
      revision := 3
      entries := [reviewedEntry reviewedPolicy_digest .active (py "activation-2") (by decide)]
      usedActivationEventIds := [py "activation-1", py "activation-2"]
      accepted := by decide }

theorem reactivation_runs : RegistryRun reactivation 3 := by
  intro i inside
  match i, inside with
  | 0, _ => decide
  | 1, _ => decide
  | 2, _ => decide

theorem activationEvents_single_use_reactivation
    : ∃ k < 3, ∃ digest,
        Introduces (reactivation k) (reactivation (k + 1)) digest (py "activation-2")
        ∧ ∀ other < 3, ∀ otherDigest,
            Introduces (reactivation other) (reactivation (other + 1)) otherDigest
              (py "activation-2")
            → other = k ∧ otherDigest = digest := by
  have single := activationEvents_single_use policySha256 reactivation 3 rfl reactivation_runs
  exact single.1 3 (Nat.le_refl 3) (py "activation-2") (by decide)

end Scanipy.Services.Continuity

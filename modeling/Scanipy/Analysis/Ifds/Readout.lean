import Scanipy.Analysis.Ifds.Fixpoint

/-! Reading findings out of a finished search, and hashing them. -/

namespace Scanipy.Analysis.Ifds

open Library Python

variable {pred : Dict Item (Option Item)} {item : Item} {path : List Item}

/-- Backtracking visits the chain of discoverers, last first, by induction on the chain. -/
theorem witnessLoop_ok (distinct : pred.keys.Nodup) (traced : Traced pred item path) (fuel : Nat)
    (seen : PySet Item) (walked : List NodeId) (enough : path.length ≤ fuel)
    (fresh : ∀ earlier ∈ path, earlier ∉ seen)
    : witnessLoop pred fuel (some item) seen walked
      = .ok (walked ++ (path.map Prod.fst).reverse) := by
  induction traced generalizing fuel seen walked with
  | root listed =>
      obtain ⟨fuel, rfl⟩ := Nat.exists_eq_add_of_le' enough
      have stored := Dict.get?_of_mem distinct listed
      simp [witnessLoop, fresh, Dict.getD, stored]
  | @step item parent front listed before ih =>
      have apart := (Traced.step listed before).nodup distinct
      rw [List.length_append, List.length_singleton] at enough
      obtain ⟨fuel, rfl⟩ := Nat.exists_eq_add_of_le' (le_trans (Nat.le_add_left 1 _) enough)
      have stored := Dict.get?_of_mem distinct listed
      have new : item ∉ seen := fresh item (by simp)
      have frontFresh (earlier : Item) (member : earlier ∈ front) : earlier ∉ PySet.add seen item := by
        rw [PySet.mem_add, not_or]
        refine ⟨fresh earlier (List.mem_append_left _ member), ?_⟩
        rintro rfl
        exact (List.disjoint_of_nodup_append apart) member (List.mem_singleton_self _)
      rw [witnessLoop, if_neg new, Dict.getD, stored]
      refine (ih fuel (PySet.add seen item) (walked ++ [item.1]) (by omega) frontFresh).trans ?_
      simp

/-- `_witness` returns the nodes of the chain. -/
theorem witness_ok (distinct : pred.keys.Nodup) (traced : Traced pred item path)
    : witness pred item.1 item.2 = .ok (path.map Prod.fst) := by
  have inside : path ⊆ pred.keys := by
    intro earlier member
    obtain ⟨_, ends, _⟩ := traced.of_mem member
    exact ends.mem_found
  have short := (List.subperm_of_subset (traced.nodup distinct) inside).length_le
  rw [Dict.keys, List.length_map] at short
  rw [witness, witnessLoop_ok distinct traced _ [] [] (by omega) (by simp), ok_bind]
  simp

/-- The finding of a run for an item with a witness. -/
def Provenance.finding (provenance : Provenance) (item : Item) (path : List NodeId) : Finding where
  sink := item.1
  fact := item.2
  witness := path
  specId := provenance.spec.id
  origin := py "deterministic-core"
  sVersion := provenance.sVersion
  envDigest := provenance.envDigest
  cpgOrderHash := provenance.cpgOrderHash
  cpgOrderHashAnnotation := cpgOrderHashAnnotation
  fingerprintClass := provenance.fingerprintClass
  engine := provenance.spec.engine

/-- The findings of a finished search: its items at sinks, each with its chain. -/
def ReadOut (provenance : Provenance) (cpg : CPG) (final : Frontier Item) (finding : Finding)
    : Prop :=
  ∃ item path,
    Traced final.found item path
    ∧ isSink provenance.spec (cpg.nodeAt item.1) = true
    ∧ finding = provenance.finding item (path.map Prod.fst)

/-- One finding for each sink and fact. -/
theorem ReadOut.unique {provenance : Provenance} {cpg : CPG} {final : Frontier Item}
    (distinct : final.known.Nodup) {finding other : Finding}
    (readOut : ReadOut provenance cpg final finding) (again : ReadOut provenance cpg final other)
    (sinks : finding.sink = other.sink) (facts : finding.fact = other.fact)
    : finding = other := by
  obtain ⟨item, path, traced, _, rfl⟩ := readOut
  obtain ⟨second, otherPath, otherTraced, _, rfl⟩ := again
  obtain rfl : item = second := Prod.ext sinks facts
  rw [traced.unique distinct otherTraced]

/-- The finding read out for an item. -/
def Provenance.readFinding (provenance : Provenance) (pred : Dict Item (Option Item)) (item : Item)
    : Finding :=
  provenance.finding item ((witness pred item.1 item.2).toOption.getD [])

theorem Provenance.readFinding_eq (provenance : Provenance) (distinct : pred.keys.Nodup)
    (traced : Traced pred item path)
    : provenance.readFinding pred item = provenance.finding item (path.map Prod.fst)
      ∧ findingAt provenance pred item = .ok (provenance.readFinding pred item) := by
  have read := witness_ok distinct traced
  rw [readFinding, findingAt, read, ok_bind]
  exact ⟨rfl, rfl⟩

/-- The items read out at a node. -/
def sinkItems (cpg : CPG) (spec : Spec) (state : Tabulation) (id : NodeId) : List Item :=
  if isSink spec (cpg.nodeAt id) then
    (sorted (state.factsAt.getD id [])).map fun fact => (id, fact)
  else
    []

section Readout

variable {cpg : CPG} {sg : ExplodedSupergraph} {state : Tabulation} (holds : state.Holds cpg sg)

include holds

variable {id : NodeId}

theorem mem_sinkItems {spec : Spec}
    : item ∈ sinkItems cpg spec state id
      ↔ item.1 = id ∧ isSink spec (cpg.nodeAt id) ∧ item ∈ state.frontier.known := by
  obtain ⟨node, fact⟩ := item
  unfold sinkItems
  split
  next sink =>
    simp only [sink, List.mem_map, mem_sorted, holds.facts, Prod.mk.injEq, true_and]
    constructor
    · rintro ⟨_, member, rfl, rfl⟩
      exact ⟨rfl, member⟩
    · rintro ⟨rfl, member⟩
      exact ⟨fact, member, rfl, rfl⟩
  next other => simp [other]

theorem nodup_flatMap_sinkItems (spec : Spec) {ids : List NodeId} (distinct : ids.Nodup)
    : (ids.flatMap (sinkItems cpg spec state)).Nodup := by
  refine List.nodup_flatMap.mpr ⟨fun id _ => ?_, distinct.imp fun {left right} apart item => ?_⟩
  · unfold sinkItems
    split
    · have facts := ((sorted_perm _).nodup_iff).mpr (holds.distinct id)
      exact facts.map fun _ _ same => congrArg Prod.snd same
    · exact List.nodup_nil
  · intro here there
    refine apart ?_
    rw [← ((mem_sinkItems holds).mp here).1, ((mem_sinkItems holds).mp there).1]

variable (formed : cpg.WellFormed) (distinct : state.frontier.known.Nodup)
  (traced : ∀ item ∈ state.frontier.known, ∃ path, Traced state.frontier.found item path)
  (provenance : Provenance)

include formed distinct traced

theorem findingsAt_ok (known : id ∈ cpg.nodeIds)
    : findingsAt cpg provenance state id
      = .ok ((sinkItems cpg provenance.spec state id).map (provenance.readFinding state.pred)) := by
  obtain ⟨member, same⟩ := CPG.nodeAt_mem formed.distinct known
  have stored := CPG.byId_get? formed.distinct member
  rw [same] at stored
  rw [findingsAt, subscript_ok stored, ok_bind]
  have each (item : Item) (listed : item ∈ sinkItems cpg provenance.spec state id)
      : findingAt provenance state.pred item = .ok (provenance.readFinding state.pred item) := by
    obtain ⟨path, chain⟩ := traced item ((mem_sinkItems holds).mp listed).2.2
    exact (provenance.readFinding_eq distinct chain).2
  unfold sinkItems at each ⊢
  split
  next sink =>
    rw [if_pos sink] at each
    exact collect_ok each
  next => rfl

/-- `_build_findings` reads out every item at a sink, once. -/
theorem buildFindings_ok (canonIndex : Dict NodeId Nat)
    : ∃ findings,
        buildFindings cpg provenance state canonIndex = .ok findings
        ∧ (∀ finding, finding ∈ findings ↔ ReadOut provenance cpg state.frontier finding)
        ∧ findings.Nodup := by
  obtain ⟨canon, canonEq⟩ : ∃ canon : List NodeId, canon = sortedBy
      (fun nid => (toLex (canonIndex.getD nid (2 ^ 30), nid) : Nat ×ₗ Int)) cpg.nodeIds := ⟨_, rfl⟩
  have canonPerm : canon.Perm cpg.nodeIds := canonEq ▸ sortedBy_perm _ _
  refine ⟨(canon.flatMap (sinkItems cpg provenance.spec state)).map
    (provenance.readFinding state.pred), ?_, fun finding => ?_, ?_⟩
  · rw [buildFindings, ← canonEq]
    have each (id : NodeId) (member : id ∈ canon) := findingsAt_ok holds formed distinct traced
      provenance (canonPerm.mem_iff.mp member)
    rw [collect_ok each, ok_bind, List.map_flatMap]
    rfl
  · simp only [List.mem_map, List.mem_flatMap, mem_sinkItems holds, canonPerm.mem_iff]
    constructor
    · rintro ⟨item, ⟨_, _, rfl, sink, member⟩, rfl⟩
      obtain ⟨path, chain⟩ := traced item member
      exact ⟨item, path, chain, sink, (provenance.readFinding_eq distinct chain).1⟩
    · rintro ⟨item, path, chain, sink, rfl⟩
      have member : item ∈ state.frontier.known := chain.mem_found
      exact ⟨item, ⟨item.1, holds.inside member, rfl, sink, member⟩,
        (provenance.readFinding_eq distinct chain).1⟩
  · refine (nodup_flatMap_sinkItems holds _ (canonPerm.nodup_iff.mpr formed.distinct)).map ?_
    intro left right same
    exact Prod.ext (congrArg Finding.sink same) (congrArg Finding.fact same)

end Readout

variable {findings : List Finding} {canonIndex : Dict NodeId Nat}

/-- Hashing succeeds when every finding can be encoded. -/
theorem hashSolution_returns_iff {sha256 : Hash}
    : (∃ digest, hashSolution sha256 findings canonIndex = .ok digest)
      ↔ ∀ finding ∈ findings, ∃ bytes, findingBytes finding = .ok bytes := by
  have returned := collect_returns_iff findingBytes (sortedBy
    (fun finding : Finding => worklistKey canonIndex (finding.sink, finding.fact)) findings)
  simp only [mem_sortedBy] at returned
  rw [← returned, hashSolution]
  simp only [bind_ok]
  constructor
  · rintro ⟨_, parts, collected, _⟩
    exact ⟨parts, collected⟩
  · rintro ⟨parts, collected⟩
    exact ⟨_, parts, collected, rfl⟩

/-- Findings with different sinks or facts hash the same in any order. -/
theorem hashSolution_perm (sha256 : Hash) {others : List Finding} (perm : findings.Perm others)
    (distinct : Set.InjOn (fun finding : Finding =>
      worklistKey canonIndex (finding.sink, finding.fact)) {finding | finding ∈ findings})
    : hashSolution sha256 findings canonIndex = hashSolution sha256 others canonIndex := by
  rw [hashSolution, hashSolution, sortedBy_eq_of_perm perm distinct]

end Scanipy.Analysis.Ifds

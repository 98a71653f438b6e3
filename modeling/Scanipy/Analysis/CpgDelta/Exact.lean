import Scanipy.Analysis.CpgDelta.Rebuild

/-! When the reported delta is the difference of the parent graph and the new one. -/

namespace Scanipy.Analysis.CpgDelta

open Library Python

/-- The reparser mints distinct ids at or above the base that it is given. -/
def DeclReparser.Mints (reparser : DeclReparser) : Prop :=
  ∀ earlier decl freshIdBase sub,
    reparser earlier decl freshIdBase = .ok sub
    → (sub.nodes.map CPGNode.nodeId).Nodup ∧ ∀ node ∈ sub.nodes, freshIdBase ≤ node.nodeId

variable {ids : List NodeId}

theorem lt_aboveAll {id : NodeId} (listed : id ∈ ids) (default : Int)
    : id < aboveAll ids default := by
  unfold aboveAll
  cases largest : ids.max? with
  | none =>
      rw [List.max?_eq_none_iff] at largest
      simp [largest] at listed
  | some most =>
      exact Int.lt_add_one_iff.mpr ((List.max?_eq_some_iff.mp largest).2 id listed)

/-- A base is not above the ids minted from it. -/
theorem le_aboveAll {base : Int} (minted : ∀ id ∈ ids, base ≤ id)
    : base ≤ aboveAll ids base := by
  unfold aboveAll
  cases largest : ids.max? with
  | none => exact le_rfl
  | some most =>
      have bound := minted most (List.max?_eq_some_iff.mp largest).1
      exact bound.trans (Int.lt_succ most).le

variable {reparser : DeclReparser}

/-- Ids minted from bases above all earlier ids are distinct, by induction on the declarations. -/
theorem nodup_of_mints (mints : reparser.Mints) {preservedIds : List NodeId} {decls : List Text}
    {before after : Building}
    (ran : decls.foldlM (reparseDecl reparser preservedIds) before = .ok after)
    (distinct : before.newCpg.nodeIds.Nodup)
    (below : ∀ id ∈ before.newCpg.nodeIds, id < before.nextBase)
    : after.newCpg.nodeIds.Nodup := by
  induction decls generalizing before with
  | nil =>
      cases ran
      exact distinct
  | cons decl rest ih =>
      rw [List.foldlM_cons] at ran
      obtain ⟨middle, stepped, ran⟩ := bind_ok.mp ran
      obtain ⟨sub, answered, _, rfl⟩ := reparseDecl_ok.mp stepped
      obtain ⟨fresh, above⟩ := mints _ _ _ _ answered
      have minted : ∀ id ∈ sub.nodes.map CPGNode.nodeId, before.nextBase ≤ id := by
        intro id listed
        obtain ⟨node, member, rfl⟩ := List.mem_map.mp listed
        exact above node member
      have ids (cpg : CPG) (edges : List CPGEdge)
          : CPG.nodeIds { cpg with nodes := cpg.nodes ++ sub.nodes, edges := edges }
            = cpg.nodeIds ++ sub.nodes.map CPGNode.nodeId := by
        simp [CPG.nodeIds]
      refine ih ran ?_ ?_
      · rw [ids]
        refine distinct.append fresh fun id old new => ?_
        exact absurd (below id old) (not_lt.mpr (minted id new))
      · rw [ids]
        intro id listed
        rcases List.mem_append.mp listed with old | new
        · exact lt_of_lt_of_le (below id old) (le_aboveAll minted)
        · exact lt_aboveAll new _

/-- A new graph has distinct ids. -/
theorem nodup_built {parent new : CPG} (distinct : parent.nodeIds.Nodup) {affected : PySet Text}
    (mints : reparser.Mints) {delta : GraphDelta} {calls : List Reparse}
    (built : buildPreservingNewCpg parent affected reparser = .ok (new, delta, calls))
    : new.nodeIds.Nodup := by
  obtain ⟨after, ran, same⟩ := bind_ok.mp built
  cases same
  refine nodup_of_mints mints ran ?_ fun id listed => lt_aboveAll listed 0
  exact distinct.sublist (List.filter_sublist.map _)

/-- The delta lists the parent nodes and edges whose records are not in the new graph, and the new
ones whose records are not in the parent; so it leads from the one graph to the other.
-/
structure DeltaExact (parent new : CPG) (delta : GraphDelta) : Prop where
  removedNodes
    : delta.removedNodes = (parent.nodes.filter fun node => node ∉ new.nodes).map CPGNode.nodeId
  addedNodes
    : delta.addedNodes = (new.nodes.filter fun node => node ∉ parent.nodes).map CPGNode.nodeId
  removedEdges : delta.removedEdges = parent.edges.filter fun edge => edge ∉ new.edges
  addedEdges : delta.addedEdges = new.edges.filter fun edge => edge ∉ parent.edges
  nodes
    : ((parent.nodes.filter fun node => node.nodeId ∉ delta.removedNodes : List CPGNode)
          : Multiset CPGNode)
        + (new.nodes.filter fun node => node.nodeId ∈ delta.addedNodes : List CPGNode)
      = new.nodes
  edges
    : (parent.edges : Multiset CPGEdge) - delta.removedEdges + delta.addedEdges = new.edges

/-- With distinct ids, the nodes chosen by the ids of some nodes are those nodes. -/
theorem mem_map_nodeId_iff {nodes chosen : List CPGNode}
    (distinct : (nodes.map CPGNode.nodeId).Nodup) (subset : chosen ⊆ nodes) {node : CPGNode}
    (listed : node ∈ nodes)
    : node.nodeId ∈ chosen.map CPGNode.nodeId ↔ node ∈ chosen := by
  refine ⟨fun member => ?_, fun member => List.mem_map_of_mem member⟩
  obtain ⟨other, inside, same⟩ := List.mem_map.mp member
  rwa [← List.inj_on_of_nodup_map distinct (subset inside) listed same]

/-- The delta is exact when, and only when, no reparse mints the id of a parent node of an affected
declaration or answers an edge of the parent.
Witness: removal goes by ids and addition by origin, so a reused id hides a removal, and an edge
that is supplied again is listed as added though the parent has it.
-/
theorem delta_exact (parent : CPG) (distinct : parent.nodeIds.Nodup) (affected : PySet Text)
    (reparser : DeclReparser) (mints : reparser.Mints) (new : CPG) (delta : GraphDelta)
    (calls : List Reparse)
    (built : buildPreservingNewCpg parent affected reparser = .ok (new, delta, calls))
    : DeltaExact parent new delta
      ↔ (∀ node ∈ parent.nodes,
          node.enclosingDeclFqn ∈ affected
          → node.nodeId ∉ (reparsedNodes calls).map CPGNode.nodeId)
        ∧ ∀ edge ∈ parent.edges, edge ∉ reparsedEdges calls := by
  have newDistinct := nodup_built distinct mints built
  obtain ⟨_, _, apart, nodes, edges, rfl⟩ := exists_built built
  have mem_preserved (node : CPGNode)
      : node ∈ preservedNodes parent affected
        ↔ node ∈ parent.nodes ∧ node.enclosingDeclFqn ∉ affected := by
    rw [preservedNodes, List.mem_filter, decide_eq_true_eq]
  have preservedSubset : preservedNodes parent affected ⊆ parent.nodes :=
    fun node member => ((mem_preserved node).mp member).1
  constructor
  · intro exact
    constructor
    · intro node listed changed reused
      obtain ⟨minted, member, same⟩ := List.mem_map.mp reused
      have mintedNew : minted ∈ new.nodes := nodes ▸ List.mem_append_right _ member
      -- The minted node is listed as added, so its record is not in the parent.
      have added := exact.addedNodes
      dsimp only at added
      have mintedAdded : minted.nodeId ∈ (reparsedNodes calls).map CPGNode.nodeId :=
        List.mem_map_of_mem member
      rw [added, mem_map_nodeId_iff newDistinct (List.filter_subset_self _) mintedNew,
        List.mem_filter, decide_eq_true_eq] at mintedAdded
      -- So the parent node has gone, but its id has not.
      have gone : node ∉ new.nodes := by
        intro kept
        have equal := List.inj_on_of_nodup_map newDistinct mintedNew kept same
        exact mintedAdded.2 (equal ▸ listed)
      have removed := exact.removedNodes
      dsimp only at removed
      have nodeRemoved : node.nodeId
          ∈ (parent.nodes.filter fun node => node ∉ new.nodes).map CPGNode.nodeId :=
        List.mem_map_of_mem (List.mem_filter.mpr ⟨listed, by simpa using gone⟩)
      rw [← removed] at nodeRemoved
      obtain ⟨other, chosen, equal⟩ := List.mem_map.mp nodeRemoved
      have absent := (List.mem_filter.mp chosen).2
      rw [decide_eq_true_eq, equal, ← same] at absent
      exact absent (List.mem_map_of_mem mintedNew)
    · intro edge listed supplied
      have added := exact.addedEdges
      dsimp only at added
      rw [added, List.mem_filter, decide_eq_true_eq] at supplied
      exact supplied.2 listed
  · rintro ⟨freshNodes, freshEdges⟩
    have gone (node : CPGNode) (listed : node ∈ parent.nodes)
        : node.nodeId ∉ new.nodeIds ↔ node.enclosingDeclFqn ∈ affected := by
      rw [CPG.nodeIds, nodes, List.map_append, List.mem_append, not_or,
        mem_map_nodeId_iff distinct preservedSubset listed, mem_preserved]
      constructor
      · intro absent
        by_contra kept
        exact absent.1 ⟨listed, kept⟩
      · exact fun changed => ⟨fun kept => kept.2 changed, freshNodes node listed changed⟩
    have goneRecord (node : CPGNode) (listed : node ∈ parent.nodes)
        : node ∉ new.nodes ↔ node.enclosingDeclFqn ∈ affected := by
      refine ⟨fun absent => ?_, fun changed kept => ?_⟩
      · by_contra kept
        exact absent (nodes ▸ List.mem_append_left _ ((mem_preserved node).mpr ⟨listed, kept⟩))
      · exact (gone node listed).mpr changed (List.mem_map_of_mem kept)
    have foreign (node : CPGNode) (member : node ∈ reparsedNodes calls) : node ∉ parent.nodes := by
      intro listed
      by_cases changed : node.enclosingDeclFqn ∈ affected
      · exact freshNodes node listed changed (List.mem_map_of_mem member)
      · exact apart node member (List.mem_map_of_mem ((mem_preserved node).mpr ⟨listed, changed⟩))
    have removed : (parent.nodes.filter fun node => node.nodeId ∉ new.nodeIds)
        = parent.nodes.filter fun node => node.enclosingDeclFqn ∈ affected :=
      List.filter_congr fun node listed => decide_eq_decide.mpr (gone node listed)
    have removedRecords : (parent.nodes.filter fun node => node ∉ new.nodes)
        = parent.nodes.filter fun node => node.enclosingDeclFqn ∈ affected :=
      List.filter_congr fun node listed => decide_eq_decide.mpr (goneRecord node listed)
    have added : (new.nodes.filter fun node => node ∉ parent.nodes) = reparsedNodes calls := by
      rw [nodes, List.filter_append, List.filter_eq_nil_iff.mpr, List.nil_append,
        List.filter_eq_self.mpr]
      · exact fun node member => decide_eq_true (foreign node member)
      · exact fun node member => by simpa using preservedSubset member
    have addedEdges : (new.edges.filter fun edge => edge ∉ parent.edges) = reparsedEdges calls := by
      rw [edges, List.filter_append, List.filter_eq_nil_iff.mpr, List.nil_append,
        List.filter_eq_self.mpr]
      · exact fun edge member => decide_eq_true fun listed => freshEdges edge listed member
      · exact fun edge member => by simpa using List.mem_of_mem_filter member
    have stayed : (parent.nodes.filter fun node =>
          node.nodeId ∉ (parent.nodes.filter fun node => node.nodeId ∉ new.nodeIds).map
            CPGNode.nodeId)
        = preservedNodes parent affected := by
      refine List.filter_congr fun node listed => decide_eq_decide.mpr ?_
      rw [mem_map_nodeId_iff distinct (List.filter_subset_self _) listed, removed, List.mem_filter,
        decide_eq_true_eq]
      exact ⟨fun other changed => other ⟨listed, changed⟩, fun kept both => kept both.2⟩
    have arrived : (new.nodes.filter fun node =>
          node.nodeId ∈ (reparsedNodes calls).map CPGNode.nodeId)
        = reparsedNodes calls := by
      rw [nodes, List.filter_append, List.filter_eq_nil_iff.mpr, List.nil_append,
        List.filter_eq_self.mpr]
      · exact fun node member => decide_eq_true (List.mem_map_of_mem member)
      · intro node member reused
        obtain ⟨minted, inside, same⟩ := List.mem_map.mp (of_decide_eq_true reused)
        exact apart minted inside (same ▸ List.mem_map_of_mem member)
    have stayedEdges : (parent.edges.filter fun edge => ¬edge ∉ new.edges)
        = preservedEdges parent ((preservedNodes parent affected).map CPGNode.nodeId) := by
      refine List.filter_congr fun edge listed => decide_eq_decide.mpr ?_
      rw [not_not, edges, List.mem_append, or_iff_left (freshEdges edge listed), preservedEdges,
        List.mem_filter, decide_eq_true_eq]
      exact and_iff_right listed
    constructor
    · rw [removed, removedRecords]
    · rw [added]
    · rfl
    · rw [addedEdges]
    · rw [stayed, arrived, nodes, Multiset.coe_add]
    · dsimp only
      rw [← Multiset.filter_coe, Multiset.sub_filter_eq_filter_not, Multiset.filter_coe, stayedEdges,
        edges, Multiset.coe_add]

/-- Two declarations with one node each. -/
def twoDecls : CPG where
  nodes := [
    { nodeId := 0, kind := py "CALL", enclosingDeclFqn := py "a" },
    { nodeId := 1, kind := py "RETURN", enclosingDeclFqn := py "b" }]

theorem callReparser_mints : callReparser.Mints := by
  rintro _ decl freshIdBase sub answered
  cases answered
  exact ⟨List.nodup_singleton _, fun node listed => by rw [List.mem_singleton.mp listed]⟩

theorem delta_exact_twoDecls
    : ∃ new delta calls,
        buildPreservingNewCpg twoDecls [py "c"] callReparser = .ok (new, delta, calls)
        ∧ DeltaExact twoDecls new delta := by
  obtain ⟨new, delta, calls, built, fresh⟩ : ∃ new delta calls,
      buildPreservingNewCpg twoDecls [py "c"] callReparser = .ok (new, delta, calls)
      ∧ reparsedNodes calls
        = [{ nodeId := 2, kind := py "CALL", enclosingDeclFqn := py "c" }] :=
    ⟨_, _, _, rfl, rfl⟩
  refine ⟨new, delta, calls, built, (delta_exact twoDecls (by decide) [py "c"] callReparser
    callReparser_mints new delta calls built).mpr ⟨?_, by simp [twoDecls]⟩⟩
  rw [fresh]
  decide

/-- The fresh id `1` is that of the node it replaces, which is not listed as removed. -/
theorem replaced_node_not_removed
    : ¬∀ (parent : CPG) (affected : PySet Text) (reparser : DeclReparser) (new : CPG)
        (delta : GraphDelta) (calls : List Reparse),
        parent.nodeIds.Nodup
        → reparser.Mints
        → buildPreservingNewCpg parent affected reparser = .ok (new, delta, calls)
        → DeltaExact parent new delta := by
  intro claimed
  obtain ⟨new, delta, calls, built, kept, gone⟩ : ∃ new delta calls,
      buildPreservingNewCpg twoDecls [py "b"] callReparser = .ok (new, delta, calls)
      ∧ delta.removedNodes = []
      ∧ (twoDecls.nodes.filter fun node => node ∉ new.nodes).map CPGNode.nodeId = [1] :=
    ⟨_, _, _, rfl, by decide, by decide⟩
  have exact := (claimed twoDecls [py "b"] callReparser new delta calls (by decide)
    callReparser_mints built).removedNodes
  rw [kept, gone] at exact
  cases exact

end Scanipy.Analysis.CpgDelta

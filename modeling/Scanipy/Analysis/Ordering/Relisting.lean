import Scanipy.Analysis.Ordering.Identity

/-! The canonical order does not depend on the order in which a graph lists its nodes and
edges: not even a tie that symmetry leaves open, or the weak fallback, reads it.
-/

namespace Scanipy.Analysis

open Library Python

/-- The same nodes, ids included, and the same edges, listed in any order. -/
structure CPG.Relisted (left right : CPG) : Prop where
  nodes : right.nodes.Perm left.nodes
  edges : right.edges.Perm left.edges
  modelVersion : right.modelVersion = left.modelVersion
  extraFields : right.extraFields = left.extraFields

namespace CPG.Relisted

theorem refl (cpg : CPG) : CPG.Relisted cpg cpg :=
  ⟨.rfl, .rfl, rfl, rfl⟩

variable {left right : CPG} (relisted : CPG.Relisted left right)

include relisted

theorem nodeIds : right.nodeIds.Perm left.nodeIds :=
  relisted.nodes.map CPGNode.nodeId

theorem wellFormed (formed : left.WellFormed) : right.WellFormed where
  noExtraFields := relisted.extraFields.trans formed.noExtraFields
  modelVersion := relisted.modelVersion ▸ formed.modelVersion
  nodes := fun node member => formed.nodes node (relisted.nodes.mem_iff.mp member)
  distinct := relisted.nodeIds.nodup_iff.mpr formed.distinct
  edges := fun edge member => by
    obtain ⟨extra, src, dst, nonempty, kind⟩ := formed.edges edge (relisted.edges.mem_iff.mp member)
    exact ⟨extra, relisted.nodeIds.mem_iff.mpr src, relisted.nodeIds.mem_iff.mpr dst, nonempty, kind⟩

theorem ready (leftReady : left.Ready) : right.Ready where
  wellFormed := relisted.wellFormed leftReady.wellFormed
  nodes := relisted.nodes.length_eq ▸ leftReady.nodes
  edges := relisted.edges.length_eq ▸ leftReady.edges

theorem transport (leftReady : left.Ready) : Transport id left right where
  iso := ⟨(relisted.nodes.map _).symm, (relisted.edges.map _).symm⟩
  leftReady := leftReady
  rightReady := relisted.ready leftReady

theorem symm : CPG.Relisted right left :=
  ⟨relisted.nodes.symm, relisted.edges.symm, relisted.modelVersion.symm, relisted.extraFields.symm⟩

variable (leftReady : left.Ready)

include leftReady

theorem swapChecks_iff {a b : NodeId} (aMember : a ∈ left.nodeIds) (bMember : b ∈ left.nodeIds)
    : right.SwapChecks a b ↔ left.SwapChecks a b := by
  have forward := relisted.transport leftReady
  have back := relisted.symm.transport forward.rightReady
  have aRight := relisted.nodeIds.mem_iff.mpr aMember
  have bRight := relisted.nodeIds.mem_iff.mpr bMember
  rw [Analysis.swapChecks_iff forward.rightReady aRight bRight,
    Analysis.swapChecks_iff leftReady aMember bMember]
  exact ⟨fun swaps => swaps.carry back aRight bRight, fun swaps => swaps.carry forward aMember bMember⟩

theorem keptOf {nodes : List NodeId} (known : nodes ⊆ left.nodeIds)
    : right.keptOf nodes = left.keptOf nodes := by
  refine greedy_congr fun a aMember b bMember => ?_
  simp only [relisted.swapChecks_iff leftReady (known aMember) (known bMember)]

/-- The pruned trees are the same, state by state and leaf by leaf. -/
theorem prunedTree {picked : List NodeId} (known : picked ⊆ left.nodeIds)
    : right.prunedTree picked = left.prunedTree picked := by
  have along := relisted.transport leftReady
  have same := along.colorOf known
  rw [List.map_id] at same
  unfold CPG.prunedTree CPG.expandWith
  rw [along.target same]
  cases found : left.target (left.colorOf picked) with
  | none =>
      have order := along.orderBy same found
      have encoded := along.encodedGraph (orderBy_perm left (left.colorOf picked))
      rw [List.map_id] at order encoded
      simp only [order, encoded]
  | some target =>
      have cell := along.cell same (ofLex target).2
      rw [List.map_id] at cell
      simp only [sorted_eq_sorted.mpr cell]
      rw [relisted.keptOf leftReady]
      exact fun node member => (mem_cell.mp (mem_sorted.mp member)).1

theorem trees (depth : Nat) {picked : List NodeId} (valid : left.Individualised picked)
    : SearchTree.states right.prunedTree depth picked = SearchTree.states left.prunedTree depth picked
      ∧ SearchTree.leaves right.prunedTree depth picked
        = SearchTree.leaves left.prunedTree depth picked :=
  SearchTree.congr (prunedTree_descending leftReady)
    (fun _ inside => relisted.prunedTree leftReady inside.known) depth valid

theorem searchSize : right.searchSize = left.searchSize := by
  have same := (relisted.trees leftReady (left.nodes.length + 1) (individualised_nil left)).1
  rw [CPG.searchSize, CPG.searchSize, SearchTree.size, SearchTree.size, CPG.height, CPG.height,
    relisted.nodes.length_eq]
  exact same

/-- The least candidate is the same, its order included. -/
theorem certificate : right.certificate = left.certificate := by
  have same := (relisted.trees leftReady (left.nodes.length + 1) (individualised_nil left)).2
  have candidates : right.candidates = left.candidates := by
    rw [CPG.candidates, CPG.candidates, SearchTree.tips, SearchTree.tips, CPG.height, CPG.height,
      relisted.nodes.length_eq]
    exact same
  rw [CPG.certificate, CPG.certificate, candidates]

theorem encodedGraph {order : List NodeId} (complete : order.Perm left.nodeIds)
    : encodedGraph right order = encodedGraph left order := by
  have same := (relisted.transport leftReady).encodedGraph complete
  rw [List.map_id] at same
  exact same.symm

end CPG.Relisted

/-- The kinds of the edges at a node, once for each end. -/
def CPG.kindsAt (cpg : CPG) (id : NodeId) : List Text :=
  cpg.edges.flatMap fun edge =>
    (if edge.src = id then [edge.kind] else []) ++ if edge.dst = id then [edge.kind] else []

theorem incident_getD (cpg : CPG) (id : NodeId) : (incident cpg).getD id [] = cpg.kindsAt id := by
  have grown (edges : List CPGEdge) (entries : Dict NodeId (List Text))
      : (edges.foldl (fun kinds edge =>
            (kinds.appendTo edge.src edge.kind).appendTo edge.dst edge.kind) entries).getD id []
        = entries.getD id [] ++ edges.flatMap fun edge =>
            (if edge.src = id then [edge.kind] else [])
              ++ if edge.dst = id then [edge.kind] else [] := by
    induction edges generalizing entries with
    | nil => simp
    | cons edge rest ih =>
        rw [List.foldl_cons, ih, List.flatMap_cons, ← List.append_assoc]
        refine congrArg (· ++ _) ?_
        simp only [Dict.appendTo, Dict.getD_set]
        split_ifs <;> simp_all
  rw [incident, grown, CPG.kindsAt]
  have none : Dict.getD (cpg.nodeIds.map fun node => (node, ([] : List Text))) id [] = [] := by
    rw [Dict.getD, Dict.get?_map fun _ => []]
    split <;> rfl
  rw [none, List.nil_append]

namespace CPG.Relisted

variable {left right : CPG} (relisted : CPG.Relisted left right) (leftReady : left.Ready)

include relisted leftReady

theorem fallbackOrder (sha256 : Hash)
    : fallbackOrder sha256 right = fallbackOrder sha256 left := by
  have entries : fallbackEntry sha256 right = fallbackEntry sha256 left := by
    funext node
    have kinds : (right.kindsAt node.nodeId).Perm (left.kindsAt node.nodeId) :=
      relisted.edges.flatMap_right _
    rw [fallbackEntry, fallbackEntry, incident_getD, incident_getD, sorted_eq_sorted.mpr kinds]
  rw [Analysis.fallbackOrder, Analysis.fallbackOrder, entries]
  refine congrArg (List.map Prod.snd) (sortedBy_eq_of_perm (relisted.nodes.map _) ?_)
  rintro _ first _ second same
  obtain ⟨node, member, rfl⟩ := List.mem_map.mp first
  obtain ⟨other, otherMember, rfl⟩ := List.mem_map.mp second
  have ids : node.nodeId = other.nodeId := congrArg (fun key : FallbackKey =>
    (ofLex (ofLex (ofLex (ofLex key).2).2).2).2) same
  have nodes : node = other := List.inj_on_of_nodup_map
    (relisted.wellFormed leftReady.wellFormed).distinct member otherMember ids
  rw [nodes]

/-- Runs that return report the same order, hash and class. -/
theorem canonicalOrderFresh_agree {sha256 : Hash} {clock otherClock : Nat → Rat}
    {order other : CanonicalOrderResult}
    (ran : canonicalOrderFresh sha256 clock left = .ok order)
    (again : canonicalOrderFresh sha256 otherClock right = .ok other)
    : other.canonicalOrder = order.canonicalOrder
      ∧ other.cpgOrderHash = order.cpgOrderHash
      ∧ other.fingerprintClass = order.fingerprintClass := by
  have rightReady := relisted.ready leftReady
  have certificate := relisted.certificate leftReady
  have fallback := relisted.fallbackOrder leftReady sha256
  have encoded := relisted.encodedGraph leftReady (fallbackOrder_perm sha256 left)
  have agree {decided : List NodeId × Bytes × FingerprintClass}
      (first : Reports sha256 order decided) (second : Reports sha256 other decided) :=
    And.intro (second.canonicalOrder.trans first.canonicalOrder.symm)
      (And.intro (second.cpgOrderHash.trans first.cpgOrderHash.symm)
        (second.fingerprintClass.trans first.fingerprintClass.symm))
  have again := canonicalOrderFresh_reports rightReady again
  rw [relisted.searchSize leftReady, certificate, fallback, encoded] at again
  rcases canonicalOrderFresh_reports leftReady ran with ⟨enough, first, _⟩ | ⟨short, first, _⟩
  · rcases again with ⟨_, second, _⟩ | ⟨otherShort, _, _⟩
    · exact agree first second
    · omega
  · rcases again with ⟨otherEnough, _, _⟩ | ⟨_, second, _⟩
    · omega
    · exact agree first second

end CPG.Relisted

end Scanipy.Analysis

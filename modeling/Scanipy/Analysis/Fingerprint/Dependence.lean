import Scanipy.Analysis.Fingerprint.Copy

/-! Exactness of the backward slice: it is the subgraph on the dependency cone of the witness,
renumbered.
-/

namespace Scanipy.Analysis

open Library Python

/-- Everything of a node except its id. -/
def CPGNode.content (node : CPGNode) : Text × Text × Text × Text × Text :=
  (node.kind, node.operatorOrLiteral, node.resolvedFqn, node.enclosingDeclFqn, node.structuralPath)

open Classical in
/-- The subgraph on the nodes of a set, with every edge between two of them. -/
noncomputable def CPG.induced (cpg : CPG) (kept : Set NodeId) : CPG where
  nodes := cpg.nodes.filter fun node => node.nodeId ∈ kept
  edges := cpg.edges.filter fun edge => edge.src ∈ kept ∧ edge.dst ∈ kept

/-- The extract on a list of nodes is the subgraph they induce, renumbered.
Witness: both list the same nodes once, and the same edges in the same order.
-/
theorem induced_iso_extract {cpg : CPG} (formed : cpg.WellFormed) {kept : Set NodeId}
    {members : List NodeId} (distinct : members.Nodup) (known : members ⊆ cpg.nodeIds)
    (same : ∀ id, id ∈ members ↔ id ∈ kept)
    : CPG.Iso CPGNode.content (fun id => members.idxOf id) (cpg.induced kept)
        (cpg.extract members) := by
  constructor
  · have listed : (cpg.induced kept).nodeIds.Perm members := by
      refine (List.perm_ext_iff_of_nodup ?_ distinct).mpr fun id => ?_
      · exact formed.distinct.sublist (List.filter_sublist.map _)
      · rw [same]
        constructor
        · intro member
          obtain ⟨node, chosen, rfl⟩ := List.mem_map.mp member
          simpa using (List.mem_filter.mp chosen).2
        · intro inside
          obtain ⟨node, member, rfl⟩ := List.mem_map.mp (known ((same id).mpr inside))
          exact List.mem_map_of_mem (List.mem_filter.mpr ⟨member, by simpa using inside⟩)
    have copied := listed.map fun id => ((members.idxOf id : Int), (cpg.nodeAt id).content)
    rw [CPG.nodeIds, List.map_map] at copied
    refine (List.Perm.of_eq (List.map_congr_left fun node chosen => ?_)).trans
      (copied.trans (List.Perm.of_eq ?_))
    · rw [Function.comp_apply, CPG.nodeAt_of_mem formed.distinct (List.mem_of_mem_filter chosen)]
    · rw [CPG.extract, List.map_map]
      rfl
  · refine List.Perm.of_eq ?_
    rw [CPG.induced, CPG.extract, List.map_map]
    have chosen : cpg.edges.filter (fun edge => edge.src ∈ members ∧ edge.dst ∈ members)
        = (cpg.induced kept).edges := by
      refine List.filter_congr fun edge _ => ?_
      exact decide_eq_decide.mpr (and_congr (same edge.src) (same edge.dst))
    rw [chosen]
    rfl

/-- Along a witness whose nodes are joined by dataflow edges, every node reaches the last.
Witness: induction on the witness.
-/
theorem reaches_of_joined {cpg : CPG} {witness : List NodeId} {sink : NodeId}
    (joined : witness.IsChain fun src dst => src ∈ cpg.flowsInto dst)
    (last : witness.getLast? = some sink)
    : ∀ id ∈ witness, cpg.Reaches id sink := by
  induction witness with
  | nil => simp
  | cons first rest ih =>
      cases rest with
      | nil =>
          intro id listed
          obtain rfl := List.mem_singleton.mp listed
          obtain rfl : id = sink := by simpa using last
          exact .refl
      | cons second rest =>
          obtain ⟨step, later⟩ := List.isChain_cons_cons.mp joined
          have following := ih later (by simpa using last)
          intro id listed
          rcases List.mem_cons.mp listed with rfl | among
          · exact .head step (following second List.mem_cons_self)
          · exact following id among

/-- The slice of a witness is the subgraph on the witness and on all nodes from which its last
node is reached, up to the ids, which rename the witness as well. It has every dataflow edge into
a witness node that reaches the last one, as do all nodes of a joined witness.
Witness: the slice is the extract on the sorted nodes of the cone.
-/
theorem backward_slice_exact (cpg : CPG)
    (valid : (validateCpg (pure ()) cpg : Except AnalysisError Unit) = .ok ())
    (witness : List NodeId) (known : ∀ id ∈ witness, id ∈ cpg.nodeIds) (sink : NodeId)
    (last : witness.getLast? = some sink)
    : ∃ (slice : Slice) (rename : NodeId → NodeId),
        backwardInterproceduralSlice cpg witness = .ok slice
        ∧ slice.cpg.nodeIds.Nodup
        ∧ CPG.Iso CPGNode.content rename
            (cpg.induced {id | id ∈ witness ∨ cpg.Reaches id sink}) slice.cpg
        ∧ slice.witness = witness.map rename
        ∧ (∀ edge ∈ cpg.edges,
            edge.kind ∈ dataflowKinds
            → edge.dst ∈ witness
            → cpg.Reaches edge.dst sink
            → edge.triple rename ∈ slice.cpg.edges.map fun copy => copy.triple id)
        ∧ ((witness.IsChain fun src dst => src ∈ cpg.flowsInto dst)
          → ∀ id ∈ witness, cpg.Reaches id sink) := by
  have formed := validateCpg_ok_iff.mp valid
  obtain ⟨members, sliced, returned⟩ := backwardInterproceduralSlice_eq_ok formed known last
  obtain ⟨other, otherLast, onSlice⟩ := sliced.onSlice
  obtain rfl : other = sink := Option.some.inj (otherLast.symm.trans last)
  have iso := induced_iso_extract formed sliced.distinct sliced.known onSlice
  refine ⟨cpg.sliceOn witness members, fun id => members.idxOf id, returned, ?_, iso, rfl, ?_,
    fun joined => reaches_of_joined joined last⟩
  · exact (extract_numbered sliced.distinct cpg).distinct
  · intro edge listed flows seed reaches
    refine iso.edges.mem_iff.mp (List.mem_map_of_mem (List.mem_filter.mpr ⟨listed, ?_⟩))
    have entering : edge.src ∈ cpg.flowsInto edge.dst :=
      List.mem_map_of_mem (List.mem_filter.mpr ⟨listed, by simpa using flows⟩)
    simpa using ⟨.inr (.head entering reaches), .inl seed⟩

/-- A branch `0 → 1`, and two nodes that nothing reaches. -/
def disjoinedBranch : CPG where
  nodes := [
    { nodeId := 0, kind := py "CALL" },
    { nodeId := 1, kind := py "CALL" },
    { nodeId := 2, kind := py "CALL" },
    { nodeId := 3, kind := py "CALL" }]
  edges := [{ src := 0, dst := 1, kind := py "CFG" }]

/-- The witness `2, 1, 3` does not lead to its last node, and the branch into `1` is dropped. -/
theorem branch_dropped
    : ¬∀ (cpg : CPG) (witness : List NodeId),
        (validateCpg (pure ()) cpg : Except AnalysisError Unit) = .ok ()
        → witness ≠ []
        → (∀ id ∈ witness, id ∈ cpg.nodeIds)
        → ∃ slice,
            backwardInterproceduralSlice cpg witness = .ok slice
            ∧ ∀ edge ∈ cpg.edges,
                edge.kind ∈ dataflowKinds
                → edge.dst ∈ witness.tail.dropLast
                → ∃ copy ∈ slice.cpg.edges, copy.kind = edge.kind := by
  intro claimed
  obtain ⟨slice, returned, kept⟩ := claimed disjoinedBranch [2, 1, 3] (by decide)
    (by decide) (by decide)
  have sliced : backwardInterproceduralSlice disjoinedBranch [2, 1, 3]
      = .ok (disjoinedBranch.sliceOn [2, 1, 3] [1, 2, 3]) := by
    rfl
  cases sliced.symm.trans returned
  have none : (disjoinedBranch.sliceOn [2, 1, 3] [1, 2, 3]).cpg.edges = [] := by decide
  obtain ⟨copy, listed, _⟩ := kept ⟨0, 1, py "CFG", []⟩ (by decide) (by decide)
    (by decide)
  rw [none] at listed
  exact absurd listed List.not_mem_nil

/-- A diamond whose witness runs along one side. -/
def diamond : CPG where
  nodes := [
    { nodeId := 4, kind := py "CALL" },
    { nodeId := 7, kind := py "CALL" },
    { nodeId := 5, kind := py "CALL" }]
  edges := [{ src := 7, dst := 5, kind := py "CFG" }, { src := 4, dst := 7, kind := py "PDG" }]

theorem backward_slice_exact_diamond
    : ∃ (slice : Slice) (rename : NodeId → NodeId),
        backwardInterproceduralSlice diamond [7, 5] = .ok slice
        ∧ CPG.Iso CPGNode.content rename
            (diamond.induced {id | id ∈ [7, 5] ∨ diamond.Reaches id 5}) slice.cpg
        ∧ slice.witness = [7, 5].map rename := by
  obtain ⟨slice, rename, returned, _, iso, witness, _⟩ := backward_slice_exact diamond
    (by decide) [7, 5] (by decide) 5 rfl
  exact ⟨slice, rename, returned, iso, witness⟩

end Scanipy.Analysis

import Scanipy.Analysis.Ordering.Outcome

/-! The full individualisation-refinement tree, in the terms of the code, and that pruning
does not change the certificate.
-/

namespace Scanipy.Analysis

open Library Python
open CanonicalizationBudget (check)

/-- The order at a leaf below `markers`, when every node of each target cell is expanded. -/
inductive FullLeaf (index : GraphIndex) : Markers → List NodeId → Prop where
  | discrete {markers : Markers} {colors : Dict NodeId Nat}
      (refined : Settles (index.refine markers) (.ok colors)) (single : ambiguous colors = [])
      : FullLeaf index markers (sortedBy (fun node => colors.getD node 0) colors.keys)
  | expand {markers : Markers} {colors : Dict NodeId Nat} {target : Nat ×ₗ Nat} {node : NodeId}
      {order : List NodeId} (refined : Settles (index.refine markers) (.ok colors))
      (smallest : (ambiguous colors).min? = some target)
      (member : node ∈ (cells colors).getD (ofLex target).2 [])
      (below : FullLeaf index (markers.set node (markers.length + 1)) order)
      : FullLeaf index markers order

/-- A computation settles to one value only. Witness: run it on a budget without deadline. -/
theorem Settles.unique {α : Type} {actual : BudgetM α} {first second : α}
    (settles : Settles actual (.ok first)) (other : Settles actual (.ok second))
    : first = second := by
  obtain ⟨value, ran⟩ := settles.returns (freshBudget (fun _ => 0) 1 defaultT)
    (Nat.zero_le _) (neverExpires_stopped 0) rfl
  obtain ⟨_, sameFirst, rfl, _⟩ := settles.of_ok (Nat.zero_le _) ran
  obtain ⟨_, sameSecond, rfl, _⟩ := other.of_ok (Nat.zero_le _) ran
  exact (Except.ok.inj sameFirst).trans (Except.ok.inj sameSecond).symm

section Leaves

variable {cpg : CPG} {index : GraphIndex} (ready : cpg.Ready) (describes : index.Describes cpg)

include ready describes

/-- Every leaf of the inductive tree is a certificate of the full tree, by induction on it. -/
theorem FullLeaf.mem_leaves {markers : Markers} {order : List NodeId}
    (leaf : FullLeaf index markers order) {picked : List NodeId}
    (valid : cpg.Individualised picked) (same : markers = marks picked) {depth : Nat}
    (deep : cpg.height picked < depth)
    : toLex (encodedGraph cpg order, order) ∈ SearchTree.leaves cpg.fullTree depth picked := by
  induction leaf generalizing picked depth with
  | discrete refined single =>
      subst same
      cases (refine_settles ready describes (valid.short ready)).unique refined
      obtain ⟨depth, rfl⟩ := Nat.exists_eq_succ_of_ne_zero (Nat.ne_zero_of_lt deep)
      have found : cpg.target (cpg.colorOf picked) = none := List.min?_eq_none_iff.mpr single
      rw [sortedBy_coloring, SearchTree.leaves_leaf (by
        rw [CPG.fullTree, CPG.expandWith, found])]
      exact List.mem_singleton_self _
  | @expand _ _ target node _ refined smallest member _ ih =>
      subst same
      cases (refine_settles ready describes (valid.short ready)).unique refined
      obtain ⟨depth, rfl⟩ := Nat.exists_eq_succ_of_ne_zero (Nat.ne_zero_of_lt deep)
      have found : cpg.target (cpg.colorOf picked) = some target := smallest
      rw [cells_getD] at member
      obtain ⟨childValid, lower⟩ := individualised_append ready valid found member
      have below : _ ∈ SearchTree.leaves cpg.fullTree depth (picked ++ [node]) :=
        ih childValid (marks_append (fresh_of_target ready valid found member)) (by omega)
      have branch : cpg.fullTree picked = .branch
          ((sorted (cpg.cell (cpg.colorOf picked) (ofLex target).2)).map
            fun node => picked ++ [node]) := by
        rw [CPG.fullTree, CPG.expandWith, found]
        rfl
      rw [SearchTree.leaves_branch branch]
      exact List.mem_flatMap.mpr
        ⟨_, List.mem_map.mpr ⟨node, mem_sorted.mpr member, rfl⟩, below⟩

/-- Every certificate of the full tree is a leaf of the inductive tree, by induction on the
depth.
-/
theorem fullLeaf_of_mem_leaves {depth : Nat} {picked : List NodeId}
    (valid : cpg.Individualised picked) {candidate : Candidate}
    (member : candidate ∈ SearchTree.leaves cpg.fullTree depth picked)
    : FullLeaf index (marks picked) (ofLex candidate).2 := by
  induction depth generalizing picked with
  | zero => simp [SearchTree.leaves] at member
  | succ depth ih =>
      have refined := refine_settles ready describes (valid.short ready)
      cases found : cpg.target (cpg.colorOf picked) with
      | none =>
          rw [SearchTree.leaves_leaf (by rw [CPG.fullTree, CPG.expandWith, found]),
            List.mem_singleton] at member
          subst member
          rw [ofLex_toLex, ← sortedBy_coloring]
          exact .discrete refined (List.min?_eq_none_iff.mp found)
      | some target =>
          rw [SearchTree.leaves_branch (by rw [CPG.fullTree, CPG.expandWith, found])] at member
          obtain ⟨child, childMember, below⟩ := List.mem_flatMap.mp member
          obtain ⟨node, nodeMember, rfl⟩ := List.mem_map.mp childMember
          have inCell : node ∈ cpg.cell (cpg.colorOf picked) (ofLex target).2 :=
            mem_sorted.mp nodeMember
          have listed : node ∈ (cells (cpg.coloring (cpg.colorOf picked))).getD
              (ofLex target).2 [] := by rwa [cells_getD]
          refine .expand refined found listed ?_
          rw [marks_append (fresh_of_target ready valid found inCell)]
          exact ih (individualised_append ready valid found inCell).1 below

end Leaves

/-- The pruned search returns the least encoding over all leaves of the full tree.
Witness: a pruned child mirrors a kept sibling, so its leaves have the sibling's encodings.
-/
theorem canonicalSearch_isLeast (cpg : ValidCPG) (building searching : CanonicalizationBudget)
    (buildSound : building.searchStates ≤ building.stateLimit)
    (searchSound : searching.searchStates ≤ searching.stateLimit) (index : GraphIndex)
    (built : (GraphIndex.build cpg.toCPG building).1 = .ok index) (order : List NodeId)
    (encoded : Bytes) (ran : (canonicalSearch cpg.toCPG index searching).1 = .ok (order, encoded))
    : IsLeast
        {bytes | ∃ leaf, FullLeaf index [] leaf
          ∧ encodeGraph (pure ()) cpg.toCPG leaf = (.ok bytes : Except AnalysisError Bytes)}
        encoded := by
  have ready := cpg.ready
  obtain ⟨_, _, describes, _⟩ :=
    (GraphIndex.build_budgeted ready.wellFormed).of_ok buildSound built
  obtain ⟨_, outcome, rfl, _⟩ := (canonicalSearch_budgeted ready describes).of_ok searchSound ran
  have returned : cpg.certificate = (order, encoded) := by
    change (searchSpec cpg.toCPG _).1 = _ at outcome
    unfold searchSpec at outcome
    split at outcome
    · exact Except.ok.inj outcome
    · cases outcome
  have root := individualised_nil cpg.toCPG
  obtain ⟨⟨candidate, listed, same⟩, least⟩ := certificate_isLeast ready
  rw [returned] at same least
  constructor
  · have full := (prunedTree_pruning ready).leaves_subset _ root listed
    obtain ⟨complete, encodes⟩ := candidate_encodes listed
    refine ⟨_, fullLeaf_of_mem_leaves ready describes root full, ?_⟩
    rw [encodeGraph_eq_ok ready complete, ← encodes]
    exact congrArg Except.ok same
  · rintro bytes ⟨leaf, isLeaf, encodes⟩
    have member := isLeaf.mem_leaves ready describes root rfl (Nat.lt_succ_self _)
    have complete := (candidate_encodes member).1
    rw [ofLex_toLex] at complete
    rw [encodeGraph_eq_ok ready complete] at encodes
    obtain ⟨other, otherMember, sameBytes⟩ := (prunedTree_pruning ready).covers
      (expandWith_matching (aligned_full _ _)) (fun _ => rfl)
      (fun _ _ _ first second => first.trans second) _ root member
    refine (least ⟨other, otherMember, rfl⟩).trans (le_of_eq ?_)
    exact sameBytes.symm.trans (Except.ok.inj encodes)

/-- Two reads of one name; exchanging them is an automorphism, so one is pruned. -/
def twinReads : ValidCPG where
  nodes := [
    { nodeId := 0, kind := py "IDENTIFIER", operatorOrLiteral := py "x" },
    { nodeId := 1, kind := py "IDENTIFIER", operatorOrLiteral := py "x" }]
  accepted := by decide
  representable := ⟨by decide, by decide, by decide, by decide⟩

def twinReadsIndex : GraphIndex where
  labels := [(0, twinReads.labelAt 0), (1, twinReads.labelAt 1)]
  incoming := [(0, []), (1, [])]
  outgoing := [(0, []), (1, [])]
  pairs := []

theorem canonicalSearch_isLeast_twinReads
    : (canonicalSearch twinReads.toCPG twinReadsIndex (freshBudget (fun _ => 0) 2 defaultT)).1
        = .ok ([1, 0], encodedGraph twinReads.toCPG [1, 0])
      ∧ IsLeast
          {bytes | ∃ leaf, FullLeaf twinReadsIndex [] leaf
            ∧ encodeGraph (pure ()) twinReads.toCPG leaf
              = (.ok bytes : Except AnalysisError Bytes)}
          (encodedGraph twinReads.toCPG [1, 0]) := by
  have ran : (canonicalSearch twinReads.toCPG twinReadsIndex
        (freshBudget (fun _ => 0) 2 defaultT)).1
      = .ok ([1, 0], encodedGraph twinReads.toCPG [1, 0]) := by decide +kernel
  exact ⟨ran, canonicalSearch_isLeast twinReads (freshBudget (fun _ => 0) 2 defaultT)
    (freshBudget (fun _ => 0) 2 defaultT) (Nat.zero_le _) (Nat.zero_le _) twinReadsIndex
    (by decide +kernel) [1, 0] _ ran⟩

end Scanipy.Analysis

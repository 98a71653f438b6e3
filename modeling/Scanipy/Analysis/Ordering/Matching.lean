import Mathlib.Data.List.Pairwise
import Scanipy.Analysis.Ordering.Tree

/-! Isomorphic graphs have matching trees, and pruning by swaps keeps every certificate. -/

namespace Scanipy.Analysis

open Library Python

/-- Two certificates with the same encoding. -/
def SameBytes (certificate other : Candidate) : Prop :=
  (ofLex certificate).1 = (ofLex other).1

/-- Some isomorphism carries the nodes individualised on the left to those on the right. -/
def Mirrored (left right : CPG) (picked image : List NodeId) : Prop :=
  left.Individualised picked
  ∧ ∃ rename, Transport rename left right ∧ image = picked.map rename

namespace Transport

variable {rename : NodeId → NodeId} {left right : CPG} (along : Transport rename left right)

include along

variable {color image : Coloring}

theorem cell (same : Carried rename left color image) (value : Nat)
    : (right.cell image value).Perm ((left.cell color value).map rename) := by
  refine (along.iso.nodeIds.symm.filter _).trans (List.Perm.of_eq ?_)
  rw [List.filter_map, CPG.cell]
  refine congrArg (List.map rename) (List.filter_congr fun id member => ?_)
  simp only [Function.comp, same id member]

theorem target (same : Carried rename left color image)
    : right.target image = left.target color := by
  refine min?_eq_of_mem_iff fun entry => ?_
  rw [mem_ambiguous, mem_ambiguous, (along.cell same _).length_eq, List.length_map]

theorem orderBy (same : Carried rename left color image) (leaf : left.target color = none)
    : right.orderBy image = (left.orderBy color).map rename := by
  have imageLeaf : right.target image = none := (along.target same).trans leaf
  unfold CPG.orderBy
  rw [sortedBy_eq_of_perm along.iso.nodeIds.symm (injOn_of_target_eq_none imageLeaf), sortedBy_map,
    sortedBy_congr same]

/-- The encoding of a complete order is that of its image. -/
theorem encodedGraph {order : List NodeId} (complete : order.Perm left.nodeIds)
    : encodedGraph left order = encodedGraph right (order.map rename) := by
  have imageComplete : (order.map rename).Perm right.nodeIds :=
    (complete.map rename).trans along.iso.nodeIds
  refine (encodedGraph_eq_iff along.leftReady along.rightReady complete imageComplete).mpr
    ⟨(List.length_map _).symm, (along.congr fun id member => ?_).iso⟩
  have listed := complete.mem_iff.mpr member
  simp [follow, List.getElem?_map, List.getElem?_idxOf listed]

end Transport

theorem orderBy_perm (cpg : CPG) (color : Coloring) : (cpg.orderBy color).Perm cpg.nodeIds :=
  sortedBy_perm color cpg.nodeIds

variable {left right : CPG}

/-- Children individualising a node and a node swappable with its image are mirrored.
Witness: follow the isomorphism by that swap; neither node was individualised before.
-/
theorem mirrored_append {rename : NodeId → NodeId} (along : Transport rename left right)
    {picked : List NodeId} {node image : NodeId} (valid : left.Individualised (picked ++ [node]))
    (imageValid : right.Individualised (picked.map rename ++ [image]))
    (swaps : right.Swappable (rename node) image)
    : Mirrored left right (picked ++ [node]) (picked.map rename ++ [image]) := by
  have swapped : Transport (Equiv.swap (rename node) image) right right :=
    ⟨swaps, along.rightReady, along.rightReady⟩
  refine ⟨valid, _, along.trans swapped, ?_⟩
  rw [List.map_append, List.map_singleton, Equiv.swap_apply_left]
  refine congrArg (· ++ [image]) (List.map_congr_left fun earlier member => ?_)
  have known : earlier ∈ left.nodeIds := valid.known (List.mem_append_left _ member)
  have nodeKnown : node ∈ left.nodeIds := valid.known (List.mem_append_right _ List.mem_cons_self)
  have notNode : rename earlier ≠ rename node := by
    intro same
    have equal := (along.rename_eq known nodeKnown).mp same
    exact (List.nodup_append.mp valid.distinct).2.2 earlier member node List.mem_cons_self equal
  have notImage : rename earlier ≠ image :=
    (List.nodup_append.mp imageValid.distinct).2.2 _ (List.mem_map_of_mem member) image
      List.mem_cons_self
  rw [Equiv.swap_apply_of_ne_of_ne notNode notImage]

/-- The choices on both sides correspond up to swaps of the right graph. -/
def Aligned (left right : CPG) (choose other : List NodeId → List NodeId) : Prop :=
  ∀ rename nodes images,
    Transport rename left right
    → nodes ⊆ left.nodeIds
    → nodes.Nodup
    → images.Perm (nodes.map rename)
    → ∃ listed,
        listed.Perm (other images)
        ∧ List.Forall₂
            (fun node image =>
              node ∈ nodes ∧ image ∈ images ∧ right.Swappable (rename node) image)
            (choose nodes) listed

/-- Trees with corresponding choices match, leaf by leaf with the same bytes. -/
theorem expandWith_matching {choose other : List NodeId → List NodeId}
    (aligned : Aligned left right choose other)
    : SearchTree.Matching (Mirrored left right) SameBytes (left.expandWith choose)
        (right.expandWith other) := by
  rintro picked _ ⟨valid, rename, along, rfl⟩
  have same := along.colorOf valid.known
  unfold CPG.expandWith
  rw [along.target same]
  cases found : left.target (left.colorOf picked) with
  | none =>
      change Analysis.encodedGraph left _ = Analysis.encodedGraph right _
      rw [along.orderBy same found]
      exact along.encodedGraph (orderBy_perm _ _)
  | some target =>
      have imageFound := (along.target same).trans found
      have imageValid : right.Individualised (picked.map rename) := by
        constructor
        · exact List.Nodup.map_on (fun first firstMember second secondMember equal =>
            along.injOn (valid.known firstMember) (valid.known secondMember) equal) valid.distinct
        · intro image member
          obtain ⟨node, nodeMember, rfl⟩ := List.mem_map.mp member
          exact along.iso.mem_nodeIds (valid.known nodeMember)
      have images : (sorted (right.cell (right.colorOf (picked.map rename)) (ofLex target).2)).Perm
          ((sorted (left.cell (left.colorOf picked) (ofLex target).2)).map rename) :=
        (sorted_perm _).trans ((along.cell same _).trans ((sorted_perm _).symm.map rename))
      obtain ⟨listed, perm, pairs⟩ := aligned rename _ _ along
        (fun node member => (mem_cell.mp (mem_sorted.mp member)).1)
        ((sorted_perm _).nodup_iff.mpr (along.leftReady.wellFormed.distinct.filter _)) images
      refine ⟨_, perm.map fun node => picked.map rename ++ [node], ?_⟩
      rw [List.forall₂_map_left_iff, List.forall₂_map_right_iff]
      refine pairs.imp fun node image ⟨nodeMember, imageMember, swaps⟩ => ?_
      exact mirrored_append along
        (individualised_append along.leftReady valid found (mem_sorted.mp nodeMember)).1
        (individualised_append along.rightReady imageValid imageFound (mem_sorted.mp imageMember)).1
        swaps

theorem aligned_full (left right : CPG) : Aligned left right id id := by
  intro rename nodes images along known distinct perm
  refine ⟨nodes.map rename, perm.symm, ?_⟩
  rw [id, List.forall₂_map_right_iff, List.forall₂_same]
  intro node member
  exact ⟨member, perm.mem_iff.mpr (List.mem_map_of_mem member), .refl right _⟩

/-- The greedy representatives of a list of nodes of an accepted graph. -/
structure Representatives (cpg : CPG) (nodes kept : List NodeId) : Prop where
  within : kept ⊆ nodes
  covers : ∀ node ∈ nodes, ∃ chosen ∈ kept, cpg.Swappable node chosen
  apart : ∀ first ∈ kept, ∀ second ∈ kept, cpg.Swappable first second → first = second
  distinct : kept.Nodup

variable {cpg : CPG}

theorem keptOf_representatives (ready : cpg.Ready) {nodes : List NodeId}
    (known : nodes ⊆ cpg.nodeIds)
    : Representatives cpg nodes (cpg.keptOf nodes) := by
  have within := cpg.keptOf_subset nodes
  have checks {first second : NodeId} (firstMember : first ∈ nodes) (secondMember : second ∈ nodes) :=
    swapChecks_iff ready (known firstMember) (known secondMember)
  have pairwise : (cpg.keptOf nodes).Pairwise fun a b => decide (cpg.SwapChecks a b) = false :=
    greedy_pairwise (fun _ _ related => decide_eq_true (of_decide_eq_true related).symm)
      List.Pairwise.nil
  have symmetric : Std.Symm fun a b => decide (cpg.SwapChecks a b) = false := by
    refine ⟨fun first second unrelated => ?_⟩
    rw [decide_eq_false_iff_not] at unrelated ⊢
    exact fun related => unrelated related.symm
  refine ⟨within, fun node member => ?_, fun first firstMember second secondMember swaps => ?_, ?_⟩
  · have reflexive (other : NodeId) (otherMember : other ∈ nodes)
        : decide (cpg.SwapChecks other other) = true :=
      decide_eq_true ((checks otherMember otherMember).mpr (.refl cpg other))
    have covered : ∃ chosen ∈ cpg.keptOf nodes, decide (cpg.SwapChecks node chosen) = true :=
      greedy_covers reflexive [] member
    obtain ⟨chosen, chosenMember, related⟩ := covered
    exact ⟨chosen, chosenMember,
      (checks member (within chosenMember)).mp (of_decide_eq_true related)⟩
  · by_contra different
    have unrelated := pairwise.forall firstMember secondMember different
    exact of_decide_eq_false unrelated
      ((checks (within firstMember) (within secondMember)).mpr swaps)
  · refine pairwise.imp_of_mem ?_
    rintro first _ firstMember _ unrelated rfl
    exact of_decide_eq_false unrelated
      ((checks (within firstMember) (within firstMember)).mpr (.refl cpg first))

/-- Representatives of corresponding cells correspond, whichever ids were kept.
Witness: each is matched with the representative of its image's class.
-/
theorem aligned_pruned
    : Aligned left right left.keptOf right.keptOf := by
  intro rename nodes images along known distinct perm
  have imagesKnown : images ⊆ right.nodeIds := by
    intro image member
    obtain ⟨node, nodeMember, rfl⟩ := List.mem_map.mp (perm.mem_iff.mp member)
    exact along.iso.mem_nodeIds (known nodeMember)
  have leftKept := keptOf_representatives along.leftReady known
  have rightKept := keptOf_representatives along.rightReady imagesKnown
  obtain ⟨back, backward, undo⟩ := along.symm
  refine exists_perm_forall₂ leftKept.distinct rightKept.distinct ?_ ?_ ?_ ?_
  · intro node member
    have nodeMember := leftKept.within member
    have image : rename node ∈ images := perm.mem_iff.mpr (List.mem_map_of_mem nodeMember)
    obtain ⟨chosen, chosenMember, swaps⟩ := rightKept.covers _ image
    exact ⟨chosen, chosenMember, nodeMember, rightKept.within chosenMember, swaps⟩
  · intro image member
    have imageMember := rightKept.within member
    obtain ⟨node, nodeMember, rfl⟩ := List.mem_map.mp (perm.mem_iff.mp imageMember)
    obtain ⟨chosen, chosenMember, swaps⟩ := leftKept.covers node nodeMember
    have chosenListed := leftKept.within chosenMember
    exact ⟨chosen, chosenMember, chosenListed, imageMember,
      (swaps.carry along (known nodeMember) (known chosenListed)).symm⟩
  · rintro node _ first firstMember second secondMember ⟨_, _, toFirst⟩ ⟨_, _, toSecond⟩
    exact rightKept.apart first firstMember second secondMember (toFirst.symm.trans toSecond)
  · rintro image _ first firstMember second secondMember ⟨_, _, fromFirst⟩ ⟨_, _, fromSecond⟩
    have firstKnown := known (leftKept.within firstMember)
    have secondKnown := known (leftKept.within secondMember)
    have swaps := (fromFirst.trans fromSecond.symm).carry backward
      (along.iso.mem_nodeIds firstKnown) (along.iso.mem_nodeIds secondKnown)
    rw [undo first firstKnown, undo second secondKnown] at swaps
    exact leftKept.apart first firstMember second secondMember swaps

/-- The pruned tree drops only children that a kept sibling mirrors. -/
theorem prunedTree_pruning (ready : cpg.Ready)
    : SearchTree.Pruning (Mirrored cpg cpg) cpg.fullTree cpg.prunedTree cpg.Individualised := by
  have self : Transport id cpg cpg := ⟨CPG.Iso.refl _ cpg, ready, ready⟩
  refine ⟨?_, ?_, ?_⟩
  · intro picked certificate _ leaf
    unfold CPG.fullTree CPG.expandWith at leaf
    unfold CPG.prunedTree CPG.expandWith
    split at leaf
    next => exact leaf
    next => cases leaf
  · intro picked children valid branch
    obtain ⟨target, found, rfl⟩ := expandWith_eq_branch branch
    have known : sorted (cpg.cell (cpg.colorOf picked) (ofLex target).2) ⊆ cpg.nodeIds :=
      fun node member => (mem_cell.mp (mem_sorted.mp member)).1
    have kept := keptOf_representatives ready known
    refine ⟨_, ?_, List.map_subset _ kept.within, ?_⟩
    · unfold CPG.prunedTree CPG.expandWith
      rw [found]
    · intro child member
      obtain ⟨node, nodeMember, rfl⟩ := List.mem_map.mp member
      obtain ⟨chosen, chosenMember, swaps⟩ := kept.covers node nodeMember
      refine ⟨picked ++ [chosen], List.mem_map_of_mem chosenMember, ?_⟩
      have childValid :=
        (individualised_append ready valid found (mem_sorted.mp nodeMember)).1
      have siblingValid := (individualised_append ready valid found
        (mem_sorted.mp (kept.within chosenMember))).1
      have same : picked = picked.map id := (List.map_id picked).symm
      rw [same] at siblingValid
      have mirrored := mirrored_append self childValid siblingValid swaps
      rwa [← same] at mirrored
  · intro picked children valid branch child member
    exact (fullTree_descending ready _ _ valid branch child member).1

end Scanipy.Analysis

import Mathlib.GroupTheory.Perm.Basic
import Scanipy.Analysis.Ordering.Equivariance
import Scanipy.Library.Transversal

/-! `swap_is_automorphism` decides whether a transposition is an automorphism.
Such transpositions relate nodes by an equivalence that isomorphisms carry along.
-/

namespace Scanipy.Analysis

open Library Python
open CanonicalizationBudget (check check_settles)

/-- Exchanging two nodes and fixing all others is an automorphism. -/
def CPG.Swappable (cpg : CPG) (a b : NodeId) : Prop :=
  CPG.Iso CPGNode.identity (Equiv.swap a b) cpg cpg

/-- The comparisons of `swap_is_automorphism`. -/
def CPG.SwapChecks (cpg : CPG) (a b : NodeId) : Prop :=
  cpg.labelAt a = cpg.labelAt b
  ∧ sorted (cpg.kindsBetween a a) = sorted (cpg.kindsBetween b b)
  ∧ sorted (cpg.kindsBetween a b) = sorted (cpg.kindsBetween b a)
  ∧ ∀ other ∈ cpg.nodeIds,
      ¬((other ≠ a ∧ other ≠ b)
        ∧ (sorted (cpg.kindsBetween a other) ≠ sorted (cpg.kindsBetween b other)
          ∨ sorted (cpg.kindsBetween other a) ≠ sorted (cpg.kindsBetween other b)))

instance (cpg : CPG) (a b : NodeId) : Decidable (cpg.SwapChecks a b) := by
  unfold CPG.SwapChecks
  infer_instance

/-- One node of each swap class, in the order of the list. -/
def CPG.keptOf (cpg : CPG) (nodes : List NodeId) : List NodeId :=
  greedy (fun a b => decide (cpg.SwapChecks a b)) nodes []

variable {a b : NodeId}

section Code

variable {cpg : CPG} {index : GraphIndex} (describes : index.Describes cpg)

include describes

theorem swapLoop_settles (a b : NodeId) (others : List NodeId)
    : Settles (index.swapLoop a b others)
        (.ok (decide (∀ other ∈ others,
          ¬((other ≠ a ∧ other ≠ b)
            ∧ (sorted (cpg.kindsBetween a other) ≠ sorted (cpg.kindsBetween b other)
              ∨ sorted (cpg.kindsBetween other a) ≠ sorted (cpg.kindsBetween other b)))))) := by
  induction others with
  | nil => exact .pure _
  | cons other rest ih =>
      unfold GraphIndex.swapLoop
      refine check_settles.step ?_
      simp only [describes.pairs]
      split
      next differs =>
        rw [decide_eq_false]
        · exact Settles.pure false
        · exact fun all => all other List.mem_cons_self differs
      next agrees =>
        simp only [List.forall_mem_cons, agrees, not_false_eq_true, true_and]
        exact ih

theorem swapIsAutomorphism_settles (aMember : a ∈ cpg.nodeIds) (bMember : b ∈ cpg.nodeIds)
    : Settles (index.swapIsAutomorphism a b) (.ok (decide (cpg.SwapChecks a b))) := by
  have labelOf {id : NodeId} (member : id ∈ cpg.nodeIds)
      : subscript index.labels id = .ok (cpg.labelAt id) := by
    rw [subscript, describes.labels, Dict.get?_map, if_pos member]
  have keys : index.labels.keys = cpg.nodeIds := by
    rw [describes.labels, Dict.keys, List.map_map]
    exact List.map_id _
  unfold GraphIndex.swapIsAutomorphism
  rw [labelOf aMember, labelOf bMember]
  refine (Settles.reraise _).step ((Settles.reraise _).step ?_)
  simp only [describes.pairs, keys]
  have failed (checks : ¬cpg.SwapChecks a b)
      : Settles (pure false) (.ok (decide (cpg.SwapChecks a b))) := by
    rw [decide_eq_false checks]
    exact .pure false
  split
  next labels => exact failed fun checks => labels checks.1
  split
  next loops => exact failed fun checks => loops checks.2.1
  split
  next reciprocal => exact failed fun checks => reciprocal checks.2.2.1
  next labels loops reciprocal =>
    simp only [CPG.SwapChecks, not_ne_iff.mp labels, not_ne_iff.mp loops,
      not_ne_iff.mp reciprocal, true_and]
    exact swapLoop_settles describes a b cpg.nodeIds

variable {kept : List NodeId}

theorem swapsWithAny_settles {node : NodeId} (member : node ∈ cpg.nodeIds)
    (known : kept ⊆ cpg.nodeIds)
    : Settles (index.swapsWithAny node kept)
        (.ok (kept.any fun other => decide (cpg.SwapChecks node other))) := by
  induction kept with
  | nil => exact .pure false
  | cons other rest ih =>
      unfold GraphIndex.swapsWithAny
      refine (swapIsAutomorphism_settles describes member (known List.mem_cons_self)).step ?_
      rw [List.any_cons]
      cases decide (cpg.SwapChecks node other) with
      | true => exact Settles.pure true
      | false => exact ih fun _ later => known (List.mem_cons_of_mem _ later)

theorem representatives_greedy {items : List NodeId} (itemsKnown : items ⊆ cpg.nodeIds)
    (keptKnown : kept ⊆ cpg.nodeIds)
    : Settles (index.representatives items kept)
        (.ok (greedy (fun a b => decide (cpg.SwapChecks a b)) items kept)) := by
  induction items generalizing kept with
  | nil => exact .pure kept
  | cons node rest ih =>
      have nodeKnown := itemsKnown List.mem_cons_self
      unfold GraphIndex.representatives greedy
      refine (swapsWithAny_settles describes nodeKnown keptKnown).step
        (ih (fun _ later => itemsKnown (List.mem_cons_of_mem _ later)) ?_)
      split
      · exact keptKnown
      · exact List.append_subset.mpr ⟨keptKnown, List.cons_subset.mpr ⟨nodeKnown, List.nil_subset _⟩⟩

theorem representatives_settles {nodes : List NodeId} (known : nodes ⊆ cpg.nodeIds)
    : Settles (index.representatives nodes []) (.ok (cpg.keptOf nodes)) :=
  representatives_greedy describes known (List.nil_subset _)

end Code

-- The comparisons decide an automorphism

variable {cpg : CPG}

theorem kindsBetween_eq_nil (formed : cpg.WellFormed) {src dst : NodeId}
    (missing : ¬(src ∈ cpg.nodeIds ∧ dst ∈ cpg.nodeIds))
    : cpg.kindsBetween src dst = [] := by
  rw [CPG.kindsBetween, List.map_eq_nil_iff, List.filter_eq_nil_iff]
  intro edge member
  have ends := formed.ends edge member
  simp only [Prod.mk.injEq, decide_eq_true_eq]
  rintro ⟨rfl, rfl⟩
  exact missing ends

/-- How often an edge occurs, as a count of kinds between its endpoints. -/
theorem count_triple (edges : List CPGEdge) (rename : NodeId → NodeId) (kind : Text)
    (src dst : NodeId)
    : (edges.map fun edge => edge.triple rename).count (kind, src, dst)
      = ((edges.filter fun edge => (rename edge.src, rename edge.dst) = (src, dst)).map
          fun edge => edge.kind.utf8).count kind.utf8 := by
  rw [List.count_eq_countP, List.count_eq_countP, List.countP_map, List.countP_map,
    List.countP_filter]
  refine List.countP_congr fun edge _ => ?_
  simp only [CPGEdge.triple, Function.comp, beq_iff_eq, Prod.mk.injEq, Bool.and_eq_true,
    decide_eq_true_eq, Text.utf8_injective.eq_iff]

/-- A transposition that keeps labels and the kinds between any two nodes is an
automorphism. Witness: every edge triple occurs as often as its image.
-/
theorem swappable_of_kinds (formed : cpg.WellFormed) (aMember : a ∈ cpg.nodeIds)
    (bMember : b ∈ cpg.nodeIds) (labels : cpg.labelAt a = cpg.labelAt b)
    (kinds : ∀ src dst, (cpg.kindsBetween (Equiv.swap a b src) (Equiv.swap a b dst)).Perm
      (cpg.kindsBetween src dst))
    : cpg.Swappable a b := by
  have known (id : NodeId) : Equiv.swap a b id ∈ cpg.nodeIds ↔ id ∈ cpg.nodeIds := by
    rcases eq_or_ne id a with rfl | notA
    · rw [Equiv.swap_apply_left]
      exact ⟨fun _ => aMember, fun _ => bMember⟩
    · rcases eq_or_ne id b with rfl | notB
      · rw [Equiv.swap_apply_right]
        exact ⟨fun _ => bMember, fun _ => aMember⟩
      · rw [Equiv.swap_apply_of_ne_of_ne notA notB]
  constructor
  · refine CPG.Iso.nodes_of_look formed.distinct formed.distinct ?_ ?_
    · rw [List.perm_ext_iff_of_nodup (formed.distinct.map (Equiv.injective _)) formed.distinct]
      intro id
      rw [← known id]
      constructor
      · intro mapped
        obtain ⟨other, member, rfl⟩ := List.mem_map.mp mapped
        rwa [Equiv.swap_apply_self]
      · intro member
        exact List.mem_map.mpr ⟨_, member, Equiv.swap_apply_self a b id⟩
    · have identities : cpg.look CPGNode.identity a = cpg.look CPGNode.identity b := by
        obtain ⟨foundA, fitsA, bytesA⟩ := CPG.look_identity formed aMember
        obtain ⟨foundB, fitsB, bytesB⟩ := CPG.look_identity formed bMember
        rw [foundA, foundB,
          SelfDelimiting.injOn identityBytes_code fitsA fitsB (bytesA.symm.trans (labels.trans bytesB))]
      intro id _
      rcases eq_or_ne id a with rfl | notA
      · rw [Equiv.swap_apply_left, identities]
      · rcases eq_or_ne id b with rfl | notB
        · rw [Equiv.swap_apply_right, identities]
        · rw [Equiv.swap_apply_of_ne_of_ne notA notB]
  · rw [List.perm_iff_count]
    rintro ⟨kind, src, dst⟩
    have moved : (cpg.edges.filter fun edge =>
          (Equiv.swap a b edge.src, Equiv.swap a b edge.dst) = (src, dst))
        = cpg.edges.filter fun edge =>
          (edge.src, edge.dst) = (Equiv.swap a b src, Equiv.swap a b dst) := by
      refine List.filter_congr fun edge _ => ?_
      simp only [Prod.mk.injEq, Equiv.swap_apply_eq_iff]
    rw [count_triple, count_triple, moved]
    exact (kinds src dst).count_eq _

/-- `swap_is_automorphism` is exact.
Witness: the nine cases of two endpoints among `a`, `b` and the nodes fixed by the swap.
-/
theorem swapChecks_iff (ready : cpg.Ready) (aMember : a ∈ cpg.nodeIds) (bMember : b ∈ cpg.nodeIds)
    : cpg.SwapChecks a b ↔ cpg.Swappable a b := by
  have formed := ready.wellFormed
  constructor
  · rintro ⟨labels, loops, reciprocal, others⟩
    rw [sorted_eq_sorted] at loops reciprocal
    have outside (other : NodeId) (notA : other ≠ a) (notB : other ≠ b)
        : (cpg.kindsBetween a other).Perm (cpg.kindsBetween b other)
          ∧ (cpg.kindsBetween other a).Perm (cpg.kindsBetween other b) := by
      by_cases member : other ∈ cpg.nodeIds
      · have agree := others other member
        simp only [notA, notB, ne_eq, not_false_eq_true, and_self, true_and, not_or, not_not,
          sorted_eq_sorted] at agree
        exact agree
      · rw [kindsBetween_eq_nil formed fun ends => member ends.2,
          kindsBetween_eq_nil formed fun ends => member ends.2,
          kindsBetween_eq_nil formed fun ends => member ends.1,
          kindsBetween_eq_nil formed fun ends => member ends.1]
        exact ⟨.rfl, .rfl⟩
    refine swappable_of_kinds formed aMember bMember labels fun src dst => ?_
    rcases eq_or_ne src a with rfl | srcA
    · rw [Equiv.swap_apply_left]
      rcases eq_or_ne dst src with rfl | dstA
      · rw [Equiv.swap_apply_left]
        exact loops.symm
      · rcases eq_or_ne dst b with rfl | dstB
        · rw [Equiv.swap_apply_right]
          exact reciprocal.symm
        · rw [Equiv.swap_apply_of_ne_of_ne dstA dstB]
          exact (outside dst dstA dstB).1.symm
    · rcases eq_or_ne src b with rfl | srcB
      · rw [Equiv.swap_apply_right]
        rcases eq_or_ne dst a with rfl | dstA
        · rw [Equiv.swap_apply_left]
          exact reciprocal
        · rcases eq_or_ne dst src with rfl | dstB
          · rw [Equiv.swap_apply_right]
            exact loops
          · rw [Equiv.swap_apply_of_ne_of_ne dstA dstB]
            exact (outside dst dstA dstB).1
      · rw [Equiv.swap_apply_of_ne_of_ne srcA srcB]
        rcases eq_or_ne dst a with rfl | dstA
        · rw [Equiv.swap_apply_left]
          exact (outside src srcA srcB).2.symm
        · rcases eq_or_ne dst b with rfl | dstB
          · rw [Equiv.swap_apply_right]
            exact (outside src srcA srcB).2
          · rw [Equiv.swap_apply_of_ne_of_ne dstA dstB]
  · intro iso
    have along : Transport (Equiv.swap a b) cpg cpg := ⟨iso, ready, ready⟩
    have label := along.labelAt aMember
    have loops := along.kindsBetween aMember aMember
    have reciprocal := along.kindsBetween aMember bMember
    rw [Equiv.swap_apply_left] at label loops reciprocal
    rw [Equiv.swap_apply_right] at reciprocal
    refine ⟨label.symm, sorted_eq_sorted.mpr loops.symm,
      sorted_eq_sorted.mpr reciprocal.symm, ?_⟩
    rintro other member ⟨⟨notA, notB⟩, differs⟩
    have after := along.kindsBetween aMember member
    have before := along.kindsBetween member aMember
    rw [Equiv.swap_apply_left, Equiv.swap_apply_of_ne_of_ne notA notB] at after before
    rcases differs with differs | differs
    · exact differs (sorted_eq_sorted.mpr after.symm)
    · exact differs (sorted_eq_sorted.mpr before.symm)

namespace CPG.Swappable

variable {cpg : CPG} {a b c : NodeId}

theorem refl (cpg : CPG) (a : NodeId) : cpg.Swappable a a := by
  unfold Swappable
  rw [Equiv.swap_self]
  exact CPG.Iso.refl _ cpg

theorem symm (swaps : cpg.Swappable a b) : cpg.Swappable b a := by
  unfold Swappable
  rw [Equiv.swap_comm]
  exact swaps

/-- Two swaps compose to a third by conjugation. -/
theorem trans (first : cpg.Swappable a b) (second : cpg.Swappable b c) : cpg.Swappable a c := by
  rcases eq_or_ne c b with rfl | apart
  · exact first
  · rcases eq_or_ne c a with rfl | ends
    · exact refl cpg c
    · have conjugated := CPG.Iso.trans (CPG.Iso.trans first.symm second.symm) first.symm
      unfold Swappable
      rw [← Equiv.swap_mul_swap_mul_swap apart ends]
      exact conjugated

/-- A swap of two nodes is carried to the swap of their images.
Witness: go back, swap there and return; on every node that is the swap of the images.
-/
theorem carry {rename : NodeId → NodeId} {left right : CPG} (along : Transport rename left right)
    (aMember : a ∈ left.nodeIds) (bMember : b ∈ left.nodeIds) (swaps : left.Swappable a b)
    : right.Swappable (rename a) (rename b) := by
  obtain ⟨back, backward, undo⟩ := along.symm
  have around := (backward.trans ⟨swaps, along.leftReady, along.leftReady⟩).trans along
  refine (around.congr fun id member => ?_).iso
  obtain ⟨origin, originMember, rfl⟩ := List.mem_map.mp (along.iso.nodeIds.mem_iff.mpr member)
  rw [undo origin originMember]
  rcases eq_or_ne origin a with rfl | notA
  · rw [Equiv.swap_apply_left, Equiv.swap_apply_left]
  · rcases eq_or_ne origin b with rfl | notB
    · rw [Equiv.swap_apply_right, Equiv.swap_apply_right]
    · rw [Equiv.swap_apply_of_ne_of_ne notA notB, Equiv.swap_apply_of_ne_of_ne]
      · exact fun same => notA ((along.rename_eq originMember aMember).mp same)
      · exact fun same => notB ((along.rename_eq originMember bMember).mp same)

end CPG.Swappable

theorem CPG.SwapChecks.symm (checks : cpg.SwapChecks a b)
    : cpg.SwapChecks b a := by
  obtain ⟨labels, loops, reciprocal, others⟩ := checks
  refine ⟨labels.symm, loops.symm, reciprocal.symm, fun other member differs => ?_⟩
  exact others other member ⟨differs.1.symm, differs.2.imp Ne.symm Ne.symm⟩

end Scanipy.Analysis

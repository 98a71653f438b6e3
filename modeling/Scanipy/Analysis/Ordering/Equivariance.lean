import Scanipy.Analysis.Ordering.Refinement

/-! Isomorphisms carry adjacency, signatures and stable colours along. -/

namespace Scanipy.Analysis

open Library Python

/-- An isomorphism between accepted graphs. -/
structure Transport (rename : NodeId → NodeId) (left right : CPG) : Prop where
  iso : CPG.Iso CPGNode.identity rename left right
  leftReady : left.Ready
  rightReady : right.Ready

namespace Transport

variable {rename : NodeId → NodeId} {left right : CPG} (along : Transport rename left right)

include along

theorem injOn : Set.InjOn rename {id | id ∈ left.nodeIds} :=
  along.iso.injOn along.rightReady.wellFormed.distinct

theorem rename_eq {first second : NodeId} (firstMember : first ∈ left.nodeIds)
    (secondMember : second ∈ left.nodeIds)
    : rename first = rename second ↔ first = second :=
  along.injOn.eq_iff firstMember secondMember

theorem ends {edge : CPGEdge} (member : edge ∈ left.edges)
    : edge.src ∈ left.nodeIds ∧ edge.dst ∈ left.nodeIds :=
  along.leftReady.wellFormed.ends edge member

variable {id : NodeId}

theorem arriving (member : id ∈ left.nodeIds)
    : (right.arriving (rename id)).Perm
        ((left.arriving id).map fun neighbor => (neighbor.1, rename neighbor.2)) := by
  rw [CPG.arriving, CPG.arriving, List.map_map]
  refine along.iso.edges_filter (fun _ dst => dst = id) (fun _ dst => dst = rename id) (fun kind src _ => (kind.utf8, src)) ?_
  intro edge edgeMember
  simp only [along.rename_eq (along.ends edgeMember).2 member]

theorem leaving (member : id ∈ left.nodeIds)
    : (right.leaving (rename id)).Perm
        ((left.leaving id).map fun neighbor => (neighbor.1, rename neighbor.2)) := by
  rw [CPG.leaving, CPG.leaving, List.map_map]
  refine along.iso.edges_filter (fun src _ => src = id) (fun src _ => src = rename id) (fun kind _ dst => (kind.utf8, dst)) ?_
  intro edge edgeMember
  simp only [along.rename_eq (along.ends edgeMember).1 member]

theorem kindsBetween {src dst : NodeId} (srcMember : src ∈ left.nodeIds)
    (dstMember : dst ∈ left.nodeIds)
    : (right.kindsBetween (rename src) (rename dst)).Perm (left.kindsBetween src dst) := by
  refine along.iso.edges_filter (fun start stop => (start, stop) = (src, dst))
    (fun start stop => (start, stop) = (rename src, rename dst))
    (fun kind _ _ => kind.utf8) ?_
  intro edge edgeMember
  simp only [Prod.mk.injEq, along.rename_eq (along.ends edgeMember).1 srcMember,
    along.rename_eq (along.ends edgeMember).2 dstMember]

theorem labelAt (member : id ∈ left.nodeIds)
    : right.labelAt (rename id) = left.labelAt id := by
  have found := along.iso.look along.leftReady.wellFormed.distinct
    along.rightReady.wellFormed.distinct member
  rw [(CPG.look_identity along.rightReady.wellFormed (along.iso.mem_nodeIds member)).2.2,
    (CPG.look_identity along.leftReady.wellFormed member).2.2, CPG.identityAt, CPG.identityAt,
    found]

theorem markerOf {picked : List NodeId} (known : picked ⊆ left.nodeIds) (member : id ∈ left.nodeIds)
    : Analysis.markerOf (picked.map rename) (rename id) = Analysis.markerOf picked id := by
  have listed : rename id ∈ picked.map rename ↔ id ∈ picked := by
    constructor
    · intro mapped
      obtain ⟨other, otherMember, same⟩ := List.mem_map.mp mapped
      rwa [← (along.rename_eq (known otherMember) member).mp same]
    · exact List.mem_map_of_mem
  have position : (picked.map rename).idxOf (rename id) = picked.idxOf id := by
    clear listed
    induction picked with
    | nil => rfl
    | cons head rest ih =>
        have headKnown := known List.mem_cons_self
        have restKnown : rest ⊆ left.nodeIds := fun _ later => known (List.mem_cons_of_mem _ later)
        by_cases hit : head = id
        · subst hit
          simp
        · have apart : rename head ≠ rename id := fun same =>
            hit ((along.rename_eq headKnown member).mp same)
          rw [List.map_cons, List.idxOf_cons_ne _ apart, List.idxOf_cons_ne _ hit, ih restKnown]
  simp only [Analysis.markerOf, listed, position]

end Transport

variable {rename : NodeId → NodeId} {left right : CPG}

theorem Transport.symm (along : Transport rename left right)
    : ∃ back,
        Transport back right left ∧ ∀ id ∈ left.nodeIds, back (rename id) = id := by
  obtain ⟨back, iso, undo⟩ := along.iso.symm along.leftReady.wellFormed.ends
    along.rightReady.wellFormed.distinct
  exact ⟨back, ⟨iso, along.rightReady, along.leftReady⟩, undo⟩

theorem Transport.trans {further : NodeId → NodeId} {middle : CPG}
    (first : Transport rename left middle) (second : Transport further middle right)
    : Transport (fun id => further (rename id)) left right :=
  ⟨first.iso.trans second.iso, first.leftReady, second.rightReady⟩

theorem Transport.congr {other : NodeId → NodeId} (along : Transport rename left right)
    (same : ∀ id ∈ left.nodeIds, other id = rename id)
    : Transport other left right :=
  ⟨along.iso.congr along.leftReady.wellFormed.ends same, along.leftReady, along.rightReady⟩

/-- A colouring of the image agrees with one of the source along the renaming. -/
def Carried {α : Type} (rename : NodeId → NodeId) (left : CPG) (color image : NodeId → α) : Prop :=
  ∀ id ∈ left.nodeIds, image (rename id) = color id

variable {color image : Coloring}

theorem neighborhoodIn_eq {adjacency images : List (Bytes × NodeId)}
    (perm : images.Perm (adjacency.map fun neighbor => (neighbor.1, rename neighbor.2)))
    (same : ∀ neighbor ∈ adjacency, image (rename neighbor.2) = color neighbor.2)
    : neighborhoodIn image images = neighborhoodIn color adjacency := by
  have keys : (images.map fun neighbor => toLex (neighbor.1, image neighbor.2)).Perm
      (adjacency.map fun neighbor => toLex (neighbor.1, color neighbor.2)) := by
    refine (perm.map _).trans (List.Perm.of_eq ?_)
    rw [List.map_map]
    exact List.map_congr_left fun neighbor member => by
      simp only [Function.comp, same neighbor member]
  have lengths : images.length = adjacency.length := by simpa using perm.length_eq
  rw [neighborhoodIn, neighborhoodIn, sorted_eq_sorted.mpr keys, lengths]

namespace Transport

variable {rename : NodeId → NodeId} {left right : CPG} (along : Transport rename left right)

include along

theorem nodeIds_map {α : Type} {value image : NodeId → α} (same : Carried rename left value image)
    : (right.nodeIds.map image).Perm (left.nodeIds.map value) := by
  refine (along.iso.nodeIds.symm.map image).trans (List.Perm.of_eq ?_)
  rw [List.map_map]
  exact List.map_congr_left same

theorem ranked {signature image : NodeId → Bytes} (same : Carried rename left signature image)
    : Carried rename left (left.ranked signature) (right.ranked image) := by
  intro id member
  rw [CPG.ranked, CPG.ranked, same id member,
    denseRank_congr fun _ => (along.nodeIds_map same).mem_iff]

theorem refined (same : Carried rename left color image)
    : Carried rename left (left.refined color) (right.refined image) := by
  refine along.ranked fun id member => ?_
  have before := neighborhoodIn_eq (along.arriving member) fun neighbor listed =>
    same neighbor.2 ((arriving_fits along.leftReady id).2 neighbor listed).2
  have after := neighborhoodIn_eq (along.leaving member) fun neighbor listed =>
    same neighbor.2 ((leaving_fits along.leftReady id).2 neighbor listed).2
  rw [CPG.signatureIn, CPG.signatureIn, same id member, before, after]

theorem colorClasses (same : Carried rename left color image)
    : right.colorClasses image = left.colorClasses color :=
  (along.nodeIds_map same).dedup.length_eq

/-- Rounds of refinement agree along an isomorphism, by induction on their number. -/
theorem settled (fuel : Nat) (same : Carried rename left color image)
    : Carried rename left (left.settled fuel color) (right.settled fuel image) := by
  induction fuel generalizing color image with
  | zero => exact same
  | succ fuel ih =>
      have round := along.refined same
      unfold CPG.settled
      rw [along.colorClasses same, along.colorClasses round]
      split
      · exact round
      · exact ih round

/-- Stable colours agree along an isomorphism that carries the individualised nodes. -/
theorem colorOf {picked : List NodeId} (known : picked ⊆ left.nodeIds)
    : Carried rename left (left.colorOf picked) (right.colorOf (picked.map rename)) := by
  unfold CPG.colorOf
  rw [← along.iso.length_nodes]
  refine along.settled _ (along.ranked fun id member => ?_)
  rw [along.labelAt member, along.markerOf known member]

end Transport

end Scanipy.Analysis

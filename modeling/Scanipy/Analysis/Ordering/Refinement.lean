import Scanipy.Analysis.Ordering.Adjacency
import Scanipy.Analysis.Ordering.Completeness

/-! Colour refinement as a function of the graph and the nodes individualised so far.
The loop of `refine` computes it, its cells only split, and isomorphisms carry it along.
-/

namespace Scanipy.Analysis

open Library Python
open CanonicalizationBudget (check check_settles)

abbrev Coloring := NodeId → Nat

/-- `neighborhood` as a total function. -/
def neighborhoodIn (color : Coloring) (adjacency : List (Bytes × NodeId)) : Bytes :=
  toBytes 8 adjacency.length
    ++ (sorted (adjacency.map fun neighbor => toLex (neighbor.1, color neighbor.2))).flatMap
      fun neighbor => framedBytes (ofLex neighbor).1 ++ toBytes 8 (ofLex neighbor).2

/-- The marker of a node: its position among the individualised nodes, from one. -/
def markerOf (picked : List NodeId) (id : NodeId) : Nat :=
  if id ∈ picked then picked.idxOf id + 1 else 0

/-- The markers of nodes individualised in the given order. -/
def marks (picked : List NodeId) : Markers :=
  picked.zipIdx 1

namespace CPG

/-- `signature` as a total function. -/
def signatureIn (cpg : CPG) (color : Coloring) (id : NodeId) : Bytes :=
  toBytes 8 (color id) ++ neighborhoodIn color (cpg.arriving id)
    ++ neighborhoodIn color (cpg.leaving id)

/-- Nodes coloured by the rank of their signatures, as `_intern` does. -/
def ranked (cpg : CPG) (signature : NodeId → Bytes) : Coloring :=
  fun id => denseRank (cpg.nodeIds.map signature) (signature id)

/-- One round of refinement. -/
def refined (cpg : CPG) (color : Coloring) : Coloring :=
  cpg.ranked (cpg.signatureIn color)

/-- The number of colours in use. -/
def colorClasses (cpg : CPG) (color : Coloring) : Nat :=
  (cpg.nodeIds.map color).dedup.length

/-- Rounds of refinement until the number of colours is stable. -/
def settled (cpg : CPG) : Nat → Coloring → Coloring
  | 0, color => color
  | fuel + 1, color =>
      if cpg.colorClasses (cpg.refined color) = cpg.colorClasses color then
        cpg.refined color
      else
        cpg.settled fuel (cpg.refined color)

/-- The colours before refinement: labels and markers. -/
def initialColor (cpg : CPG) (picked : List NodeId) : Coloring :=
  cpg.ranked fun id => cpg.labelAt id ++ toBytes 8 (markerOf picked id)

/-- The stable colours once `picked` are individualised. -/
def colorOf (cpg : CPG) (picked : List NodeId) : Coloring :=
  cpg.settled (cpg.nodes.length + 1) (cpg.initialColor picked)

/-- A colouring stored as `refine` stores it. -/
def coloring (cpg : CPG) (color : Coloring) : Dict NodeId Nat :=
  cpg.nodeIds.map fun id => (id, color id)

/-- Colours that fit a frame. -/
def Bounded (cpg : CPG) (color : Coloring) : Prop :=
  ∀ id ∈ cpg.nodeIds, color id < 2 ^ 64

end CPG

theorem markerOf_le (picked : List NodeId) (id : NodeId) : markerOf picked id ≤ picked.length := by
  unfold markerOf
  split
  next listed => exact List.idxOf_lt_length_of_mem listed
  next => exact Nat.zero_le _

theorem marks_getD (picked : List NodeId) (id : NodeId)
    : (marks picked).getD id 0 = markerOf picked id := by
  rw [marks, Dict.getD, Dict.get?_zipIdx, markerOf]
  split <;> rfl

variable {first second : NodeId} {picked : List NodeId}

/-- Only an individualised node has its marker. -/
theorem eq_of_markerOf_eq (member : first ∈ picked)
    (same : markerOf picked first = markerOf picked second)
    : first = second := by
  unfold markerOf at same
  rw [if_pos member] at same
  split at same
  · exact (List.idxOf_inj member).mp (Nat.succ.inj same)
  · exact absurd same (Nat.succ_ne_zero _)

variable {color : Coloring}

namespace CPG

variable {cpg : CPG}

theorem length_nodeIds (cpg : CPG) : cpg.nodeIds.length = cpg.nodes.length :=
  List.length_map _

theorem ranked_inj {signature : NodeId → Bytes} (member : first ∈ cpg.nodeIds)
    : cpg.ranked signature first = cpg.ranked signature second
      ↔ signature first = signature second :=
  denseRank_inj (List.mem_map_of_mem member)

theorem colorClasses_le (cpg : CPG) (color : Coloring)
    : cpg.colorClasses color ≤ cpg.nodes.length := by
  have shorter := (List.dedup_sublist (cpg.nodeIds.map color)).length_le
  rwa [List.length_map, length_nodeIds] at shorter

theorem ranked_bounded (ready : cpg.Ready) (signature : NodeId → Bytes)
    : cpg.Bounded (cpg.ranked signature) := by
  intro id member
  have low := denseRank_lt (List.mem_map_of_mem (f := signature) member)
  rw [List.length_map, length_nodeIds] at low
  exact low.trans ready.nodes

/-- A round keeps different colours different: the signature starts with the colour. -/
theorem refined_splits (bounded : cpg.Bounded color) (firstMember : first ∈ cpg.nodeIds)
    (secondMember : second ∈ cpg.nodeIds)
    (same : cpg.refined color first = cpg.refined color second)
    : color first = color second := by
  have signatures := (ranked_inj firstMember).mp same
  simp only [signatureIn, List.append_assoc] at signatures
  exact (u64_code (bounded first firstMember) (bounded second secondMember) signatures).1

theorem settled_splits (ready : cpg.Ready) (bounded : cpg.Bounded color) (fuel : Nat)
    (firstMember : first ∈ cpg.nodeIds) (secondMember : second ∈ cpg.nodeIds)
    (same : cpg.settled fuel color first = cpg.settled fuel color second)
    : color first = color second := by
  induction fuel generalizing color with
  | zero => exact same
  | succ fuel ih =>
      refine refined_splits bounded firstMember secondMember ?_
      unfold settled at same
      split at same
      · exact same
      · exact ih (ranked_bounded ready _) same

/-- A round never loses a colour. -/
theorem colorClasses_refined (bounded : cpg.Bounded color)
    : cpg.colorClasses color ≤ cpg.colorClasses (cpg.refined color) :=
  length_dedup_map_le fun _ firstMember _ secondMember same =>
    refined_splits bounded firstMember secondMember same

/-- Nodes of one stable colour have one label and one marker. -/
theorem colorOf_splits (ready : cpg.Ready) (short : picked.length < 2 ^ 64)
    (firstMember : first ∈ cpg.nodeIds) (secondMember : second ∈ cpg.nodeIds)
    (same : cpg.colorOf picked first = cpg.colorOf picked second)
    : cpg.labelAt first = cpg.labelAt second
      ∧ markerOf picked first = markerOf picked second := by
  have fits (id : NodeId) : markerOf picked id < 2 ^ 64 :=
    lt_of_le_of_lt (markerOf_le picked id) short
  have start := settled_splits ready (ranked_bounded ready _) _ firstMember secondMember same
  have joined := (ranked_inj firstMember).mp start
  obtain ⟨labels, markers⟩ := List.append_inj' joined (by simp)
  exact ⟨labels, u64_code.injOn (fits first) (fits second) markers⟩

end CPG

-- The loop of `refine` computes the stable colours

variable {cpg : CPG} {id : NodeId}

theorem coloring_get? (member : id ∈ cpg.nodeIds)
    : (cpg.coloring color).get? id = some (color id) := by
  rw [CPG.coloring, Dict.get?_map, if_pos member]

theorem keys_coloring (cpg : CPG) (color : Coloring) : (cpg.coloring color).keys = cpg.nodeIds := by
  rw [CPG.coloring, Dict.keys, List.map_map]
  exact List.map_id _

theorem intern_coloring (cpg : CPG) (signature : NodeId → Bytes)
    : GraphIndex.intern (cpg.nodeIds.map fun id => (id, signature id))
      = cpg.coloring (cpg.ranked signature) := by
  simp only [GraphIndex.intern, CPG.coloring, CPG.ranked, denseRank, List.map_map,
    Function.comp_def]
  congr!

theorem colorCount_coloring (cpg : CPG) (color : Coloring)
    : GraphIndex.colorCount (cpg.coloring color) = cpg.colorClasses color := by
  rw [GraphIndex.colorCount, CPG.coloring, List.map_map]
  rfl

theorem neighborhood_ok (bounded : cpg.Bounded color) {adjacency : List (Bytes × NodeId)}
    (short : adjacency.length < 2 ^ 64)
    (ends : ∀ neighbor ∈ adjacency, neighbor.1.length < 2 ^ 64 ∧ neighbor.2 ∈ cpg.nodeIds)
    : GraphIndex.neighborhood (cpg.coloring color) adjacency
      = .ok (neighborhoodIn color adjacency) := by
  have colors : Metered.collect
      (fun (neighbor : Bytes × NodeId) => do
        let found ← subscript (cpg.coloring color) neighbor.2
        .ok (toLex (neighbor.1, found)))
      adjacency
      = .ok (adjacency.map fun neighbor => toLex (neighbor.1, color neighbor.2)) := by
    refine collect_ok fun neighbor member => ?_
    rw [subscript, coloring_get? (ends neighbor member).2]
    rfl
  have framed : Metered.collect
      (fun (neighbor : Bytes ×ₗ Nat) => do
        let kind ← frameBytes (ofLex neighbor).1
        let found ← u64 (ofLex neighbor).2
        .ok (kind ++ found))
      (sorted (adjacency.map fun neighbor => toLex (neighbor.1, color neighbor.2)))
      = .ok ((sorted (adjacency.map fun neighbor => toLex (neighbor.1, color neighbor.2))).map
          fun neighbor => framedBytes (ofLex neighbor).1 ++ toBytes 8 (ofLex neighbor).2) := by
    refine collect_ok fun neighbor member => ?_
    obtain ⟨found, foundMember, rfl⟩ := List.mem_map.mp (mem_sorted.mp member)
    obtain ⟨kind, listed⟩ := ends found foundMember
    simp only [ofLex_toLex]
    rw [frameBytes_ok.mpr ⟨kind, rfl⟩, ok_bind, u64_natCast (bounded _ listed), ok_bind]
  unfold GraphIndex.neighborhood
  rw [colors, ok_bind, List.length_map, u64_natCast short, ok_bind, framed, ok_bind,
    neighborhoodIn, List.flatMap_def]

section Loop

variable {cpg : CPG} {index : GraphIndex} (ready : cpg.Ready) (describes : index.Describes cpg)

include ready in
theorem arriving_fits (id : NodeId)
    : (cpg.arriving id).length < 2 ^ 64
      ∧ ∀ neighbor ∈ cpg.arriving id, neighbor.1.length < 2 ^ 64 ∧ neighbor.2 ∈ cpg.nodeIds := by
  constructor
  · rw [CPG.arriving, List.length_map]
    exact lt_of_le_of_lt (List.length_filter_le _ _) ready.edges
  · intro neighbor member
    obtain ⟨edge, listed, rfl⟩ := List.mem_map.mp member
    have formed := ready.wellFormed.edges edge (List.mem_of_mem_filter listed)
    exact ⟨formed.kind.length, formed.src⟩

include ready in
theorem leaving_fits (id : NodeId)
    : (cpg.leaving id).length < 2 ^ 64
      ∧ ∀ neighbor ∈ cpg.leaving id, neighbor.1.length < 2 ^ 64 ∧ neighbor.2 ∈ cpg.nodeIds := by
  constructor
  · rw [CPG.leaving, List.length_map]
    exact lt_of_le_of_lt (List.length_filter_le _ _) ready.edges
  · intro neighbor member
    obtain ⟨edge, listed, rfl⟩ := List.mem_map.mp member
    have formed := ready.wellFormed.edges edge (List.mem_of_mem_filter listed)
    exact ⟨formed.kind.length, formed.dst⟩

include ready describes

theorem signature_ok (bounded : cpg.Bounded color) (member : id ∈ cpg.nodeIds)
    : index.signature (cpg.coloring color) id = .ok (cpg.signatureIn color id) := by
  obtain ⟨arrivingShort, arrivingEnds⟩ := arriving_fits ready id
  obtain ⟨leavingShort, leavingEnds⟩ := leaving_fits ready id
  unfold GraphIndex.signature subscript
  rw [coloring_get? member, describes.incoming id member, describes.outgoing id member]
  dsimp only
  rw [ok_bind, u64_natCast (bounded id member), ok_bind, ok_bind,
    neighborhood_ok bounded arrivingShort arrivingEnds, ok_bind, ok_bind,
    neighborhood_ok bounded leavingShort leavingEnds, ok_bind]
  rfl

/-- The loop reaches the stable colours before its bound.
Witness: every round but the last adds a colour, and there are at most as many as nodes.
-/
theorem refineLoop_settles (fuel : Nat) (bounded : cpg.Bounded color)
    (enough : cpg.nodes.length < fuel + cpg.colorClasses color)
    : Settles (index.refineLoop fuel (cpg.coloring color))
        (.ok (cpg.coloring (cpg.settled fuel color))) := by
  induction fuel generalizing color with
  | zero =>
      have few := cpg.colorClasses_le color
      omega
  | succ fuel ih =>
      unfold GraphIndex.refineLoop
      by_cases empty : cpg.coloring color = []
      · have noNodes : cpg.nodeIds = [] := List.map_eq_nil_iff.mp empty
        rw [if_pos empty]
        simp only [CPG.coloring, noNodes, List.map_nil]
        exact .pure []
      · have signatures : Settles
            (Metered.collect
              (fun id => do
                check
                let bytes ← reraise (index.signature (cpg.coloring color) id)
                pure (id, bytes))
              (cpg.coloring color).keys)
            (.ok (cpg.nodeIds.map fun id => (id, cpg.signatureIn color id))) := by
          have collected : Metered.collect
              (fun id => do
                let bytes ← index.signature (cpg.coloring color) id
                .ok (id, bytes))
              cpg.nodeIds
              = .ok (cpg.nodeIds.map fun id => (id, cpg.signatureIn color id)) :=
            collect_ok fun id member => by
              rw [signature_ok ready describes bounded member, ok_bind]
          rw [keys_coloring, ← collected]
          exact .collect (fun id => check_settles.step
            ((Settles.reraise _).bind fun bytes => .pure (id, bytes))) _
        rw [if_neg empty]
        refine signatures.step ?_
        dsimp only
        rw [intern_coloring, colorCount_coloring, colorCount_coloring]
        unfold CPG.settled
        change Settles (if cpg.colorClasses (cpg.refined color) = cpg.colorClasses color then
          pure (cpg.coloring (cpg.refined color))
          else index.refineLoop fuel (cpg.coloring (cpg.refined color))) _
        split
        · exact .pure _
        next unstable =>
          have grows := CPG.colorClasses_refined bounded
          exact ih (CPG.ranked_bounded ready _) (by omega)

/-- `refine` computes the stable colours of the individualised nodes. -/
theorem refine_settles (short : picked.length < 2 ^ 64)
    : Settles (index.refine (marks picked)) (.ok (cpg.coloring (cpg.colorOf picked))) := by
  have labelled : Metered.collect
      (fun (entry : NodeId × Bytes) => do
        let marker ← u64 ((marks picked).getD entry.1 0)
        .ok (entry.1, entry.2 ++ marker))
      index.labels
      = .ok (cpg.nodeIds.map fun id => (id, cpg.labelAt id ++ toBytes 8 (markerOf picked id))) := by
    have framed (entry : NodeId × Bytes)
        : (u64 ((marks picked).getD entry.1 0) >>= fun marker =>
            (.ok (entry.1, entry.2 ++ marker) : Except AnalysisError _))
          = .ok (entry.1, entry.2 ++ toBytes 8 (markerOf picked entry.1)) := by
      rw [marks_getD, u64_natCast (lt_of_le_of_lt (markerOf_le picked _) short), ok_bind]
    rw [describes.labels, collect_ok fun entry _ => framed entry, List.map_map]
    rfl
  unfold GraphIndex.refine
  rw [labelled]
  refine (Settles.reraise _).step ?_
  rw [intern_coloring, describes.labels, List.length_map, CPG.length_nodeIds]
  exact refineLoop_settles ready describes _ (CPG.ranked_bounded ready _) (by omega)

end Loop

end Scanipy.Analysis

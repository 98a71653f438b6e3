import Scanipy.Analysis.Ordering.Isomorphism

/-! The canonical encoding as a total function, and its completeness.
Two encodings are equal exactly when listing position by position is an isomorphism.
-/

namespace Scanipy.Analysis

open Library Python
open CanonicalizationBudget (check check_settles)

/-- The sort key of an edge whose endpoints have their positions in `order`. -/
def edgeKeyIn (order : List NodeId) (edge : CPGEdge) : EdgeKey :=
  toLex (edge.kind.utf8, toLex (order.idxOf edge.src, order.idxOf edge.dst))

/-- `frameEdge` as a total function. -/
def framedEdge (key : EdgeKey) : Bytes :=
  framedBytes (ofLex key).1 ++ toBytes 8 (ofLex (ofLex key).2).1
    ++ toBytes 8 (ofLex (ofLex key).2).2

/-- The label bytes of a node id; empty for an id without a node. -/
def CPG.labelAt (cpg : CPG) (id : NodeId) : Bytes :=
  (cpg.look labelBytes id).getD []

/-- `encode_graph` as a total function. -/
def encodedGraph (cpg : CPG) (order : List NodeId) : Bytes :=
  pyb "SCANIPY-CANONICAL-GRAPH/2\n"
    ++ (toBytes 8 order.length
      ++ (order.flatMap cpg.labelAt
        ++ (toBytes 8 cpg.edges.length
          ++ (sorted (cpg.edges.map (edgeKeyIn order))).flatMap framedEdge)))

variable {order : List NodeId} {id : NodeId}

theorem rank_get? (distinct : order.Nodup) (member : id ∈ order)
    : (Dict.ofPairs order.zipIdx).get? id = some (order.idxOf id) := by
  have keys : (order.zipIdx.map Prod.fst).Nodup := by simpa using distinct
  rw [Dict.ofPairs_eq_self keys, Dict.get?_zipIdx, if_pos member, Nat.add_zero]

theorem edgeKey_eq (distinct : order.Nodup) {edge : CPGEdge} (srcMember : edge.src ∈ order)
    (dstMember : edge.dst ∈ order) (kind : TextFits edge.kind)
    : edgeKey (Dict.ofPairs order.zipIdx) edge = .ok (edgeKeyIn order edge) := by
  simp only [edgeKey, subscript, rank_get? distinct srcMember, rank_get? distinct dstMember,
    encodeText_ok.mpr ⟨kind.encodable, rfl⟩, ok_bind]
  rfl

theorem frameEdge_eq {key : EdgeKey} (kind : (ofLex key).1.length < 2 ^ 64)
    (src : (ofLex (ofLex key).2).1 < 2 ^ 64) (dst : (ofLex (ofLex key).2).2 < 2 ^ 64)
    : frameEdge key = .ok (framedEdge key) := by
  simp only [frameEdge, frameBytes_ok.mpr ⟨kind, rfl⟩, u64_natCast src, u64_natCast dst,
    ok_bind]
  rfl

variable {cpg : CPG}

theorem label_at (formed : cpg.WellFormed) (member : id ∈ cpg.nodeIds)
    : (subscript cpg.byId id >>= label) = .ok (cpg.labelAt id) := by
  obtain ⟨node, nodeMember, rfl⟩ := List.mem_map.mp member
  have found := CPG.byId_get? formed.distinct nodeMember
  have labelled := label_ok.mpr ⟨(formed.nodes node nodeMember).label, rfl⟩
  simp only [subscript, found, ok_bind, labelled, CPG.labelAt, CPG.look, Option.map_some,
    Option.getD_some]

/-- A ready graph and a complete order encode to `encodedGraph`. -/
theorem encodeGraph_eq_ok (ready : cpg.Ready) (complete : order.Perm cpg.nodeIds)
    : encodeGraph (pure ()) cpg order = (.ok (encodedGraph cpg order) : Except AnalysisError _) := by
  have formed := ready.wellFormed
  have distinct : order.Nodup := complete.nodup_iff.mpr formed.distinct
  have short : order.length < 2 ^ 64 := by
    rw [complete.length_eq, CPG.nodeIds, List.length_map]
    exact ready.nodes
  have valid := validateCpg_ok_iff.mpr formed
  have permutation : require
      (order.length = cpg.byId.length
        ∧ (∀ node ∈ order, node ∈ cpg.byId.keys) ∧ ∀ node ∈ cpg.byId.keys, node ∈ order)
      "graph encoding requires a complete node permutation" = .ok () := by
    rw [require_ok_iff, CPG.keys_byId formed.distinct]
    refine ⟨?_, fun node => complete.mem_iff.mp, fun node => complete.mem_iff.mpr⟩
    rw [complete.length_eq, CPG.byId_eq formed.distinct, CPG.nodeIds, List.length_map,
      List.length_map]
  have labels : Metered.collect (fun node => subscript cpg.byId node >>= label) order
      = .ok (order.map cpg.labelAt) :=
    collect_ok fun id member => label_at formed (complete.mem_iff.mp member)
  have keys : Metered.collect (edgeKey (Dict.ofPairs order.zipIdx)) cpg.edges
      = .ok (cpg.edges.map (edgeKeyIn order)) := by
    refine collect_ok fun edge member => ?_
    have edgeFormed := formed.edges edge member
    exact edgeKey_eq distinct (complete.mem_iff.mpr edgeFormed.src)
      (complete.mem_iff.mpr edgeFormed.dst) edgeFormed.kind
  have framed : Metered.collect (fun key => frameEdge key)
      (sorted (cpg.edges.map (edgeKeyIn order)))
      = .ok ((sorted (cpg.edges.map (edgeKeyIn order))).map framedEdge) := by
    refine collect_ok fun key member => ?_
    obtain ⟨edge, edgeMember, rfl⟩ := List.mem_map.mp (mem_sorted.mp member)
    have edgeFormed := formed.edges edge edgeMember
    have srcIndex := List.idxOf_lt_length_of_mem (complete.mem_iff.mpr edgeFormed.src)
    have dstIndex := List.idxOf_lt_length_of_mem (complete.mem_iff.mpr edgeFormed.dst)
    exact frameEdge_eq edgeFormed.kind.length (lt_trans srcIndex short) (lt_trans dstIndex short)
  have count : u64 (sorted (cpg.edges.map (edgeKeyIn order))).length
      = .ok (toBytes 8 cpg.edges.length) := by
    rw [length_sorted, List.length_map]
    exact u64_natCast ready.edges
  unfold encodeGraph
  rw [valid, ok_bind]
  dsimp only
  rw [reraise_except, permutation, ok_bind, reraise_except, u64_natCast short, ok_bind]
  simp only [reraise_except, pure_bind]
  rw [labels, ok_bind, keys, ok_bind, count, ok_bind, framed, ok_bind]
  simp only [encodedGraph, List.flatMap_def, List.append_assoc]
  rfl

/-- The budgeted encoding has the budget-free outcome. -/
theorem encodeGraph_settles (cpg : CPG) (order : List NodeId)
    : Settles (encodeGraph check cpg order) (encodeGraph (pure ()) cpg order) := by
  have raised {α : Type} (outcome : Except AnalysisError α)
      : Settles (reraise outcome) (reraise outcome) := by
    rw [reraise_except]
    exact .reraise outcome
  unfold encodeGraph
  refine (validateCpg_settles cpg).bind fun _ => (raised _).bind fun _ =>
    (raised _).bind fun size => (Settles.collect (fun node => ?_) _).bind fun labels =>
    (raised _).bind fun keys => (raised _).bind fun count =>
    (Settles.collect (fun key => ?_) _).bind fun framed => check_settles.bind fun _ => .pure _
  · exact check_settles.bind fun _ => raised _
  · exact check_settles.bind fun _ => raised _

end Scanipy.Analysis

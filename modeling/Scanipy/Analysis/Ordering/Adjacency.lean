import Scanipy.Analysis.Ordering.Encoding
import Scanipy.Analysis.Ordering.Search

/-! What the adjacency index of an accepted graph holds. -/

namespace Scanipy.Analysis

open Library Python
open CanonicalizationBudget (check check_settles)

/-- Kind and source of the edges into a node. -/
def CPG.arriving (cpg : CPG) (id : NodeId) : List (Bytes × NodeId) :=
  (cpg.edges.filter fun edge => edge.dst = id).map fun edge => (edge.kind.utf8, edge.src)

/-- Kind and target of the edges out of a node. -/
def CPG.leaving (cpg : CPG) (id : NodeId) : List (Bytes × NodeId) :=
  (cpg.edges.filter fun edge => edge.src = id).map fun edge => (edge.kind.utf8, edge.dst)

/-- Kinds of the edges from one node to another. -/
def CPG.kindsBetween (cpg : CPG) (src dst : NodeId) : List Bytes :=
  (cpg.edges.filter fun edge => (edge.src, edge.dst) = (src, dst)).map fun edge => edge.kind.utf8

/-- `index` is the adjacency index of `cpg`. -/
structure GraphIndex.Describes (index : GraphIndex) (cpg : CPG) : Prop where
  labels : index.labels = cpg.nodeIds.map fun id => (id, cpg.labelAt id)
  incoming : ∀ id ∈ cpg.nodeIds, index.incoming.get? id = some (cpg.arriving id)
  outgoing : ∀ id ∈ cpg.nodeIds, index.outgoing.get? id = some (cpg.leaving id)
  pairs : ∀ src dst, index.pairs.getD (src, dst) [] = sorted (cpg.kindsBetween src dst)

namespace GraphIndex

/-- One round of the edge loop of `build`. -/
def addEdge (index : GraphIndex) (edge : CPGEdge) : GraphIndex :=
  {
    index with
    incoming := index.incoming.appendTo edge.dst (edge.kind.utf8, edge.src)
    outgoing := index.outgoing.appendTo edge.src (edge.kind.utf8, edge.dst)
    pairs := index.pairs.appendTo (edge.src, edge.dst) edge.kind.utf8
  }

theorem addEdges_settles {edges : List CPGEdge} (kinds : ∀ edge ∈ edges, edge.kind.Encodable)
    (index : GraphIndex)
    : Settles (addEdges edges index) (.ok (edges.foldl addEdge index)) := by
  induction edges generalizing index with
  | nil => exact .pure index
  | cons edge rest ih =>
      have encoded : encodeText edge.kind = .ok edge.kind.utf8 :=
        encodeText_ok.mpr ⟨kinds edge List.mem_cons_self, rfl⟩
      rw [addEdges, encoded]
      exact check_settles.step ((Settles.reraise _).step
        (ih (fun other member => kinds other (List.mem_cons_of_mem _ member)) _))

/-- The fields of the index after the edge loop, by list induction. -/
theorem foldl_addEdge (edges : List CPGEdge) (index : GraphIndex)
    : edges.foldl addEdge index
      = {
        labels := index.labels
        incoming := edges.foldl
          (fun entries edge => entries.appendTo edge.dst (edge.kind.utf8, edge.src)) index.incoming
        outgoing := edges.foldl
          (fun entries edge => entries.appendTo edge.src (edge.kind.utf8, edge.dst)) index.outgoing
        pairs := edges.foldl
          (fun entries edge => entries.appendTo (edge.src, edge.dst) edge.kind.utf8) index.pairs
      } := by
  induction edges generalizing index with
  | nil => rfl
  | cons edge rest ih => exact ih (index.addEdge edge)

/-- `build` succeeds on accepted graphs and describes them. -/
theorem build_budgeted {cpg : CPG} (formed : cpg.WellFormed)
    : Budgeted (fun index _ => index.Describes cpg) (build cpg) (pure ()) := by
  have labelled : Metered.collect
      (fun (node : CPGNode) => do
        let bytes ← label node
        .ok (node.nodeId, bytes))
      cpg.nodes
      = .ok (cpg.nodes.map fun node => (node.nodeId, labelBytes node)) := by
    refine collect_ok fun node member => ?_
    rw [label_ok.mpr ⟨(formed.nodes node member).label, rfl⟩, ok_bind]
  have labels : Dict.ofPairs (cpg.nodes.map fun node => (node.nodeId, labelBytes node))
      = cpg.nodeIds.map fun id => (id, cpg.labelAt id) := by
    rw [Dict.ofPairs_eq_self (by rw [List.map_map]; exact formed.distinct), CPG.nodeIds,
      List.map_map]
    refine List.map_congr_left fun node member => ?_
    simp only [Function.comp, CPG.labelAt, CPG.look_of_mem formed.distinct member,
      Option.getD_some]
  have keys : Dict.keys (cpg.nodeIds.map fun id => (id, cpg.labelAt id)) = cpg.nodeIds := by
    rw [Dict.keys, List.map_map]
    exact List.map_id _
  have valid := validateCpg_settles cpg
  rw [validateCpg_ok_iff.mpr formed] at valid
  have added := addEdges_settles fun edge member => (formed.edges edge member).kind.encodable
  unfold build
  refine valid.step ?_
  rw [labelled]
  refine (Settles.reraise _).step ?_
  dsimp only
  rw [labels, keys]
  refine (added _).step (.pure ?_)
  rw [foldl_addEdge]
  have stored (id : NodeId) (member : id ∈ cpg.nodeIds)
      : Dict.get? (cpg.nodeIds.map fun node => (node, ([] : List (Bytes × NodeId)))) id
        = some [] := by
    rw [Dict.get?_map fun _ => [], if_pos member]
  refine ⟨rfl, fun id member => ?_, fun id member => ?_, fun src dst => ?_⟩
  · exact Dict.get?_foldl_appendTo (stored id member)
  · exact Dict.get?_foldl_appendTo (stored id member)
  · have grouped := Dict.getD_foldl_appendTo cpg.edges (fun edge => (edge.src, edge.dst))
      (fun edge => edge.kind.utf8) [] (src, dst)
    rw [Dict.getD, Dict.get?_map_snd]
    exact (Option.getD_map sorted [] _).trans (congrArg sorted grouped)

end GraphIndex

end Scanipy.Analysis

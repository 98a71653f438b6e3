import Scanipy.Analysis.Fingerprint.Extract

/-! Copying a graph numbered from zero keeps its ids: every pass edits nodes in place. -/

namespace Scanipy.Analysis

open Library Python

/-- A graph as `add_node` and `add_edge` build it: ids are positions. -/
structure CPG.Numbered (cpg : CPG) : Prop where
  ids : ∀ index (inside : index < cpg.nodes.length), (cpg.nodes[index]).nodeId = index
  nodeFields : ∀ node ∈ cpg.nodes, node.extraFields = []
  edgeFields : ∀ edge ∈ cpg.edges, edge.extraFields = []
  modelVersion : cpg.modelVersion = none
  graphFields : cpg.extraFields = []
  ends : ∀ edge ∈ cpg.edges, edge.src ∈ cpg.nodeIds ∧ edge.dst ∈ cpg.nodeIds

/-- The graph with every node edited. -/
def CPG.mapNodes (cpg : CPG) (edit : CPGNode → CPGNode) : CPG :=
  { cpg with nodes := cpg.nodes.map edit }

/-- An edit of the semantic fields of a node. -/
def KeepsId (edit : CPGNode → CPGNode) : Prop :=
  ∀ node, (edit node).nodeId = node.nodeId ∧ (edit node).extraFields = node.extraFields

section MapNodes

variable {cpg : CPG} {edit : CPGNode → CPGNode}

theorem CPG.nodeIds_mapNodes (keeps : KeepsId edit)
    : (cpg.mapNodes edit).nodeIds = cpg.nodeIds := by
  rw [CPG.nodeIds, CPG.mapNodes, List.map_map, CPG.nodeIds]
  exact List.map_congr_left fun node _ => (keeps node).1

theorem CPG.Numbered.distinct (numbered : cpg.Numbered) : cpg.nodeIds.Nodup := by
  refine List.nodup_iff_injective_getElem.mpr fun first second same => ?_
  have inside (index : Fin cpg.nodeIds.length) : index.val < cpg.nodes.length := by
    have bound := index.isLt
    simpa [CPG.nodeIds] using bound
  simp only [CPG.nodeIds, List.getElem_map, numbered.ids _ (inside _)] at same
  exact Fin.ext (by exact_mod_cast same)

theorem CPG.Numbered.mapNodes (numbered : cpg.Numbered) (keeps : KeepsId edit)
    : (cpg.mapNodes edit).Numbered where
  ids index inside := by
    simp only [CPG.mapNodes, List.getElem_map, (keeps _).1]
    exact numbered.ids index _
  nodeFields node member := by
    obtain ⟨original, listed, rfl⟩ := List.mem_map.mp member
    rw [(keeps original).2, numbered.nodeFields original listed]
  edgeFields := numbered.edgeFields
  modelVersion := numbered.modelVersion
  graphFields := numbered.graphFields
  ends := by
    rw [nodeIds_mapNodes keeps]
    exact numbered.ends

theorem CPG.nodeAt_mapNodes (distinct : cpg.nodeIds.Nodup) (keeps : KeepsId edit) {id : NodeId}
    (known : id ∈ cpg.nodeIds)
    : (cpg.mapNodes edit).nodeAt id = edit (cpg.nodeAt id) := by
  obtain ⟨node, member, rfl⟩ := List.mem_map.mp known
  have edited : edit node ∈ (cpg.mapNodes edit).nodes := List.mem_map_of_mem member
  have editedDistinct : (cpg.mapNodes edit).nodeIds.Nodup := by rwa [nodeIds_mapNodes keeps]
  rw [CPG.nodeAt_of_mem distinct member, ← (keeps node).1,
    CPG.nodeAt_of_mem editedDistinct edited]

end MapNodes

/-- Copies are appended in order and recorded under fresh keys, by list induction. -/
theorem addCopies_eq (edit : CPGNode → CPGNode) (nodes : List CPGNode)
    (copied : CPG × Dict NodeId NodeId) (fresh : ∀ node ∈ nodes, node.nodeId ∉ copied.2.keys)
    (distinct : (nodes.map CPGNode.nodeId).Nodup)
    : addCopies edit nodes copied
      = (
          {
            copied.1 with
            nodes := copied.1.nodes ++ (nodes.zipIdx copied.1.nodes.length).map fun pair =>
              (edit pair.1).renumber pair.2
          },
          copied.2 ++ (nodes.zipIdx copied.1.nodes.length).map fun pair =>
            (pair.1.nodeId, (pair.2 : Int))) := by
  induction nodes generalizing copied with
  | nil => simp [addCopies]
  | cons node rest ih =>
      obtain ⟨notLater, restDistinct⟩ := List.nodup_cons.mp distinct
      have stored : copied.2.set node.nodeId copied.1.nodes.length
          = copied.2 ++ [(node.nodeId, (copied.1.nodes.length : Int))] :=
        Dict.set_of_not_mem (fresh _ List.mem_cons_self) _
      rw [addCopies, ih _ ?_ restDistinct]
      · simp only [addCopy, stored, CPG.addNode, List.zipIdx_cons, List.map_cons,
          List.length_append, List.length_singleton, List.append_assoc, List.singleton_append,
          CPGNode.renumber]
      · intro other later
        rw [addCopy, stored, Dict.keys, List.map_append, List.mem_append, not_or]
        refine ⟨fresh other (List.mem_cons_of_mem _ later), ?_⟩
        rw [List.map_singleton, List.mem_singleton]
        intro same
        have listed : other.nodeId ∈ rest.map CPGNode.nodeId := List.mem_map_of_mem later
        rw [same] at listed
        exact notLater listed

theorem copyEdges_ok {remap : Dict NodeId NodeId} {edges : List CPGEdge}
    (stored : ∀ edge ∈ edges,
      remap.get? edge.src = some edge.src ∧ remap.get? edge.dst = some edge.dst)
    (fields : ∀ edge ∈ edges, edge.extraFields = []) (dst : CPG)
    : copyEdges remap edges dst = .ok { dst with edges := dst.edges ++ edges } := by
  induction edges generalizing dst with
  | nil => simp [copyEdges]
  | cons edge rest ih =>
      obtain ⟨srcStored, dstStored⟩ := stored edge List.mem_cons_self
      have same : ({ src := edge.src, dst := edge.dst, kind := edge.kind } : CPGEdge) = edge := by
        have bare := fields edge List.mem_cons_self
        cases edge
        cases bare
        rfl
      rw [copyEdges, subscript, subscript, srcStored, dstStored]
      dsimp only
      rw [ok_bind, ok_bind, ih (fun other later => stored other (List.mem_cons_of_mem _ later))
        fun other later => fields other (List.mem_cons_of_mem _ later)]
      simp [CPG.addEdge, same]

/-- Copying a numbered graph with an edit edits its nodes, and `remap` is the identity. -/
theorem copy_ok {cpg : CPG} (numbered : cpg.Numbered) {edit : CPGNode → CPGNode}
    (keeps : KeepsId edit)
    : (addCopies edit cpg.nodes ({}, [])).2 = cpg.nodeIds.map (fun id => (id, id))
      ∧ copyEdges (addCopies edit cpg.nodes ({}, [])).2 cpg.edges
          (addCopies edit cpg.nodes ({}, [])).1
        = .ok (cpg.mapNodes edit) := by
  have copied := addCopies_eq edit cpg.nodes ({}, []) (by simp [Dict.keys]) numbered.distinct
  have remap : (addCopies edit cpg.nodes ({}, [])).2 = cpg.nodeIds.map (fun id => (id, id)) := by
    rw [copied, List.nil_append, CPG.nodeIds, List.map_map]
    refine List.ext_getElem (by simp) fun index inside _ => ?_
    have position : index < cpg.nodes.length := by simpa using inside
    simp [numbered.ids index position]
  have nodes : (addCopies edit cpg.nodes ({}, [])).1 = { nodes := cpg.nodes.map edit } := by
    rw [copied]
    refine congrArg (fun nodes : List CPGNode => ({ nodes := nodes } : CPG)) ?_
    rw [List.nil_append]
    refine List.ext_getElem (by simp) fun index inside _ => ?_
    have position : index < cpg.nodes.length := by simpa using inside
    obtain ⟨sameId, sameFields⟩ := keeps cpg.nodes[index]
    rw [numbered.nodeFields _ (List.getElem_mem position)] at sameFields
    rw [numbered.ids index position] at sameId
    simp only [List.getElem_map, List.getElem_zipIdx, List.length_nil, Nat.zero_add,
      CPGNode.renumber, ← sameId, ← sameFields]
  refine ⟨remap, ?_⟩
  rw [remap, nodes, copyEdges_ok ?_ numbered.edgeFields]
  · simp [CPG.mapNodes, numbered.modelVersion, numbered.graphFields]
  · intro edge member
    obtain ⟨srcKnown, dstKnown⟩ := numbered.ends edge member
    rw [Dict.get?_map fun id => id, if_pos srcKnown, Dict.get?_map fun id => id, if_pos dstKnown]
    exact ⟨rfl, rfl⟩

/-- An extract is numbered from zero. -/
theorem extract_numbered {members : List NodeId} (distinct : members.Nodup) (cpg : CPG)
    : (cpg.extract members).Numbered where
  ids index inside := by
    simp only [CPG.extract, List.getElem_map, CPGNode.renumber]
    rw [distinct.idxOf_getElem]
  nodeFields node member := by
    obtain ⟨id, _, rfl⟩ := List.mem_map.mp member
    rfl
  edgeFields edge member := by
    obtain ⟨original, _, rfl⟩ := List.mem_map.mp member
    rfl
  modelVersion := rfl
  graphFields := rfl
  ends edge member := by
    obtain ⟨original, listed, rfl⟩ := List.mem_map.mp member
    obtain ⟨_, srcMember, dstMember⟩
        : original ∈ cpg.edges ∧ original.src ∈ members ∧ original.dst ∈ members := by
      simpa using listed
    have numberedIds : (cpg.extract members).nodeIds
        = members.map fun id => (members.idxOf id : Int) := by
      rw [CPG.nodeIds, CPG.extract, List.map_map]
      rfl
    rw [numberedIds]
    exact ⟨List.mem_map_of_mem srcMember, List.mem_map_of_mem dstMember⟩

end Scanipy.Analysis

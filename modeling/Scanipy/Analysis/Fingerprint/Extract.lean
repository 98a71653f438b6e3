import Scanipy.Analysis.Fingerprint.Cone
import Scanipy.Analysis.Fingerprint.Compute
import Scanipy.Analysis.Ordering.Completeness

/-! The slice as a graph renumbered from zero, and what copying such a graph does. -/

namespace Scanipy.Analysis

open Library Python

/-- The node with an id; a bare node for an id without one. -/
def CPG.nodeAt (cpg : CPG) (id : NodeId) : CPGNode :=
  (cpg.byId.get? id).getD { nodeId := id, kind := [] }

/-- The copy of a node that `add_node` makes under another id. -/
def CPGNode.renumber (node : CPGNode) (id : NodeId) : CPGNode :=
  {
    nodeId := id
    kind := node.kind
    operatorOrLiteral := node.operatorOrLiteral
    resolvedFqn := node.resolvedFqn
    enclosingDeclFqn := node.enclosingDeclFqn
    structuralPath := node.structuralPath
  }

/-- The subgraph on the listed nodes, each numbered by its position. -/
def CPG.extract (cpg : CPG) (members : List NodeId) : CPG where
  nodes := members.map fun id => (cpg.nodeAt id).renumber (members.idxOf id)
  edges := (cpg.edges.filter fun edge => edge.src ∈ members ∧ edge.dst ∈ members).map fun edge =>
    { src := members.idxOf edge.src, dst := members.idxOf edge.dst, kind := edge.kind }

theorem zipIdx_map_of_nodup {α β : Type} [DecidableEq α] {items : List α} (distinct : items.Nodup)
    (value : α → Nat → β)
    : (items.zipIdx.map fun pair => value pair.1 pair.2)
      = items.map fun item => value item (items.idxOf item) := by
  refine List.ext_getElem (by simp) fun index _ _ => ?_
  simp only [List.getElem_map, List.getElem_zipIdx, Nat.zero_add]
  rw [distinct.idxOf_getElem]

variable {cpg : CPG}

theorem CPG.nodeAt_of_mem (distinct : cpg.nodeIds.Nodup) {node : CPGNode}
    (member : node ∈ cpg.nodes)
    : cpg.nodeAt node.nodeId = node := by
  rw [CPG.nodeAt, CPG.byId_get? distinct member, Option.getD_some]

theorem CPG.nodeAt_mem (distinct : cpg.nodeIds.Nodup) {id : NodeId} (known : id ∈ cpg.nodeIds)
    : cpg.nodeAt id ∈ cpg.nodes ∧ (cpg.nodeAt id).nodeId = id := by
  obtain ⟨node, member, rfl⟩ := List.mem_map.mp known
  rw [CPG.nodeAt_of_mem distinct member]
  exact ⟨member, rfl⟩

/-- Copies are appended in order and recorded under fresh keys, by list induction. -/
theorem sliceNodes_ok (formed : cpg.WellFormed) (ids : List NodeId)
    (known : ∀ id ∈ ids, id ∈ cpg.nodeIds) (copied : CPG × Dict NodeId NodeId)
    (fresh : ∀ id ∈ ids, id ∉ copied.2.keys) (distinct : ids.Nodup)
    : sliceNodes cpg.byId ids copied
      = .ok (
          {
            copied.1 with
            nodes := copied.1.nodes ++ (ids.zipIdx copied.1.nodes.length).map fun pair =>
              (cpg.nodeAt pair.1).renumber pair.2
          },
          copied.2 ++ (ids.zipIdx copied.1.nodes.length).map fun pair => (pair.1, (pair.2 : Int))) := by
  induction ids generalizing copied with
  | nil => simp [sliceNodes]
  | cons id rest ih =>
      obtain ⟨notLater, restDistinct⟩ := List.nodup_cons.mp distinct
      obtain ⟨node, member, rfl⟩ := List.mem_map.mp (known id List.mem_cons_self)
      have stored : copied.2.set node.nodeId copied.1.nodes.length
          = copied.2 ++ [(node.nodeId, (copied.1.nodes.length : Int))] :=
        Dict.set_of_not_mem (fresh _ List.mem_cons_self) _
      rw [sliceNodes, subscript, CPG.byId_get? formed.distinct member]
      dsimp only
      rw [ok_bind, ih (fun other later => known other (List.mem_cons_of_mem _ later)) _ ?_
        restDistinct]
      · simp only [addCopy, stored, CPG.addNode, List.zipIdx_cons, List.map_cons,
          CPG.nodeAt_of_mem formed.distinct member, List.length_append, List.length_singleton,
          List.append_assoc, List.singleton_append, CPGNode.renumber]
      · intro other later
        rw [addCopy, stored, Dict.keys, List.map_append, List.mem_append, not_or]
        refine ⟨fresh other (List.mem_cons_of_mem _ later), ?_⟩
        rw [List.map_singleton, List.mem_singleton]
        rintro rfl
        exact notLater later

variable {members : List NodeId}

theorem sliceEdges_ok {remap : Dict NodeId NodeId} {onSlice : List NodeId}
    (same : ∀ id, id ∈ onSlice ↔ id ∈ members)
    (stored : ∀ id ∈ members, remap.get? id = some (members.idxOf id : Int)) (edges : List CPGEdge)
    (sliced : CPG)
    : sliceEdges onSlice remap edges sliced
      = .ok {
          sliced with
          edges := sliced.edges
            ++ (edges.filter fun edge => edge.src ∈ members ∧ edge.dst ∈ members).map fun edge =>
              { src := members.idxOf edge.src, dst := members.idxOf edge.dst, kind := edge.kind }
        } := by
  induction edges generalizing sliced with
  | nil => simp [sliceEdges]
  | cons edge rest ih =>
      unfold sliceEdges
      by_cases inside : edge.src ∈ members ∧ edge.dst ∈ members
      · rw [if_pos (by rwa [same, same]), subscript, subscript, stored _ inside.1, stored _ inside.2]
        dsimp only
        rw [ok_bind, ok_bind, ih]
        simp [CPG.addEdge, inside]
      · rw [if_neg (by rwa [same, same]), ih]
        simp [inside]

variable {witness : List NodeId}

/-- The witness check accepts witnesses in the graph. -/
theorem checkWitness_ok {byId : Dict NodeId CPGNode}
    : checkWitness byId witness = .ok () ↔ ∀ id ∈ witness, id ∈ byId.keys := by
  induction witness with
  | nil => simp [checkWitness]
  | cons id rest ih =>
      by_cases known : id ∈ byId.keys
      · simp [checkWitness, known, ih]
      · simp [checkWitness, known]

/-- The sorted nodes of the slice of a witness in the graph. -/
structure CPG.SliceMembers (cpg : CPG) (witness members : List NodeId) : Prop where
  distinct : members.Nodup
  ascending : members.Pairwise (· ≤ ·)
  known : members ⊆ cpg.nodeIds
  onSlice : ∃ sink,
    witness.getLast? = some sink ∧ ∀ id, id ∈ members ↔ cpg.OnSlice witness sink id

theorem CPG.SliceMembers.seeds (sliced : cpg.SliceMembers witness members)
    : witness ⊆ members := by
  obtain ⟨sink, _, onSlice⟩ := sliced.onSlice
  exact fun id seed => (onSlice id).mpr (.inl seed)

/-- Sorted and without repetition, the nodes of a slice are listed in one way. -/
theorem CPG.SliceMembers.unique {others : List NodeId} (sliced : cpg.SliceMembers witness members)
    (again : cpg.SliceMembers witness others)
    : members = others := by
  obtain ⟨sink, last, onSlice⟩ := sliced.onSlice
  obtain ⟨other, otherLast, otherOnSlice⟩ := again.onSlice
  obtain rfl : sink = other := Option.some.inj (last.symm.trans otherLast)
  refine List.Perm.eq_of_pairwise' sliced.ascending again.ascending ?_
  rw [List.perm_ext_iff_of_nodup sliced.distinct again.distinct]
  exact fun id => (onSlice id).trans (otherOnSlice id).symm

/-- The slice on the given nodes, with the witness renumbered. -/
def CPG.sliceOn (cpg : CPG) (witness members : List NodeId) : Slice where
  cpg := cpg.extract members
  witness := witness.map fun id => (members.idxOf id : Int)

/-- A witness in the graph has a slice: the extract on the sorted nodes of the cone. -/
theorem backwardInterproceduralSlice_eq_ok (formed : cpg.WellFormed)
    (known : ∀ id ∈ witness, id ∈ cpg.nodeIds) {sink : NodeId} (last : witness.getLast? = some sink)
    : ∃ members : List NodeId,
        cpg.SliceMembers witness members
        ∧ backwardInterproceduralSlice cpg witness = .ok (cpg.sliceOn witness members) := by
  have sinkListed : sink ∈ witness := List.mem_of_getLast? last
  have start : ConeInvariant cpg witness sink [sink] [] (PySet.update [] witness) := by
    refine ⟨?_, .inr List.mem_cons_self, by simp, by simp, PySet.nodup_update List.nodup_nil _⟩
    rintro id (waiting | before)
    · rw [List.mem_singleton.mp waiting]
      exact .refl
    · exact absurd before List.not_mem_nil
  obtain ⟨onSlice, done, looped, invariant⟩ := coneLoop_ok formed
    (cpg.nodes.length * (cpg.edges.length + 1) + 1) [sink] [] (PySet.update [] witness) start
    (fun id member => List.mem_singleton.mp member ▸ known sink sinkListed)
    (by simp [CPG.nodeIds])
  have members (id : NodeId) : id ∈ sorted onSlice ↔ cpg.OnSlice witness sink id := by
    rw [mem_sorted, invariant.finish sinkListed]
  have distinct : (sorted onSlice).Nodup := (sorted_perm onSlice).nodup_iff.mpr invariant.distinct
  have slicedKnown : ∀ id ∈ sorted onSlice, id ∈ cpg.nodeIds := by
    intro id member
    rcases (members id).mp member with seed | reaches
    · exact known id seed
    · rcases Relation.ReflTransGen.cases_head reaches with rfl | ⟨_, flows, _⟩
      · exact known id sinkListed
      · exact (flowsInto_known formed flows).1
  refine ⟨sorted onSlice, ⟨distinct, sorted_pairwise onSlice, slicedKnown, sink, last, members⟩, ?_⟩
  have copied := sliceNodes_ok formed (sorted onSlice) slicedKnown ({}, []) (by simp [Dict.keys])
    distinct
  have stored : ∀ id ∈ sorted onSlice,
      Dict.get? ((sorted onSlice).zipIdx.map fun pair => (pair.1, (pair.2 : Int))) id
        = some ((sorted onSlice).idxOf id : Int) := by
    intro id member
    rw [zipIdx_map_of_nodup distinct fun item index => (item, (index : Int)),
      Dict.get?_map fun item => (((sorted onSlice).idxOf item : Nat) : Int), if_pos member]
  have edges := sliceEdges_ok (fun id => mem_sorted.symm) stored cpg.edges
  have remapped : Metered.collect
      (subscript ((sorted onSlice).zipIdx.map fun pair => (pair.1, (pair.2 : Int)))) witness
      = .ok (witness.map fun id => ((sorted onSlice).idxOf id : Int)) := by
    refine collect_ok fun id member => ?_
    rw [subscript, stored id ((members id).mpr (.inl member))]
  unfold backwardInterproceduralSlice
  rw [last]
  dsimp only
  rw [checkWitness_ok.mpr (by rwa [CPG.keys_byId formed.distinct]), ok_bind, looped, ok_bind, copied,
    ok_bind]
  simp only [List.nil_append, List.length_nil]
  rw [edges, ok_bind, remapped, ok_bind]
  simp only [CPG.sliceOn, CPG.extract, List.nil_append]
  rw [zipIdx_map_of_nodup distinct fun item index => (cpg.nodeAt item).renumber index]

/-- A slice is returned exactly for a nonempty witness in the graph. -/
theorem backwardInterproceduralSlice_ok_iff (formed : cpg.WellFormed) {slice : Slice}
    : backwardInterproceduralSlice cpg witness = .ok slice
      ↔ ∃ members, cpg.SliceMembers witness members ∧ slice = cpg.sliceOn witness members := by
  constructor
  · intro returned
    cases last : witness.getLast? with
    | none =>
        rw [backwardInterproceduralSlice, last] at returned
        cases returned
    | some sink =>
        have opened := returned
        rw [backwardInterproceduralSlice, last] at opened
        obtain ⟨_, checked, _⟩ := bind_ok.mp opened
        have known := checkWitness_ok.mp checked
        rw [CPG.keys_byId formed.distinct] at known
        obtain ⟨members, sliced, same⟩ := backwardInterproceduralSlice_eq_ok formed known last
        exact ⟨members, sliced, Except.ok.inj (returned.symm.trans same)⟩
  · rintro ⟨members, sliced, rfl⟩
    obtain ⟨sink, last, _⟩ := sliced.onSlice
    obtain ⟨others, again, same⟩ := backwardInterproceduralSlice_eq_ok formed
      (fun id seed => sliced.known (sliced.seeds seed)) last
    rw [same, sliced.unique again]

end Scanipy.Analysis

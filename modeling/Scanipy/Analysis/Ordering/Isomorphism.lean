import Scanipy.Analysis.Ordering.Validity

/-! Accepted graphs, node lookup, and isomorphisms that see nodes through chosen labels. -/

namespace Scanipy.Analysis

open Library Python

/-- `sys.maxsize`: no CPython list, `str` or `bytes` is longer. -/
def maxsize : Nat := 2 ^ 63 - 1

/-- The graph's containers have lengths CPython can represent. -/
structure CPG.Representable (cpg : CPG) : Prop where
  nodes : cpg.nodes.length ≤ maxsize
  edges : cpg.edges.length ≤ maxsize
  resolvedFqn : ∀ node ∈ cpg.nodes, node.resolvedFqn.utf8.length ≤ maxsize
  enclosingDeclFqn : ∀ node ∈ cpg.nodes, node.enclosingDeclFqn.utf8.length ≤ maxsize

/-- A graph value that `validate_cpg` accepts. -/
structure ValidCPG extends CPG where
  accepted : (validateCpg (pure ()) toCPG : Except AnalysisError Unit) = .ok ()
  representable : toCPG.Representable

/-- What the canonical encoding needs of a graph: acceptance, and counts that fit a frame. -/
structure CPG.Ready (cpg : CPG) : Prop where
  wellFormed : cpg.WellFormed
  nodes : cpg.nodes.length < 2 ^ 64
  edges : cpg.edges.length < 2 ^ 64

theorem ValidCPG.wellFormed (cpg : ValidCPG) : cpg.WellFormed :=
  validateCpg_ok_iff.mp cpg.accepted

theorem ValidCPG.ready (cpg : ValidCPG) : cpg.Ready where
  wellFormed := cpg.wellFormed
  nodes := lt_of_le_of_lt cpg.representable.nodes (by decide)
  edges := lt_of_le_of_lt cpg.representable.edges (by decide)

/-- A property of the node with the given id, if there is one. -/
def CPG.look {α : Type} (cpg : CPG) (view : CPGNode → α) (id : NodeId) : Option α :=
  (cpg.byId.get? id).map view

theorem CPG.byId_eq {cpg : CPG} (distinct : cpg.nodeIds.Nodup)
    : cpg.byId = cpg.nodes.map fun node => (node.nodeId, node) := by
  refine Dict.ofPairs_eq_self ?_
  rw [List.map_map]
  exact distinct

theorem CPG.keys_byId {cpg : CPG} (distinct : cpg.nodeIds.Nodup)
    : cpg.byId.keys = cpg.nodeIds := by
  rw [CPG.byId_eq distinct, Dict.keys, List.map_map]
  rfl

theorem CPG.byId_get? {cpg : CPG} (distinct : cpg.nodeIds.Nodup) {node : CPGNode}
    (member : node ∈ cpg.nodes)
    : cpg.byId.get? node.nodeId = some node := by
  refine Dict.get?_of_mem ?_ ?_
  · rwa [CPG.keys_byId distinct]
  · rw [CPG.byId_eq distinct]
    exact List.mem_map.mpr ⟨node, member, rfl⟩

theorem CPG.look_of_mem {α : Type} {cpg : CPG} (distinct : cpg.nodeIds.Nodup) {node : CPGNode}
    (member : node ∈ cpg.nodes) (view : CPGNode → α)
    : cpg.look view node.nodeId = some (view node) := by
  rw [CPG.look, CPG.byId_get? distinct member, Option.map_some]

/-- Listing the ids in any complete order visits every node once. -/
theorem CPG.map_look_perm {α β : Type} {cpg : CPG} (distinct : cpg.nodeIds.Nodup)
    {order : List NodeId} (complete : order.Perm cpg.nodeIds) (view : CPGNode → α)
    (rename : NodeId → β)
    : (order.map fun id => (rename id, cpg.look view id)).Perm
        (cpg.nodes.map fun node => (rename node.nodeId, some (view node))) := by
  refine (complete.map _).trans ?_
  rw [CPG.nodeIds, List.map_map]
  refine List.Perm.of_eq (List.map_congr_left ?_)
  intro node member
  simp only [Function.comp, CPG.look_of_mem distinct member]

/-- The four fields of a node's identity. -/
def CPGNode.identity (node : CPGNode) : Text × Text × Text × Text :=
  (node.kind, node.operatorOrLiteral, node.resolvedFqn, node.enclosingDeclFqn)

/-- An edge as a triple of its kind and renamed endpoints. -/
def CPGEdge.triple {α : Type} (edge : CPGEdge) (rename : NodeId → α) : Text × α × α :=
  (edge.kind, rename edge.src, rename edge.dst)

/-- `rename` carries the nodes of `left` one to one onto those of `right`, keeping what
`view` sees of a node and the multiset of `(kind, src, dst)` triples. Ids, list order and
everything `view` does not see are arbitrary.
-/
structure CPG.Iso {α : Type} (view : CPGNode → α) (rename : NodeId → NodeId) (left right : CPG)
    : Prop where
  nodes
    : (left.nodes.map fun node => (rename node.nodeId, view node)).Perm
        (right.nodes.map fun node => (node.nodeId, view node))
  edges
    : (left.edges.map fun edge => edge.triple rename).Perm
        (right.edges.map fun edge => edge.triple id)

namespace CPG.Iso

variable {α : Type} {view : CPGNode → α} {rename : NodeId → NodeId} {left middle right : CPG}

theorem nodeIds (iso : Iso view rename left right)
    : (left.nodeIds.map rename).Perm right.nodeIds := by
  have ids := iso.nodes.map Prod.fst
  simpa only [CPG.nodeIds, List.map_map, Function.comp_def] using ids

/-- Distinct target ids make the renaming injective on the source's nodes. -/
theorem injOn (iso : Iso view rename left right) (distinct : right.nodeIds.Nodup)
    : Set.InjOn rename {id | id ∈ left.nodeIds} := by
  have images : (left.nodeIds.map rename).Nodup := iso.nodeIds.nodup_iff.mpr distinct
  exact fun first firstMember second secondMember same =>
    List.inj_on_of_nodup_map images firstMember secondMember same

theorem mem_nodeIds (iso : Iso view rename left right) {id : NodeId} (member : id ∈ left.nodeIds)
    : rename id ∈ right.nodeIds :=
  iso.nodeIds.mem_iff.mp (List.mem_map_of_mem member)

theorem length_nodes (iso : Iso view rename left right)
    : left.nodes.length = right.nodes.length := by
  simpa using iso.nodes.length_eq

theorem length_edges (iso : Iso view rename left right)
    : left.edges.length = right.edges.length := by
  simpa using iso.edges.length_eq

/-- What `view` sees at a node is found again at its image. -/
theorem look (iso : Iso view rename left right) (leftDistinct : left.nodeIds.Nodup)
    (rightDistinct : right.nodeIds.Nodup) {id : NodeId} (member : id ∈ left.nodeIds)
    : right.look view (rename id) = left.look view id := by
  obtain ⟨node, nodeMember, rfl⟩ := List.mem_map.mp member
  have image := iso.nodes.mem_iff.mp (List.mem_map_of_mem nodeMember)
  obtain ⟨other, otherMember, same⟩ := List.mem_map.mp image
  obtain ⟨sameId, sameView⟩ := Prod.mk.inj same
  rw [← sameId, CPG.look_of_mem rightDistinct otherMember, CPG.look_of_mem leftDistinct nodeMember,
    sameView]

/-- A bijection of the ids that finds the same views again is a bijection of the nodes. -/
theorem nodes_of_look (leftDistinct : left.nodeIds.Nodup) (rightDistinct : right.nodeIds.Nodup)
    (ids : (left.nodeIds.map rename).Perm right.nodeIds)
    (same : ∀ id ∈ left.nodeIds, right.look view (rename id) = left.look view id)
    : (left.nodes.map fun node => (rename node.nodeId, view node)).Perm
        (right.nodes.map fun node => (node.nodeId, view node)) := by
  have leftListed := CPG.map_look_perm leftDistinct .rfl view rename
  have rightListed := CPG.map_look_perm rightDistinct ids view id
  have renamed : (left.nodeIds.map fun key => (rename key, left.look view key))
      = (left.nodeIds.map rename).map fun key => (id key, right.look view key) := by
    rw [List.map_map]
    refine List.map_congr_left fun key member => ?_
    simp only [Function.comp, same key member, id]
  have joined := leftListed.symm.trans ((List.Perm.of_eq renamed).trans rightListed)
  refine (List.map_perm_map_iff (Function.injective_id.prodMap (Option.some_injective α))).mp ?_
  simpa only [List.map_map, Function.comp_def, Prod.map, id] using joined

theorem refl (view : CPGNode → α) (cpg : CPG) : Iso view id cpg cpg :=
  ⟨.rfl, .rfl⟩

/-- Isomorphisms compose. -/
theorem trans {further : NodeId → NodeId} (first : Iso view rename left middle)
    (second : Iso view further middle right)
    : Iso view (fun id => further (rename id)) left right := by
  constructor
  · have step := first.nodes.map fun pair => (further pair.1, pair.2)
    simp only [List.map_map] at step
    exact step.trans second.nodes
  · have step := first.edges.map fun triple => (triple.1, further triple.2.1, further triple.2.2)
    simp only [List.map_map] at step
    exact step.trans second.edges

/-- The view may be coarsened. -/
theorem coarsen {β : Type} (iso : Iso view rename left right) (coarser : α → β)
    : Iso (fun node => coarser (view node)) rename left right := by
  refine ⟨?_, iso.edges⟩
  have step := iso.nodes.map fun pair => (pair.1, coarser pair.2)
  simpa only [List.map_map, Function.comp_def] using step

/-- Two renamings that agree on the nodes are the same isomorphism. -/
theorem congr {other : NodeId → NodeId} (iso : Iso view rename left right)
    (ends : ∀ edge ∈ left.edges, edge.src ∈ left.nodeIds ∧ edge.dst ∈ left.nodeIds)
    (same : ∀ id ∈ left.nodeIds, other id = rename id)
    : Iso view other left right := by
  constructor
  · refine List.Perm.trans (List.Perm.of_eq (List.map_congr_left ?_)) iso.nodes
    intro node member
    rw [same _ (List.mem_map_of_mem member)]
  · refine List.Perm.trans (List.Perm.of_eq (List.map_congr_left ?_)) iso.edges
    intro edge member
    obtain ⟨srcMember, dstMember⟩ := ends edge member
    simp only [CPGEdge.triple, same _ srcMember, same _ dstMember]

/-- Edges selected by their endpoints correspond. -/
theorem edges_filter {γ : Type} (iso : Iso view rename left right)
    (chosen image : NodeId → NodeId → Bool) (out : Text → NodeId → NodeId → γ)
    (same : ∀ edge ∈ left.edges,
      image (rename edge.src) (rename edge.dst) = chosen edge.src edge.dst)
    : ((right.edges.filter fun edge => image edge.src edge.dst).map fun edge =>
          out edge.kind edge.src edge.dst).Perm
        ((left.edges.filter fun edge => chosen edge.src edge.dst).map fun edge =>
          out edge.kind (rename edge.src) (rename edge.dst)) := by
  have selected := (iso.edges.symm.filter fun triple => image triple.2.1 triple.2.2).map
    fun triple => out triple.1 triple.2.1 triple.2.2
  rw [List.filter_map, List.filter_map, List.map_map, List.map_map] at selected
  have leftFilter : left.edges.filter ((fun triple => image triple.2.1 triple.2.2)
        ∘ fun edge => edge.triple rename)
      = left.edges.filter fun edge => chosen edge.src edge.dst :=
    List.filter_congr same
  rw [leftFilter] at selected
  exact selected

/-- Every isomorphism between graphs with distinct ids can be undone.
Witness: the inverse function on the image; both lists are renamed back.
-/
theorem symm (iso : Iso view rename left right)
    (ends : ∀ edge ∈ left.edges, edge.src ∈ left.nodeIds ∧ edge.dst ∈ left.nodeIds)
    (distinct : right.nodeIds.Nodup)
    : ∃ back,
        Iso view back right left ∧ ∀ id ∈ left.nodeIds, back (rename id) = id := by
  obtain ⟨back, undo⟩ : ∃ back, ∀ id ∈ left.nodeIds, back (rename id) = id :=
    ⟨Function.invFunOn rename {id | id ∈ left.nodeIds},
      fun id member => (iso.injOn distinct).leftInvOn_invFunOn member⟩
  refine ⟨back, ⟨?_, ?_⟩, undo⟩
  · have step := iso.nodes.symm.map fun pair => (back pair.1, pair.2)
    simp only [List.map_map] at step
    refine step.trans (List.Perm.of_eq (List.map_congr_left ?_))
    intro node member
    simp only [Function.comp, undo _ (List.mem_map_of_mem member)]
  · have step := iso.edges.symm.map fun triple =>
      (triple.1, back triple.2.1, back triple.2.2)
    simp only [List.map_map] at step
    refine step.trans (List.Perm.of_eq (List.map_congr_left ?_))
    intro edge member
    obtain ⟨srcMember, dstMember⟩ := ends edge member
    simp only [Function.comp, CPGEdge.triple, undo _ srcMember, undo _ dstMember, id]

end CPG.Iso

theorem CPG.WellFormed.ends {cpg : CPG} (formed : cpg.WellFormed)
    : ∀ edge ∈ cpg.edges, edge.src ∈ cpg.nodeIds ∧ edge.dst ∈ cpg.nodeIds :=
  fun edge member => ⟨(formed.edges edge member).src, (formed.edges edge member).dst⟩

end Scanipy.Analysis

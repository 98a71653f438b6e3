import Scanipy.Analysis.Ordering.Symmetry
import Scanipy.Library.SearchTree

/-! The individualisation-refinement tree of a graph, with and without pruning.
A state of the tree is the list of nodes individualised so far. Isomorphic graphs have
matching trees, and pruning by swaps keeps every certificate.
-/

namespace Scanipy.Analysis

open Library Python

/-- The nodes of one colour. -/
def CPG.cell (cpg : CPG) (color : Coloring) (value : Nat) : List NodeId :=
  cpg.nodeIds.filter fun id => color id = value

/-- Size and colour of the cell that is split next, if some cell has several nodes. -/
def CPG.target (cpg : CPG) (color : Coloring) : Option (Nat ×ₗ Nat) :=
  (ambiguous (cpg.coloring color)).min?

/-- The nodes by colour. -/
def CPG.orderBy (cpg : CPG) (color : Coloring) : List NodeId :=
  sortedBy color cpg.nodeIds

/-- One state of the tree in which `choose` selects, of the target cell, the nodes that are
individualised next.
-/
def CPG.expandWith (cpg : CPG) (choose : List NodeId → List NodeId) (picked : List NodeId)
    : Expansion (List NodeId) Candidate :=
  match cpg.target (cpg.colorOf picked) with
  | none =>
      let order := cpg.orderBy (cpg.colorOf picked)
      .leaf (toLex (encodedGraph cpg order, order))
  | some target =>
      .branch ((choose (sorted (cpg.cell (cpg.colorOf picked) (ofLex target).2))).map
        fun node => picked ++ [node])

/-- Every node of the target cell is individualised. -/
def CPG.fullTree (cpg : CPG) : List NodeId → Expansion (List NodeId) Candidate :=
  cpg.expandWith id

/-- One representative of each swap class of the target cell is individualised. -/
def CPG.prunedTree (cpg : CPG) : List NodeId → Expansion (List NodeId) Candidate :=
  cpg.expandWith cpg.keptOf

variable {cpg : CPG} {color : Coloring} {id : NodeId}

theorem mem_cell {value : Nat}
    : id ∈ cpg.cell color value ↔ id ∈ cpg.nodeIds ∧ color id = value := by
  simp [CPG.cell]

theorem cells_getD (cpg : CPG) (color : Coloring) (value : Nat)
    : (cells (cpg.coloring color)).getD value [] = cpg.cell color value := by
  rw [cells, Dict.getD_foldl_appendTo, CPG.coloring, List.filter_map, List.map_map]
  simp [Dict.getD, Dict.get?, CPG.cell, Function.comp_def]

/-- The ambiguous entries are the sizes of the cells with several nodes. -/
theorem mem_ambiguous {entry : Nat ×ₗ Nat}
    : entry ∈ ambiguous (cpg.coloring color)
      ↔ (ofLex entry).1 = (cpg.cell color (ofLex entry).2).length ∧ 1 < (ofLex entry).1 := by
  have distinct : (cells (cpg.coloring color)).keys.Nodup :=
    Dict.nodup_keys_foldl_appendTo _ _ _ List.nodup_nil
  simp only [ambiguous, List.mem_map, List.mem_filter, decide_eq_true_eq]
  constructor
  · rintro ⟨⟨value, nodes⟩, ⟨member, several⟩, rfl⟩
    have stored := Dict.get?_of_mem distinct member
    have content := cells_getD cpg color value
    rw [Dict.getD, stored, Option.getD_some] at content
    exact ⟨congrArg List.length content, several⟩
  · rintro ⟨size, several⟩
    have content := cells_getD cpg color (ofLex entry).2
    cases stored : (cells (cpg.coloring color)).get? (ofLex entry).2 with
    | none =>
        rw [Dict.getD, stored, Option.getD_none] at content
        rw [size, ← content] at several
        exact absurd several (by decide)
    | some nodes =>
        rw [Dict.getD, stored, Option.getD_some] at content
        refine ⟨((ofLex entry).2, nodes), ⟨Dict.mem_of_get? stored, ?_⟩, ?_⟩
        · rw [content, ← size]
          exact several
        · rw [content, ← size]
          rfl

theorem target_eq_none_iff
    : cpg.target color = none ↔ ∀ value, (cpg.cell color value).length ≤ 1 := by
  rw [CPG.target, List.min?_eq_none_iff, List.eq_nil_iff_forall_not_mem]
  simp only [mem_ambiguous, not_and, not_lt]
  constructor
  · intro small value
    exact small (toLex ((cpg.cell color value).length, value)) rfl
  · intro small entry size
    rw [size]
    exact small _

theorem injOn_of_target_eq_none (leaf : cpg.target color = none)
    : Set.InjOn color {id | id ∈ cpg.nodeIds} := by
  intro first firstMember second secondMember same
  have small := target_eq_none_iff.mp leaf (color second)
  have firstIn : first ∈ cpg.cell color (color second) := mem_cell.mpr ⟨firstMember, same⟩
  have secondIn : second ∈ cpg.cell color (color second) := mem_cell.mpr ⟨secondMember, rfl⟩
  match cell : cpg.cell color (color second), small with
  | [], _ => simp [cell] at firstIn
  | [only], _ =>
      rw [cell, List.mem_singleton] at firstIn secondIn
      rw [firstIn, secondIn]

theorem several_of_target {target : Nat ×ₗ Nat} (branch : cpg.target color = some target)
    : 1 < (cpg.cell color (ofLex target).2).length := by
  have listed := List.min?_mem branch
  obtain ⟨size, several⟩ := mem_ambiguous.mp listed
  rwa [← size]

/-- A list of nodes that may have been individualised one after the other. -/
structure CPG.Individualised (cpg : CPG) (picked : List NodeId) : Prop where
  distinct : picked.Nodup
  known : picked ⊆ cpg.nodeIds

/-- How many nodes are not individualised yet. -/
def CPG.height (cpg : CPG) (picked : List NodeId) : Nat :=
  cpg.nodes.length - picked.length

section States

variable {cpg : CPG} {picked : List NodeId} {target : Nat ×ₗ Nat}

theorem individualised_nil (cpg : CPG) : cpg.Individualised [] :=
  ⟨List.nodup_nil, List.nil_subset _⟩

theorem CPG.Individualised.length_le (valid : cpg.Individualised picked)
    : picked.length ≤ cpg.nodes.length := by
  have shorter := (List.subperm_of_subset valid.distinct valid.known).length_le
  rwa [CPG.length_nodeIds] at shorter

theorem CPG.Individualised.short (ready : cpg.Ready) (valid : cpg.Individualised picked)
    : picked.length < 2 ^ 64 :=
  lt_of_le_of_lt valid.length_le ready.nodes

/-- A cell with several nodes has no individualised node.
Witness: its marker is its own, so its stable colour is too.
-/
theorem fresh_of_target (ready : cpg.Ready) (valid : cpg.Individualised picked)
    (branch : cpg.target (cpg.colorOf picked) = some target)
    (member : id ∈ cpg.cell (cpg.colorOf picked) (ofLex target).2)
    : id ∉ picked := by
  intro listed
  have several := several_of_target branch
  have alone : ∀ other ∈ cpg.cell (cpg.colorOf picked) (ofLex target).2, other = id := by
    intro other otherMember
    obtain ⟨idKnown, idColor⟩ := mem_cell.mp member
    obtain ⟨otherKnown, otherColor⟩ := mem_cell.mp otherMember
    have markers := (CPG.colorOf_splits ready (valid.short ready) idKnown otherKnown
      (idColor.trans otherColor.symm)).2
    exact (eq_of_markerOf_eq listed markers).symm
  have distinct : (cpg.cell (cpg.colorOf picked) (ofLex target).2).Nodup :=
    ready.wellFormed.distinct.filter _
  rw [List.eq_replicate_of_mem alone] at distinct
  have small := List.nodup_replicate.mp distinct
  omega

theorem individualised_append (ready : cpg.Ready) (valid : cpg.Individualised picked)
    (branch : cpg.target (cpg.colorOf picked) = some target)
    (member : id ∈ cpg.cell (cpg.colorOf picked) (ofLex target).2)
    : cpg.Individualised (picked ++ [id]) ∧ cpg.height (picked ++ [id]) < cpg.height picked := by
  have fresh := fresh_of_target ready valid branch member
  have child : cpg.Individualised (picked ++ [id]) := by
    constructor
    · rw [← List.concat_eq_append]
      exact valid.distinct.concat fresh
    · exact List.append_subset.mpr
        ⟨valid.known, List.cons_subset.mpr ⟨(mem_cell.mp member).1, List.nil_subset _⟩⟩
  refine ⟨child, ?_⟩
  have bound := child.length_le
  rw [List.length_append, List.length_singleton] at bound
  unfold CPG.height
  rw [List.length_append, List.length_singleton]
  omega

variable {choose : List NodeId → List NodeId}

/-- The children of a branching state are its extensions by chosen nodes of the target. -/
theorem expandWith_eq_branch {children : List (List NodeId)}
    (branch : cpg.expandWith choose picked = .branch children)
    : ∃ target,
        cpg.target (cpg.colorOf picked) = some target
        ∧ children
          = (choose (sorted (cpg.cell (cpg.colorOf picked) (ofLex target).2))).map
              fun node => picked ++ [node] := by
  unfold CPG.expandWith at branch
  split at branch
  · cases branch
  next target found =>
    cases branch
    exact ⟨target, found, rfl⟩

/-- Choosing nodes of the target cell only makes a finite tree. -/
theorem expandWith_descending (ready : cpg.Ready) (within : ∀ nodes, choose nodes ⊆ nodes)
    : SearchTree.Descending (cpg.expandWith choose) cpg.Individualised cpg.height := by
  intro state children valid branch child member
  obtain ⟨target, found, rfl⟩ := expandWith_eq_branch branch
  obtain ⟨node, chosen, rfl⟩ := List.mem_map.mp member
  exact individualised_append ready valid found (mem_sorted.mp (within _ chosen))

end States

theorem CPG.keptOf_subset (cpg : CPG) (nodes : List NodeId) : cpg.keptOf nodes ⊆ nodes := by
  intro node member
  rcases mem_greedy member with kept | listed
  · exact absurd kept List.not_mem_nil
  · exact listed

theorem prunedTree_descending (ready : cpg.Ready)
    : SearchTree.Descending cpg.prunedTree cpg.Individualised cpg.height :=
  expandWith_descending ready cpg.keptOf_subset

theorem fullTree_descending (ready : cpg.Ready)
    : SearchTree.Descending cpg.fullTree cpg.Individualised cpg.height :=
  expandWith_descending ready fun nodes => List.Subset.refl nodes

end Scanipy.Analysis

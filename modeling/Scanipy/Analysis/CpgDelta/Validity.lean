import Scanipy.Analysis.CpgDelta.Rebuild
import Scanipy.Analysis.Ordering.Validity

/-! When the ids of an incremental build are distinct and its edges join its nodes. -/

namespace Scanipy.Analysis.CpgDelta

open Analysis Library Python

/-- The ids are distinct, and every edge joins two of them. -/
structure Closed (cpg : CPG) : Prop where
  distinct : cpg.nodeIds.Nodup
  edges : ∀ edge ∈ cpg.edges, edge.src ∈ cpg.nodeIds ∧ edge.dst ∈ cpg.nodeIds

/-- The build adds no attributes, by induction on the declarations. -/
theorem plain_built {parent new : CPG} {affected : PySet Text} {reparser : DeclReparser}
    {delta : GraphDelta} {calls : List Reparse}
    (built : buildPreservingNewCpg parent affected reparser = .ok (new, delta, calls))
    : new.extraFields = [] ∧ new.modelVersion = none := by
  obtain ⟨after, ran, same⟩ := bind_ok.mp built
  cases same
  have same : after.newCpg.extraFields = [] ∧ after.newCpg.modelVersion = none := by
    refine foldlM_ok_induction (motive := fun _ before after =>
      before.newCpg.extraFields = [] ∧ before.newCpg.modelVersion = none
        → after.newCpg.extraFields = [] ∧ after.newCpg.modelVersion = none)
      (fun _ plain => plain) (fun stepped later plain => ?_) ran ⟨rfl, rfl⟩
    obtain ⟨sub, _, _, rfl⟩ := reparseDecl_ok.mp stepped
    exact later plain
  exact same

/-- A build is closed exactly when the answers of the reparser repeat no id and their edges join
preserved nodes or nodes of the answers; and then validation has only the records themselves left
to check.
Witness: the ids of an answer are compared with the preserved ids alone, and its edges with nothing.
-/
theorem built_closed_iff (parent : CPG) (distinct : parent.nodeIds.Nodup) (affected : PySet Text)
    (reparser : DeclReparser) (new : CPG) (delta : GraphDelta) (calls : List Reparse)
    (built : buildPreservingNewCpg parent affected reparser = .ok (new, delta, calls))
    : (Closed new
        ↔ ((reparsedNodes calls).map CPGNode.nodeId).Nodup
          ∧ ∀ edge ∈ reparsedEdges calls, ∀ id ∈ [edge.src, edge.dst],
            id ∈ (preservedNodes parent affected).map CPGNode.nodeId
            ∨ id ∈ (reparsedNodes calls).map CPGNode.nodeId)
      ∧ ((validateCpg (pure ()) new : Except AnalysisError Unit) = .ok ()
        ↔ Closed new ∧ (∀ node ∈ new.nodes, node.WellFormed)
          ∧ ∀ edge ∈ new.edges, edge.WellFormed [edge.src, edge.dst]) := by
  obtain ⟨_, _, apart, nodes, edges, _⟩ := exists_built built
  have ids : new.nodeIds = (preservedNodes parent affected).map CPGNode.nodeId
      ++ (reparsedNodes calls).map CPGNode.nodeId := by
    rw [CPG.nodeIds, nodes, List.map_append]
  have kept : ((preservedNodes parent affected).map CPGNode.nodeId).Nodup :=
    distinct.sublist (List.filter_sublist.map _)
  have foreign : ∀ id ∈ (preservedNodes parent affected).map CPGNode.nodeId,
      id ∉ (reparsedNodes calls).map CPGNode.nodeId := by
    intro id preserved minted
    obtain ⟨node, listed, rfl⟩ := List.mem_map.mp minted
    exact apart node listed preserved
  constructor
  · constructor
    · intro closed
      have split := closed.distinct
      rw [ids] at split
      refine ⟨split.of_append_right, fun edge listed id named => ?_⟩
      have ends := closed.edges edge (edges ▸ List.mem_append_right _ listed)
      rw [ids, List.mem_append, List.mem_append] at ends
      rcases List.mem_pair.mp named with rfl | rfl
      · exact ends.1
      · exact ends.2
    · rintro ⟨fresh, joined⟩
      refine ⟨?_, fun edge listed => ?_⟩
      · rw [ids]
        exact kept.append fresh foreign
      · rw [ids, List.mem_append, List.mem_append]
        rw [edges] at listed
        rcases List.mem_append.mp listed with old | answered
        · have inside := of_decide_eq_true (List.mem_filter.mp old).2
          exact ⟨.inl inside.1, .inl inside.2⟩
        · exact ⟨joined edge answered _ (by simp), joined edge answered _ (by simp)⟩
  · rw [validateCpg_ok_iff]
    constructor
    · intro formed
      refine ⟨⟨formed.distinct, fun edge listed => ?_⟩, formed.nodes, fun edge listed => ?_⟩
      · exact ⟨(formed.edges edge listed).src, (formed.edges edge listed).dst⟩
      · have record := formed.edges edge listed
        exact ⟨record.noExtraFields, by simp, by simp, record.kindNonempty, record.kind⟩
    · rintro ⟨closed, records, joins⟩
      obtain ⟨plain, version⟩ := plain_built built
      refine ⟨plain, by rw [version]; rfl, records, closed.distinct, fun edge listed => ?_⟩
      have record := joins edge listed
      exact ⟨record.noExtraFields, (closed.edges edge listed).1, (closed.edges edge listed).2,
        record.kindNonempty, record.kind⟩

theorem built_closed_iff_added
    : ∃ new delta calls,
        buildPreservingNewCpg {} [py "a"] callReparser = .ok (new, delta, calls) ∧ Closed new := by
  obtain ⟨new, delta, calls, built, answers⟩ : ∃ new delta calls,
      buildPreservingNewCpg {} [py "a"] callReparser = .ok (new, delta, calls)
      ∧ calls = [⟨py "a", 0, ⟨[{ nodeId := 0, kind := py "CALL", enclosingDeclFqn := py "a" }], []⟩⟩] :=
    ⟨_, _, _, rfl, rfl⟩
  refine ⟨new, delta, calls, built,
    (built_closed_iff {} List.nodup_nil [py "a"] callReparser new delta calls built).1.mpr ?_⟩
  rw [answers]
  decide

/-- A reparser that answers id 7 for every declaration. -/
def sevenReparser : DeclReparser := fun _ decl _ =>
  .ok { nodes := [{ nodeId := 7, kind := py "CALL", enclosingDeclFqn := decl }], edges := [] }

/-- Two declarations may get the same id. -/
theorem repeated_id_accepted
    : ¬∀ (parent : CPG) (affected : PySet Text) (reparser : DeclReparser) (new : CPG)
        (delta : GraphDelta) (calls : List Reparse),
        parent.nodeIds.Nodup
        → buildPreservingNewCpg parent affected reparser = .ok (new, delta, calls)
        → Closed new := by
  intro claimed
  obtain ⟨new, delta, calls, built, repeated⟩ : ∃ new delta calls,
      buildPreservingNewCpg {} [py "a", py "b"] sevenReparser = .ok (new, delta, calls)
      ∧ new.nodeIds = [7, 7] :=
    ⟨_, _, _, rfl, rfl⟩
  have distinct := (claimed {} _ _ new delta calls List.nodup_nil built).distinct
  rw [repeated] at distinct
  exact absurd distinct (by decide)

end Scanipy.Analysis.CpgDelta

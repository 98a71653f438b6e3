import Scanipy.Analysis.Fingerprint.Slice
import Scanipy.Analysis.Ordering.Isomorphism

/-! The slice's nodes are the witness and everything from which its last node is reached. -/

namespace Scanipy.Analysis

open Library Python

/-- Sources of the dataflow edges into a node. -/
def CPG.flowsInto (cpg : CPG) (id : NodeId) : List NodeId :=
  (cpg.edges.filter fun edge => edge.kind ∈ dataflowKinds ∧ edge.dst = id).map CPGEdge.src

/-- A dataflow path leads from the first node to the second. -/
def CPG.Reaches (cpg : CPG) : NodeId → NodeId → Prop :=
  Relation.ReflTransGen fun src dst => src ∈ cpg.flowsInto dst

/-- The nodes of the backward slice of a witness that ends in `sink`. -/
def CPG.OnSlice (cpg : CPG) (witness : List NodeId) (sink id : NodeId) : Prop :=
  id ∈ witness ∨ cpg.Reaches id sink

/-- The reverse adjacency lists every dataflow edge under its target, by list induction. -/
theorem dataflowPreds_getD {cpg : CPG} (formed : cpg.WellFormed) (id : NodeId)
    : (dataflowPreds cpg).getD id [] = cpg.flowsInto id := by
  have grouped (edges : List CPGEdge) (entries : Dict NodeId (List NodeId))
      (stored : ∀ edge ∈ edges, edge.dst ∈ entries.keys)
      : Dict.getD (edges.foldl
            (fun preds edge =>
              if edge.kind ∈ dataflowKinds ∧ edge.dst ∈ preds.keys then
                preds.appendTo edge.dst edge.src
              else
                preds)
            entries) id []
        = entries.getD id []
          ++ (edges.filter fun edge => edge.kind ∈ dataflowKinds ∧ edge.dst = id).map
            CPGEdge.src := by
    induction edges generalizing entries with
    | nil => simp
    | cons edge rest ih =>
        have known := stored edge List.mem_cons_self
        have restStored (other : CPGEdge) (member : other ∈ rest) :=
          stored other (List.mem_cons_of_mem _ member)
        by_cases flows : edge.kind ∈ dataflowKinds
        · have keys : (entries.appendTo edge.dst edge.src).keys = entries.keys := by
            rw [Dict.appendTo, Dict.keys_set, if_pos known]
          rw [List.foldl_cons, if_pos ⟨flows, known⟩, ih _ (by rwa [keys]), Dict.appendTo,
            Dict.getD_set]
          by_cases hit : edge.dst = id <;> simp [hit, flows]
        · rw [List.foldl_cons, if_neg fun both => flows both.1, ih _ restStored]
          simp [flows]
  have distinct : ((cpg.nodes.map fun node => (node.nodeId, ([] : List NodeId))).map
      Prod.fst).Nodup := by
    rw [List.map_map]
    exact formed.distinct
  have initial : Dict.ofPairs (cpg.nodes.map fun node => (node.nodeId, ([] : List NodeId)))
      = cpg.nodeIds.map fun id => (id, []) := by
    rw [Dict.ofPairs_eq_self distinct, CPG.nodeIds, List.map_map]
    rfl
  have empty : Dict.getD (cpg.nodeIds.map fun id => (id, ([] : List NodeId))) id [] = [] := by
    rw [Dict.getD, Dict.get?_map fun _ => []]
    split <;> rfl
  have keys : Dict.keys (cpg.nodeIds.map fun id => (id, ([] : List NodeId))) = cpg.nodeIds := by
    rw [Dict.keys, List.map_map]
    exact List.map_id _
  unfold dataflowPreds CPG.flowsInto
  rw [initial, grouped _ _ (by
    rw [keys]
    exact fun edge member => (formed.edges edge member).dst), empty, List.nil_append]

theorem flowsInto_known {cpg : CPG} (formed : cpg.WellFormed) {src dst : NodeId}
    (flows : src ∈ cpg.flowsInto dst)
    : src ∈ cpg.nodeIds ∧ dst ∈ cpg.nodeIds := by
  obtain ⟨edge, listed, rfl⟩ := List.mem_map.mp flows
  obtain ⟨member, _, rfl⟩ : edge ∈ cpg.edges ∧ edge.kind ∈ dataflowKinds ∧ edge.dst = dst := by
    simpa using listed
  exact formed.ends edge member

/-- What the loop keeps true: `onSlice` holds the seeds and the sources of all edges into
traversed nodes, and those sources are traversed or waiting.
-/
structure ConeInvariant (cpg : CPG) (seeds : List NodeId) (sink : NodeId)
    (stack traversed onSlice : List NodeId) : Prop where
  reached : ∀ id, id ∈ stack ∨ id ∈ traversed → cpg.Reaches id sink
  started : sink ∈ traversed ∨ sink ∈ stack
  closed : ∀ id ∈ traversed, ∀ pred ∈ cpg.flowsInto id, pred ∈ traversed ∨ pred ∈ stack
  members
    : ∀ id, id ∈ onSlice ↔ id ∈ seeds ∨ ∃ done ∈ traversed, id ∈ cpg.flowsInto done
  distinct : onSlice.Nodup

namespace ConeInvariant

variable {cpg : CPG} {seeds stack traversed onSlice : List NodeId} {sink cur : NodeId}

theorem skip (invariant : ConeInvariant cpg seeds sink (cur :: stack) traversed onSlice)
    (done : cur ∈ traversed)
    : ConeInvariant cpg seeds sink stack traversed onSlice where
  reached id listed := invariant.reached id (listed.imp_left (List.mem_cons_of_mem _))
  started := by
    rcases invariant.started with before | waiting
    · exact .inl before
    · rcases List.mem_cons.mp waiting with rfl | later
      · exact .inl done
      · exact .inr later
  closed id idMember pred predMember := by
    rcases invariant.closed id idMember pred predMember with before | waiting
    · exact .inl before
    · rcases List.mem_cons.mp waiting with rfl | later
      · exact .inl done
      · exact .inr later
  members := invariant.members
  distinct := invariant.distinct

theorem visit (invariant : ConeInvariant cpg seeds sink (cur :: stack) traversed onSlice)
    : ConeInvariant cpg seeds sink
        (((cpg.flowsInto cur).filter fun pred => pred ∉ PySet.add traversed cur).reverse ++ stack)
        (PySet.add traversed cur) (PySet.update onSlice (cpg.flowsInto cur)) := by
  have curReached := invariant.reached cur (.inl List.mem_cons_self)
  constructor
  · intro id listed
    simp only [List.mem_append, List.mem_reverse, List.mem_filter, PySet.mem_add] at listed
    rcases listed with (⟨flows, _⟩ | later) | (before | rfl)
    · exact .head flows curReached
    · exact invariant.reached id (.inl (List.mem_cons_of_mem _ later))
    · exact invariant.reached id (.inr before)
    · exact curReached
  · rcases invariant.started with before | waiting
    · exact .inl (PySet.mem_add.mpr (.inl before))
    · rcases List.mem_cons.mp waiting with rfl | later
      · exact .inl (PySet.mem_add.mpr (.inr rfl))
      · exact .inr (List.mem_append_right _ later)
  · intro id idMember pred predMember
    by_cases known : pred ∈ PySet.add traversed cur
    · exact .inl known
    · refine .inr ?_
      rcases PySet.mem_add.mp idMember with before | rfl
      · rcases invariant.closed id before pred predMember with old | waiting
        · exact absurd (PySet.mem_add.mpr (.inl old)) known
        · rcases List.mem_cons.mp waiting with rfl | later
          · exact absurd (PySet.mem_add.mpr (.inr rfl)) known
          · exact List.mem_append_right _ later
      · refine List.mem_append_left _ (List.mem_reverse.mpr ?_)
        exact List.mem_filter.mpr ⟨predMember, by simpa using known⟩
  · intro id
    simp only [PySet.mem_update, invariant.members, PySet.mem_add]
    constructor
    · rintro ((seed | ⟨done, before, flows⟩) | flows)
      · exact .inl seed
      · exact .inr ⟨done, .inl before, flows⟩
      · exact .inr ⟨cur, .inr rfl, flows⟩
    · rintro (seed | ⟨done, before | rfl, flows⟩)
      · exact .inl (.inl seed)
      · exact .inl (.inr ⟨done, before, flows⟩)
      · exact .inr flows
  · exact PySet.nodup_update invariant.distinct _

/-- With nothing waiting, exactly the nodes that reach the sink were traversed. -/
theorem finish (invariant : ConeInvariant cpg seeds sink [] traversed onSlice)
    (sinkSeed : sink ∈ seeds) (id : NodeId)
    : id ∈ onSlice ↔ cpg.OnSlice seeds sink id := by
  have all {start : NodeId} (reaches : cpg.Reaches start sink) : start ∈ traversed := by
    induction reaches using Relation.ReflTransGen.head_induction_on with
    | refl => exact invariant.started.resolve_right List.not_mem_nil
    | head flows _ ih => exact (invariant.closed _ ih _ flows).resolve_right List.not_mem_nil
  rw [invariant.members, CPG.OnSlice]
  constructor
  · rintro (seed | ⟨done, before, flows⟩)
    · exact .inl seed
    · exact .inr (.head flows (invariant.reached done (.inr before)))
  · rintro (seed | reaches)
    · exact .inl seed
    · rcases Relation.ReflTransGen.cases_head reaches with rfl | ⟨next, flows, rest⟩
      · exact .inl sinkSeed
      · exact .inr ⟨next, all rest, flows⟩

end ConeInvariant

/-- The loop ends within its bound and keeps its invariant.
Witness: every round pops a node; a new one leaves the untraversed nodes and pushes at most
one node for each edge.
-/
theorem coneLoop_ok {cpg : CPG} (formed : cpg.WellFormed) {seeds : List NodeId} {sink : NodeId}
    (fuel : Nat) (stack traversed onSlice : List NodeId)
    (invariant : ConeInvariant cpg seeds sink stack traversed onSlice)
    (known : ∀ id ∈ stack, id ∈ cpg.nodeIds)
    (enough : (cpg.nodeIds.filter fun id => id ∉ traversed).length * (cpg.edges.length + 1)
      + stack.length ≤ fuel)
    : ∃ result done,
        coneLoop (dataflowPreds cpg) fuel stack traversed onSlice = .ok result
        ∧ ConeInvariant cpg seeds sink [] done result := by
  induction fuel generalizing stack traversed onSlice with
  | zero =>
      have empty : stack = [] := List.eq_nil_of_length_eq_zero (by omega)
      subst empty
      exact ⟨onSlice, traversed, rfl, invariant⟩
  | succ fuel ih =>
      cases stack with
      | nil => exact ⟨onSlice, traversed, rfl, invariant⟩
      | cons cur stack =>
          have restKnown (id : NodeId) (member : id ∈ stack) :=
            known id (List.mem_cons_of_mem _ member)
          rw [List.length_cons] at enough
          unfold coneLoop
          by_cases done : cur ∈ traversed
          · rw [if_pos done]
            exact ih stack traversed onSlice (invariant.skip done) restKnown (by omega)
          · rw [if_neg done, dataflowPreds_getD formed]
            refine ih _ _ _ invariant.visit ?_ ?_
            · intro id member
              rcases List.mem_append.mp member with new | later
              · have flows := List.mem_of_mem_filter (List.mem_reverse.mp new)
                exact (flowsInto_known formed flows).1
              · exact restKnown id later
            · have pushed : ((cpg.flowsInto cur).filter fun pred =>
                  pred ∉ PySet.add traversed cur).length ≤ cpg.edges.length := by
                refine (List.length_filter_le _ _).trans ?_
                rw [CPG.flowsInto, List.length_map]
                exact List.length_filter_le _ _
              have fewer : (cpg.nodeIds.filter fun id => id ∉ PySet.add traversed cur).length + 1
                  ≤ (cpg.nodeIds.filter fun id => id ∉ traversed).length := by
                have waiting : cur ∈ cpg.nodeIds.filter fun id => id ∉ traversed := by
                  simp [known cur List.mem_cons_self, done]
                have removed : cpg.nodeIds.filter (fun id => id ∉ PySet.add traversed cur)
                    = (cpg.nodeIds.filter fun id => id ∉ traversed).filter fun id => id ≠ cur := by
                  rw [List.filter_filter]
                  refine List.filter_congr fun id _ => ?_
                  simp [not_or, and_comm]
                rw [removed]
                exact List.length_filter_lt_length_iff_exists.mpr ⟨cur, waiting, by simp⟩
              have product := Nat.mul_le_mul_right (cpg.edges.length + 1) fewer
              rw [Nat.add_mul, Nat.one_mul] at product
              rw [List.length_append, List.length_reverse]
              omega

end Scanipy.Analysis

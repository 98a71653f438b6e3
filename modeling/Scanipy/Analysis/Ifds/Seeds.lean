import Scanipy.Analysis.Fingerprint.Extract
import Scanipy.Analysis.Ifds.Solver

/-! The facts that `_seed_sources` interns: one for each match of a source clause, numbered by
ascending node id and then in clause order.
-/

namespace Scanipy.Analysis.Ifds

open Library Python

/-- The matches of source clauses at a node, in clause order. -/
def Spec.matchesAt (spec : Spec) (node : CPGNode) : List (NodeId × AccessPathPattern) :=
  (spec.sources.filter fun pattern => PatternMatches pattern node).map fun pattern =>
    (node.nodeId, pattern)

/-- All matches of source clauses, by ascending id: the position of a match is its fact. -/
def sourceMatches (cpg : CPG) (spec : Spec) : List (NodeId × AccessPathPattern) :=
  (sortedBy CPGNode.nodeId cpg.nodes).flatMap spec.matchesAt

/-- The fact is interned for a source clause that the node matches. -/
def Introduces (cpg : CPG) (spec : Spec) (id : NodeId) (fact : Fact) : Prop :=
  ∃ pattern, (sourceMatches cpg spec)[fact]? = some (id, pattern)

variable {cpg : CPG} {spec : Spec} {id : NodeId}

theorem mem_sourceMatches {pattern : AccessPathPattern}
    : (id, pattern) ∈ sourceMatches cpg spec
      ↔ ∃ node ∈ cpg.nodes,
          node.nodeId = id ∧ pattern ∈ spec.sources ∧ PatternMatches pattern node := by
  simp only [sourceMatches, Spec.matchesAt, List.mem_flatMap, mem_sortedBy, List.mem_map,
    List.mem_filter, decide_eq_true_eq, Prod.mk.injEq]
  constructor
  · rintro ⟨node, member, _, ⟨listed, hit⟩, rfl, rfl⟩
    exact ⟨node, member, rfl, listed, hit⟩
  · rintro ⟨node, member, rfl, listed, hit⟩
    exact ⟨node, member, pattern, ⟨listed, hit⟩, rfl, rfl⟩

variable {fact : Fact}

theorem Introduces.known (introduces : Introduces cpg spec id fact)
    : id ∈ cpg.nodeIds := by
  obtain ⟨pattern, stored⟩ := introduces
  obtain ⟨node, member, rfl, _⟩ := mem_sourceMatches.mp (List.mem_of_getElem? stored)
  exact List.mem_map_of_mem member

theorem Introduces.lt (introduces : Introduces cpg spec id fact)
    : fact < (sourceMatches cpg spec).length := by
  obtain ⟨pattern, stored⟩ := introduces
  exact (List.getElem?_eq_some_iff.mp stored).1

theorem Introduces.unique {other : NodeId} (introduces : Introduces cpg spec id fact)
    (again : Introduces cpg spec other fact)
    : id = other := by
  obtain ⟨pattern, stored⟩ := introduces
  obtain ⟨second, otherStored⟩ := again
  rw [stored] at otherStored
  exact congrArg Prod.fst (Option.some.inj otherStored)

/-- What the loops have interned after the listed matches. -/
structure Interned (listed : List (NodeId × AccessPathPattern)) (seeding : Seeding) : Prop where
  nextFact : seeding.nextFact = listed.length
  factPattern : ∀ fact, seeding.factPattern.get? fact = listed[fact]?.map Prod.snd
  seeded : ∀ id fact,
    fact ∈ seeding.seeded.getD id [] ↔ ∃ pattern, listed[fact]? = some (id, pattern)
  distinct : seeding.seeded.keys.Nodup

theorem interned_nil : Interned [] {} :=
  ⟨rfl, fun _ => rfl, by simp [Dict.getD, Dict.get?], List.nodup_nil⟩

variable {listed : List (NodeId × AccessPathPattern)} {seeding : Seeding}

/-- One more match is interned under the next fact. -/
theorem Interned.intern (before : Interned listed seeding) (id : NodeId)
    (pattern : AccessPathPattern)
    : Interned (listed ++ [(id, pattern)]) {
        seeded := seeding.seeded.set id
          (PySet.add (seeding.seeded.getD id []) seeding.nextFact)
        factPattern := seeding.factPattern.set seeding.nextFact pattern
        nextFact := seeding.nextFact + 1
      } := by
  have last : (listed ++ [(id, pattern)])[listed.length]? = some (id, pattern) := by simp
  have other {fact : Fact} (apart : fact ≠ listed.length)
      : (listed ++ [(id, pattern)])[fact]? = listed[fact]? := by
    rcases Nat.lt_or_gt_of_ne apart with earlier | later
    · exact List.getElem?_append_left earlier
    · rw [List.getElem?_eq_none (by simp; omega), List.getElem?_eq_none (by omega)]
  refine ⟨?_, fun fact => ?_, fun node fact => ?_, Dict.nodup_keys_set before.distinct _ _⟩
  · simp [before.nextFact]
  · rw [before.nextFact, Dict.get?_set]
    by_cases new : listed.length = fact
    · subst new
      simp
    · rw [if_neg new, before.factPattern, other (Ne.symm new)]
  · rw [before.nextFact, Dict.getD_set]
    by_cases new : fact = listed.length
    · subst new
      have absent (node : NodeId) : listed.length ∉ seeding.seeded.getD node [] := by
        simp [before.seeded]
      rw [last]
      by_cases same : id = node
      · simp [same]
      · simp [same, absent]
    · rw [other new, ← before.seeded]
      by_cases same : id = node
      · subst same
        simp [new]
      · simp [same]

theorem seedNode_interned (spec : Spec) (before : Interned listed seeding) (node : CPGNode)
    : Interned (listed ++ spec.matchesAt node) (seedNode node spec.sources seeding) := by
  unfold Spec.matchesAt
  induction spec.sources generalizing listed seeding with
  | nil => simpa [seedNode] using before
  | cons pattern rest ih =>
      by_cases hit : PatternMatches pattern node
      · have after := ih (before.intern node.nodeId pattern)
        simpa [seedNode, hit] using after
      · simpa [seedNode, hit] using ih before

/-- The node loop interns the matches of its nodes, by list induction. -/
theorem seedNodes_interned (formed : cpg.WellFormed) (spec : Spec) (nodes : List CPGNode)
    (members : nodes ⊆ cpg.nodes) (before : Interned listed seeding)
    : ∃ after,
        seedNodes cpg.byId spec.sources (nodes.map CPGNode.nodeId) seeding = .ok after
        ∧ Interned (listed ++ nodes.flatMap spec.matchesAt) after := by
  induction nodes generalizing listed seeding with
  | nil => exact ⟨seeding, rfl, by simpa using before⟩
  | cons node rest ih =>
      obtain ⟨member, restMembers⟩ := List.cons_subset.mp members
      obtain ⟨after, ran, interned⟩ := ih restMembers (seedNode_interned spec before node)
      refine ⟨after, ?_, by simpa [List.append_assoc] using interned⟩
      rw [List.map_cons, seedNodes, subscript, CPG.byId_get? formed.distinct member]
      exact ran

/-- `_seed_sources` interns every match of a source clause. -/
theorem seedSources_ok (formed : cpg.WellFormed) (spec : Spec)
    : ∃ seeding, seedSources cpg spec = .ok seeding ∧ Interned (sourceMatches cpg spec) seeding := by
  obtain ⟨seeding, ran, interned⟩ := seedNodes_interned formed spec
    (sortedBy CPGNode.nodeId cpg.nodes) (fun node => mem_sortedBy.mp) interned_nil
  refine ⟨seeding, ?_, interned⟩
  have ascending : sorted cpg.byId.keys = (sortedBy CPGNode.nodeId cpg.nodes).map CPGNode.nodeId := by
    have mapped := sortedBy_map id CPGNode.nodeId cpg.nodes
    rw [CPG.keys_byId formed.distinct]
    exact mapped
  rw [seedSources, ascending]
  exact ran

/-- The number of matches at smaller ids: the first fact of a node. -/
def firstFact (cpg : CPG) (spec : Spec) (id : NodeId) : Nat :=
  (sourceMatches cpg spec).countP fun interned => interned.1 < id

/-- The matches at a node stand together, after those at smaller ids. -/
theorem sourceMatches_split (distinct : cpg.nodeIds.Nodup) (spec : Spec) {node : CPGNode}
    (member : node ∈ cpg.nodes)
    : ∃ before after,
        sourceMatches cpg spec = before ++ spec.matchesAt node ++ after
        ∧ (∀ interned ∈ before, interned.1 < node.nodeId)
        ∧ ∀ interned ∈ after, node.nodeId < interned.1 := by
  have listed : node ∈ sortedBy CPGNode.nodeId cpg.nodes := mem_sortedBy.mpr member
  obtain ⟨front, back, split⟩ := List.append_of_mem listed
  have ascending : (front ++ node :: back).Pairwise fun left right => left.nodeId < right.nodeId := by
    have sortedIds := sortedBy_pairwise CPGNode.nodeId cpg.nodes
    have apart : ((sortedBy CPGNode.nodeId cpg.nodes).map CPGNode.nodeId).Nodup :=
      ((sortedBy_perm _ _).map _).nodup_iff.mpr distinct
    rw [split] at sortedIds apart
    exact sortedIds.imp₂ (fun _ _ below different => lt_of_le_of_ne below different)
      (List.pairwise_map.mp apart)
  obtain ⟨_, later, earlier⟩ := List.pairwise_append.mp ascending
  obtain ⟨behind, _⟩ := List.pairwise_cons.mp later
  have matched (nodes : List CPGNode) (interned : NodeId × AccessPathPattern)
      (among : interned ∈ nodes.flatMap spec.matchesAt)
      : ∃ other ∈ nodes, other.nodeId = interned.1 := by
    obtain ⟨other, otherMember, inside⟩ := List.mem_flatMap.mp among
    obtain ⟨_, _, rfl⟩ := List.mem_map.mp inside
    exact ⟨other, otherMember, rfl⟩
  refine ⟨front.flatMap spec.matchesAt, back.flatMap spec.matchesAt, ?_, fun interned among => ?_,
    fun interned among => ?_⟩
  · rw [sourceMatches, split, List.flatMap_append, List.flatMap_cons, List.append_assoc]
  · obtain ⟨other, otherMember, same⟩ := matched front interned among
    exact same ▸ earlier other otherMember node List.mem_cons_self
  · obtain ⟨other, otherMember, same⟩ := matched back interned among
    exact same ▸ behind other otherMember

/-- A node introduces as many facts as it has matches, from its first fact on. -/
theorem introduces_iff (distinct : cpg.nodeIds.Nodup) (spec : Spec) (known : id ∈ cpg.nodeIds)
    (fact : Nat)
    : Introduces cpg spec id fact
      ↔ firstFact cpg spec id ≤ fact
        ∧ fact < firstFact cpg spec id + (spec.matchesAt (cpg.nodeAt id)).length := by
  obtain ⟨node, member, rfl⟩ := List.mem_map.mp known
  obtain ⟨before, after, split, smaller, larger⟩ := sourceMatches_split distinct spec member
  have here (interned : NodeId × AccessPathPattern) (among : interned ∈ spec.matchesAt node)
      : interned.1 = node.nodeId := by
    obtain ⟨_, _, rfl⟩ := List.mem_map.mp among
    rfl
  have first : firstFact cpg spec node.nodeId = before.length := by
    rw [firstFact, split, List.countP_append, List.countP_append,
      List.countP_eq_length.mpr fun interned among => by simpa using smaller interned among,
      List.countP_eq_zero.mpr fun interned among => by simp [here interned among],
      List.countP_eq_zero.mpr fun interned among => by simpa using (larger interned among).le]
    rfl
  rw [CPG.nodeAt_of_mem distinct member, first, Introduces, split]
  constructor
  · rintro ⟨pattern, stored⟩
    have outside {others : List (NodeId × AccessPathPattern)} {position : Nat}
        (apart : ∀ interned ∈ others, interned.1 ≠ node.nodeId)
        : others[position]? ≠ some (node.nodeId, pattern) :=
      fun found => apart _ (List.mem_of_getElem? found) rfl
    constructor
    · by_contra early
      rw [List.append_assoc, List.getElem?_append_left (by omega)] at stored
      exact outside (fun interned among => (smaller interned among).ne) stored
    · by_contra late
      rw [List.getElem?_append_right (by simp; omega)] at stored
      exact outside (fun interned among => (larger interned among).ne') stored
  · rintro ⟨atLeast, below⟩
    have inside : fact - before.length < (spec.matchesAt node).length := by omega
    have stored : (before ++ spec.matchesAt node ++ after)[fact]?
        = (spec.matchesAt node)[fact - before.length]? := by
      rw [List.append_assoc, List.getElem?_append_right atLeast, List.getElem?_append_left inside]
    rw [stored, List.getElem?_eq_getElem inside]
    exact ⟨_, congrArg some (Prod.ext (here _ (List.getElem_mem inside)) rfl)⟩

end Scanipy.Analysis.Ifds

import Scanipy.Analysis.Ifds.Reachability

/-! Witnesses are genuine taint paths. -/

namespace Scanipy.Analysis.Ifds

open Library Python

/-- Along a chain of items the fact stays the same. -/
theorem sameFact_of_traced {found : List (Item × Option Item)} {item : Item} {path : List Item}
    (steps : ∀ child parent, (child, some parent) ∈ found → child.2 = parent.2)
    (traced : Traced found item path)
    : ∀ earlier ∈ path, earlier.2 = item.2 := by
  induction traced with
  | root _ =>
      intro earlier listed
      rw [List.mem_singleton.mp listed]
  | step listed _ ih =>
      intro earlier member
      rcases List.mem_append.mp member with inside | last
      · exact (ih earlier inside).trans (steps _ _ listed).symm
      · rw [List.mem_singleton.mp last]

/-- A path of taint from the node that introduced a fact to a sink. -/
structure TaintPath (cpg : CPG) (spec : Spec) (sink : NodeId) (fact : Fact) (path : List NodeId)
    : Prop where
  source
    : ∃ source seeding,
        path.head? = some source
        ∧ (∃ pattern ∈ spec.sources, PatternMatches pattern (cpg.nodeAt source))
        ∧ seedSources cpg spec = .ok seeding
        ∧ ∀ id, fact ∈ seeding.seeded.getD id [] ↔ id = source
  sink : path.getLast? = some sink
  joined
    : path.IsChain fun first second =>
        HasEdge cpg cfgEdge first second
        ∨ (HasEdge cpg callEdge first second ∧ MethodAt cpg second)
  distinct : path.Nodup
  unsanitized : ∀ id ∈ path.dropLast, sanitizedAt spec (cpg.nodeAt id) = false

/-- The chain of discoverers of an item is a taint path. -/
theorem Explored.taintPath {cpg : CPG} (formed : cpg.WellFormed) {spec : Spec}
    {order : List NodeId} {sg : ExplodedSupergraph} {seeds : List Item} {final : Frontier Item}
    (explored : Explored cpg spec none order sg seeds final) {item : Item} {path : List Item}
    (traced : Traced final.found item path)
    : TaintPath cpg spec item.1 item.2 (path.map Prod.fst) := by
  obtain ⟨sound, _⟩ := explored.tabulated.sound
  have steps : ∀ child parent, (child, some parent) ∈ final.found
      → child.2 = parent.2 ∧ TaintStep cpg spec parent.1 child.1 := by
    intro child parent listed
    have step := (mem_itemNext explored.describes).mp (sound.links child parent listed)
    rwa [flows_none] at step
  have facts := sameFact_of_traced (fun child parent listed => (steps child parent listed).1) traced
  have chain : path.IsChain fun first second => TaintStep cpg spec first.1 second.1 :=
    traced.isChain.imp fun first second listed => (steps second first listed).2
  constructor
  · obtain ⟨root, head, listed⟩ := traced.exists_head
    obtain ⟨introduces, _⟩ := (explored.tabulated.seeds root).mp (sound.roots root listed)
    rw [facts root (List.mem_of_head? head)] at introduces
    obtain ⟨seeding, seeded, interned⟩ := seedSources_ok formed spec
    refine ⟨root.1, seeding, by rw [List.head?_map, head, Option.map_some], ?_, seeded, fun id => ?_⟩
    · obtain ⟨pattern, stored⟩ := introduces
      obtain ⟨node, member, same, source, hit⟩ :=
        mem_sourceMatches.mp (List.mem_of_getElem? stored)
      rw [← same, CPG.nodeAt_of_mem formed.distinct member]
      exact ⟨pattern, source, hit⟩
    · rw [interned.seeded]
      constructor
      · exact fun again => Introduces.unique again introduces
      · rintro rfl
        exact introduces
  · rw [List.getLast?_map, traced.getLast?, Option.map_some]
  · rw [List.isChain_map]
    exact chain.imp fun _ _ step => step.2
  · refine (traced.nodup sound.distinct).map_on fun first member second listed same => ?_
    exact Prod.ext same ((facts first member).trans (facts second listed).symm)
  · intro id listed
    rw [← List.map_dropLast] at listed
    obtain ⟨earlier, member, rfl⟩ := List.mem_map.mp listed
    obtain ⟨next, step⟩ := exists_next_of_isChain chain earlier member
    exact step.1

/-- The witness of every finding is a taint path from the one node that introduced its fact.
Witness: the read-out backtracks the chain of discoverers of the search.
-/
theorem solve_witness_genuine (sha256 : Hash) (cpg : ValidCPG) (spec : Spec) (sVersion : Text)
    (envDigest : Bytes) (clock : Nat → Rat) (result : SolverResult)
    (ran : solve sha256 clock cpg.toCPG spec sVersion envDigest = .ok result)
    : ∀ finding ∈ result.findings,
        TaintPath cpg.toCPG spec finding.sink finding.fact finding.witness := by
  intro finding listed
  obtain ⟨_, order, _, sg, seeds, final, solved⟩ := solved_of_ok cpg.ready ran
  obtain ⟨item, path, traced, _, rfl⟩ := (solved.findings finding).mp listed
  exact solved.explored.taintPath cpg.wellFormed traced

theorem solve_witness_genuine_logging
    : ∃ result,
        solve taintSha256 (fun _ => 0) logging.toCPG commandInjection (py "v1") [1] = .ok result
        ∧ ∀ finding ∈ result.findings,
            TaintPath logging.toCPG commandInjection finding.sink finding.fact finding.witness := by
  have valid : checkParameters commandInjection (py "v1") [1] = .ok () :=
    checkParameters_ok_iff.mpr ⟨by decide, by decide, .inl rfl⟩
  obtain ⟨result, ran⟩ :=
    solve_returns taintSha256 logging.ready valid (neverExpires_stopped 0) (by decide)
  exact ⟨result, ran, solve_witness_genuine taintSha256 logging commandInjection (py "v1") [1]
    (fun _ => 0) result ran⟩

end Scanipy.Analysis.Ifds

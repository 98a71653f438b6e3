import Scanipy.Analysis.Ifds.Incremental

/-! A part of a graph that nothing else flows into: its findings, and when two graphs that
share it have the same ones.
-/

namespace Scanipy.Analysis.Ifds

open Library Python

-- A region that nothing else flows into

/-- A part of the graph that looks as in another graph and that nothing else flows into. -/
structure Region (cpg new : CPG) (spec : Spec) (inside : NodeId → Prop) : Prop where
  same : ∀ id, inside id → id ∈ cpg.nodeIds ∧ cpg.nodeAt id = new.nodeAt id
  back : ∀ source target, TaintStep cpg spec source target → inside target → inside source
  steps : ∀ source target, inside source → inside target →
    (TaintStep cpg spec source target ↔ TaintStep new spec source target)
  owned : ∀ id, inside id → ((∃ pid, Owns cpg pid id) ↔ ∃ pid, Owns new pid id)

/-- Taint steps of the other graph between nodes of the region. -/
def RegionStep (new : CPG) (spec : Spec) (inside : NodeId → Prop) (source target : NodeId) : Prop :=
  TaintStep new spec source target ∧ inside source ∧ inside target

/-- The node matches a source clause. -/
def IsSource (spec : Spec) (node : CPGNode) : Prop :=
  ∃ pattern ∈ spec.sources, PatternMatches pattern node

variable {spec : Spec}

theorem matchesAt_pos {node : CPGNode}
    : 0 < (spec.matchesAt node).length ↔ IsSource spec node := by
  rw [Spec.matchesAt, List.length_map, List.length_filter_pos_iff]
  simp [IsSource]

/-- A source introduces its first fact. -/
theorem introduces_firstFact {cpg : CPG} (distinct : cpg.nodeIds.Nodup) {id : NodeId}
    (known : id ∈ cpg.nodeIds) (atSource : IsSource spec (cpg.nodeAt id))
    : Introduces cpg spec id (firstFact cpg spec id) :=
  (introduces_iff distinct spec known _).mpr
    ⟨le_rfl, Nat.lt_add_of_pos_right (matchesAt_pos.mpr atSource)⟩

theorem Introduces.isSource {cpg : CPG} (distinct : cpg.nodeIds.Nodup) {id : NodeId} {fact : Fact}
    (introduces : Introduces cpg spec id fact)
    : IsSource spec (cpg.nodeAt id) := by
  obtain ⟨first, last⟩ := (introduces_iff distinct spec introduces.known _).mp introduces
  exact matchesAt_pos.mp (by omega)

/-- A source in a procedure and a sink of the region that taint connects. -/
structure RegionFlow (new : CPG) (spec : Spec) (inside : NodeId → Prop) (source sink : NodeId)
    : Prop where
  atSource : IsSource spec (new.nodeAt source)
  owned : ∃ pid, Owns new pid source
  sourceInside : inside source
  reaches : Relation.ReflTransGen (RegionStep new spec inside) source sink
  atSink : isSink spec (new.nodeAt sink) = true

variable {source sink : NodeId}

theorem RegionFlow.sinkInside {new : CPG} {inside : NodeId → Prop}
    (flow : RegionFlow new spec inside source sink)
    : inside sink := by
  rcases flow.reaches.cases_tail with same | ⟨_, _, step⟩
  · exact same ▸ flow.sourceInside
  · exact step.2.2

section Region

variable {cpg new : CPG} {spec : Spec} {inside : NodeId → Prop} (region : Region cpg new spec inside)
  (formed : cpg.WellFormed) {order : List NodeId} {sg : ExplodedSupergraph} {seeds : List Item}
  {final : Frontier Item} (explored : Explored cpg spec none order sg seeds final)

include region in
theorem Region.sourceInside (reaches : Relation.ReflTransGen (TaintStep cpg spec) source sink)
    (sinkInside : inside sink)
    : inside source ∧ Relation.ReflTransGen (RegionStep new spec inside) source sink := by
  induction reaches using Relation.ReflTransGen.head_induction_on with
  | refl => exact ⟨sinkInside, .refl⟩
  | head step _ ih =>
      have sourceInside := region.back _ _ step ih.1
      exact ⟨sourceInside, ih.2.head ⟨(region.steps _ _ sourceInside ih.1).mp step, sourceInside, ih.1⟩⟩

include region in
theorem Region.reaches (reaches : Relation.ReflTransGen (RegionStep new spec inside) source sink)
    : Relation.ReflTransGen (TaintStep cpg spec) source sink :=
  Relation.ReflTransGen.mono
    (fun _ _ step => (region.steps _ _ step.2.1 step.2.2).mpr step.1) _ _ reaches

include region formed explored

/-- For one fact, the search of the graph is a search of the region node by node. -/
theorem Region.selects (fact : Fact) {next : NodeId → List NodeId}
    (steps : ∀ source target, target ∈ next source ↔ RegionStep new spec inside source target)
    : Selects (fun item : Item => item.2 = fact ∧ inside item.1) Prod.fst
        (worklistKey (canonIndexOf order)) (itemNext sg spec none) (fun id => order.idxOf id) next := by
  have describes := explored.describes
  have known {item : Item} (chosen : item.2 = fact ∧ inside item.1) : item.1 ∈ cpg.nodeIds :=
    (region.same item.1 chosen.2).1
  refine ⟨fun item chosen other => ?_, fun item notChosen target listed chosen => ?_,
    fun first second firstChosen secondChosen => ?_, fun first second firstChosen secondChosen => ?_⟩
  · rw [steps]
    constructor
    · rintro ⟨step, _, otherInside⟩
      refine ⟨(other, fact), (mem_itemNext describes).mpr ⟨chosen.1.symm, ?_⟩, ⟨rfl, otherInside⟩, rfl⟩
      rw [flows_none]
      exact (region.steps _ _ chosen.2 otherInside).mpr step
    · rintro ⟨target, listed, ⟨_, targetInside⟩, rfl⟩
      obtain ⟨_, flows⟩ := (mem_itemNext describes).mp listed
      rw [flows_none] at flows
      exact ⟨(region.steps _ _ chosen.2 targetInside).mp flows, chosen.2, targetInside⟩
  · obtain ⟨sameFact, flows⟩ := (mem_itemNext describes).mp listed
    rw [flows_none] at flows
    exact notChosen ⟨sameFact.symm.trans chosen.1, region.back _ _ flows chosen.2⟩
  · rw [worklistKey, worklistKey, canonIndexOf_getD formed.distinct explored.complete (known firstChosen),
      canonIndexOf_getD formed.distinct explored.complete (known secondChosen), Prod.Lex.toLex_le_toLex,
      firstChosen.1, secondChosen.1]
    simp [le_iff_lt_or_eq]
  · exact worklistKey_injective formed.distinct explored.complete (known firstChosen)
      (known secondChosen)

/-- The chain of an item in the region is the first path to it from the node that introduced
its fact.
-/
theorem Region.firstPath_iff {fact : Fact} (introduces : Introduces cpg spec source fact)
    (sourceInside : inside source) (owned : ∃ pid, Owns cpg pid source) (sinkInside : inside sink)
    (shown : List NodeId)
    : FirstPath (fun id => order.idxOf id) (RegionStep new spec inside) source sink shown
      ↔ ∃ path, Traced final.found (sink, fact) path ∧ path.map Prod.fst = shown := by
  have seeded (other : NodeId)
      : other ∈ [source] ↔ ∃ item ∈ seeds, (item.2 = fact ∧ inside item.1) ∧ item.1 = other := by
    rw [List.mem_singleton]
    constructor
    · rintro rfl
      exact ⟨(other, fact), (explored.tabulated.seeds _).mpr
        ⟨introduces, explored.owned_iff.mpr owned⟩, ⟨rfl, sourceInside⟩, rfl⟩
    · rintro ⟨⟨id, _⟩, seed, ⟨rfl, _⟩, rfl⟩
      exact ((explored.tabulated.seeds _).mp seed).1.unique introduces
  have chosen : (sink, fact).2 = fact ∧ inside (sink, fact).1 := ⟨rfl, sinkInside⟩
  obtain ⟨sound, _⟩ := explored.tabulated.sound
  obtain ⟨fuel, ran⟩ := explored.tabulated.ran
  constructor
  · rintro ⟨next, more, seen, steps, seenRan, traced⟩
    have selects := region.selects formed explored fact steps
    have mirrors := selects.mirrors seeded ran seenRan
    obtain ⟨seenSound, _⟩ := (Frontier.start_sound [source] next).search seenRan
    exact (selects.traced_iff sound seenSound mirrors chosen).mp traced
  · rintro ⟨path, traced, rfl⟩
    classical
    obtain ⟨next, steps⟩ : ∃ next : NodeId → List NodeId,
        ∀ source target, target ∈ next source ↔ RegionStep new spec inside source target := by
      refine ⟨fun source => cpg.nodeIds.filter fun target => RegionStep new spec inside source target,
        fun source target => ?_⟩
      rw [List.mem_filter, decide_eq_true_eq]
      exact ⟨And.right, fun step => ⟨(region.same target step.2.2).1, step⟩⟩
    have selects := region.selects formed explored fact steps
    obtain ⟨more, seen, seenRan, mirrors⟩ := selects.search_start seeded ran
    exact ⟨next, more, seen, steps, seenRan, selects.traced sound mirrors chosen traced⟩

/-- The findings of the graph at sinks of the region. -/
theorem Region.readOut_iff {provenance : Provenance} (sameSpec : provenance.spec = spec)
    {finding : Finding} (sinkInside : inside finding.sink)
    : ReadOut provenance cpg final finding
      ↔ ∃ source,
          RegionFlow new spec inside source finding.sink
          ∧ Introduces cpg spec source finding.fact
          ∧ FirstPath (fun id => order.idxOf id) (RegionStep new spec inside) source finding.sink
            finding.witness
          ∧ finding = provenance.finding (finding.sink, finding.fact) finding.witness := by
  constructor
  · rintro ⟨item, path, traced, atSink, rfl⟩
    obtain ⟨source, introduces, inScope, reaches⟩ := explored.mem_known_iff.mp traced.mem_found
    rw [flows_none] at reaches
    obtain ⟨sourceInside, inRegion⟩ := region.sourceInside reaches sinkInside
    have owned := explored.owned_iff.mp inScope
    have atSource : IsSource spec (new.nodeAt source) := by
      rw [← (region.same source sourceInside).2]
      exact introduces.isSource formed.distinct
    refine ⟨source, ⟨atSource, (region.owned source sourceInside).mp owned, sourceInside, inRegion,
      ?_⟩, introduces, ?_, rfl⟩
    · rw [← (region.same _ sinkInside).2, ← sameSpec]
      exact atSink
    · exact (region.firstPath_iff formed explored introduces sourceInside owned sinkInside _).mpr
        ⟨path, traced, rfl⟩
  · rintro ⟨source, flow, introduces, first, same⟩
    have owned := (region.owned source flow.sourceInside).mpr flow.owned
    obtain ⟨path, traced, shown⟩ := (region.firstPath_iff formed explored introduces
      flow.sourceInside owned sinkInside _).mp first
    refine ⟨(finding.sink, finding.fact), path, traced, ?_, shown.symm ▸ same⟩
    rw [sameSpec, (region.same _ sinkInside).2]
    exact flow.atSink

/-- First paths inside the region are unique. -/
theorem Region.firstPath_unique (flow : RegionFlow new spec inside source sink)
    {path other : List NodeId}
    (first : FirstPath (fun id => order.idxOf id) (RegionStep new spec inside) source sink path)
    (second : FirstPath (fun id => order.idxOf id) (RegionStep new spec inside) source sink other)
    : path = other := by
  have known := region.same source flow.sourceInside
  have owned := (region.owned source flow.sourceInside).mpr flow.owned
  have introduces := introduces_firstFact formed.distinct known.1 (known.2.symm ▸ flow.atSource)
  have chains (shown : List NodeId) := region.firstPath_iff formed explored introduces
    flow.sourceInside owned flow.sinkInside shown
  obtain ⟨sound, _⟩ := explored.tabulated.sound
  obtain ⟨chain, traced, rfl⟩ := (chains path).mp first
  obtain ⟨otherChain, otherTraced, rfl⟩ := (chains other).mp second
  rw [traced.unique sound.distinct otherTraced]

end Region

section Common

variable {left right new : CPG} {spec : Spec} {inside : NodeId → Prop}
  (leftRegion : Region left new spec inside) (rightRegion : Region right new spec inside)
  (leftFormed : left.WellFormed) (rightFormed : right.WellFormed) {leftOrder rightOrder : List NodeId}
  {leftSg rightSg : ExplodedSupergraph} {leftSeeds rightSeeds : List Item}
  {leftFinal rightFinal : Frontier Item}
  (leftExplored : Explored left spec none leftOrder leftSg leftSeeds leftFinal)
  (rightExplored : Explored right spec none rightOrder rightSg rightSeeds rightFinal)
  {leftProvenance rightProvenance : Provenance} (leftSpec : leftProvenance.spec = spec)
  (rightSpec : rightProvenance.spec = spec)

include leftRegion rightRegion leftFormed rightFormed

/-- Nodes with the same first fact introduce the same facts. -/
theorem Region.introduces_iff (sourceInside : inside source)
    (sameFirst : firstFact left spec source = firstFact right spec source) (fact : Fact)
    : Introduces left spec source fact ↔ Introduces right spec source fact := by
  obtain ⟨leftKnown, leftNode⟩ := leftRegion.same source sourceInside
  obtain ⟨rightKnown, rightNode⟩ := rightRegion.same source sourceInside
  rw [Ifds.introduces_iff leftFormed.distinct spec leftKnown,
    Ifds.introduces_iff rightFormed.distinct spec rightKnown, leftNode, rightNode, sameFirst]

include leftExplored rightExplored leftSpec rightSpec

/-- Findings carry over when identity, numbering and path do. -/
theorem Region.readOut_transfer {finding : Finding} (sinkInside : inside finding.sink)
    (agree : ∀ source,
      RegionFlow new spec inside source finding.sink
      → leftProvenance = rightProvenance
        ∧ firstFact left spec source = firstFact right spec source
        ∧ ∃ path,
            FirstPath (fun id => leftOrder.idxOf id) (RegionStep new spec inside) source finding.sink
              path
            ∧ FirstPath (fun id => rightOrder.idxOf id) (RegionStep new spec inside) source
              finding.sink path)
    (read : ReadOut leftProvenance left leftFinal finding)
    : ReadOut rightProvenance right rightFinal finding := by
  obtain ⟨source, flow, introduces, first, same⟩ :=
    (leftRegion.readOut_iff leftFormed leftExplored leftSpec sinkInside).mp read
  obtain ⟨rfl, sameFirst, path, leftPath, rightPath⟩ := agree source flow
  have walked := leftRegion.firstPath_unique leftFormed leftExplored flow first leftPath
  refine (rightRegion.readOut_iff rightFormed rightExplored rightSpec sinkInside).mpr
    ⟨source, flow, ?_, walked.symm ▸ rightPath, same⟩
  exact (leftRegion.introduces_iff rightRegion leftFormed rightFormed flow.sourceInside sameFirst
    _).mp introduces

/-- If the findings in the region carry over, so do identity, numbering and paths of every
flow. Witness: a source has as many facts in both graphs, so none of them can shift.
-/
theorem Region.agree_of_readOut (carried : ∀ finding,
      inside finding.sink
      → ReadOut leftProvenance left leftFinal finding
      → ReadOut rightProvenance right rightFinal finding)
    (flow : RegionFlow new spec inside source sink)
    : (leftProvenance.cpgOrderHash = rightProvenance.cpgOrderHash
        ∧ leftProvenance.fingerprintClass = rightProvenance.fingerprintClass)
      ∧ firstFact left spec source = firstFact right spec source
      ∧ ∃ path,
          FirstPath (fun id => leftOrder.idxOf id) (RegionStep new spec inside) source sink path
          ∧ FirstPath (fun id => rightOrder.idxOf id) (RegionStep new spec inside) source sink
            path := by
  obtain ⟨leftKnown, leftNode⟩ := leftRegion.same source flow.sourceInside
  obtain ⟨rightKnown, rightNode⟩ := rightRegion.same source flow.sourceInside
  have owned := (leftRegion.owned source flow.sourceInside).mpr flow.owned
  have positive := matchesAt_pos.mpr flow.atSource
  obtain ⟨sound, _⟩ := leftExplored.tabulated.sound
  -- the finding for one fact of the source, on both sides
  have found (fact : Nat) (introduces : Introduces left spec source fact)
      : ∃ path,
          FirstPath (fun id => leftOrder.idxOf id) (RegionStep new spec inside) source sink path
          ∧ FirstPath (fun id => rightOrder.idxOf id) (RegionStep new spec inside) source sink path
          ∧ Introduces right spec source fact
          ∧ leftProvenance.finding (sink, fact) path = rightProvenance.finding (sink, fact) path := by
    have member : (sink, fact) ∈ leftFinal.known := by
      refine leftExplored.mem_known_iff.mpr
        ⟨source, introduces, leftExplored.owned_iff.mpr owned, ?_⟩
      rw [flows_none]
      exact leftRegion.reaches flow.reaches
    obtain ⟨chain, traced⟩ := sound.traced _ member
    have leftPath := (leftRegion.firstPath_iff leftFormed leftExplored introduces flow.sourceInside
      owned flow.sinkInside _).mpr ⟨chain, traced, rfl⟩
    have read : ReadOut leftProvenance left leftFinal
        (leftProvenance.finding (sink, fact) (chain.map Prod.fst)) := by
      refine ⟨_, chain, traced, ?_, rfl⟩
      rw [leftSpec, (leftRegion.same sink flow.sinkInside).2]
      exact flow.atSink
    obtain ⟨other, otherFlow, otherIntroduces, rightPath, same⟩ :=
      (rightRegion.readOut_iff rightFormed rightExplored rightSpec flow.sinkInside).mp
        (carried _ flow.sinkInside read)
    obtain rfl : source = other :=
      Option.some.inj (leftPath.head.symm.trans rightPath.head)
    exact ⟨_, leftPath, rightPath, otherIntroduces, same⟩
  have introducesLeft (fact : Nat) := Ifds.introduces_iff leftFormed.distinct spec leftKnown fact
  have introducesRight (fact : Nat) := Ifds.introduces_iff rightFormed.distinct spec rightKnown fact
  rw [leftNode] at introducesLeft
  rw [rightNode] at introducesRight
  obtain ⟨path, leftPath, rightPath, lowest, same⟩ :=
    found (firstFact left spec source) ((introducesLeft _).mpr (by omega))
  obtain ⟨_, _, _, highest, _⟩ :=
    found (firstFact left spec source + ((spec.matchesAt (new.nodeAt source)).length - 1))
      ((introducesLeft _).mpr (by omega))
  have lowerBound := ((introducesRight _).mp lowest).1
  have upperBound := ((introducesRight _).mp highest).2
  exact ⟨⟨congrArg Finding.cpgOrderHash same, congrArg Finding.fingerprintClass same⟩, by omega, path,
    leftPath, rightPath⟩

end Common

end Scanipy.Analysis.Ifds

import Scanipy.Analysis.Ifds.Reachability
import Scanipy.Library.Selection

/-! Incremental runs: the closure is searched as the full search searches it, and the findings
outside it are kept.
-/

namespace Scanipy.Analysis.Ifds

open Library Python

/-- The supergraph that every run on the graph builds. -/
def supergraphOf (sha256 : Hash) (cpg : CPG) : Except AnalysisError ExplodedSupergraph := do
  let order ← canonicalOrderFresh sha256 (fun _ => 0) cpg
  buildSupergraph cpg order.canonicalOrder

/-- The procedure that every run assigns to a node. -/
def procedureOf (sha256 : Hash) (cpg : CPG) (id : NodeId) : Option ProcId :=
  match supergraphOf sha256 cpg with
  | .ok sg => sg.procOfNode.get? id
  | .error _ => none

/-- Each CFG edge joins two nodes of one procedure. -/
def IntraProcedural (sha256 : Hash) (cpg : CPG) : Prop :=
  ∀ edge ∈ cpg.edges,
    edge.kind = cfgEdge
    → procedureOf sha256 cpg edge.src ≠ none
      ∧ procedureOf sha256 cpg edge.src = procedureOf sha256 cpg edge.dst

instance (sha256 : Hash) (cpg : CPG) : Decidable (IntraProcedural sha256 cpg) :=
  inferInstanceAs (Decidable (∀ _ ∈ _, _))

variable {sha256 : Hash} {cpg : CPG} {order : CanonicalOrderResult} {clock : Nat → Rat}

theorem supergraphOf_eq (ready : cpg.Ready)
    (ordered : canonicalOrderFresh sha256 clock cpg = .ok order)
    : supergraphOf sha256 cpg = buildSupergraph cpg order.canonicalOrder := by
  have positive : 0 < defaultB := by decide
  obtain ⟨stopped, settled⟩ :=
    canonicalOrderFresh_returns sha256 ready positive (neverExpires_stopped 0)
  rw [supergraphOf, settled, ok_bind, (canonicalOrderFresh_agree ready settled ordered).1]

variable {sg : ExplodedSupergraph}

theorem procedureOf_eq (ready : cpg.Ready)
    (ordered : canonicalOrderFresh sha256 clock cpg = .ok order)
    (built : buildSupergraph cpg order.canonicalOrder = .ok sg)
    : procedureOf sha256 cpg = sg.procOfNode.get? := by
  funext id
  rw [procedureOf, supergraphOf_eq ready ordered, built]

/-- A METHOD node is its own procedure. -/
theorem ExplodedSupergraph.Describes.method (describes : sg.Describes cpg) {pid : ProcId}
    (method : MethodAt cpg pid)
    : sg.procOfNode.get? pid = some pid := by
  have owns : Owns cpg pid pid := ⟨method.1, method, by rw [if_pos method.2]⟩
  cases owned : sg.procOfNode.get? pid with
  | none => exact absurd owns (describes.unowned pid pid owned)
  | some other =>
      obtain ⟨_, _, self⟩ := describes.owned pid other owned
      rw [if_pos method.2] at self
      rw [self]

theorem HasEdge.known (formed : cpg.WellFormed) {kind : Text} {source target : NodeId}
    (edge : HasEdge cpg kind source target)
    : source ∈ cpg.nodeIds ∧ target ∈ cpg.nodeIds := by
  obtain ⟨listed, member, _, rfl, rfl⟩ := edge
  exact formed.ends listed member

variable {spec : Spec}

theorem Flows.source (formed : cpg.WellFormed) {scope : Option (PySet ProcId)}
    {source target : NodeId} (flows : Flows cpg spec scope source target)
    : source ∈ cpg.nodeIds := by
  rcases flows.2 with edge | ⟨edge, _⟩
  · exact (edge.known formed).1
  · exact (edge.known formed).1

/-- Items of the graph have different keys. -/
theorem worklistKey_injective (distinct : cpg.nodeIds.Nodup) {order : List NodeId}
    (complete : order.Perm cpg.nodeIds) {first second : Item} (firstKnown : first.1 ∈ cpg.nodeIds)
    (secondKnown : second.1 ∈ cpg.nodeIds)
    (same : worklistKey (canonIndexOf order) first = worklistKey (canonIndexOf order) second)
    : first = second := by
  have pairs := congrArg ofLex same
  rw [worklistKey, worklistKey, ofLex_toLex, ofLex_toLex, Prod.mk.injEq,
    canonIndexOf_getD distinct complete firstKnown,
    canonIndexOf_getD distinct complete secondKnown] at pairs
  refine Prod.ext ?_ pairs.2
  exact (List.idxOf_inj (complete.mem_iff.mpr firstKnown)).mp pairs.1

-- The closure is searched alone

section Closure

variable {cpg : CPG} (formed : cpg.WellFormed) {spec : Spec} {order : List NodeId}
  {sg : ExplodedSupergraph} {affected : List ProcId} {closure : PySet ProcId}
  (closed : ∀ pid, pid ∈ closure ↔ sg.InClosure affected pid)
  {seeds partSeeds : List Item} {final partFinal : Frontier Item}
  (full : Explored cpg spec none order sg seeds final)
  (part : Explored cpg spec (some closure) order sg partSeeds partFinal)
  (intra : ∀ source target, HasEdge cpg cfgEdge source target →
    ∃ pid, sg.procOfNode.get? source = some pid ∧ sg.procOfNode.get? target = some pid)

/-- The node belongs to no procedure outside the closure. -/
def Kept (sg : ExplodedSupergraph) (closure : PySet ProcId) (id : NodeId) : Prop :=
  ∀ pid, sg.procOfNode.get? id = some pid → pid ∈ closure

include full in
theorem kept_method {pid : ProcId} (method : MethodAt cpg pid) : Kept sg closure pid ↔ pid ∈ closure := by
  have own := full.describes.method method
  constructor
  · intro kept
    exact kept pid own
  · intro member other owned
    rw [own] at owned
    exact Option.some.inj owned ▸ member

include formed closed full intra in
/-- The restricted search is the part of the full search in the closure. -/
theorem selects_closure
    : Selects (fun item : Item => item.1 ∈ cpg.nodeIds ∧ Kept sg closure item.1) id
        (worklistKey (canonIndexOf order)) (itemNext sg spec none)
        (worklistKey (canonIndexOf order)) (itemNext sg spec (some closure)) := by
  have describes := full.describes
  refine ⟨fun item chosen other => ?_, fun item notChosen target listed chosen => ?_,
    fun first second _ _ => Iff.rfl, fun first second firstChosen secondChosen => ?_⟩
  · simp only [mem_itemNext describes, id]
    constructor
    · rintro ⟨sameFact, alive, edge | ⟨edge, method, inScope⟩⟩
      · obtain ⟨pid, owned, sameOwner⟩ := intra _ _ edge
        refine ⟨other, ⟨sameFact, alive, .inl edge⟩, ⟨(edge.known formed).2, fun third owner => ?_⟩,
          rfl⟩
        rw [sameOwner] at owner
        exact Option.some.inj owner ▸ chosen.2 pid owned
      · exact ⟨other, ⟨sameFact, alive, .inr ⟨edge, method, trivial⟩⟩,
          ⟨method.1, (kept_method full method).mpr inScope⟩, rfl⟩
    · rintro ⟨_, ⟨sameFact, alive, edge | ⟨edge, method, _⟩⟩, ⟨_, kept⟩, rfl⟩
      · exact ⟨sameFact, alive, .inl edge⟩
      · exact ⟨sameFact, alive, .inr ⟨edge, method, (kept_method full method).mp kept⟩⟩
  · obtain ⟨_, flows⟩ := (mem_itemNext describes).mp listed
    refine notChosen ⟨flows.source formed, fun pid owned => ?_⟩
    rcases flows.2 with edge | ⟨edge, method, _⟩
    · obtain ⟨owner, sourceOwned, targetOwned⟩ := intra _ _ edge
      rw [owned] at sourceOwned
      exact chosen.2 pid (Option.some.inj sourceOwned ▸ targetOwned)
    · have inside := (closed _).mp ((kept_method full method).mp chosen.2)
      exact (closed pid).mpr (inside.caller ((describes.callers _ _).mpr ⟨method, _, edge, owned⟩))
  · exact worklistKey_injective formed.distinct full.complete firstChosen.1 secondChosen.1

include full in
/-- With CFG edges inside procedures, every item discovered belongs to a procedure. -/
theorem Explored.procedure (intra : ∀ source target, HasEdge cpg cfgEdge source target →
      ∃ pid, sg.procOfNode.get? source = some pid ∧ sg.procOfNode.get? target = some pid)
    {item : Item} (member : item ∈ final.known)
    : ∃ pid, sg.procOfNode.get? item.1 = some pid := by
  obtain ⟨source, introduces, inScope, reaches⟩ := full.mem_known_iff.mp member
  rcases reaches.cases_tail with same | ⟨previous, _, flows⟩
  · rw [same]
    cases owned : sg.procOfNode.get? source with
    | none =>
        rw [owned] at inScope
        exact inScope.elim
    | some pid => exact ⟨pid, rfl⟩
  · rcases flows.2 with edge | ⟨_, method, _⟩
    · obtain ⟨pid, _, owned⟩ := intra _ _ edge
      exact ⟨pid, owned⟩
    · exact ⟨_, full.describes.method method⟩

include formed closed full part intra in
/-- The restricted search reads out the findings of the full search with a sink in the
closure.
-/
theorem readOut_closure_iff (provenance : Provenance) (finding : Finding)
    : ReadOut provenance cpg partFinal finding
      ↔ ReadOut provenance cpg final finding
        ∧ ProcInScope (some closure) (sg.procOfNode.get? finding.sink) := by
  have selects := selects_closure formed closed full intra
  obtain ⟨sound, _⟩ := full.tabulated.sound
  obtain ⟨partSound, _⟩ := part.tabulated.sound
  have inScope {item : Item} (member : item ∈ final.known)
      : Kept sg closure item.1 ↔ ProcInScope (some closure) (sg.procOfNode.get? item.1) := by
    obtain ⟨pid, owned⟩ := full.procedure intra member
    rw [Kept, owned]
    simp [ProcInScope]
  have seeded (other : Item)
      : other ∈ partSeeds ↔ ∃ item ∈ seeds,
          (item.1 ∈ cpg.nodeIds ∧ Kept sg closure item.1) ∧ id item = other := by
    rw [part.tabulated.seeds]
    constructor
    · rintro ⟨introduces, within⟩
      cases owned : sg.procOfNode.get? other.1 with
      | none =>
          rw [owned] at within
          exact within.elim
      | some pid =>
          rw [owned] at within
          refine ⟨other, (full.tabulated.seeds other).mpr ⟨introduces, by rw [owned]; trivial⟩,
            ⟨introduces.known, fun owner again => ?_⟩, rfl⟩
          rw [owned] at again
          exact Option.some.inj again ▸ within
    · rintro ⟨_, seed, ⟨_, kept⟩, rfl⟩
      obtain ⟨introduces, owned⟩ := (full.tabulated.seeds _).mp seed
      refine ⟨introduces, (inScope ?_).mp kept⟩
      exact sound.seeded seed
  obtain ⟨fuel, ran⟩ := full.tabulated.ran
  obtain ⟨partFuel, partRan⟩ := part.tabulated.ran
  have mirrors := selects.mirrors seeded ran partRan
  constructor
  · rintro ⟨item, shown, chain, atSink, rfl⟩
    obtain ⟨_, chosen, rfl⟩ := mirrors.image item chain.mem_found
    obtain ⟨path, original, same⟩ :=
      (selects.traced_iff sound partSound mirrors chosen).mp chain
    rw [List.map_id] at same
    subst same
    exact ⟨⟨_, path, original, atSink, rfl⟩, (inScope original.mem_found).mp chosen.2⟩
  · rintro ⟨⟨item, path, chain, atSink, rfl⟩, within⟩
    have member : item ∈ final.known := chain.mem_found
    have chosen := And.intro (full.inside formed member).1 ((inScope member).mpr within)
    exact ⟨item, path, (selects.traced_iff sound partSound mirrors chosen).mpr
      ⟨path, chain, List.map_id path⟩, atSink, rfl⟩

end Closure

-- Fresh and preserved findings

/-- CFG edges join nodes of one procedure of the supergraph. -/
theorem IntraProcedural.owned (intra : IntraProcedural sha256 cpg) (ready : cpg.Ready)
    (ordered : canonicalOrderFresh sha256 clock cpg = .ok order)
    (built : buildSupergraph cpg order.canonicalOrder = .ok sg) (source target : NodeId)
    (edge : HasEdge cpg cfgEdge source target)
    : ∃ pid, sg.procOfNode.get? source = some pid ∧ sg.procOfNode.get? target = some pid := by
  obtain ⟨listed, member, kind, rfl, rfl⟩ := edge
  obtain ⟨owned, same⟩ := intra listed member kind
  rw [procedureOf_eq ready ordered built] at owned same
  obtain ⟨pid, found⟩ := Option.ne_none_iff_exists'.mp owned
  exact ⟨pid, found, same ▸ found⟩

variable {seeds : List Item} {final : Frontier Item} {sVersion : Text} {envDigest : Bytes}

/-- `incremental_solve` merges the findings of a full run in the closure with the prior
findings outside it.
-/
theorem incrementalSolve_merges (ready : cpg.Ready)
    (valid : checkParameters spec sVersion envDigest = .ok ()) {fullClock : Nat → Rat}
    (ordered : canonicalOrderFresh sha256 fullClock cpg = .ok order) {full : SolverResult}
    (solved : Solved sha256 cpg spec sVersion envDigest order sg seeds final full)
    (intra : IntraProcedural sha256 cpg) (affected : PySet ProcId) {priorSummaries : SummaryCache}
    (header : priorSummaries.header = (sVersion, envDigest)) {priorFindings : PySet Finding}
    (aligned : ∀ finding ∈ priorFindings,
      finding.sVersion = sVersion ∧ finding.envDigest = envDigest)
    (alive : NeverExpires clock defaultT)
    : ∃ closure fresh visited cache,
        incrementalSolve sha256 clock cpg spec affected priorSummaries sVersion envDigest
            priorFindings
          = (hashSolution sha256 (fresh ++ preservedFindings sg closure priorFindings)
                (canonIndexOf order.canonicalOrder) >>= fun solutionHash =>
              .ok {
                findings := PySet.update [] (fresh ++ preservedFindings sg closure priorFindings)
                solutionHash, visitedProcs := visited, summaries := cache
              })
        ∧ (∀ pid, pid ∈ closure ↔ sg.InClosure affected pid)
        ∧ (∀ finding,
            finding ∈ fresh
              ↔ finding ∈ full.findings
                ∧ ProcInScope (some closure) (sg.procOfNode.get? finding.sink))
        ∧ fresh.Nodup := by
  have positive : 0 < defaultB := by decide
  obtain ⟨partOrder, partOrdered⟩ := canonicalOrderFresh_returns sha256 ready positive alive
  obtain ⟨sameOrder, sameHash, sameClass⟩ := canonicalOrderFresh_agree ready partOrdered ordered
  obtain ⟨partSg, callers, partSeeds, partFinal, fresh, visited, cache, run, _, closed, part,
    members, distinct, _⟩ := incrementalSolve_eq ready valid affected header partOrdered
  have ran := run priorFindings
  rw [checkPriorFindings_ok.mpr aligned, ok_bind] at ran
  have sameProvenance : provenanceOf spec sVersion envDigest partOrder
      = provenanceOf spec sVersion envDigest order := by
    rw [provenanceOf, provenanceOf, sameHash, sameClass]
  rw [sameOrder] at ran part
  obtain rfl : partSg = sg :=
    Except.ok.inj (part.built.symm.trans solved.explored.built)
  refine ⟨_, fresh, visited, cache, ran, closed, fun finding => ?_, distinct⟩
  rw [members, sameProvenance, solved.findings]
  exact readOut_closure_iff ready.wellFormed closed solved.explored part
    (intra.owned ready ordered solved.explored.built) _ finding

variable {finding : Finding}

theorem mem_preservedFindings {closure : PySet ProcId} {prior : List Finding}
    : finding ∈ preservedFindings sg closure prior
      ↔ finding ∈ prior ∧ ¬ProcInScope (some closure) (sg.procOfNode.get? finding.sink) := by
  rw [preservedFindings, List.mem_filter, decide_eq_true_eq]

section Merge

variable {sg : ExplodedSupergraph} {closure : PySet ProcId} {fresh prior full : List Finding}
  (freshDistinct : fresh.Nodup) (priorDistinct : prior.Nodup)
  (members : ∀ finding,
    finding ∈ fresh ↔ finding ∈ full ∧ ProcInScope (some closure) (sg.procOfNode.get? finding.sink))

include freshDistinct priorDistinct members

theorem merged_nodup : (fresh ++ preservedFindings sg closure prior).Nodup := by
  refine List.nodup_append.mpr ⟨freshDistinct, priorDistinct.filter _, ?_⟩
  rintro finding first _ second rfl
  exact (mem_preservedFindings.mp second).2 ((members finding).mp first).2

/-- Fresh and preserved findings partition a full set that agrees with the prior one outside
the closure.
-/
theorem merged_perm (fullDistinct : full.Nodup)
    (outside : ∀ finding,
      ¬ProcInScope (some closure) (sg.procOfNode.get? finding.sink)
      → (finding ∈ prior ↔ finding ∈ full))
    : (fresh ++ preservedFindings sg closure prior).Perm full := by
  have apart := merged_nodup freshDistinct priorDistinct members
  refine (List.perm_ext_iff_of_nodup apart fullDistinct).mpr fun finding => ?_
  rw [List.mem_append, members, mem_preservedFindings]
  by_cases inside : ProcInScope (some closure) (sg.procOfNode.get? finding.sink)
  · simp [inside]
  · simp [inside, outside finding inside]

end Merge

variable {result : SolverResult}

/-- Findings of a run keep the parameters of the run. -/
theorem Solved.aligned
    (solved : Solved sha256 cpg spec sVersion envDigest order sg seeds final result)
    (member : finding ∈ result.findings)
    : finding.sVersion = sVersion ∧ finding.envDigest = envDigest := by
  obtain ⟨item, path, _, _, rfl⟩ := (solved.findings finding).mp member
  exact ⟨rfl, rfl⟩

theorem Solved.sinkKnown (formed : cpg.WellFormed)
    (solved : Solved sha256 cpg spec sVersion envDigest order sg seeds final result)
    (member : finding ∈ result.findings)
    : finding.sink ∈ cpg.nodeIds := by
  obtain ⟨item, path, chain, _, rfl⟩ := (solved.findings finding).mp member
  exact (solved.explored.inside formed chain.mem_found).1

/-- Findings read out of a search have different keys. -/
theorem Explored.keys (formed : cpg.WellFormed) {scope : Option (PySet ProcId)}
    {order : List NodeId} (explored : Explored cpg spec scope order sg seeds final)
    {provenance : Provenance} {findings : List Finding}
    (read : ∀ finding ∈ findings, ReadOut provenance cpg final finding)
    : Set.InjOn (fun finding : Finding =>
        worklistKey (canonIndexOf order) (finding.sink, finding.fact))
        {finding | finding ∈ findings} := by
  obtain ⟨sound, _⟩ := explored.tabulated.sound
  have known (finding : Finding) (listed : finding ∈ findings) : finding.sink ∈ cpg.nodeIds := by
    obtain ⟨item, path, traced, _, rfl⟩ := read finding listed
    exact (explored.inside formed traced.mem_found).1
  intro first firstMember second secondMember same
  have items : (first.sink, first.fact) = (second.sink, second.fact) :=
    worklistKey_injective formed.distinct explored.complete (known first firstMember)
      (known second secondMember) same
  exact (read first firstMember).unique sound.distinct (read second secondMember)
    (congrArg Prod.fst items) (congrArg Prod.snd items)

/-- Findings of a run have different keys. -/
theorem Solved.keys (formed : cpg.WellFormed)
    (solved : Solved sha256 cpg spec sVersion envDigest order sg seeds final result)
    : Set.InjOn (fun finding : Finding =>
        worklistKey (canonIndexOf order.canonicalOrder) (finding.sink, finding.fact))
        {finding | finding ∈ result.findings} :=
  solved.explored.keys formed fun finding => (solved.findings finding).mp

/-- On an unchanged program `incremental_solve` returns the findings and the hash of `solve`,
whatever is said to be affected.
Witness: nothing outside the closure leads into it, so the restricted search is the part of
the full search there, witnesses included; the kept findings are the rest.
-/
theorem incrementalSolve_unchanged (sha256 : Hash) (cpg : ValidCPG) (spec : Spec) (sVersion : Text)
    (envDigest : Bytes) (intra : IntraProcedural sha256 cpg.toCPG) (affected : PySet ProcId)
    (priorClock fullClock clock : Nat → Rat) (alive : NeverExpires clock defaultT)
    (prior full : SolverResult)
    (priorRan : solve sha256 priorClock cpg.toCPG spec sVersion envDigest = .ok prior)
    (fullRan : solve sha256 fullClock cpg.toCPG spec sVersion envDigest = .ok full)
    (priorFindings : PySet Finding) (listed : priorFindings.Perm prior.findings)
    : ∃ result,
        incrementalSolve sha256 clock cpg.toCPG spec affected prior.summaries sVersion envDigest
            priorFindings
          = .ok result
        ∧ result.findings.Perm full.findings
        ∧ result.solutionHash = full.solutionHash := by
  have ready := cpg.ready
  obtain rfl := solve_agree ready priorRan fullRan
  obtain ⟨valid, order, ordered, sg, seeds, final, solved⟩ := solved_of_ok ready priorRan
  obtain ⟨closure, fresh, visited, cache, ran, _, members, distinct⟩ :=
    incrementalSolve_merges ready valid ordered solved intra affected solved.header
      (fun finding member => solved.aligned (listed.mem_iff.mp member)) alive
  have merged := merged_perm distinct (listed.nodup_iff.mpr solved.distinct) members solved.distinct
    fun finding _ => listed.mem_iff
  have asSet : PySet.update [] (fresh ++ preservedFindings sg closure priorFindings)
      = fresh ++ preservedFindings sg closure priorFindings :=
    PySet.update_eq_append (fun _ _ => List.not_mem_nil) (merged.nodup_iff.mpr solved.distinct)
  rw [ran, ← hashSolution_perm sha256 merged.symm (solved.keys ready.wellFormed), solved.hashed,
    ok_bind, asSet]
  exact ⟨_, rfl, merged, rfl⟩

theorem incrementalSolve_unchanged_logging
    : ∃ prior result,
        solve taintSha256 (fun _ => 0) logging.toCPG commandInjection (py "v1") [1] = .ok prior
        ∧ incrementalSolve taintSha256 (fun _ => 5) logging.toCPG commandInjection [2]
            prior.summaries (py "v1") [1] prior.findings
          = .ok result
        ∧ result.findings.Perm prior.findings
        ∧ result.solutionHash = prior.solutionHash := by
  obtain ⟨prior, ran⟩ := solve_returns taintSha256 logging.ready
    (show checkParameters commandInjection (py "v1") [1] = .ok () by decide)
    (neverExpires_stopped 0) (by decide)
  obtain ⟨result, incremental, findings, digest⟩ := incrementalSolve_unchanged taintSha256 logging
    commandInjection (py "v1") [1] (by decide +kernel) [2] _ _ _ (neverExpires_stopped 5) prior prior
    ran ran prior.findings (List.Perm.refl _)
  exact ⟨prior, result, ran, incremental, findings, digest⟩

end Scanipy.Analysis.Ifds

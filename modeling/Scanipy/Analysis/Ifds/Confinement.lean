import Scanipy.Analysis.Ifds.Edit

/-! How far an incremental run gets: CFG edges are followed without a look at the closure, so
the run stays inside exactly when no reached CFG edge leaves it.
-/

namespace Scanipy.Analysis.Ifds

open Library Python

/-- The closure that every run on the graph computes. -/
def closureOf (sha256 : Hash) (cpg : CPG) (affected : PySet ProcId)
    : Except AnalysisError (PySet ProcId) := do
  let sg ← supergraphOf sha256 cpg
  let callers ← sg.transitiveCallers affected
  .ok (PySet.update affected callers)

/-- One step of taint into a node that no procedure outside the closure owns. -/
def ClosureStep (sha256 : Hash) (cpg : CPG) (spec : Spec) (closure : List ProcId)
    (source target : NodeId)
    : Prop :=
  TaintStep cpg spec source target ∧ ∀ pid, procedureOf sha256 cpg target = some pid → pid ∈ closure

/-- Taint from a source in the closure, which has not left it, comes to a node that is not
sanitised and has a CFG edge into another procedure outside the closure, or to a sink of no
procedure at all.
-/
structure Leaks (sha256 : Hash) (cpg : CPG) (spec : Spec) (closure : List ProcId)
    (source last target : NodeId) : Prop where
  atSource : IsSource spec (cpg.nodeAt source)
  owned : ∃ pid ∈ closure, procedureOf sha256 cpg source = some pid
  inside : Relation.ReflTransGen (ClosureStep sha256 cpg spec closure) source last
  alive : sanitizedAt spec (cpg.nodeAt last) = false
  edge : HasEdge cpg cfgEdge last target
  leaves : (∃ pid, procedureOf sha256 cpg target = some pid ∧ pid ∉ closure)
    ∨ (procedureOf sha256 cpg target = none ∧ isSink spec (cpg.nodeAt target) = true)

theorem not_procInScope_iff {closure : PySet ProcId} {owner : Option ProcId}
    : ¬ProcInScope (some closure) owner ↔ ∀ pid ∈ closure, owner ≠ some pid := by
  cases owner with
  | none => simp [ProcInScope]
  | some owner =>
      constructor
      · intro outside pid member same
        exact outside (Option.some.inj same ▸ member)
      · intro others inside
        exact others owner inside rfl

section Confined

variable {sha256 : Hash} {cpg : CPG} (ready : cpg.Ready) {spec : Spec} {order : List NodeId}
  {sg : ExplodedSupergraph} {closure : PySet ProcId} {seeds : List Item} {final : Frontier Item}
  (explored : Explored cpg spec (some closure) order sg seeds final)
  (procedures : procedureOf sha256 cpg = sg.procOfNode.get?)

variable {source target : NodeId}

include procedures in
/-- A step inside the closure is a step of the restricted search. -/
theorem ClosureStep.flows (describes : sg.Describes cpg)
    (step : ClosureStep sha256 cpg spec closure source target)
    : Flows cpg spec (some closure) source target := by
  obtain ⟨⟨alive, edge | ⟨edge, method⟩⟩, kept⟩ := step
  · exact ⟨alive, .inl edge⟩
  · refine ⟨alive, .inr ⟨edge, method, kept target ?_⟩⟩
    rw [procedures]
    exact describes.method method

include ready explored procedures

/-- A leak is discovered. -/
theorem Leaks.discovered {last : NodeId} (leaks : Leaks sha256 cpg spec closure source last target)
    : (target, firstFact cpg spec source) ∈ final.known := by
  obtain ⟨pid, member, owned⟩ := leaks.owned
  have introduces := introduces_firstFact ready.wellFormed.distinct (procedureOf_owns ready owned).1
    leaks.atSource
  refine explored.mem_known_iff.mpr ⟨source, introduces, ?_, ?_⟩
  · rw [← procedures, owned]
    exact member
  · have reaches := Relation.ReflTransGen.mono
      (fun _ _ step => ClosureStep.flows procedures explored.describes step) _ _ leaks.inside
    exact reaches.tail ⟨leaks.alive, .inl leaks.edge⟩

variable (tight : ∀ source last target, ¬Leaks sha256 cpg spec closure source last target)

include tight

variable {item : Item}

/-- Without a leak the search goes from a source of the closure by steps inside it.
Witness: induction along the flow; a CFG edge to a procedure outside would be a leak.
-/
theorem inside_of_tight (member : item ∈ final.known)
    : ∃ source,
        IsSource spec (cpg.nodeAt source)
        ∧ (∃ pid ∈ closure, procedureOf sha256 cpg source = some pid)
        ∧ Relation.ReflTransGen (ClosureStep sha256 cpg spec closure) source item.1 := by
  obtain ⟨source, introduces, inScope, reaches⟩ := explored.mem_known_iff.mp member
  have atSource := introduces.isSource ready.wellFormed.distinct
  have owned : ∃ pid ∈ closure, procedureOf sha256 cpg source = some pid := by
    rw [procedures]
    cases found : sg.procOfNode.get? source with
    | none => simp [found, ProcInScope] at inScope
    | some pid =>
        rw [found] at inScope
        exact ⟨pid, inScope, rfl⟩
  refine ⟨source, atSource, owned, ?_⟩
  clear member introduces
  generalize item.1 = id at reaches
  induction reaches with
  | refl => exact .refl
  | @tail last target _ flows ih =>
      refine ih.tail ⟨?_, fun pid found => ?_⟩
      · exact ⟨flows.1, flows.2.imp_right fun call => ⟨call.1, call.2.1⟩⟩
      · rcases flows.2 with edge | ⟨_, method, within⟩
        · by_contra outside
          exact tight source last target
            ⟨atSource, owned, ih, flows.1, edge, .inl ⟨pid, found, outside⟩⟩
        · rw [procedureOf_method ready method] at found
          exact Option.some.inj found ▸ within

/-- Without a leak only procedures of the closure are visited. -/
theorem visited_of_tight (member : item ∈ final.known) {pid : ProcId}
    (found : procedureOf sha256 cpg item.1 = some pid)
    : pid ∈ closure := by
  obtain ⟨source, _, ⟨owner, inside, owned⟩, reaches⟩ :=
    inside_of_tight ready explored procedures tight member
  rcases reaches.cases_tail with same | ⟨_, _, step⟩
  · rw [same, owned] at found
    exact Option.some.inj found ▸ inside
  · exact step.2 pid found

/-- Without a leak every sink discovered belongs to a procedure of the closure. -/
theorem sink_of_tight (member : item ∈ final.known)
    (atSink : isSink spec (cpg.nodeAt item.1) = true)
    : ∃ pid ∈ closure, procedureOf sha256 cpg item.1 = some pid := by
  cases found : procedureOf sha256 cpg item.1 with
  | some pid => exact ⟨pid, visited_of_tight ready explored procedures tight member found, rfl⟩
  | none =>
      obtain ⟨source, atSource, owned, reaches⟩ :=
        inside_of_tight ready explored procedures tight member
      rcases reaches.cases_tail with same | ⟨last, before, step⟩
      · rw [same] at found
        simp [found] at owned
      · rcases step.1.2 with edge | ⟨_, method⟩
        · exact absurd ⟨atSource, owned, before, step.1.1, edge, .inr ⟨found, atSink⟩⟩
            (tight source last item.1)
        · rw [procedureOf_method ready method] at found
          cases found

end Confined

/-- An incremental run visits only the closure, and recomputes only findings with a sink
there, exactly when no taint in the closure leaks out of it.
Witness: a leak is discovered by the restricted search; without one, induction along the
search keeps it inside. What is recomputed is what the run returns without prior findings.
-/
theorem incrementalSolve_confined_iff (sha256 : Hash) (cpg : ValidCPG) (spec : Spec)
    (affected : PySet ProcId) (priorSummaries : SummaryCache) (sVersion : Text) (envDigest : Bytes)
    (priorFindings : PySet Finding) (clock : Nat → Rat) (result : SolverResult)
    (ran : incrementalSolve sha256 clock cpg.toCPG spec affected priorSummaries sVersion envDigest
      priorFindings = .ok result)
    : ∃ closure recomputed,
        closureOf sha256 cpg.toCPG affected = .ok closure
        ∧ incrementalSolve sha256 clock cpg.toCPG spec affected priorSummaries sVersion envDigest []
          = .ok recomputed
        ∧ (∀ finding,
            finding ∈ result.findings
              ↔ finding ∈ recomputed.findings
                ∨ (finding ∈ priorFindings
                  ∧ ∀ pid ∈ closure, procedureOf sha256 cpg.toCPG finding.sink ≠ some pid))
        ∧ (((∀ pid ∈ result.visitedProcs, pid ∈ closure)
            ∧ ∀ finding ∈ recomputed.findings,
                ∃ pid ∈ closure, procedureOf sha256 cpg.toCPG finding.sink = some pid)
          ↔ ∀ source last target,
              ¬Leaks sha256 cpg.toCPG spec closure source last target) := by
  have ready := cpg.ready
  obtain ⟨_, valid, rest⟩ := bind_ok.mp (show incrementalSolve _ _ _ _ _ _ _ _ _ = _ from ran)
  obtain ⟨_, matching, rest⟩ := bind_ok.mp rest
  obtain ⟨order, ordered, _⟩ := bind_ok.mp rest
  have header := require_ok_iff.mp matching
  obtain ⟨sg, callers, seeds, final, fresh, visited, cache, runs, called, _, explored, members,
    distinct, visits⟩ := incrementalSolve_eq ready valid affected header ordered
  have procedures := procedureOf_eq ready ordered explored.built
  rw [runs] at ran
  obtain ⟨_, _, ran⟩ := bind_ok.mp ran
  obtain ⟨_, hashed, ran⟩ := bind_ok.mp ran
  cases ran
  obtain ⟨recomputed, alone, findings⟩ : ∃ recomputed,
      incrementalSolve sha256 clock cpg.toCPG spec affected priorSummaries sVersion envDigest []
        = .ok recomputed
      ∧ recomputed.findings = fresh := by
    obtain ⟨solutionHash, hashedAlone⟩ : ∃ solutionHash,
        hashSolution sha256 (fresh ++ []) (canonIndexOf order.canonicalOrder) = .ok solutionHash := by
      refine hashSolution_returns_iff.mpr fun finding member => ?_
      rw [List.append_nil] at member
      exact hashSolution_returns_iff.mp ⟨_, hashed⟩ finding (List.mem_append_left _ member)
    rw [runs, checkPriorFindings, ok_bind, preservedFindings, List.filter_nil, hashedAlone, ok_bind]
    refine ⟨_, rfl, ?_⟩
    rw [List.append_nil]
    exact PySet.update_eq_append (fun _ _ => List.not_mem_nil) distinct
  refine ⟨PySet.update affected callers, recomputed, ?_, alone, fun finding => ?_, ?_⟩
  · rw [closureOf, supergraphOf_eq ready ordered, explored.built, ok_bind, called, ok_bind]
  · rw [findings, PySet.mem_update, List.mem_append, mem_preservedFindings, not_procInScope_iff,
      procedures, or_iff_right List.not_mem_nil]
  · simp only [findings, members, visits, ← procedures]
    constructor
    · intro confined source last target leaks
      obtain ⟨visited, sinks⟩ := confined
      have member := leaks.discovered ready explored procedures
      rcases leaks.leaves with ⟨pid, found, outside⟩ | ⟨found, atSink⟩
      · exact outside (visited pid ⟨_, member, found⟩)
      · obtain ⟨finding, read, rfl, _⟩ := (explored.exists_readOut_iff
          (provenanceOf spec sVersion envDigest order) target _).mpr ⟨atSink, member⟩
        obtain ⟨pid, _, owned⟩ := sinks finding read
        rw [found] at owned
        cases owned
    · intro tight
      refine ⟨fun pid visited => ?_, fun finding read => ?_⟩
      · obtain ⟨item, member, found⟩ := visited
        exact visited_of_tight ready explored procedures tight member found
      · obtain ⟨item, path, chain, atSink, rfl⟩ := read
        exact sink_of_tight ready explored procedures tight chain.mem_found atSink

/-- `main` passes its input to `run`, which has two overloads of one qualified name. -/
def overloaded : ValidCPG where
  nodes := [
    { nodeId := 0, kind := py "METHOD", resolvedFqn := py "main" },
    { nodeId := 1, kind := py "CALL", operatorOrLiteral := py "input", enclosingDeclFqn := py "main" },
    { nodeId := 2, kind := py "CALL", operatorOrLiteral := py "run", enclosingDeclFqn := py "main" },
    { nodeId := 3, kind := py "METHOD", resolvedFqn := py "run" },
    { nodeId := 4, kind := py "CALL", operatorOrLiteral := py "exec", enclosingDeclFqn := py "run" },
    { nodeId := 5, kind := py "METHOD", resolvedFqn := py "run" },
    { nodeId := 6, kind := py "CALL", operatorOrLiteral := py "format", enclosingDeclFqn := py "run" }]
  edges := [
    { src := 0, dst := 1, kind := py "CFG" },
    { src := 1, dst := 2, kind := py "CFG" },
    { src := 2, dst := 3, kind := py "CALL" },
    { src := 2, dst := 5, kind := py "CALL" },
    { src := 3, dst := 4, kind := py "CFG" },
    { src := 5, dst := 6, kind := py "CFG" }]
  accepted := by decide
  representable := ⟨by decide, by decide, by decide, by decide⟩

/-- SHA-256 on the inputs hashed for this graph: its encoding and its one finding. -/
def overloadedSha256 : Hash :=
  tableHash [
    (orderDomain .strong ++ encodedGraph overloaded.toCPG [2, 4, 1, 6, 3, 5, 0],
      0x4db1dc2b485813d1021b661e57cd8f4192ffce0a5ebcccc3ec7095bb3605bf03),
    (toBytes 8 4 ++ toBytes 8 0 ++ toBytes 8 1 ++ toBytes 8 2 ++ toBytes 8 3 ++ toBytes 8 4 ++ pyb "|",
      0xdbbdec8aa60ad769e211b78f28a2b684230ebc17b62b157f0433b1c43b64625a)]

/-- The cache of a run that has visited nothing. -/
def emptySummaries : SummaryCache where
  header := (py "v1", toBytes 1 1)
  summaries := []
  visited := []

/-- What the incremental run on the overload that executes its input returns. -/
def overloadedResult : SolverResult where
  findings := [
    Provenance.finding
      {
        spec := commandInjection, sVersion := py "v1", envDigest := toBytes 1 1
        cpgOrderHash := toBytes 32 0x4db1dc2b485813d1021b661e57cd8f4192ffce0a5ebcccc3ec7095bb3605bf03
        fingerprintClass := .strong
      }
      (4, 0) [1, 2, 3, 4]]
  solutionHash := toBytes 32 0xdbbdec8aa60ad769e211b78f28a2b684230ebc17b62b157f0433b1c43b64625a
  visitedProcs := [0, 3, 5]
  summaries := {
    header := (py "v1", toBytes 1 1)
    summaries := [(0, []), (3, [(0, [0])]), (5, [])]
    visited := [0, 3, 5] }

theorem overloaded_runs
    : incrementalSolve overloadedSha256 (fun _ => 0) overloaded.toCPG commandInjection [3]
        emptySummaries (py "v1") (toBytes 1 1) []
      = .ok overloadedResult := by
  decide +kernel

/-- The body of the changed overload belongs to the other one, which is not in the closure: it
is visited, and the finding in it recomputed.
-/
theorem incrementalSolve_leaves_closure
    : ∃ closure result,
        closureOf overloadedSha256 overloaded.toCPG [3] = .ok closure
        ∧ incrementalSolve overloadedSha256 (fun _ => 0) overloaded.toCPG commandInjection [3]
            emptySummaries (py "v1") (toBytes 1 1) []
          = .ok result
        ∧ (¬∀ pid ∈ result.visitedProcs, pid ∈ closure)
        ∧ ¬∀ finding ∈ result.findings,
            ∃ pid ∈ closure, procedureOf overloadedSha256 overloaded.toCPG finding.sink = some pid :=
  ⟨[3, 0], overloadedResult, by decide +kernel, overloaded_runs, by decide, by decide +kernel⟩

theorem incrementalSolve_confined_iff_overloaded
    : ∃ closure,
        closureOf overloadedSha256 overloaded.toCPG [3] = .ok closure
        ∧ (((∀ pid ∈ overloadedResult.visitedProcs, pid ∈ closure)
            ∧ ∀ finding ∈ overloadedResult.findings,
                ∃ pid ∈ closure, procedureOf overloadedSha256 overloaded.toCPG finding.sink = some pid)
          ↔ ∀ source last target,
              ¬Leaks overloadedSha256 overloaded.toCPG commandInjection closure source last
                target) := by
  obtain ⟨closure, recomputed, closed, alone, _, confined⟩ := incrementalSolve_confined_iff
    overloadedSha256 overloaded commandInjection [3] emptySummaries (py "v1") (toBytes 1 1) []
    (fun _ => 0) overloadedResult overloaded_runs
  cases overloaded_runs.symm.trans alone
  exact ⟨closure, closed, confined⟩

end Scanipy.Analysis.Ifds

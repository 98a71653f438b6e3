import Scanipy.Analysis.Ifds.Readout
import Scanipy.Analysis.Ordering.Relisting

/-! What the entry points return: the findings read out of a finished search, and their hash. -/

namespace Scanipy.Analysis.Ifds

open Library Python

variable {spec : Spec} {sVersion : Text} {envDigest : Bytes}

theorem checkParameters_ok_iff
    : checkParameters spec sVersion envDigest = .ok ()
      ↔ sVersion ≠ [] ∧ envDigest ≠ [] ∧ (spec.engine = .ifds ∨ spec.engine = .ide) := by
  simp only [checkParameters, bind_ok, require_ok_iff, exists_const]
  refine and_congr_right fun _ => and_congr_right fun _ => ?_
  split
  next engine => simp [engine]
  next other => simp [other]

/-- The provenance of the findings of a run. -/
def provenanceOf (spec : Spec) (sVersion : Text) (envDigest : Bytes) (order : CanonicalOrderResult)
    : Provenance where
  spec
  sVersion
  envDigest
  cpgOrderHash := order.cpgOrderHash
  fingerprintClass := order.fingerprintClass

variable {cpg : CPG}

/-- A node of a complete order is looked up at its position. -/
theorem canonIndexOf_getD (distinct : cpg.nodeIds.Nodup) {order : List NodeId}
    (complete : order.Perm cpg.nodeIds) {id : NodeId} (known : id ∈ cpg.nodeIds) (default : Nat)
    : (canonIndexOf order).getD id default = order.idxOf id := by
  have found := rank_get? (complete.nodup_iff.mpr distinct) (complete.mem_iff.mpr known)
  rw [canonIndexOf, Dict.getD, found, Option.getD_some]

variable {sha256 : Hash} {clock : Nat → Rat} {otherClock : Nat → Rat} {order : CanonicalOrderResult}

/-- Runs on one graph that return have the same order, hash and class, whatever the clock. -/
theorem canonicalOrderFresh_agree (ready : cpg.Ready) {other : CanonicalOrderResult}
    (ran : canonicalOrderFresh sha256 clock cpg = .ok order)
    (again : canonicalOrderFresh sha256 otherClock cpg = .ok other)
    : order.canonicalOrder = other.canonicalOrder
      ∧ order.cpgOrderHash = other.cpgOrderHash
      ∧ order.fingerprintClass = other.fingerprintClass := by
  obtain ⟨orders, hashes, classes⟩ :=
    (CPG.Relisted.refl cpg).canonicalOrderFresh_agree ready ran again
  exact ⟨orders.symm, hashes.symm, classes.symm⟩

/-- Search and read-out on the supergraph succeed. -/
theorem explore_ok (formed : cpg.WellFormed) {sg : ExplodedSupergraph}
    (describes : sg.Describes cpg) {scope : Option (PySet ProcId)} {summaries : SummaryCache}
    (unspliced : NoSplice scope summaries) (provenance : Provenance) (canonIndex : Dict NodeId Nat)
    : ∃ seeding state cache seeds findings,
        seedSources sg.cpg provenance.spec = .ok seeding
        ∧ tabulate sg provenance.spec seeding scope summaries canonIndex = .ok (state, cache)
        ∧ buildFindings sg.cpg provenance state canonIndex = .ok findings
        ∧ Tabulated cpg sg provenance.spec scope canonIndex seeds state.frontier
        ∧ (∀ finding, finding ∈ findings ↔ ReadOut provenance cpg state.frontier finding)
        ∧ findings.Nodup
        ∧ cache.header = summaries.header
        ∧ ∀ pid,
            pid ∈ state.visited
              ↔ ∃ item ∈ state.frontier.known, sg.procOfNode.get? item.1 = some pid := by
  obtain ⟨seeding, seeded, interned⟩ := seedSources_ok formed provenance.spec
  obtain ⟨state, cache, seeds, ran, holds, tabulated, header⟩ :=
    tabulate_ok formed describes interned unspliced canonIndex
  obtain ⟨sound, _⟩ := tabulated.sound
  obtain ⟨findings, built, members, distinct⟩ :=
    buildFindings_ok holds formed sound.distinct sound.traced provenance canonIndex
  rw [describes.graph]
  exact ⟨seeding, state, cache, seeds, findings, seeded, ran, built, tabulated, members, distinct,
    header, holds.visited⟩

/-- A finished search over the supergraph of a graph and a complete order. -/
structure Explored (cpg : CPG) (spec : Spec) (scope : Option (PySet ProcId)) (order : List NodeId)
    (sg : ExplodedSupergraph) (seeds : List Item) (final : Frontier Item) : Prop where
  complete : order.Perm cpg.nodeIds
  built : buildSupergraph cpg order = .ok sg
  describes : sg.Describes cpg
  tabulated : Tabulated cpg sg spec scope (canonIndexOf order) seeds final

/-- What `solve` returns: the findings of a search of the whole graph. -/
structure Solved (sha256 : Hash) (cpg : CPG) (spec : Spec) (sVersion : Text) (envDigest : Bytes)
    (order : CanonicalOrderResult) (sg : ExplodedSupergraph) (seeds : List Item)
    (final : Frontier Item) (result : SolverResult) : Prop where
  explored : Explored cpg spec none order.canonicalOrder sg seeds final
  findings : ∀ finding,
    finding ∈ result.findings ↔ ReadOut (provenanceOf spec sVersion envDigest order) cpg final finding
  distinct : result.findings.Nodup
  hashed : hashSolution sha256 result.findings (canonIndexOf order.canonicalOrder)
    = .ok result.solutionHash
  header : result.summaries.header = (sVersion, envDigest)

/-- Past its checks and the canonical order, `solve` fails only where hashing does. -/
theorem solve_eq (ready : cpg.Ready) (valid : checkParameters spec sVersion envDigest = .ok ())
    (ordered : canonicalOrderFresh sha256 clock cpg = .ok order)
    : ∃ sg seeds final findings visited cache,
        solve sha256 clock cpg spec sVersion envDigest
          = (hashSolution sha256 findings (canonIndexOf order.canonicalOrder) >>= fun solutionHash =>
              .ok { findings, solutionHash, visitedProcs := visited, summaries := cache })
        ∧ Explored cpg spec none order.canonicalOrder sg seeds final
        ∧ (∀ finding,
            finding ∈ findings
              ↔ ReadOut (provenanceOf spec sVersion envDigest order) cpg final finding)
        ∧ findings.Nodup
        ∧ cache.header = (sVersion, envDigest)
        ∧ ∀ pid, pid ∈ visited ↔ ∃ item ∈ final.known, sg.procOfNode.get? item.1 = some pid := by
  have complete := (canonicalOrderFresh_hash ready ordered).1
  obtain ⟨sg, built, describes⟩ := buildSupergraph_ok ready.wellFormed order.canonicalOrder
  have unspliced : NoSplice none { header := (sVersion, envDigest), summaries := [], visited := [] } :=
    fun _ _ => rfl
  obtain ⟨seeding, state, cache, seeds, findings, seeded, ran, read, tabulated, members, distinct,
    header, visits⟩ := explore_ok ready.wellFormed describes unspliced
      (provenanceOf spec sVersion envDigest order) (canonIndexOf order.canonicalOrder)
  refine ⟨sg, seeds, state.frontier, findings, state.visited, cache, ?_,
    ⟨complete, built, describes, tabulated⟩, members, distinct, header, visits⟩
  have asSet : PySet.update [] findings = findings :=
    PySet.update_eq_append (fun _ _ => List.not_mem_nil) distinct
  change seedSources sg.cpg spec = _ at seeded
  change tabulate sg spec seeding _ _ _ = _ at ran
  rw [provenanceOf] at read
  rw [solve, valid, ok_bind, ordered, ok_bind, built, ok_bind, seeded, ok_bind, ran, ok_bind]
  dsimp only
  rw [read, ok_bind, asSet]

variable {result : SolverResult}

/-- A run of `solve` that returns. -/
theorem solved_of_ok (ready : cpg.Ready)
    (ran : solve sha256 clock cpg spec sVersion envDigest = .ok result)
    : checkParameters spec sVersion envDigest = .ok ()
      ∧ ∃ order,
          canonicalOrderFresh sha256 clock cpg = .ok order
          ∧ ∃ sg seeds final,
              Solved sha256 cpg spec sVersion envDigest order sg seeds final result := by
  obtain ⟨_, valid, rest⟩ := bind_ok.mp (show solve _ _ _ _ _ _ = _ from ran)
  obtain ⟨order, ordered, _⟩ := bind_ok.mp rest
  obtain ⟨sg, seeds, final, findings, visited, cache, same, explored, members, distinct, header,
    _⟩ := solve_eq ready valid ordered
  rw [same] at ran
  obtain ⟨digest, hashed, returned⟩ := bind_ok.mp ran
  cases returned
  exact ⟨valid, order, ordered, sg, seeds, final, explored, members, distinct, hashed, header⟩

/-- Runs of `solve` that return return the same, whatever the clock. -/
theorem solve_agree (ready : cpg.Ready) {other : SolverResult}
    (ran : solve sha256 clock cpg spec sVersion envDigest = .ok result)
    (again : solve sha256 otherClock cpg spec sVersion envDigest = .ok other)
    : result = other := by
  unfold solve at ran again
  obtain ⟨_, _, ran⟩ := bind_ok.mp ran
  obtain ⟨_, _, again⟩ := bind_ok.mp again
  obtain ⟨order, ordered, ran⟩ := bind_ok.mp ran
  obtain ⟨otherOrder, otherOrdered, again⟩ := bind_ok.mp again
  obtain ⟨sameOrder, sameHash, sameClass⟩ := canonicalOrderFresh_agree ready ordered otherOrdered
  rw [sameOrder, sameHash, sameClass] at ran
  exact Except.ok.inj (ran.symm.trans again)

/-- The summaries of the closure are dropped, so none is spliced there. -/
theorem noSplice_invalidate (cache : SummaryCache) (closure : PySet ProcId)
    : NoSplice (some closure) (cache.invalidate closure) := by
  intro pid inside
  have dropped := Dict.get?_filter cache.summaries (fun pid => decide (pid ∉ closure)) pid
  have member : pid ∈ closure := inside
  rw [SummaryCache.invalidate, Dict.getD, dropped]
  simp [member]

theorem checkPriorFindings_ok {findings : List Finding}
    : checkPriorFindings sVersion envDigest findings = .ok ()
      ↔ ∀ finding ∈ findings, finding.sVersion = sVersion ∧ finding.envDigest = envDigest := by
  induction findings with
  | nil => simp [checkPriorFindings]
  | cons finding rest ih =>
      by_cases aligned : finding.sVersion = sVersion ∧ finding.envDigest = envDigest
      · simp [checkPriorFindings, aligned, ih]
      · have refused : finding.sVersion ≠ sVersion ∨ finding.envDigest ≠ envDigest := by
          simpa only [not_and_or] using aligned
        simp [checkPriorFindings, refused, aligned]

/-- The prior findings that a run keeps: those whose sink is not in the closure. -/
def preservedFindings (sg : ExplodedSupergraph) (closure : PySet ProcId)
    (priorFindings : List Finding)
    : List Finding :=
  priorFindings.filter fun finding =>
    ¬ProcInScope (some closure) (sg.procOfNode.get? finding.sink)

/-- Past its checks and the canonical order, `incremental_solve` searches the closure,
whatever the prior findings, and fails only where hashing does.
-/
theorem incrementalSolve_eq (ready : cpg.Ready)
    (valid : checkParameters spec sVersion envDigest = .ok ()) (affected : PySet ProcId)
    {priorSummaries : SummaryCache} (header : priorSummaries.header = (sVersion, envDigest))
    (ordered : canonicalOrderFresh sha256 clock cpg = .ok order)
    : ∃ sg callers seeds final fresh visited cache,
        (∀ priorFindings : PySet Finding,
          incrementalSolve sha256 clock cpg spec affected priorSummaries sVersion envDigest
              priorFindings
            = (checkPriorFindings sVersion envDigest priorFindings >>= fun _ =>
                hashSolution sha256
                    (fresh ++ preservedFindings sg (PySet.update affected callers) priorFindings)
                    (canonIndexOf order.canonicalOrder) >>= fun solutionHash =>
                .ok {
                  findings := PySet.update []
                    (fresh ++ preservedFindings sg (PySet.update affected callers) priorFindings)
                  solutionHash, visitedProcs := visited, summaries := cache
                }))
        ∧ sg.transitiveCallers affected = .ok callers
        ∧ (∀ pid, pid ∈ PySet.update affected callers ↔ sg.InClosure affected pid)
        ∧ Explored cpg spec (some (PySet.update affected callers)) order.canonicalOrder sg seeds final
        ∧ (∀ finding,
            finding ∈ fresh
              ↔ ReadOut (provenanceOf spec sVersion envDigest order) cpg final finding)
        ∧ fresh.Nodup
        ∧ ∀ pid, pid ∈ visited ↔ ∃ item ∈ final.known, sg.procOfNode.get? item.1 = some pid := by
  have complete := (canonicalOrderFresh_hash ready ordered).1
  obtain ⟨sg, built, describes⟩ := buildSupergraph_ok ready.wellFormed order.canonicalOrder
  obtain ⟨callers, called, closed⟩ := closure_ok describes affected
  obtain ⟨seeding, state, cache, seeds, fresh, seeded, ran, read, tabulated, members, distinct, _,
    visited⟩ :=
    explore_ok ready.wellFormed describes
      (noSplice_invalidate priorSummaries (PySet.update affected callers))
      (provenanceOf spec sVersion envDigest order) (canonIndexOf order.canonicalOrder)
  refine ⟨sg, callers, seeds, state.frontier, fresh, state.visited, cache, fun priorFindings => ?_,
    called, closed, ⟨complete, built, describes, tabulated⟩, members, distinct, visited⟩
  have matching (message : String)
      : require (priorSummaries.header = (sVersion, envDigest)) message = .ok () :=
    require_ok_iff.mpr header
  change seedSources sg.cpg spec = _ at seeded
  change tabulate sg spec seeding _ _ _ = _ at ran
  rw [provenanceOf] at read
  rw [incrementalSolve, valid, ok_bind, matching, ok_bind, ordered, ok_bind, built, ok_bind, called,
    ok_bind, seeded, ok_bind, ran, ok_bind]
  dsimp only
  rw [read, ok_bind]
  rfl

end Scanipy.Analysis.Ifds

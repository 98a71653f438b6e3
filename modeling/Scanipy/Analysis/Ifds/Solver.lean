import Scanipy.Analysis.Fingerprint.Compute
import Scanipy.Analysis.Ifds.Supergraph

/-! The tabulation solver: taint facts over the supergraph, findings and their hash, and the
incremental mode.
-/

namespace Scanipy.Analysis.Ifds

open Library Python

abbrev AccessPathPattern := Text

/-- `Clause`: the four primitives. -/
inductive Clause where
  | source (pattern : AccessPathPattern)
  | sink (pattern : AccessPathPattern)
  | sanitize (pattern : AccessPathPattern)
  | propagate (source target : Text)
  deriving DecidableEq

/-- `EngineTag`, or a tag that is none of its values. -/
inductive Engine where
  | ifds
  | ide
  | other (tag : Text)
  deriving DecidableEq

/-- `Spec`, with the fields the solver reads. -/
structure Spec where
  id : Text
  engine : Engine
  clauses : List Clause

/-- `_pattern_matches`. -/
def PatternMatches (pattern : AccessPathPattern) (node : CPGNode) : Prop :=
  pattern = node.operatorOrLiteral ∧ node.operatorOrLiteral ≠ []

instance (pattern : AccessPathPattern) (node : CPGNode) : Decidable (PatternMatches pattern node) :=
  inferInstanceAs (Decidable (_ ∧ _))

/-- `_sanitized_at`. -/
def sanitizedAt (spec : Spec) (node : CPGNode) : Bool :=
  spec.clauses.any fun clause =>
    match clause with
    | .sanitize pattern => PatternMatches pattern node
    | _ => false

/-- `_is_sink`. -/
def isSink (spec : Spec) (node : CPGNode) : Bool :=
  spec.clauses.any fun clause =>
    match clause with
    | .sink pattern => PatternMatches pattern node
    | _ => false

/-- `Fact`: minted from zero. -/
abbrev Fact := Nat

/-- `Finding`. -/
structure Finding where
  sink : NodeId
  fact : Fact
  witness : List NodeId
  specId : Text
  origin : Text
  sVersion : Text
  envDigest : Bytes
  cpgOrderHash : Bytes
  cpgOrderHashAnnotation : Text
  fingerprintClass : FingerprintClass
  engine : Engine
  deriving DecidableEq

/-- `SummaryCache`. -/
structure SummaryCache where
  header : Text × Bytes
  summaries : Dict ProcId (Dict Fact (PySet Fact))
  visited : PySet ProcId
  deriving DecidableEq

/-- `invalidate` on a copy. -/
def SummaryCache.invalidate (cache : SummaryCache) (procs : PySet ProcId) : SummaryCache :=
  {
    cache with
    summaries := cache.summaries.filter fun entry => entry.1 ∉ procs
    visited := cache.visited.filter fun proc => proc ∉ procs
  }

/-- `SolverResult`. -/
structure SolverResult where
  findings : PySet Finding
  solutionHash : Bytes
  visitedProcs : PySet ProcId
  summaries : SummaryCache
  deriving DecidableEq

/-- The patterns of the source clauses. -/
def Spec.sources (spec : Spec) : List AccessPathPattern :=
  spec.clauses.filterMap fun clause =>
    match clause with
    | .source pattern => some pattern
    | _ => none

/-- `seeded`, `fact_pattern` and `next_fact`. -/
structure Seeding where
  seeded : Dict NodeId (PySet Fact) := []
  factPattern : Dict Fact AccessPathPattern := []
  nextFact : Fact := 0

/-- The inner loop of `_seed_sources`. -/
def seedNode (node : CPGNode) : List AccessPathPattern → Seeding → Seeding
  | [], seeding => seeding
  | pattern :: rest, seeding =>
      if PatternMatches pattern node then
        seedNode node rest {
          seeded := seeding.seeded.set node.nodeId
            (PySet.add (seeding.seeded.getD node.nodeId []) seeding.nextFact)
          factPattern := seeding.factPattern.set seeding.nextFact pattern
          nextFact := seeding.nextFact + 1
        }
      else
        seedNode node rest seeding

/-- The outer loop of `_seed_sources`. -/
def seedNodes (nodeById : Dict NodeId CPGNode) (sources : List AccessPathPattern)
    : List NodeId → Seeding → Except AnalysisError Seeding
  | [], seeding => .ok seeding
  | nid :: rest, seeding => do
      let node ← subscript nodeById nid
      seedNodes nodeById sources rest (seedNode node sources seeding)

/-- `_seed_sources`. -/
def seedSources (cpg : CPG) (spec : Spec) : Except AnalysisError Seeding :=
  seedNodes cpg.byId spec.sources (sorted cpg.byId.keys) {}

-- Tabulation

/-- `(node, fact)`: the fact holds at the node. -/
abbrev Item := NodeId × Fact

/-- The mutable state of `_tabulate`. -/
structure Tabulation where
  factsAt : Dict NodeId (PySet Fact)
  visited : PySet ProcId := []
  pred : Dict Item (Option Item) := []
  worklist : List Item := []

/-- `proc_in_scope`. -/
def ProcInScope (restrictTo : Option (PySet ProcId)) : Option ProcId → Prop
  | none => False
  | some pid =>
      match restrictTo with
      | none => True
      | some closure => pid ∈ closure

instance (restrictTo : Option (PySet ProcId)) (pid : Option ProcId)
    : Decidable (ProcInScope restrictTo pid) :=
  match pid, restrictTo with
  | none, _ => inferInstanceAs (Decidable False)
  | some _, none => inferInstanceAs (Decidable True)
  | some pid, some closure => inferInstanceAs (Decidable (pid ∈ closure))

/-- `add`. -/
def add (sg : ExplodedSupergraph) (item : Item) (predKey : Option Item) (state : Tabulation)
    : Except AnalysisError Tabulation := do
  let facts ← subscript state.factsAt item.1
  if item.2 ∈ facts then
    .ok state
  else
    .ok {
      factsAt := state.factsAt.set item.1 (PySet.add facts item.2)
      pred := state.pred.set item predKey
      worklist := state.worklist ++ [item]
      visited :=
        match sg.procOfNode.get? item.1 with
        | some pid => PySet.add state.visited pid
        | none => state.visited
    }

/-- A loop of `add` over items with one predecessor. -/
def addAll (sg : ExplodedSupergraph) (predKey : Option Item)
    : List Item → Tabulation → Except AnalysisError Tabulation
  | [], state => .ok state
  | item :: rest, state => do
      let state ← add sg item predKey state
      addAll sg predKey rest state

/-- The seeding loop of `_tabulate`. -/
def addSeeds (sg : ExplodedSupergraph) (restrictTo : Option (PySet ProcId))
    : List (NodeId × PySet Fact) → Tabulation → Except AnalysisError Tabulation
  | [], state => .ok state
  | (nid, facts) :: rest, state =>
      if ProcInScope restrictTo (sg.procOfNode.get? nid) then do
        let state ← addAll sg none ((sorted facts).map fun fact => (nid, fact)) state
        addSeeds sg restrictTo rest state
      else
        addSeeds sg restrictTo rest state

/-- The spliced summary: each exit fact at every CFG successor of the call. -/
def spliced (sg : ExplodedSupergraph) (summaries : SummaryCache) (item : Item) (callee : ProcId)
    : List Item :=
  (sorted ((summaries.summaries.getD callee []).getD item.2 [])).flatMap fun exitFact =>
    (sg.cfgSucc.getD item.1 []).map fun ret => (ret, exitFact)

/-- The loop over the callees of a call. -/
def enterCallees (sg : ExplodedSupergraph) (restrictTo : Option (PySet ProcId))
    (summaries : SummaryCache) (item : Item)
    : List ProcId → Tabulation → Except AnalysisError Tabulation
  | [], state => .ok state
  | calleePid :: rest, state =>
      if ProcInScope restrictTo (some calleePid) then do
        let callee ← subscript sg.procs calleePid
        let state ← add sg (callee.entry, item.2) (some item) state
        let state ← addAll sg (some item) (spliced sg summaries item calleePid) state
        enterCallees sg restrictTo summaries item rest state
      else
        enterCallees sg restrictTo summaries item rest state

/-- Propagate a popped item. -/
def propagate (sg : ExplodedSupergraph) (spec : Spec) (restrictTo : Option (PySet ProcId))
    (summaries : SummaryCache) (item : Item) (state : Tabulation)
    : Except AnalysisError Tabulation := do
  let node ← subscript sg.cpg.byId item.1
  if sanitizedAt spec node then
    .ok state
  else do
    let state ← addAll sg (some item)
      ((sg.cfgSucc.getD item.1 []).map fun succ => (succ, item.2)) state
    enterCallees sg restrictTo summaries item (sg.callSucc.getD item.1 []) state

/-- The sort key of the worklist. -/
def worklistKey (canonIndex : Dict NodeId Nat) (item : Item) : Nat ×ₗ Nat :=
  toLex (canonIndex.getD item.1 (2 ^ 30), item.2)

/-- The `while worklist` loop. -/
def tabulateLoop (sg : ExplodedSupergraph) (spec : Spec) (restrictTo : Option (PySet ProcId))
    (summaries : SummaryCache) (canonIndex : Dict NodeId Nat)
    : Nat → Tabulation → Except AnalysisError Tabulation
  | fuel, state =>
      match fuel, sortedBy (worklistKey canonIndex) state.worklist with
      | _, [] => .ok state
      | 0, _ :: _ => .error .outOfFuel
      | fuel + 1, item :: rest => do
          let state ← propagate sg spec restrictTo summaries item { state with worklist := rest }
          tabulateLoop sg spec restrictTo summaries canonIndex fuel state

/-- The facts at the entry and the body of a procedure. -/
def reachedFacts (factsAt : Dict NodeId (PySet Fact))
    : List NodeId → PySet Fact → Except AnalysisError (PySet Fact)
  | [], reach => .ok reach
  | node :: rest, reach => do
      let facts ← subscript factsAt node
      reachedFacts factsAt rest (PySet.update reach facts)

/-- The loop that records the summary of each visited procedure. -/
def recordSummaries (sg : ExplodedSupergraph) (factsAt : Dict NodeId (PySet Fact))
    : List ProcId → SummaryCache → Except AnalysisError SummaryCache
  | [], cache => .ok cache
  | pid :: rest, cache => do
      let proc ← subscript sg.procs pid
      let entryFacts ← subscript factsAt proc.entry
      let reach ← reachedFacts factsAt (proc.entry :: proc.bodyNodes) []
      recordSummaries sg factsAt rest {
        cache with
        summaries := cache.summaries.set pid ((sorted entryFacts).map fun fact => (fact, reach))
        visited := PySet.add cache.visited pid
      }

/-- `_tabulate`; also returns the summaries it updated. A popped item is never added again, so
the number of nodes and facts bounds the loop.
-/
def tabulate (sg : ExplodedSupergraph) (spec : Spec) (seeding : Seeding)
    (restrictTo : Option (PySet ProcId)) (summaries : SummaryCache) (canonIndex : Dict NodeId Nat)
    : Except AnalysisError (Tabulation × SummaryCache) := do
  let empty : Tabulation :=
    { factsAt := Dict.ofPairs (sg.cpg.nodes.map fun node => (node.nodeId, [])) }
  let state ← addSeeds sg restrictTo seeding.seeded empty
  let state ← tabulateLoop sg spec restrictTo summaries canonIndex
    (sg.cpg.nodes.length * seeding.nextFact) state
  let summaries ← recordSummaries sg state.factsAt state.visited summaries
  .ok (state, summaries)

/-- The loop of `_witness`, sink first. -/
def witnessLoop (pred : Dict Item (Option Item))
    : Nat → Option Item → PySet Item → List NodeId → Except AnalysisError (List NodeId)
  | _, none, _, path => .ok path
  | 0, some _, _, _ => .error .outOfFuel
  | fuel + 1, some cur, seen, path =>
      if cur ∈ seen then
        .ok path
      else
        witnessLoop pred fuel (pred.getD cur none) (PySet.add seen cur) (path ++ [cur.1])

/-- `_witness`: every recorded item is visited at most once. -/
def witness (pred : Dict Item (Option Item)) (sink : NodeId) (fact : Fact)
    : Except AnalysisError (List NodeId) := do
  let path ← witnessLoop pred (pred.length + 1) (some (sink, fact)) [] []
  .ok path.reverse

/-- The parameters of a run that every finding carries. -/
structure Provenance where
  spec : Spec
  sVersion : Text
  envDigest : Bytes
  cpgOrderHash : Bytes
  fingerprintClass : FingerprintClass

/-- The finding for a fact at a sink. -/
def findingAt (provenance : Provenance) (pred : Dict Item (Option Item)) (item : Item)
    : Except AnalysisError Finding := do
  let path ← witness pred item.1 item.2
  .ok {
    sink := item.1
    fact := item.2
    witness := path
    specId := provenance.spec.id
    origin := py "deterministic-core"
    sVersion := provenance.sVersion
    envDigest := provenance.envDigest
    cpgOrderHash := provenance.cpgOrderHash
    cpgOrderHashAnnotation := cpgOrderHashAnnotation
    fingerprintClass := provenance.fingerprintClass
    engine := provenance.spec.engine
  }

/-- The body of the loop of `_build_findings`. -/
def findingsAt (cpg : CPG) (provenance : Provenance) (state : Tabulation) (nid : NodeId)
    : Except AnalysisError (List Finding) := do
  let node ← subscript cpg.byId nid
  if isSink provenance.spec node then
    Metered.collect (findingAt provenance state.pred)
      ((sorted (state.factsAt.getD nid [])).map fun fact => (nid, fact))
  else
    .ok []

/-- `_build_findings`. -/
def buildFindings (cpg : CPG) (provenance : Provenance) (state : Tabulation)
    (canonIndex : Dict NodeId Nat)
    : Except AnalysisError (List Finding) := do
  let canon := sortedBy
    (fun nid => (toLex (canonIndex.getD nid (2 ^ 30), nid) : Nat ×ₗ Int)) cpg.nodeIds
  let findings ← Metered.collect (findingsAt cpg provenance state) canon
  .ok findings.flatten

/-- The bytes hashed for one finding. -/
def findingBytes (finding : Finding) : Except AnalysisError Bytes := do
  let sink ← toBytes8 finding.sink
  let fact ← toBytes8 finding.fact
  let witness ← Metered.collect toBytes8 finding.witness
  .ok (sink ++ fact ++ witness.flatten ++ pyb "|")

/-- `_hash_solution`. -/
def hashSolution (sha256 : Hash) (findings : List Finding) (canonIndex : Dict NodeId Nat)
    : Except AnalysisError Bytes := do
  let ordered := sortedBy
    (fun finding : Finding => worklistKey canonIndex (finding.sink, finding.fact)) findings
  let parts ← Metered.collect findingBytes ordered
  .ok (sha256 parts.flatten)

/-- The parameter checks shared by both entry points. -/
def checkParameters (spec : Spec) (sVersion : Text) (envDigest : Bytes)
    : Except AnalysisError Unit := do
  require (sVersion ≠ [])
    "S_version is required (INV-2); refusing to run with an unpinned value"
  require (envDigest ≠ [])
    "env_digest is required (INV-2); refusing to run with an unpinned value"
  if spec.engine = .ifds ∨ spec.engine = .ide then
    .ok ()
  else
    .error (.nonDistributiveSpec spec.id)

/-- `canon_index`. -/
def canonIndexOf (canonicalOrder : List NodeId) : Dict NodeId Nat :=
  Dict.ofPairs canonicalOrder.zipIdx

/-- `solve`. -/
def solve (sha256 : Hash) (clock : Nat → Rat) (cpg : CPG) (spec : Spec) (sVersion : Text)
    (envDigest : Bytes)
    : Except AnalysisError SolverResult := do
  checkParameters spec sVersion envDigest
  let orderResult ← canonicalOrderFresh sha256 clock cpg
  let canonIndex := canonIndexOf orderResult.canonicalOrder
  let sg ← buildSupergraph cpg orderResult.canonicalOrder
  let seeding ← seedSources sg.cpg spec
  let (state, summaries) ← tabulate sg spec seeding none
    { header := (sVersion, envDigest), summaries := [], visited := [] } canonIndex
  let findings ← buildFindings sg.cpg
    {
      spec, sVersion, envDigest, cpgOrderHash := orderResult.cpgOrderHash
      fingerprintClass := orderResult.fingerprintClass
    } state canonIndex
  let solutionHash ← hashSolution sha256 findings canonIndex
  .ok { findings := PySet.update [] findings, solutionHash, visitedProcs := state.visited, summaries }

/-- The version guard of `incremental_solve`, in the order the set is iterated. -/
def checkPriorFindings (sVersion : Text) (envDigest : Bytes)
    : List Finding → Except AnalysisError Unit
  | [] => .ok ()
  | finding :: rest =>
      if finding.sVersion ≠ sVersion ∨ finding.envDigest ≠ envDigest then
        .error (.priorFindingsMismatch finding.sVersion finding.envDigest sVersion envDigest)
      else
        checkPriorFindings sVersion envDigest rest

/-- `incremental_solve`. -/
def incrementalSolve (sha256 : Hash) (clock : Nat → Rat) (cpg : CPG) (spec : Spec)
    (affectedSet : PySet ProcId) (priorSummaries : SummaryCache) (sVersion : Text)
    (envDigest : Bytes) (priorFindings : PySet Finding := [])
    : Except AnalysisError SolverResult := do
  checkParameters spec sVersion envDigest
  require (priorSummaries.header = (sVersion, envDigest))
    "SummaryCacheVersionMismatch: prior summaries keyed under a different (S_version, env_digest)"
  let orderResult ← canonicalOrderFresh sha256 clock cpg
  let canonIndex := canonIndexOf orderResult.canonicalOrder
  let sg ← buildSupergraph cpg orderResult.canonicalOrder
  let callers ← sg.transitiveCallers affectedSet
  let closure := PySet.update affectedSet callers
  let seeding ← seedSources sg.cpg spec
  let (state, summaries) ← tabulate sg spec seeding (some closure)
    (priorSummaries.invalidate closure) canonIndex
  let fresh ← buildFindings sg.cpg
    {
      spec, sVersion, envDigest, cpgOrderHash := orderResult.cpgOrderHash
      fingerprintClass := orderResult.fingerprintClass
    } state canonIndex
  checkPriorFindings sVersion envDigest priorFindings
  let preserved := priorFindings.filter fun finding =>
    ¬ProcInScope (some closure) (sg.procOfNode.get? finding.sink)
  let findings := fresh ++ preserved
  let solutionHash ← hashSolution sha256 findings canonIndex
  .ok { findings := PySet.update [] findings, solutionHash, visitedProcs := state.visited, summaries }

end Scanipy.Analysis.Ifds

import Scanipy.Analysis.Ifds.Runs

/-! Full tabulation is reachability that respects sanitisers. -/

namespace Scanipy.Analysis.Ifds

open Library Python

/-- One step of taint: along a CFG edge, or along a CALL edge to a METHOD node, from a node
that matches no sanitise clause.
-/
def TaintStep (cpg : CPG) (spec : Spec) (source target : NodeId) : Prop :=
  sanitizedAt spec (cpg.nodeAt source) = false
  ∧ (HasEdge cpg cfgEdge source target ∨ (HasEdge cpg callEdge source target ∧ MethodAt cpg target))

variable {cpg : CPG} {spec : Spec}

theorem flows_none : Flows cpg spec none = TaintStep cpg spec := by
  funext source target
  simp [Flows, TaintStep, ProcInScope]

variable {item : Item}

/-- Items are reached with one fact, along the flow between their nodes. -/
theorem reaches_iff {sg : ExplodedSupergraph} (describes : sg.Describes cpg)
    {scope : Option (PySet ProcId)} {target : Item}
    : Relation.ReflTransGen (fun source target => target ∈ itemNext sg spec scope source) item target
      ↔ target.2 = item.2 ∧ Relation.ReflTransGen (Flows cpg spec scope) item.1 target.1 := by
  constructor
  · intro reaches
    induction reaches with
    | refl => exact ⟨rfl, .refl⟩
    | tail _ step ih =>
        obtain ⟨sameFact, flows⟩ := (mem_itemNext describes).mp step
        exact ⟨sameFact.trans ih.1, ih.2.tail flows⟩
  · obtain ⟨source, fact⟩ := item
    obtain ⟨id, otherFact⟩ := target
    dsimp only
    rintro ⟨rfl, reaches⟩
    induction reaches with
    | refl => exact .refl
    | tail _ step ih => exact ih.tail ((mem_itemNext describes).mpr ⟨rfl, step⟩)

section Explored

variable {cpg : CPG} {spec : Spec} {scope : Option (PySet ProcId)} {order : List NodeId}
  {sg : ExplodedSupergraph} {seeds : List Item} {final : Frontier Item}
  (explored : Explored cpg spec scope order sg seeds final)

include explored

/-- The search discovers exactly what the introduced facts in scope reach. -/
theorem Explored.mem_known_iff
    : item ∈ final.known
      ↔ ∃ source,
          Introduces cpg spec source item.2
          ∧ ProcInScope scope (sg.procOfNode.get? source)
          ∧ Relation.ReflTransGen (Flows cpg spec scope) source item.1 := by
  obtain ⟨sound, done⟩ := explored.tabulated.sound
  rw [sound.mem_known_iff done]
  simp only [explored.tabulated.seeds, reaches_iff explored.describes]
  constructor
  · rintro ⟨⟨source, fact⟩, ⟨introduces, inScope⟩, sameFact, reaches⟩
    exact ⟨source, sameFact.symm ▸ introduces, inScope, reaches⟩
  · rintro ⟨source, introduces, inScope, reaches⟩
    exact ⟨(source, item.2), ⟨introduces, inScope⟩, rfl, reaches⟩

theorem Explored.inside (formed : cpg.WellFormed) {item : Item} (member : item ∈ final.known)
    : item.1 ∈ cpg.nodeIds ∧ item.2 < (sourceMatches cpg spec).length := by
  obtain ⟨source, introduces, _, reaches⟩ := explored.mem_known_iff.mp member
  refine ⟨?_, introduces.lt⟩
  rcases reaches.cases_tail with same | ⟨_, _, step⟩
  · exact same ▸ introduces.known
  · exact step.target formed

/-- A node is in scope of the whole graph when some procedure owns it. -/
theorem Explored.owned_iff {id : NodeId}
    : ProcInScope none (sg.procOfNode.get? id) ↔ ∃ pid, Owns cpg pid id := by
  cases owned : sg.procOfNode.get? id with
  | none => simpa [ProcInScope] using fun pid => explored.describes.unowned id pid owned
  | some pid => simpa [ProcInScope] using ⟨pid, explored.describes.owned id pid owned⟩

/-- The findings of a finished search are the items at sinks. -/
theorem Explored.exists_readOut_iff (provenance : Provenance) (sink : NodeId) (fact : Fact)
    : (∃ finding,
        ReadOut provenance cpg final finding ∧ finding.sink = sink ∧ finding.fact = fact)
      ↔ isSink provenance.spec (cpg.nodeAt sink) = true ∧ (sink, fact) ∈ final.known := by
  obtain ⟨sound, _⟩ := explored.tabulated.sound
  constructor
  · rintro ⟨_, ⟨item, path, traced, atSink, rfl⟩, rfl, rfl⟩
    exact ⟨atSink, traced.mem_found⟩
  · rintro ⟨atSink, member⟩
    obtain ⟨path, traced⟩ := sound.traced _ member
    exact ⟨_, ⟨_, path, traced, atSink, rfl⟩, rfl, rfl⟩

/-- Findings can be hashed unless a fact is too large for eight bytes. -/
theorem Explored.findingBytes_ok (formed : cpg.WellFormed)
    (few : (sourceMatches cpg spec).length ≤ 2 ^ 64) {provenance : Provenance} {finding : Finding}
    (readOut : ReadOut provenance cpg final finding)
    : ∃ bytes, findingBytes finding = .ok bytes := by
  obtain ⟨item, path, traced, _, rfl⟩ := readOut
  have encodable {id : NodeId} (known : id ∈ cpg.nodeIds)
      : toBytes8 id = .ok (toBytes 8 id.toNat) := by
    obtain ⟨node, member, rfl⟩ := List.mem_map.mp known
    exact if_pos (formed.nodes node member).nodeId
  obtain ⟨sinkKnown, factSmall⟩ := explored.inside formed traced.mem_found
  have factFits : toBytes8 (item.2 : Int) = .ok (toBytes 8 (item.2 : Int).toNat) :=
    if_pos ⟨Int.natCast_nonneg _, by exact_mod_cast lt_of_lt_of_le factSmall few⟩
  have walked : Metered.collect toBytes8 (path.map Prod.fst)
      = .ok ((path.map Prod.fst).map fun id => toBytes 8 id.toNat) := by
    refine collect_ok fun id member => ?_
    obtain ⟨earlier, among, rfl⟩ := List.mem_map.mp member
    obtain ⟨_, ends, _⟩ := traced.of_mem among
    exact encodable (explored.inside formed ends.mem_found).1
  unfold findingBytes Provenance.finding
  rw [encodable sinkKnown, ok_bind, factFits, ok_bind, walked, ok_bind]
  exact ⟨_, rfl⟩

end Explored

/-- `solve` returns unless the deadline passes or a fact is too large. -/
theorem solve_returns (sha256 : Hash) (ready : cpg.Ready) {sVersion : Text} {envDigest : Bytes}
    (valid : checkParameters spec sVersion envDigest = .ok ()) {clock : Nat → Rat}
    (alive : NeverExpires clock defaultT) (few : (sourceMatches cpg spec).length ≤ 2 ^ 64)
    : ∃ result, solve sha256 clock cpg spec sVersion envDigest = .ok result := by
  have positive : 0 < defaultB := by decide
  obtain ⟨order, ordered⟩ := canonicalOrderFresh_returns sha256 ready positive alive
  obtain ⟨sg, seeds, final, findings, visited, cache, same, explored, members, _⟩ :=
    solve_eq ready valid ordered
  obtain ⟨solutionHash, hashed⟩ := hashSolution_returns_iff.mpr fun finding member =>
    explored.findingBytes_ok ready.wellFormed few ((members finding).mp member)
  rw [same, hashed, ok_bind]
  exact ⟨_, rfl⟩

/-- `solve` reports a sink and a fact exactly when the sink is reached, past no sanitiser,
from the node that introduced the fact in a procedure; and it returns unless the deadline
passes or a fact does not fit eight bytes.
Witness: the worklist runs as a best-first search, which finds what its seeds reach.
-/
theorem solve_finds_reached_sinks (sha256 : Hash) (cpg : ValidCPG) (spec : Spec) (sVersion : Text)
    (envDigest : Bytes) (clock : Nat → Rat)
    : (∀ result,
        solve sha256 clock cpg.toCPG spec sVersion envDigest = .ok result
        → ∀ sink fact,
            (∃ finding ∈ result.findings, finding.sink = sink ∧ finding.fact = fact)
              ↔ isSink spec (cpg.nodeAt sink) = true
                ∧ ∃ source,
                    Introduces cpg.toCPG spec source fact
                    ∧ (∃ pid, Owns cpg.toCPG pid source)
                    ∧ Relation.ReflTransGen (TaintStep cpg.toCPG spec) source sink)
      ∧ (sVersion ≠ []
        → envDigest ≠ []
        → spec.engine = .ifds ∨ spec.engine = .ide
        → NeverExpires clock defaultT
        → (sourceMatches cpg.toCPG spec).length ≤ 2 ^ 64
        → ∃ result, solve sha256 clock cpg.toCPG spec sVersion envDigest = .ok result) := by
  constructor
  · intro result ran sink fact
    obtain ⟨_, order, _, sg, seeds, final, solved⟩ := solved_of_ok cpg.ready ran
    have read := solved.explored.exists_readOut_iff
      (provenanceOf spec sVersion envDigest order) sink fact
    simp only [← solved.findings] at read
    rw [read, solved.explored.mem_known_iff, flows_none]
    simp only [solved.explored.owned_iff]
    rfl
  · intro version digest engine alive few
    exact solve_returns sha256 cpg.ready (checkParameters_ok_iff.mpr ⟨version, digest, engine⟩)
      alive few

/-- Procedure `g` makes a call, procedure `f` executes its input. -/
def execInput (operator : Text) : CPG where
  nodes := [
    { nodeId := 0, kind := py "METHOD", resolvedFqn := py "g" },
    { nodeId := 1, kind := py "CALL", operatorOrLiteral := operator, enclosingDeclFqn := py "g" },
    { nodeId := 2, kind := py "METHOD", resolvedFqn := py "f" },
    { nodeId := 3, kind := py "CALL", operatorOrLiteral := py "input", enclosingDeclFqn := py "f" },
    { nodeId := 4, kind := py "CALL", operatorOrLiteral := py "exec", enclosingDeclFqn := py "f" }]
  edges := [
    { src := 0, dst := 1, kind := py "CFG" },
    { src := 2, dst := 3, kind := py "CFG" },
    { src := 3, dst := 4, kind := py "CFG" }]

/-- `g` logs. -/
def logging : ValidCPG where
  toCPG := execInput (py "log")
  accepted := by decide
  representable := ⟨by decide, by decide, by decide, by decide⟩

/-- `g` reads input as well. -/
def reading : ValidCPG where
  toCPG := execInput (py "input")
  accepted := by decide
  representable := ⟨by decide, by decide, by decide, by decide⟩

/-- Input must not be executed. -/
def commandInjection : Spec where
  id := py "command-injection"
  engine := .ifds
  clauses := [.source (py "input"), .sink (py "exec")]

/-- SHA-256 on the inputs hashed for these graphs: their encodings and their one finding. -/
def taintSha256 : Hash :=
  tableHash [
    (orderDomain .strong ++ encodedGraph logging.toCPG [1, 4, 3, 2, 0],
      0x42a7c6ad0dd4ac390b5833340eb185a623b928c3e4635edceca61c0fdc9e5eae),
    (orderDomain .strong ++ encodedGraph reading.toCPG [4, 3, 1, 2, 0],
      0x00c37f6c994c153e5ff87963e70b77ef0d6e4235d1241bfe6e490647fb3c3b17),
    (toBytes 8 4 ++ toBytes 8 0 ++ toBytes 8 3 ++ toBytes 8 4 ++ pyb "|",
      0xd50fa2c2a73c23270ef00c498fa9dabbff8ea0ce085499fd994671b87cd651d7),
    (toBytes 8 4 ++ toBytes 8 1 ++ toBytes 8 3 ++ toBytes 8 4 ++ pyb "|",
      0x9bc278ea83641cf96d7beb229b0a06e4ea8840ea813b0a9708f4c6c92bdef22e)]

theorem solve_finds_reached_sinks_logging
    : ∃ result,
        solve taintSha256 (fun _ => 0) logging.toCPG commandInjection (py "v1") [1] = .ok result
        ∧ ∃ finding ∈ result.findings, finding.sink = 4 ∧ finding.fact = 0 := by
  obtain ⟨reports, returns⟩ := solve_finds_reached_sinks taintSha256 logging commandInjection
    (py "v1") [1] (fun _ => 0)
  obtain ⟨result, ran⟩ := returns (by decide) (by decide) (.inl rfl) (neverExpires_stopped 0)
    (by decide)
  refine ⟨result, ran, (reports result ran 4 0).mpr ⟨by decide, 3, ?_, ?_, .single ?_⟩⟩
  · exact ⟨py "input", by decide⟩
  · exact ⟨2, by decide, ⟨by decide, by decide⟩, by decide⟩
  · exact ⟨by decide, .inl ⟨{ src := 3, dst := 4, kind := py "CFG" }, by decide, rfl,
      rfl, rfl⟩⟩

end Scanipy.Analysis.Ifds

import Scanipy.Analysis.Ifds.Region

/-! What `solve` returns does not depend on the order in which a graph lists its nodes and
edges.
-/

namespace Scanipy.Analysis.Ifds

open Library Python

section Relisted

variable {left right : CPG} (relisted : CPG.Relisted left right) (formed : left.WellFormed)

include relisted

theorem hasEdge_relisted : HasEdge right = HasEdge left := by
  funext kind src dst
  simp only [HasEdge, ListsEdge, relisted.edges.mem_iff]

include formed

theorem nodeAt_relisted : right.nodeAt = left.nodeAt := by
  have entries := relisted.nodes.map fun node => (node.nodeId, node)
  have keys : left.byId.keys.Nodup := by
    rw [CPG.keys_byId formed.distinct]
    exact formed.distinct
  have rightDistinct := (relisted.wellFormed formed).distinct
  rw [← CPG.byId_eq formed.distinct, ← CPG.byId_eq rightDistinct] at entries
  funext id
  rw [CPG.nodeAt, CPG.nodeAt, Dict.get?_perm entries keys]

theorem methodAt_relisted : MethodAt right = MethodAt left := by
  funext pid
  rw [MethodAt, MethodAt, nodeAt_relisted relisted formed, relisted.nodeIds.mem_iff]

theorem owns_relisted : Owns right = Owns left := by
  funext pid id
  rw [Owns, Owns, nodeAt_relisted relisted formed, methodAt_relisted relisted formed,
    relisted.nodeIds.mem_iff]

theorem taintStep_relisted (spec : Spec) : TaintStep right spec = TaintStep left spec := by
  funext source target
  rw [TaintStep, TaintStep, nodeAt_relisted relisted formed, hasEdge_relisted relisted,
    methodAt_relisted relisted formed]

/-- Facts are numbered by ascending id. -/
theorem introduces_relisted (spec : Spec) : Introduces right spec = Introduces left spec := by
  have listed : sortedBy CPGNode.nodeId right.nodes = sortedBy CPGNode.nodeId left.nodes :=
    sortedBy_eq_of_perm relisted.nodes fun node member other otherMember same =>
      List.inj_on_of_nodup_map (relisted.wellFormed formed).distinct member otherMember same
  funext id fact
  rw [Introduces, Introduces, sourceMatches, sourceMatches, listed]

/-- All nodes are a region, which looks as in the graph listed otherwise. -/
theorem region_relisted (spec : Spec) : Region right left spec fun id => id ∈ left.nodeIds where
  same := fun id known =>
    ⟨relisted.nodeIds.mem_iff.mpr known, by rw [nodeAt_relisted relisted formed]⟩
  back := by
    rw [taintStep_relisted relisted formed]
    rintro source target ⟨_, ⟨edge, member, _, rfl, _⟩ | ⟨⟨edge, member, _, rfl, _⟩, _⟩⟩ _
    · exact (formed.ends edge member).1
    · exact (formed.ends edge member).1
  steps := fun source target _ _ => by rw [taintStep_relisted relisted formed]
  owned := fun id _ => by rw [owns_relisted relisted formed]

variable {order : List NodeId} (complete : order.Perm left.nodeIds)

include complete

/-- A complete order settles the order of the METHOD nodes. -/
theorem methodNodes_relisted : methodNodes right order = methodNodes left order := by
  have distinct := (relisted.wellFormed formed).distinct
  have position {node : CPGNode} (member : node ∈ right.nodes)
      : okey order node.nodeId = order.idxOf node.nodeId := by
    have known : node.nodeId ∈ order :=
      complete.mem_iff.mpr (relisted.nodeIds.mem_iff.mp (List.mem_map_of_mem member))
    rw [okey, rank_get? (complete.nodup_iff.mpr formed.distinct) known]
  refine sortedBy_eq_of_perm (relisted.nodes.filter _) fun node listed other otherListed same => ?_
  have member := (List.mem_filter.mp listed).1
  have otherMember := (List.mem_filter.mp otherListed).1
  rw [position member, position otherMember] at same
  refine List.inj_on_of_nodup_map distinct member otherMember ?_
  refine (List.idxOf_inj ?_).mp (Int.ofNat.inj same)
  exact complete.mem_iff.mpr (relisted.nodeIds.mem_iff.mp (List.mem_map_of_mem member))

/-- Every node has the same owner in both supergraphs. -/
theorem procOfNode_relisted {sg other : ExplodedSupergraph}
    (built : buildSupergraph left order = .ok sg) (again : buildSupergraph right order = .ok other)
    : other.procOfNode.get? = sg.procOfNode.get? := by
  obtain ⟨leftSg, leftBuilt, _, leftOwners⟩ := buildSupergraph_owners formed order
  obtain ⟨rightSg, rightBuilt, _, rightOwners⟩ :=
    buildSupergraph_owners (relisted.wellFormed formed) order
  cases leftBuilt.symm.trans built
  cases rightBuilt.symm.trans again
  funext id
  refine Option.ext fun pid => ?_
  rw [leftOwners, rightOwners, methodNodes_relisted relisted formed complete]
  simp only [relisted.nodes.mem_iff]

end Relisted

/-- Two runs return the same findings, hash and procedures, or raise the same. -/
def SameSolution
    : Except AnalysisError SolverResult → Except AnalysisError SolverResult → Prop
  | .ok result, .ok other =>
      (∀ finding, finding ∈ result.findings ↔ finding ∈ other.findings)
      ∧ result.solutionHash = other.solutionHash
      ∧ ∀ pid, pid ∈ result.visitedProcs ↔ pid ∈ other.visitedProcs
  | .error raised, .error other => raised = other
  | _, _ => False

section Runs

variable {left right : CPG} (relisted : CPG.Relisted left right) (ready : left.Ready) {spec : Spec}
  {order : List NodeId} {sg other : ExplodedSupergraph} {seeds otherSeeds : List Item}
  {final otherFinal : Frontier Item} (explored : Explored left spec none order sg seeds final)
  (again : Explored right spec none order other otherSeeds otherFinal)

include relisted ready explored again

theorem Explored.readOut_relisted {provenance : Provenance} (sameSpec : provenance.spec = spec)
    (finding : Finding)
    : ReadOut provenance right otherFinal finding ↔ ReadOut provenance left final finding := by
  have rightReady := relisted.ready ready
  have leftRegion := region_relisted (CPG.Relisted.refl left) ready.wellFormed spec
  have rightRegion := region_relisted relisted ready.wellFormed spec
  have sinks : finding.sink ∈ left.nodeIds
      → (ReadOut provenance right otherFinal finding ↔ ReadOut provenance left final finding) := by
    intro inside
    rw [leftRegion.readOut_iff ready.wellFormed explored sameSpec inside,
      rightRegion.readOut_iff rightReady.wellFormed again sameSpec inside,
      introduces_relisted relisted ready.wellFormed]
  constructor
  · intro read
    obtain ⟨item, path, traced, _, rfl⟩ := id read
    exact (sinks (relisted.nodeIds.mem_iff.mp
      (again.inside rightReady.wellFormed traced.mem_found).1)).mp read
  · intro read
    obtain ⟨item, path, traced, _, rfl⟩ := id read
    exact (sinks (explored.inside ready.wellFormed traced.mem_found).1).mpr read

theorem Explored.known_relisted (item : Item) : item ∈ otherFinal.known ↔ item ∈ final.known := by
  rw [explored.mem_known_iff, again.mem_known_iff, flows_none, flows_none,
    taintStep_relisted relisted ready.wellFormed, introduces_relisted relisted ready.wellFormed,
    procOfNode_relisted relisted ready.wellFormed explored.complete explored.built again.built]

end Runs

/-- `solve` reads the graph and not its listing: a graph with its nodes and edges in another
order has the same findings with the same witnesses, the same hash and the same visited
procedures, as long as neither clock expires; and where one run raises, so does the other.
Witness: the canonical order is the same, ties included, and the search in that order finds the
same first paths.
-/
theorem solve_relisted (sha256 : Hash) (cpg : ValidCPG) (nodes : List CPGNode)
    (edges : List CPGEdge) (clock otherClock : Nat → Rat) (spec : Spec) (sVersion : Text)
    (envDigest : Bytes) (nodesPerm : nodes.Perm cpg.nodes) (edgesPerm : edges.Perm cpg.edges)
    (alive : NeverExpires clock defaultT) (otherAlive : NeverExpires otherClock defaultT)
    : SameSolution
        (solve sha256 otherClock { cpg.toCPG with nodes, edges } spec sVersion envDigest)
        (solve sha256 clock cpg.toCPG spec sVersion envDigest) := by
  have relisted : CPG.Relisted cpg.toCPG { cpg.toCPG with nodes, edges } :=
    ⟨nodesPerm, edgesPerm, rfl, rfl⟩
  have ready := relisted.ready cpg.ready
  cases checked : checkParameters spec sVersion envDigest with
  | error raised =>
      have refused (clock : Nat → Rat) (graph : CPG)
          : solve sha256 clock graph spec sVersion envDigest = .error raised := by
        rw [solve, checked]
        rfl
      rw [refused, refused]
      exact rfl
  | ok _ =>
      have positive : 0 < defaultB := by decide
      obtain ⟨order, ordered⟩ := canonicalOrderFresh_returns sha256 cpg.ready positive alive
      obtain ⟨other, reordered⟩ := canonicalOrderFresh_returns sha256 ready positive otherAlive
      obtain ⟨orders, hashes, classes⟩ :=
        relisted.canonicalOrderFresh_agree cpg.ready ordered reordered
      obtain ⟨sg, seeds, final, findings, visited, cache, ran, explored, members, distinct, _,
        visits⟩ := solve_eq cpg.ready checked ordered
      obtain ⟨otherSg, otherSeeds, otherFinal, otherFindings, otherVisited, otherCache, otherRan,
        again, otherMembers, otherDistinct, _, otherVisits⟩ := solve_eq ready checked reordered
      have provenance : provenanceOf spec sVersion envDigest other
          = provenanceOf spec sVersion envDigest order := by
        rw [provenanceOf, provenanceOf, hashes, classes]
      rw [orders] at again otherRan
      rw [provenance] at otherMembers
      have same (finding : Finding) : finding ∈ otherFindings ↔ finding ∈ findings := by
        rw [otherMembers, members]
        exact explored.readOut_relisted relisted cpg.ready again rfl finding
      have perm : otherFindings.Perm findings :=
        (List.perm_ext_iff_of_nodup otherDistinct distinct).mpr same
      have hashed : hashSolution sha256 otherFindings (canonIndexOf order.canonicalOrder)
          = hashSolution sha256 findings (canonIndexOf order.canonicalOrder) :=
        hashSolution_perm sha256 perm
          (again.keys ready.wellFormed fun finding => (otherMembers finding).mp)
      have procedures (pid : ProcId) : pid ∈ otherVisited ↔ pid ∈ visited := by
        rw [otherVisits, visits, procOfNode_relisted relisted cpg.wellFormed explored.complete
          explored.built again.built]
        simp only [explored.known_relisted relisted cpg.ready again]
      rw [otherRan, ran, hashed]
      cases hashSolution sha256 findings (canonIndexOf order.canonicalOrder) with
      | error raised => exact rfl
      | ok digest => exact ⟨same, rfl, procedures⟩

theorem solve_relisted_logging
    : SameSolution
        (solve taintSha256 (fun _ => 5)
          {
            logging.toCPG with
            nodes := logging.nodes.reverse
            edges := logging.edges.reverse
          } commandInjection (py "v1") [1])
        (solve taintSha256 (fun _ => 0) logging.toCPG commandInjection (py "v1") [1]) :=
  solve_relisted taintSha256 logging logging.nodes.reverse logging.edges.reverse (fun _ => 0)
    (fun _ => 5) commandInjection (py "v1") [1] (List.reverse_perm _) (List.reverse_perm _)
    (neverExpires_stopped 0) (neverExpires_stopped 5)

end Scanipy.Analysis.Ifds

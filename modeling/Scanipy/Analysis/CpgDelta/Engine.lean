import Scanipy.Analysis.Ordering.Graph
import Scanipy.Library.Outcome
import Scanipy.Library.Worklist

/-! The incremental delta engine: the affected declarations, the route taken, the graph with
preserved node ids, and the structural delta.
-/

namespace Scanipy.Analysis.CpgDelta

open Library Python

/-- The errors of the engine, and what its collaborators raise. -/
inductive IncrementalCpgError where
  | nodeIdCollision (decl : Text) (nodeId : NodeId)
  | envDigestMismatch (parent worker : Text)
  | arithmetic
  | reparser (message : Text)
  deriving DecidableEq

/-- `PreconditionStatus`, and `Route`. -/
inductive Route where
  | closedWorld
  | degraded
  | fullReparse
  deriving DecidableEq

/-- `DeclSubgraph`, with the fields the engine reads. -/
structure DeclSubgraph where
  nodes : List CPGNode
  edges : List CPGEdge
  deriving DecidableEq

/-- A call of the reparser and its answer. -/
structure Reparse where
  decl : Text
  freshIdBase : Int
  sub : DeclSubgraph
  deriving DecidableEq

/-- `DeclReparser`: the answer may depend on all earlier calls. -/
abbrev DeclReparser := List Reparse → Text → Int → Except IncrementalCpgError DeclSubgraph

/-- `GraphView`. -/
structure GraphView where
  reverseSymbolIndex : Dict Text (PySet Text) := []
  callGraph : Dict Text (PySet Text) := []
  classHierarchy : Dict Text (PySet Text) := []
  declToType : Dict Text Text := []

/-- `IncrementalCpgRequest`. The thresholds are values of a type of ratios, and the members of
both sets are distinct.
-/
structure IncrementalCpgRequest (ρ : Type) where
  parentCpg : CPG
  parentEnvDigest : Text
  workerEnvDigest : Text
  cwVerdict : Route
  changedDecls : PySet Text
  changedTypes : PySet Text
  graph : GraphView
  reparser : DeclReparser
  totalFiles : Int := 1
  changedFiles : Int := 0
  thetaCone : ρ
  thetaFiles : ρ
  declsDistinct : changedDecls.Nodup := by decide
  typesDistinct : changedTypes.Nodup := by decide

/-- `GraphDelta`. -/
structure GraphDelta where
  addedNodes : List NodeId
  removedNodes : List NodeId
  addedEdges : List CPGEdge
  removedEdges : List CPGEdge
  affectedSet : PySet Text

/-- `IncrementalCpgResult`. -/
structure IncrementalCpgResult (ρ : Type) where
  newCpg : CPG
  deltaGraph : GraphDelta
  affected : PySet Text
  preconditionStatus : Route
  changedFilesRatio : ρ
  coneSizeRatio : Option ρ

/-- `_transitive_closure`. Every name is pushed at most once. -/
def transitiveClosure (seeds : PySet Text) (graph : Dict Text (PySet Text)) : PySet Text :=
  Worklist.closure (fun current => graph.getD current [])
    (seeds.length + (graph.map fun entry => entry.2.length).sum) seeds

/-- `_direct_callers`. -/
def directCallers (changedDecls : PySet Text) (callGraph : Dict Text (PySet Text)) : PySet Text :=
  PySet.update []
    ((callGraph.filter fun entry => entry.2.any fun callee => callee ∈ changedDecls).map Prod.fst)

/-- `compute_affected`. -/
def computeAffected (changedDecls changedTypes : PySet Text) (graph : GraphView) : PySet Text :=
  let reverseSymbolClosure := transitiveClosure changedDecls graph.reverseSymbolIndex
  let callers := directCallers changedDecls graph.callGraph
  let typeCone := transitiveClosure changedTypes graph.classHierarchy
  let chaConeDecls := (graph.declToType.filter fun entry => entry.2 ∈ typeCone).map Prod.fst
  PySet.update (PySet.update (PySet.update changedDecls reverseSymbolClosure) callers) chaConeDecls

section Routing

variable {ρ : Type} [LT ρ] [DecidableLT ρ] (divide : Int → Int → Except IncrementalCpgError ρ)

/-- `changed_files_ratio`; how the quotient of two integers is rounded is left open. -/
def IncrementalCpgRequest.changedFilesRatio (req : IncrementalCpgRequest ρ)
    : Except IncrementalCpgError ρ :=
  divide req.changedFiles (max req.totalFiles 1)

/-- `cone_size_ratio`. -/
def IncrementalCpgRequest.coneSizeRatio (req : IncrementalCpgRequest ρ) (affected : PySet Text)
    : Except IncrementalCpgError ρ :=
  let coneNodes := (req.parentCpg.nodes.filter fun node => node.enclosingDeclFqn ∈ affected).length
  divide coneNodes (max req.parentCpg.nodes.length 1 : Nat)

/-- `_route_for`. -/
def routeFor (req : IncrementalCpgRequest ρ) (changedFilesRatio : ρ) (affected : PySet Text)
    : Except IncrementalCpgError (Route × Option ρ) :=
  match req.cwVerdict with
  | .closedWorld => .ok (.closedWorld, none)
  | .fullReparse => .ok (.fullReparse, none)
  | .degraded =>
      if req.thetaFiles < changedFilesRatio then
        .ok (.fullReparse, none)
      else do
        let coneSizeRatio ← req.coneSizeRatio divide affected
        if req.thetaCone < coneSizeRatio then
          .ok (.fullReparse, some coneSizeRatio)
        else
          .ok (.degraded, some coneSizeRatio)

end Routing

/-- The nodes of declarations that are not affected. -/
def preservedNodes (parent : CPG) (affected : PySet Text) : List CPGNode :=
  parent.nodes.filter fun node => node.enclosingDeclFqn ∉ affected

/-- The edges between preserved nodes. -/
def preservedEdges (parent : CPG) (preservedIds : List NodeId) : List CPGEdge :=
  parent.edges.filter fun edge => edge.src ∈ preservedIds ∧ edge.dst ∈ preservedIds

/-- The mutable state of `_build_preserving_new_cpg`, with the calls of the reparser so far. -/
structure Building where
  newCpg : CPG
  nextBase : Int
  addedNodes : List NodeId := []
  addedEdges : List CPGEdge := []
  calls : List Reparse := []

/-- One more than the largest id, or the default without ids. -/
def aboveAll (ids : List NodeId) (default : Int) : Int :=
  match ids.max? with
  | some largest => largest + 1
  | none => default

/-- The body of the loop over the affected declarations. -/
def reparseDecl (reparser : DeclReparser) (preservedIds : List NodeId) (state : Building)
    (decl : Text)
    : Except IncrementalCpgError Building := do
  let sub ← reparser state.calls decl state.nextBase
  Metered.visit
    (fun node => demand (node.nodeId ∉ preservedIds) (.nodeIdCollision decl node.nodeId)) sub.nodes
  .ok {
    newCpg := {
      state.newCpg with
      nodes := state.newCpg.nodes ++ sub.nodes
      edges := state.newCpg.edges ++ sub.edges
    }
    nextBase := aboveAll (sub.nodes.map CPGNode.nodeId) state.nextBase
    addedNodes := state.addedNodes ++ sub.nodes.map CPGNode.nodeId
    addedEdges := state.addedEdges ++ sub.edges
    calls := state.calls ++ [⟨decl, state.nextBase, sub⟩]
  }

/-- `_build_preserving_new_cpg`; also returns the calls of the reparser. -/
def buildPreservingNewCpg (parent : CPG) (affected : PySet Text) (reparser : DeclReparser)
    : Except IncrementalCpgError (CPG × GraphDelta × List Reparse) := do
  let preserved := preservedNodes parent affected
  let preservedIds := preserved.map CPGNode.nodeId
  let built ← (sorted affected).foldlM (reparseDecl reparser preservedIds) {
    newCpg := { nodes := preserved, edges := preservedEdges parent preservedIds }
    nextBase := aboveAll preservedIds 0
  }
  let newNodeIds := built.newCpg.nodeIds
  .ok (
    built.newCpg,
    {
      addedNodes := built.addedNodes
      removedNodes :=
        (parent.nodes.filter fun node => node.nodeId ∉ newNodeIds).map CPGNode.nodeId
      addedEdges := built.addedEdges
      removedEdges := parent.edges.filter fun edge => edge ∉ built.newCpg.edges
      affectedSet := affected
    },
    built.calls)

/-- Every declaration of the parent graph. -/
def allDecls (parent : CPG) : PySet Text :=
  PySet.update [] (parent.nodes.map CPGNode.enclosingDeclFqn)

/-- `compute_incremental_cpg`; also returns the calls of the reparser. -/
def computeIncrementalCpg {ρ : Type} [LT ρ] [DecidableLT ρ]
    (divide : Int → Int → Except IncrementalCpgError ρ) (req : IncrementalCpgRequest ρ)
    : Except IncrementalCpgError (IncrementalCpgResult ρ × List Reparse) := do
  demand (req.parentEnvDigest = req.workerEnvDigest)
    (.envDigestMismatch req.parentEnvDigest req.workerEnvDigest)
  let affected := computeAffected req.changedDecls req.changedTypes req.graph
  let changedFilesRatio ← req.changedFilesRatio divide
  let (route, coneSizeRatio) ← routeFor divide req changedFilesRatio affected
  let affected := if route = .fullReparse then allDecls req.parentCpg else affected
  let (newCpg, deltaGraph, calls) ← buildPreservingNewCpg req.parentCpg affected req.reparser
  .ok (
    {
      newCpg, deltaGraph, affected, preconditionStatus := route, changedFilesRatio, coneSizeRatio
    },
    calls)

end Scanipy.Analysis.CpgDelta

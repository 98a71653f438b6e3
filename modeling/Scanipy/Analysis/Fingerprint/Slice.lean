import Scanipy.Analysis.Ordering.Search

/-! The backward interprocedural slice of a witness. -/

namespace Scanipy.Analysis

open Library Python

/-- `_Slice`: the sliced graph and the witness over its own ids. -/
structure Slice where
  cpg : CPG
  witness : List NodeId

/-- `dataflow_kinds`. -/
def dataflowKinds : List Text :=
  [py "CFG", py "CALL", py "PDG"]

instance (kind : Text) : Decidable (kind ∈ dataflowKinds) :=
  inferInstanceAs (Decidable (kind ∈ [py "CFG", py "CALL", py "PDG"]))

/-- `preds`: reverse adjacency over the dataflow kinds. -/
def dataflowPreds (cpg : CPG) : Dict NodeId (List NodeId) :=
  cpg.edges.foldl
    (fun preds edge =>
      if edge.kind ∈ dataflowKinds ∧ edge.dst ∈ preds.keys then
        preds.appendTo edge.dst edge.src
      else
        preds)
    (Dict.ofPairs (cpg.nodes.map fun node => (node.nodeId, [])))

/-- The `while stack` loop: the result is `on_slice`. The top of the stack is its head, so
the last predecessor is pushed last and visited first.
-/
def coneLoop (preds : Dict NodeId (List NodeId))
    : Nat → List NodeId → PySet NodeId → PySet NodeId → Except AnalysisError (PySet NodeId)
  | _, [], _, onSlice => .ok onSlice
  | 0, _ :: _, _, _ => .error .outOfFuel
  | fuel + 1, cur :: stack, traversed, onSlice =>
      if cur ∈ traversed then
        coneLoop preds fuel stack traversed onSlice
      else
        let traversed := PySet.add traversed cur
        let found := preds.getD cur []
        coneLoop preds fuel ((found.filter fun pred => pred ∉ traversed).reverse ++ stack) traversed
          (PySet.update onSlice found)

/-- The witness check: the first node absent from the graph is reported. -/
def checkWitness (byId : Dict NodeId CPGNode) : List NodeId → Except AnalysisError Unit
  | [] => .ok ()
  | node :: rest =>
      if node ∈ byId.keys then checkWitness byId rest else .error (.witnessNotInCpg node)

/-- Append a copy of `node` under the next free id and record it in `remap`. -/
def addCopy (node : CPGNode) (original : NodeId) (copied : CPG × Dict NodeId NodeId)
    : CPG × Dict NodeId NodeId :=
  (copied.1.addNode node.kind node.operatorOrLiteral node.resolvedFqn node.enclosingDeclFqn
      node.structuralPath,
    copied.2.set original copied.1.nodes.length)

/-- Copy the nodes of the slice, numbering them from zero; also returns `remap`. -/
def sliceNodes (byId : Dict NodeId CPGNode)
    : List NodeId → CPG × Dict NodeId NodeId → Except AnalysisError (CPG × Dict NodeId NodeId)
  | [], copied => .ok copied
  | id :: rest, copied => do
      let node ← subscript byId id
      sliceNodes byId rest (addCopy node id copied)

/-- Copy the edges between nodes of the slice. -/
def sliceEdges (onSlice : PySet NodeId) (remap : Dict NodeId NodeId)
    : List CPGEdge → CPG → Except AnalysisError CPG
  | [], sliced => .ok sliced
  | edge :: rest, sliced =>
      if edge.src ∈ onSlice ∧ edge.dst ∈ onSlice then do
        let src ← subscript remap edge.src
        let dst ← subscript remap edge.dst
        sliceEdges onSlice remap rest (sliced.addEdge src dst edge.kind)
      else
        sliceEdges onSlice remap rest sliced

/-- `_backward_interprocedural_slice`. A node is pushed at most once for each edge and each
traversed node, which bounds the loop.
-/
def backwardInterproceduralSlice (cpg : CPG) (witness : List NodeId)
    : Except AnalysisError Slice :=
  match witness.getLast? with
  | none => .error .emptyWitness
  | some sink => do
      let byId := cpg.byId
      checkWitness byId witness
      let onSlice ← coneLoop (dataflowPreds cpg) (cpg.nodes.length * (cpg.edges.length + 1) + 1)
        [sink] [] (PySet.update [] witness)
      let (sliced, remap) ← sliceNodes byId (sorted onSlice) ({}, [])
      let sliced ← sliceEdges onSlice remap cpg.edges sliced
      let witness ← Metered.collect (subscript remap) witness
      .ok { cpg := sliced, witness }

end Scanipy.Analysis

import Scanipy.Analysis.Ordering.Search

/-! The interprocedural control-flow skeleton of a graph. -/

namespace Scanipy.Analysis.Ifds

open Library Python

/-- `ProcId`: the id of the procedure's METHOD entry node. -/
abbrev ProcId := NodeId

def callEdge : Text := py "CALL"

def cfgEdge : Text := py "CFG"

/-- `kind == "METHOD"`. -/
def IsMethod (node : CPGNode) : Prop :=
  node.kind = py "METHOD"

instance (node : CPGNode) : Decidable (IsMethod node) :=
  inferInstanceAs (Decidable (node.kind = py "METHOD"))

/-- `Procedure`. -/
structure Procedure where
  procId : ProcId
  entry : NodeId
  fqn : Text
  bodyNodes : List NodeId

/-- `ExplodedSupergraph`. -/
structure ExplodedSupergraph where
  cpg : CPG
  procs : Dict ProcId Procedure := []
  procOfNode : Dict NodeId ProcId := []
  cfgSucc : Dict NodeId (List NodeId) := []
  callSucc : Dict NodeId (List ProcId) := []
  callees : Dict ProcId (PySet ProcId) := []
  callers : Dict ProcId (PySet ProcId) := []

/-- `entries[key].append(value)`. -/
def appendAt {α β : Type} [DecidableEq α] (entries : Dict α (List β)) (key : α) (value : β)
    : Except AnalysisError (Dict α (List β)) := do
  let values ← subscript entries key
  .ok (entries.set key (values ++ [value]))

/-- `entries[key].add(value)`. -/
def addAt {α β : Type} [DecidableEq α] [DecidableEq β] (entries : Dict α (PySet β)) (key : α)
    (value : β)
    : Except AnalysisError (Dict α (PySet β)) := do
  let values ← subscript entries key
  .ok (entries.set key (PySet.add values value))

/-- `entries.setdefault(key, [])`. -/
def setDefault {α β : Type} [DecidableEq α] (entries : Dict α (List β)) (key : α)
    : Dict α (List β) :=
  if key ∈ entries.keys then entries else entries.set key []

/-- `okey`: the canonical position; absent ids sort last. -/
def okey (canonicalOrder : List NodeId) (nid : NodeId) : Int :=
  match (Dict.ofPairs canonicalOrder.zipIdx).get? nid with
  | some index => index
  | none => (Dict.ofPairs canonicalOrder.zipIdx).length + nid

/-- `n.resolved_fqn or n.enclosing_decl_fqn`. -/
def methodFqn (node : CPGNode) : Text :=
  if node.resolvedFqn = [] then node.enclosingDeclFqn else node.resolvedFqn

/-- Step 1: register the METHOD nodes; also returns `fqn_to_proc`. -/
def addProcedures
    : List CPGNode → ExplodedSupergraph × Dict Text ProcId
      → ExplodedSupergraph × Dict Text ProcId
  | [], built => built
  | node :: rest, (sg, fqnToProc) =>
      let pid : ProcId := node.nodeId
      let fqn := methodFqn node
      addProcedures rest ({
          sg with
          procs := sg.procs.set pid { procId := pid, entry := node.nodeId, fqn, bodyNodes := [] }
          callees := sg.callees.set pid []
          callers := sg.callers.set pid []
        },
        if fqn = [] then fqnToProc else fqnToProc.set fqn pid)

/-- The procedure of a node, `-1` for none: METHOD nodes belong to themselves. -/
def owner (fqnToProc : Dict Text ProcId) (node : CPGNode) : ProcId :=
  if IsMethod node then node.nodeId else fqnToProc.getD node.enclosingDeclFqn (-1)

/-- The body of the loop of step 2. -/
def assignNode (fqnToProc : Dict Text ProcId) (node : CPGNode) (sg : ExplodedSupergraph)
    (body : Dict ProcId (List NodeId))
    : Except AnalysisError (ExplodedSupergraph × Dict ProcId (List NodeId)) :=
  let pid := owner fqnToProc node
  let listed := {
    sg with
    cfgSucc := setDefault sg.cfgSucc node.nodeId
    callSucc := setDefault sg.callSucc node.nodeId
  }
  if pid = -1 then
    .ok (listed, body)
  else
    let assigned := { listed with procOfNode := sg.procOfNode.set node.nodeId pid }
    if IsMethod node then
      .ok (assigned, body)
    else do
      let body ← appendAt body pid node.nodeId
      .ok (assigned, body)

/-- Step 2: assign every node to its procedure; also returns `body`. -/
def assignNodes (fqnToProc : Dict Text ProcId)
    : List CPGNode → ExplodedSupergraph → Dict ProcId (List NodeId)
      → Except AnalysisError (ExplodedSupergraph × Dict ProcId (List NodeId))
  | [], sg, body => .ok (sg, body)
  | node :: rest, sg, body => do
      let (sg, body) ← assignNode fqnToProc node sg body
      assignNodes fqnToProc rest sg body

/-- The loop that stores the sorted bodies. -/
def storeBodies (canonicalOrder : List NodeId)
    : List (ProcId × List NodeId) → ExplodedSupergraph → Except AnalysisError ExplodedSupergraph
  | [], sg => .ok sg
  | (pid, members) :: rest, sg => do
      let proc ← subscript sg.procs pid
      let bodyNodes := sortedBy (okey canonicalOrder) members
      storeBodies canonicalOrder rest
        { sg with procs := sg.procs.set pid { proc with procId := pid, bodyNodes } }

/-- Record a call from a node to a METHOD. -/
def addCall (src : NodeId) (calleePid : ProcId) (sg : ExplodedSupergraph)
    : Except AnalysisError ExplodedSupergraph := do
  let callSucc ← appendAt sg.callSucc src calleePid
  match sg.procOfNode.get? src with
  | none => .ok { sg with callSucc }
  | some callerPid => do
      let callees ← addAt sg.callees callerPid calleePid
      let callers ← addAt sg.callers calleePid callerPid
      .ok { sg with callSucc, callees, callers }

/-- The body of the loop of step 3. -/
def addSuccessor (nodeById : Dict NodeId CPGNode) (edge : CPGEdge) (sg : ExplodedSupergraph)
    : Except AnalysisError ExplodedSupergraph :=
  if edge.kind = cfgEdge then do
    let cfgSucc ← appendAt sg.cfgSucc edge.src edge.dst
    .ok { sg with cfgSucc }
  else if edge.kind = callEdge then
    match nodeById.get? edge.dst with
    | none => .ok sg
    | some callee => if IsMethod callee then addCall edge.src callee.nodeId sg else .ok sg
  else
    .ok sg

/-- Step 3: CFG and CALL edges. -/
def addSuccessors (nodeById : Dict NodeId CPGNode)
    : List CPGEdge → ExplodedSupergraph → Except AnalysisError ExplodedSupergraph
  | [], sg => .ok sg
  | edge :: rest, sg => do
      let sg ← addSuccessor nodeById edge sg
      addSuccessors nodeById rest sg

/-- Step 4: sort every successor list. -/
def sortSuccessors (canonicalOrder : List NodeId) (successors : Dict NodeId (List NodeId))
    : Dict NodeId (List NodeId) :=
  successors.map fun entry => (entry.1, sortedBy (okey canonicalOrder) entry.2)

/-- `build_supergraph`. -/
def buildSupergraph (cpg : CPG) (canonicalOrder : List NodeId)
    : Except AnalysisError ExplodedSupergraph := do
  let methodNodes :=
    sortedBy (fun node => okey canonicalOrder node.nodeId) (cpg.nodes.filter fun node => IsMethod node)
  let (sg, fqnToProc) := addProcedures methodNodes ({ cpg }, [])
  let (sg, body) ← assignNodes fqnToProc cpg.nodes sg (sg.procs.map fun entry => (entry.1, []))
  let sg ← storeBodies canonicalOrder body sg
  let sg ← addSuccessors cpg.byId cpg.edges sg
  .ok {
    sg with
    cfgSucc := sortSuccessors canonicalOrder sg.cfgSucc
    callSucc := sortSuccessors canonicalOrder sg.callSucc
  }

/-- The `while stack` loop of `transitive_callers`: the result is `out`. The top of the stack
is its head.
-/
def callersLoop (callers : Dict ProcId (PySet ProcId))
    : Nat → List ProcId → PySet ProcId → Except AnalysisError (PySet ProcId)
  | _, [], out => .ok out
  | 0, _ :: _, _ => .error .outOfFuel
  | fuel + 1, proc :: stack, out =>
      let fresh := (callers.getD proc []).filter fun caller => caller ∉ out
      callersLoop callers fuel (fresh.reverse ++ stack) (PySet.update out fresh)

/-- `transitive_callers`. Every procedure is pushed at most once beside the seed. -/
def ExplodedSupergraph.transitiveCallers (sg : ExplodedSupergraph) (seed : PySet ProcId)
    : Except AnalysisError (PySet ProcId) :=
  callersLoop sg.callers (seed.length + sg.procs.length) seed.reverse []

end Scanipy.Analysis.Ifds

import Mathlib.Data.Prod.Lex
import Scanipy.Analysis.Ordering.Budget
import Scanipy.Library.Ranking
import Scanipy.Python.Dict

/-! The minimal code property graph, its validation and its framed encoding.
Functions that take an optional budget are polymorphic in their monad: with a budget,
`check` reads the clock; with `None`, it does nothing.
-/

namespace Scanipy.Analysis

open Library Python

/-- `CPGNode`. `extraFields` lists attributes the dataclass does not declare. -/
structure CPGNode where
  nodeId : NodeId
  kind : Text
  operatorOrLiteral : Text := []
  resolvedFqn : Text := []
  enclosingDeclFqn : Text := []
  structuralPath : Text := []
  extraFields : List Text := []
  deriving DecidableEq

/-- `CPGEdge`. -/
structure CPGEdge where
  src : NodeId
  dst : NodeId
  kind : Text
  extraFields : List Text := []
  deriving DecidableEq

/-- `CPG`, with the attributes `validate_cpg` inspects beside the two lists. -/
structure CPG where
  nodes : List CPGNode := []
  edges : List CPGEdge := []
  modelVersion : Option Text := none
  extraFields : List Text := []

namespace CPG

/-- `add_node`: the new id is the number of nodes so far. -/
def addNode (cpg : CPG) (kind operatorOrLiteral resolvedFqn enclosingDeclFqn structuralPath : Text)
    : CPG :=
  {
    cpg with
    nodes := cpg.nodes ++ [{
      nodeId := cpg.nodes.length, kind, operatorOrLiteral, resolvedFqn, enclosingDeclFqn,
      structuralPath }]
  }

/-- `add_edge`. -/
def addEdge (cpg : CPG) (src dst : NodeId) (kind : Text) : CPG :=
  { cpg with edges := cpg.edges ++ [{ src, dst, kind }] }

def nodeIds (cpg : CPG) : List NodeId :=
  cpg.nodes.map CPGNode.nodeId

end CPG

/-- Raise a `ValueError` unless the condition holds. -/
def require (condition : Prop) [Decidable condition] (message : String)
    : Except AnalysisError Unit :=
  if condition then .ok () else .error (.valueError message)

/-- `_u64`. -/
def u64 (value : Int) : Except AnalysisError Bytes :=
  if 0 ≤ value ∧ value < 2 ^ 64 then
    .ok (toBytes 8 value.toNat)
  else
    .error (.valueError "graph integer must be unsigned 64-bit")

/-- `value.encode("utf-8")`. -/
def encodeText (value : Text) : Except AnalysisError Bytes :=
  match value.encode with
  | some encoded => .ok encoded
  | none => .error .unicodeEncodeError

/-- Length-prefixed raw bytes. -/
def frameBytes (content : Bytes) : Except AnalysisError Bytes := do
  let length ← u64 content.length
  .ok (length ++ content)

/-- `_text`. -/
def text (value : Text) : Except AnalysisError Bytes := do
  let encoded ← encodeText value
  frameBytes encoded

/-- `_label`: the four identity fields; ids and `structural_path` are left out. -/
def label (node : CPGNode) : Except AnalysisError Bytes := do
  let kind ← text node.kind
  let operatorOrLiteral ← text node.operatorOrLiteral
  let resolvedFqn ← text node.resolvedFqn
  let enclosingDeclFqn ← text node.enclosingDeclFqn
  .ok (kind ++ operatorOrLiteral ++ resolvedFqn ++ enclosingDeclFqn)

/-- The body of the node loop of `validate_cpg`. -/
def validateNode (seen : List NodeId) (node : CPGNode) : Except AnalysisError Unit := do
  require (node.extraFields = [])
    "unsupported CPG node fields; update the versioned semantic encoding"
  let _ ← u64 node.nodeId
  require (node.nodeId ∉ seen) "duplicate CPG node ID"
  let _ ← label node
  let _ ← text node.structuralPath
  .ok ()

/-- The body of the edge loop of `validate_cpg`. -/
def validateEdge (seen : List NodeId) (edge : CPGEdge) : Except AnalysisError Unit := do
  require (edge.extraFields = [])
    "unsupported CPG edge fields; update the versioned semantic encoding"
  let _ ← u64 edge.src
  let _ ← u64 edge.dst
  require (edge.src ∈ seen ∧ edge.dst ∈ seen) "CPG edge references a missing node"
  require (edge.kind ≠ []) "CPG edge kind must be nonempty"
  let _ ← text edge.kind
  .ok ()

section OptionalBudget

variable {m : Type → Type} [Monad m] [MonadExceptOf AnalysisError m] (check : m Unit)

/-- Re-raise the exception of a budget-free step. -/
def reraise {α : Type} : Except AnalysisError α → m α
  | .ok value => pure value
  | .error raised => throw raised

/-- The node loop of `validate_cpg`; the result is the final `seen`. -/
def validateNodes : List CPGNode → List NodeId → m (List NodeId)
  | [], seen => pure seen
  | node :: rest, seen => do
      check
      reraise (validateNode seen node)
      validateNodes rest (seen ++ [node.nodeId])

/-- `validate_cpg`. -/
def validateCpg (cpg : CPG) : m Unit := do
  reraise (require (cpg.extraFields = [])
    "unsupported CPG graph fields; update the versioned semantic encoding")
  reraise (require (cpg.modelVersion.getD (py "scanipy-cpg/1") = py "scanipy-cpg/1")
    "unsupported CPG model version for canonical graph encoding")
  let seen ← validateNodes check cpg.nodes []
  Metered.visit
    (fun edge => do
      check
      reraise (validateEdge seen edge))
    cpg.edges

/-- `by_id` of `encode_graph`. -/
def CPG.byId (cpg : CPG) : Dict NodeId CPGNode :=
  Dict.ofPairs (cpg.nodes.map fun node => (node.nodeId, node))

/-- A sort key `(kind bytes, source rank, target rank)`, compared as Python tuples are. -/
abbrev EdgeKey := Bytes ×ₗ (Nat ×ₗ Nat)

/-- A subscript that raises `KeyError` on an absent key. -/
def subscript {α β : Type} [DecidableEq α] (entries : Dict α β) (key : α)
    : Except AnalysisError β :=
  match entries.get? key with
  | some value => .ok value
  | none => .error .keyError

/-- One element of the sorted edge generator of `encode_graph`. -/
def edgeKey (rank : Dict NodeId Nat) (edge : CPGEdge) : Except AnalysisError EdgeKey := do
  let kind ← encodeText edge.kind
  let src ← subscript rank edge.src
  let dst ← subscript rank edge.dst
  .ok (toLex (kind, toLex (src, dst)))

/-- One framed edge: kind with its length, then both ranks. -/
def frameEdge (key : EdgeKey) : Except AnalysisError Bytes := do
  let kind ← frameBytes (ofLex key).1
  let src ← u64 (ofLex (ofLex key).2).1
  let dst ← u64 (ofLex (ofLex key).2).2
  .ok (kind ++ src ++ dst)

/-- `encode_graph`: framed labels in order, then framed edges sorted by kind and ranks. -/
def encodeGraph (cpg : CPG) (order : List NodeId) : m Bytes := do
  validateCpg check cpg
  let byId := cpg.byId
  reraise (require
    (order.length = byId.length
      ∧ (∀ node ∈ order, node ∈ byId.keys) ∧ ∀ node ∈ byId.keys, node ∈ order)
    "graph encoding requires a complete node permutation")
  let rank := Dict.ofPairs order.zipIdx
  let size ← reraise (u64 order.length)
  let labels ← Metered.collect
    (fun node => do
      check
      reraise (subscript byId node >>= label))
    order
  let keys ← reraise (Metered.collect (edgeKey rank) cpg.edges)
  let edges := sorted keys
  let count ← reraise (u64 edges.length)
  let framed ← Metered.collect
    (fun key => do
      check
      reraise (frameEdge key))
    edges
  let result :=
    pyb "SCANIPY-CANONICAL-GRAPH/2\n" ++ size ++ labels.flatten ++ count ++ framed.flatten
  check
  pure result

end OptionalBudget

end Scanipy.Analysis

import Scanipy.Analysis.Fingerprint.Slice

/-! Normalisation passes and the slice fingerprint. -/

namespace Scanipy.Analysis

open Library Python
open CanonicalizationBudget (check elapsedMs)

def sliceIdentityNamespace : Text := py "scanipy-slice-normal-form/2"

def legacyWitnessNamespace : Text := py "scanipy-witness-edge-sequence/1"

def sourceWitnessNamespace : Text := py "scanipy-source-witness/2"

/-- `kind == "IDENTIFIER"`. -/
def CPGNode.IsIdentifier (node : CPGNode) : Prop :=
  node.kind = py "IDENTIFIER"

instance (node : CPGNode) : Decidable node.IsIdentifier :=
  inferInstanceAs (Decidable (node.kind = py "IDENTIFIER"))

/-- `_node`: the first node with the id. -/
def nodeWithId (cpg : CPG) (id : NodeId) : Except AnalysisError CPGNode :=
  match cpg.nodes.find? fun node => node.nodeId = id with
  | some node => .ok node
  | none => .error .keyError

/-- Copy nodes, edited, in order; also returns `remap`. -/
def addCopies (edit : CPGNode → CPGNode)
    : List CPGNode → CPG × Dict NodeId NodeId → CPG × Dict NodeId NodeId
  | [], copied => copied
  | node :: rest, copied => addCopies edit rest (addCopy (edit node) node.nodeId copied)

/-- `_copy_nodes` into a new graph, rewriting the text of each node. -/
def copyNodes (rename : CPGNode → Text) (nodes : List CPGNode) : CPG × Dict NodeId NodeId :=
  addCopies (fun node => { node with operatorOrLiteral := rename node }) nodes ({}, [])

/-- `_copy_edges`. -/
def copyEdges (remap : Dict NodeId NodeId) : List CPGEdge → CPG → Except AnalysisError CPG
  | [], dst => .ok dst
  | edge :: rest, dst => do
      let source ← subscript remap edge.src
      let target ← subscript remap edge.dst
      copyEdges remap rest (dst.addEdge source target edge.kind)

/-- The text of a node once local names are blanked. -/
def anonymousText (node : CPGNode) : Text :=
  if node.IsIdentifier then [] else node.operatorOrLiteral

/-- The loop over the canonical order that fills `counter`. -/
def numberLocals (slice : CPG)
    : List NodeId → Dict NodeId Nat → Nat → Except AnalysisError (Dict NodeId Nat)
  | [], counter, _ => .ok counter
  | id :: rest, counter, next => do
      let node ← nodeWithId slice id
      if node.IsIdentifier then
        numberLocals slice rest (counter.set id next) (next + 1)
      else
        numberLocals slice rest counter next

/-- `_rename` of `_alpha_rename_locals`. -/
def localName (counter : Dict NodeId Nat) (node : CPGNode) : Text :=
  match counter.get? node.nodeId with
  | some number => py "%local" ++ decimal number
  | none => node.operatorOrLiteral

/-- `_alpha_rename_locals`, pass 1. -/
def alphaRenameLocals (sha256 : Hash) (slice : CPG) : BudgetM CPG :=
  if ∀ node ∈ slice.nodes, ¬node.IsIdentifier then
    pure slice
  else do
    let (blank, remap) := copyNodes anonymousText slice.nodes
    let anonymized ← reraise (copyEdges remap slice.edges blank)
    let ordering ← canonicalOrder sha256 anonymized
    if ordering.fingerprintClass ≠ .strong then
      Metered.raise .budgetExhausted
    else do
      let inverse := Dict.ofPairs (remap.map fun entry => (entry.2, entry.1))
      let order ← reraise (Metered.collect (subscript inverse) ordering.canonicalOrder)
      let counter ← reraise (numberLocals slice order [] 0)
      let (out, remap) := copyNodes (localName counter) slice.nodes
      reraise (copyEdges remap slice.edges out)

/-- `_drop_pdg_only_formatting`, pass 2. -/
def dropPdgOnlyFormatting (slice : CPG) : CPG := slice

/-- `_canonical_topo_sort`, pass 3. -/
def canonicalTopoSort (slice : CPG) : CPG := slice

/-- `_summary_inline_pure_extract`, pass 4. -/
def summaryInlinePureExtract (slice : CPG) : CPG := slice

/-- `fqn.rsplit(".", 1)[-1]`. -/
def terminalSegment (fqn : Text) : Text :=
  (fqn.reverse.takeWhile fun point => [point] ≠ py ".").reverse

/-- `_norm_fqn`. -/
def normFqn (fqn : Text) : Text :=
  if fqn = [] then [] else py "%pkg." ++ terminalSegment fqn

/-- The node loop of `_fqn_normalise`. -/
def fqnNodes (nodes : List CPGNode) : CPG × Dict NodeId NodeId :=
  addCopies
    (fun node =>
      {
        node with
        resolvedFqn := normFqn node.resolvedFqn
        enclosingDeclFqn := normFqn node.enclosingDeclFqn
      })
    nodes ({}, [])

/-- `_fqn_normalise`, pass 5. -/
def fqnNormalise (slice : CPG) : Except AnalysisError CPG :=
  let (out, remap) := fqnNodes slice.nodes
  copyEdges remap slice.edges out

/-- `_normalise`: a check before each pass. -/
def normalise (sha256 : Hash) (slice : CPG) : BudgetM CPG := do
  check
  let out ← alphaRenameLocals sha256 slice
  check
  let out := dropPdgOnlyFormatting out
  check
  let out := canonicalTopoSort out
  check
  let out := summaryInlinePureExtract out
  check
  reraise (fqnNormalise out)

def strongSliceDomain : Bytes := pyb "SCANIPY-SLICE-STRONG/2\n"

def legacyWitnessDomain : Bytes := pyb "CMP-CORE-02/witness-edge-sequence/v1\n"

def sourceWitnessDomain : Bytes := pyb "SCANIPY-SLICE-WEAK/2\n"

/-- `_content_hash`. -/
def contentHash (sha256 : Hash) (normal : CPG) (order : List NodeId) : BudgetM Bytes := do
  let encoded ← encodeGraph check normal order
  pure (sha256 (strongSliceDomain ++ encoded))

/-- `value.to_bytes(8, "big")`. -/
def toBytes8 (value : Int) : Except AnalysisError Bytes :=
  if 0 ≤ value ∧ value < 2 ^ 64 then .ok (toBytes 8 value.toNat) else .error .overflowError

/-- `_witness_edge_sequence_hash`. -/
def witnessEdgeSequenceHash (sha256 : Hash) (witness : List NodeId)
    : Except AnalysisError Bytes := do
  let ids ← Metered.collect toBytes8 witness
  .ok (sha256 (legacyWitnessDomain ++ ids.flatten))

/-- The adjacency loop of `_source_witness_hash`. -/
def witnessAdjacency
    : List CPGEdge → Dict (NodeId × NodeId) (List Bytes)
      → BudgetM (Dict (NodeId × NodeId) (List Bytes))
  | [], adjacency => pure adjacency
  | edge :: rest, adjacency => do
      check
      let kind ← reraise (encodeText edge.kind)
      witnessAdjacency rest (adjacency.appendTo (edge.src, edge.dst) kind)

/-- The bytes hashed for one step of a source-scoped witness. -/
def witnessStep (adjacency : Dict (NodeId × NodeId) (List Bytes)) (step : NodeId × NodeId)
    : Except AnalysisError Bytes := do
  let kinds := sorted (adjacency.getD step [])
  require (kinds ≠ []) "source-scoped witness has a disconnected step"
  let count ← toBytes8 kinds.length
  let framed ← Metered.collect
    (fun (kind : Bytes) => do
      let length ← toBytes8 kind.length
      .ok (length ++ kind))
    kinds
  .ok (count ++ framed.flatten)

/-- `_source_witness_hash`. -/
def sourceWitnessHash (sha256 : Hash) (cpg : CPG) (witness : List NodeId) (digest : Bytes)
    : BudgetM Bytes := do
  let adjacency ← witnessAdjacency cpg.edges []
  let length ← reraise (toBytes8 witness.length)
  let ids ← Metered.collect
    (fun node => do
      check
      reraise (toBytes8 node))
    witness
  let steps ← reraise (Metered.collect (witnessStep adjacency) (witness.zip witness.tail))
  pure (sha256 (sourceWitnessDomain ++ digest ++ length ++ ids.flatten ++ steps.flatten))

/-- `SliceFingerprintResult`. -/
structure SliceFingerprintResult where
  sliceFingerprint : Bytes
  fingerprintClass : FingerprintClass
  budgetExhausted : Bool
  elapsedMs : Rat
  cpgOrderHashAnnotation : Text
  identityNamespace : Text := py "scanipy-slice-fingerprint/1"
  budgetPolicy : Text := py "scanipy-budget-policy/1"
  searchStates : Nat := 0

/-- `source_weak`: prepared before the search, for source-aware callers only. -/
def sourceWeak (sha256 : Hash) (cpg : CPG) (witness : List NodeId) (source : Option Bytes)
    : BudgetM (Option Bytes) :=
  match source with
  | none => pure none
  | some digest => do
      let weak ← sourceWitnessHash sha256 cpg witness digest
      pure (some weak)

/-- The `try` body of `_compute`. -/
def strongFingerprint (sha256 : Hash) (slice : CPG) : BudgetM Bytes := do
  let normal ← normalise sha256 slice
  let ordering ← canonicalOrder sha256 normal
  if ordering.fingerprintClass = .weak then
    Metered.raise .budgetExhausted
  else
    contentHash sha256 normal ordering.canonicalOrder

/-- The handler of `_compute`: `sourceWeak` is present exactly for source-aware callers. -/
def weakFingerprint (sha256 : Hash) (witness : List NodeId) (sourceWeak : Option Bytes)
    : BudgetM (Bytes × FingerprintClass × Text) := do
  check
  match sourceWeak with
  | none => do
      let fingerprint ← reraise (witnessEdgeSequenceHash sha256 witness)
      pure (fingerprint, .weak, legacyWitnessNamespace)
  | some fingerprint => pure (fingerprint, .weak, sourceWitnessNamespace)

/-- `_compute` once the budget is started. -/
def computeWith (sha256 : Hash) (cpg : CPG) (witness : List NodeId) (source : Option Bytes)
    : BudgetM SliceFingerprintResult := do
  validateCpg check cpg
  let sliced ← reraise (backwardInterproceduralSlice cpg witness)
  check
  let weak ← sourceWeak sha256 cpg witness source
  let (fingerprint, klass, identity) ← Metered.except .budgetExhausted
    (do
      let fingerprint ← strongFingerprint sha256 sliced.cpg
      pure (fingerprint, FingerprintClass.strong, sliceIdentityNamespace))
    (weakFingerprint sha256 sliced.witness weak)
  let elapsed ← elapsedMs
  check
  fun budget =>
    (.ok {
      sliceFingerprint := fingerprint
      fingerprintClass := klass
      budgetExhausted := klass = .weak
      elapsedMs := elapsed
      cpgOrderHashAnnotation := cpgOrderHashAnnotation
      identityNamespace := identity
      budgetPolicy := budgetPolicy
      searchStates := budget.searchStates },
    budget)

/-- `_compute`. -/
def compute (sha256 : Hash) (clock : Nat → Rat) (cpg : CPG) (witness : List NodeId) (B : Int)
    (T : Rat) (source : Option Bytes)
    : Except AnalysisError SliceFingerprintResult := do
  let budget ← CanonicalizationBudget.start clock B T
  (computeWith sha256 cpg witness source budget).1

/-- `compute_slice_fingerprint`. -/
def computeSliceFingerprint (sha256 : Hash) (clock : Nat → Rat) (cpg : CPG)
    (witness : List NodeId) (B : Int := defaultB) (T : Rat := defaultT)
    : Except AnalysisError SliceFingerprintResult :=
  compute sha256 clock cpg witness B T none

/-- `compute_slice_fingerprint_v2`. -/
def computeSliceFingerprintV2 (sha256 : Hash) (clock : Nat → Rat) (cpg : CPG)
    (witness : List NodeId) (digest : Bytes) (B : Int := defaultB) (T : Rat := defaultT)
    : Except AnalysisError SliceFingerprintResult := do
  require (digest.length = 32) "source_tree_digest must be 32 real digest bytes"
  compute sha256 clock cpg witness B T (some digest)

end Scanipy.Analysis

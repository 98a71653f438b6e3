import Scanipy.Analysis.Ordering.Graph

/-! Canonical graph identity: colour refinement, bounded search and the weak fallback.
Dictionaries keep insertion order; a stack keeps its top at the head.
-/

namespace Scanipy.Analysis

open Library Python
open CanonicalizationBudget (check enterState elapsedMs)

-- The adjacency index

/-- `_GraphIndex`. -/
structure GraphIndex where
  labels : Dict NodeId Bytes
  incoming : Dict NodeId (List (Bytes × NodeId))
  outgoing : Dict NodeId (List (Bytes × NodeId))
  pairs : Dict (NodeId × NodeId) (List Bytes)
  deriving DecidableEq

namespace GraphIndex

/-- The edge loop of `build`. -/
def addEdges : List CPGEdge → GraphIndex → BudgetM GraphIndex
  | [], index => pure index
  | edge :: rest, index => do
      check
      let kind ← reraise (encodeText edge.kind)
      addEdges rest
        {
          index with
          incoming := index.incoming.appendTo edge.dst (kind, edge.src)
          outgoing := index.outgoing.appendTo edge.src (kind, edge.dst)
          pairs := index.pairs.appendTo (edge.src, edge.dst) kind
        }

/-- `build`: the kinds between each pair of nodes are kept sorted. -/
def build (cpg : CPG) : BudgetM GraphIndex := do
  validateCpg check cpg
  let labels ← reraise (Metered.collect
    (fun node => do
      let bytes ← label node
      .ok (node.nodeId, bytes))
    cpg.nodes)
  let labels := Dict.ofPairs labels
  let index ← addEdges cpg.edges
    {
      labels
      incoming := labels.keys.map fun node => (node, [])
      outgoing := labels.keys.map fun node => (node, [])
      pairs := []
    }
  pure { index with pairs := index.pairs.map fun entry => (entry.1, sorted entry.2) }

/-- `_intern`: bytewise ranks of exact signatures. -/
def intern (signatures : Dict NodeId Bytes) : Dict NodeId Nat :=
  let ranked := sorted (signatures.map Prod.snd).dedup
  signatures.map fun entry => (entry.1, ranked.idxOf entry.2)

/-- `len(set(colors.values()))`. -/
def colorCount (colors : Dict NodeId Nat) : Nat :=
  (colors.map Prod.snd).dedup.length

/-- One direction of a node's signature: the sorted `(kind, colour)` list, counted. -/
def neighborhood (colors : Dict NodeId Nat) (adjacency : List (Bytes × NodeId))
    : Except AnalysisError Bytes := do
  let neighbors ← Metered.collect
    (fun (neighbor : Bytes × NodeId) => do
      let color ← subscript colors neighbor.2
      .ok (toLex (neighbor.1, color)))
    adjacency
  let count ← u64 neighbors.length
  let parts ← Metered.collect
    (fun (neighbor : Bytes ×ₗ Nat) => do
      let kind ← frameBytes (ofLex neighbor).1
      let color ← u64 (ofLex neighbor).2
      .ok (kind ++ color))
    (sorted neighbors)
  .ok (count ++ parts.flatten)

/-- The signature of one node in `refine`: its colour, then both neighbourhoods. -/
def signature (index : GraphIndex) (colors : Dict NodeId Nat) (node : NodeId)
    : Except AnalysisError Bytes := do
  let color ← subscript colors node
  let own ← u64 color
  let incoming ← subscript index.incoming node
  let before ← neighborhood colors incoming
  let outgoing ← subscript index.outgoing node
  let after ← neighborhood colors outgoing
  .ok (own ++ before ++ after)

/-- The `while colors` loop of `refine`. Colour counts grow until they are stable, so one
round per node and one more always suffice.
-/
def refineLoop (index : GraphIndex) : Nat → Dict NodeId Nat → BudgetM (Dict NodeId Nat)
  | 0, _ => Metered.raise .outOfFuel
  | fuel + 1, colors =>
      if colors = [] then
        pure colors
      else do
        let signatures ← Metered.collect
          (fun node => do
            check
            let bytes ← reraise (index.signature colors node)
            pure (node, bytes))
          colors.keys
        let refined := intern signatures
        if colorCount refined = colorCount colors then
          pure refined
        else
          index.refineLoop fuel refined

/-- `refine`. -/
def refine (index : GraphIndex) (markers : Dict NodeId Nat) : BudgetM (Dict NodeId Nat) := do
  let signatures ← reraise (Metered.collect
    (fun (entry : NodeId × Bytes) => do
      let marker ← u64 (markers.getD entry.1 0)
      .ok (entry.1, entry.2 ++ marker))
    index.labels)
  index.refineLoop (index.labels.length + 1) (intern signatures)

/-- The loop of `swap_is_automorphism` over all other nodes. -/
def swapLoop (index : GraphIndex) (a b : NodeId) : List NodeId → BudgetM Bool
  | [] => pure true
  | other :: rest => do
      check
      if (other ≠ a ∧ other ≠ b)
          ∧ (index.pairs.getD (a, other) [] ≠ index.pairs.getD (b, other) []
            ∨ index.pairs.getD (other, a) [] ≠ index.pairs.getD (other, b) []) then
        pure false
      else
        swapLoop index a b rest

/-- `swap_is_automorphism`. -/
def swapIsAutomorphism (index : GraphIndex) (a b : NodeId) : BudgetM Bool := do
  let labelA ← reraise (subscript index.labels a)
  let labelB ← reraise (subscript index.labels b)
  if labelA ≠ labelB then
    pure false
  else if index.pairs.getD (a, a) [] ≠ index.pairs.getD (b, b) [] then
    pure false
  else if index.pairs.getD (a, b) [] ≠ index.pairs.getD (b, a) [] then
    pure false
  else
    index.swapLoop a b index.labels.keys

/-- `any(index.swap_is_automorphism(node, other, budget) for other in representatives)`. -/
def swapsWithAny (index : GraphIndex) (node : NodeId) : List NodeId → BudgetM Bool
  | [] => pure false
  | other :: rest => do
      let swaps ← index.swapIsAutomorphism node other
      if swaps then pure true else swapsWithAny index node rest

/-- The loop that keeps one representative of each swap class. -/
def representatives (index : GraphIndex) : List NodeId → List NodeId → BudgetM (List NodeId)
  | [], kept => pure kept
  | node :: rest, kept => do
      let swaps ← index.swapsWithAny node kept
      representatives index rest (if swaps then kept else kept ++ [node])

end GraphIndex

/-- Individualised nodes with their markers `1, 2, ...`. -/
abbrev Markers := Dict NodeId Nat

/-- A leaf's encoding and order, compared as Python tuples are. -/
abbrev Candidate := Bytes ×ₗ List NodeId

/-- `cells`: the nodes of each colour. -/
def cells (colors : Dict NodeId Nat) : Dict Nat (List NodeId) :=
  colors.foldl (fun cells entry => cells.appendTo entry.2 entry.1) []

/-- `ambiguous`: size and colour of the cells with several nodes. -/
def ambiguous (colors : Dict NodeId Nat) : List (Nat ×ₗ Nat) :=
  ((cells colors).filter fun cell => 1 < cell.2.length).map fun cell =>
    toLex (cell.2.length, cell.1)

/-- Push the children of a search state; the first representative ends on top. -/
def pushChildren (markers : Markers) : List NodeId → List Markers → BudgetM (List Markers)
  | [], pending => pure pending
  | node :: rest, pending => do
      check
      pushChildren markers rest (markers.set node (markers.length + 1) :: pending)

/-- The `while pending` loop of `_canonical_search`. Every round enters a state, so the
state limit bounds the rounds.
-/
def searchLoop (cpg : CPG) (index : GraphIndex)
    : Nat → List Markers → Option Candidate → BudgetM (Option Candidate)
  | 0, _, _ => Metered.raise .outOfFuel
  | _ + 1, [], best => pure best
  | fuel + 1, markers :: pending, best => do
      enterState
      let colors ← index.refine markers
      match (ambiguous colors).min? with
      | none =>
          let order := sortedBy (fun node => colors.getD node 0) colors.keys
          let encoded ← encodeGraph check cpg order
          let candidate := toLex (encoded, order)
          searchLoop cpg index fuel pending (keepLeast best candidate)
      | some target =>
          let kept ← index.representatives
            (sorted ((cells colors).getD (ofLex target).2 [])) []
          let pending ← pushChildren markers kept.reverse pending
          searchLoop cpg index fuel pending best

/-- `_canonical_search`. -/
def canonicalSearch (cpg : CPG) (index : GraphIndex) : BudgetM (List NodeId × Bytes) := do
  let best ← fun budget =>
    searchLoop cpg index (budget.stateLimit - budget.searchStates + 1) [[]] none budget
  match best with
  | some found => pure ((ofLex found).2, (ofLex found).1)
  | none => Metered.raise .assertionError

/-- SHA-256 as a function on bytes. -/
abbrev Hash := Bytes → Bytes

/-- The sort key of `_stable_order_fallback`. -/
abbrev FallbackKey := Bytes ×ₗ Bytes ×ₗ List Text ×ₗ Bytes ×ₗ NodeId

/-- `incident`: the kinds of the edges at each node, once for each end. -/
def incident (cpg : CPG) : Dict NodeId (List Text) :=
  cpg.edges.foldl
    (fun kinds edge => (kinds.appendTo edge.src edge.kind).appendTo edge.dst edge.kind)
    (cpg.nodeIds.map fun node => (node, []))

/-- The key of one node in `_stable_order_fallback`. -/
def fallbackKey (sha256 : Hash) (cpg : CPG) (node : CPGNode)
    : Except AnalysisError (FallbackKey × NodeId) := do
  let declaration ← encodeText node.enclosingDeclFqn
  let path ← encodeText node.structuralPath
  let kinds ← subscript (incident cpg) node.nodeId
  let bytes ← label node
  .ok (toLex (sha256 declaration, toLex (path, toLex (sorted kinds, toLex (bytes, node.nodeId)))),
    node.nodeId)

/-- `_stable_order_fallback`. -/
def stableOrderFallback (sha256 : Hash) (cpg : CPG) : Except AnalysisError (List NodeId) := do
  let keyed ← Metered.collect (fallbackKey sha256 cpg) cpg.nodes
  .ok ((sortedBy Prod.fst keyed).map Prod.snd)

inductive FingerprintClass where
  | strong
  | weak
  deriving DecidableEq, Repr

def cpgOrderHashAnnotation : Text := py "canonical iff fingerprint_class = strong"

def graphIdentityNamespace : Text := py "scanipy-canonical-graph/2"

def budgetPolicy : Text := py "scanipy-budget-policy/2"

/-- `CanonicalOrderResult`. -/
structure CanonicalOrderResult where
  canonicalOrder : List NodeId
  cpgOrderHash : Bytes
  fingerprintClass : FingerprintClass
  annotation : Text
  budgetExhausted : Bool
  elapsedMs : Rat
  identityNamespace : Text := py "scanipy-cpg-order/1"
  budgetPolicy : Text := py "scanipy-budget-policy/1"
  searchStates : Nat := 0

/-- The domain prefix of a graph hash. -/
def orderDomain : FingerprintClass → Bytes
  | .strong => pyb "SCANIPY-CPG-STRONG/2\n"
  | .weak => pyb "SCANIPY-CPG-WEAK/2\n"

/-- Order, encoding and class: the `try` block of `canonical_order` and its handler. -/
def orderAndEncoding (sha256 : Hash) (cpg : CPG) (index : GraphIndex)
    : BudgetM (List NodeId × Bytes × FingerprintClass) :=
  Metered.except .budgetExhausted
    (do
      let (order, encoded) ← canonicalSearch cpg index
      pure (order, encoded, .strong))
    (do
      check
      let order ← reraise (stableOrderFallback sha256 cpg)
      let encoded ← encodeGraph check cpg order
      pure (order, encoded, .weak))

/-- `canonical_order` with a shared budget. -/
def canonicalOrder (sha256 : Hash) (cpg : CPG) : BudgetM CanonicalOrderResult := do
  let index ← GraphIndex.build cpg
  let (order, encoded, klass) ← orderAndEncoding sha256 cpg index
  let digest := sha256 (orderDomain klass ++ encoded)
  let elapsed ← elapsedMs
  check
  fun budget =>
    (.ok {
      canonicalOrder := order
      cpgOrderHash := digest
      fingerprintClass := klass
      annotation := cpgOrderHashAnnotation
      budgetExhausted := klass = .weak
      elapsedMs := elapsed
      identityNamespace := graphIdentityNamespace
      budgetPolicy := budgetPolicy
      searchStates := budget.searchStates },
    budget)

/-- `canonical_order(cpg, B=B, T=T)`: a fresh budget on the given clock. -/
def canonicalOrderFresh (sha256 : Hash) (clock : Nat → Rat) (cpg : CPG) (B : Int := defaultB)
    (T : Rat := defaultT)
    : Except AnalysisError CanonicalOrderResult := do
  let budget ← CanonicalizationBudget.start clock B T
  (canonicalOrder sha256 cpg budget).1

end Scanipy.Analysis

import Scanipy.Analysis.Fingerprint.Identity

/-! Package prefixes: pass 5 erases them, but pass 1 has numbered the locals before. -/

namespace Scanipy.Analysis

open Library Python

/-- `moved` differs from `node` at most in the package prefixes of its two names. -/
structure CPGNode.PrefixChange (node moved : CPGNode) : Prop where
  nodeId : moved.nodeId = node.nodeId
  kind : moved.kind = node.kind
  operatorOrLiteral : moved.operatorOrLiteral = node.operatorOrLiteral
  structuralPath : moved.structuralPath = node.structuralPath
  resolvedFqn : shortName moved.resolvedFqn = shortName node.resolvedFqn
  enclosingDeclFqn : shortName moved.enclosingDeclFqn = shortName node.enclosingDeclFqn

/-- `moved` differs from `cpg` at most in the package prefixes of names. -/
structure CPG.PrefixChange (cpg moved : CPG) : Prop where
  nodes : List.Forall₂ CPGNode.PrefixChange cpg.nodes moved.nodes
  edges : moved.edges = cpg.edges

namespace CPG.PrefixChange

variable {cpg moved : CPG} (changed : cpg.PrefixChange moved)

include changed

/-- Nothing but a prefix changes at any node. -/
theorem essences
    : (moved.nodes.map fun node => (node.nodeId, node.essence))
      = cpg.nodes.map fun node => (node.nodeId, node.essence) := by
  rw [← List.forall₂_eq_eq_eq, List.forall₂_map_left_iff, List.forall₂_map_right_iff]
  refine changed.nodes.flip.imp fun image node same => ?_
  have sorts : image.IsIdentifier ↔ node.IsIdentifier := by
    rw [CPGNode.IsIdentifier, CPGNode.IsIdentifier, same.kind]
  have texts : anonymousText image = anonymousText node := by
    simp only [anonymousText, sorts, same.operatorOrLiteral]
  simp only [CPGNode.essence, same.nodeId, same.kind, texts, same.resolvedFqn,
    same.enclosingDeclFqn]

theorem nodeIds : moved.nodeIds = cpg.nodeIds := by
  have ids := congrArg (List.map Prod.fst) changed.essences
  simpa only [CPG.nodeIds, List.map_map, Function.comp_def] using ids

/-- Slices are chosen by edges and witness alone. -/
theorem sliceMembers {witness members : List NodeId} (sliced : moved.SliceMembers witness members)
    : cpg.SliceMembers witness members := by
  refine ⟨sliced.distinct, sliced.ascending, changed.nodeIds ▸ sliced.known, ?_⟩
  obtain ⟨sink, last, onSlice⟩ := sliced.onSlice
  refine ⟨sink, last, fun id => (onSlice id).trans ?_⟩
  simp only [CPG.OnSlice, CPG.Reaches, CPG.flowsInto, changed.edges]

theorem iso : CPG.Iso CPGNode.essence id cpg moved := by
  refine ⟨?_, ?_⟩
  · rw [changed.essences]
    exact .rfl
  · rw [changed.edges]

/-- Isomorphisms onto the moved slice are automorphisms of the slice. -/
theorem extract_iso_iff (formed : cpg.WellFormed) (movedFormed : moved.WellFormed)
    {members : List NodeId} (known : members ⊆ cpg.nodeIds) {rename : NodeId → NodeId} {left : CPG}
    : CPG.Iso CPGNode.essence rename left (moved.extract members)
      ↔ CPG.Iso CPGNode.essence rename left (cpg.extract members) := by
  have nodes : ((moved.extract members).nodes.map fun node => (node.nodeId, node.essence))
      = (cpg.extract members).nodes.map fun node => (node.nodeId, node.essence) := by
    rw [CPG.extract, CPG.extract, List.map_map, List.map_map]
    refine List.map_congr_left fun id member => ?_
    exact Prod.ext rfl (changed.iso.nodeAt formed.distinct movedFormed.distinct (known member))
  have edges : (moved.extract members).edges = (cpg.extract members).edges := by
    rw [CPG.extract, CPG.extract, changed.edges]
  constructor
  · intro iso
    exact ⟨nodes ▸ iso.nodes, edges ▸ iso.edges⟩
  · intro iso
    exact ⟨nodes ▸ iso.nodes, edges ▸ iso.edges⟩

end CPG.PrefixChange

/-- Up to a symmetry of what the normal form keeps of a slice, both slices number their locals
alike: some automorphism of the first carries its canonical order of IDENTIFIER nodes, taken
under full names, to the second's.
-/
def CPG.NumbersAlike (slice moved : CPG) : Prop :=
  ∃ rename,
    CPG.Iso CPGNode.essence rename slice slice ∧ slice.locals.map rename = moved.locals

/-- Two reads in different scopes; the scope of the first has the given name. -/
def twoScopesIn (scope : Text) : CPG where
  nodes := [
    { nodeId := 0, kind := py "IDENTIFIER", operatorOrLiteral := py "x",
      enclosingDeclFqn := scope },
    { nodeId := 1, kind := py "IDENTIFIER", operatorOrLiteral := py "y",
      enclosingDeclFqn := py "b.g" }]
  edges := [{ src := 0, dst := 1, kind := py "CFG" }]

def twoScopes : ValidCPG where
  toCPG := twoScopesIn (py "a.f")
  accepted := by decide
  representable := ⟨by decide, by decide, by decide, by decide⟩

/-- The same after package `a` is renamed `c`. -/
def twoScopesMoved : ValidCPG where
  toCPG := twoScopesIn (py "c.f")
  accepted := by decide
  representable := ⟨by decide, by decide, by decide, by decide⟩

/-- The slice of either graph with given local names and scopes. -/
def twoScopesSlice (first second firstScope secondScope : String) : CPG where
  nodes := [
    { nodeId := 0, kind := py "IDENTIFIER", operatorOrLiteral := py first,
      enclosingDeclFqn := py firstScope },
    { nodeId := 1, kind := py "IDENTIFIER", operatorOrLiteral := py second,
      enclosingDeclFqn := py secondScope }]
  edges := [{ src := 0, dst := 1, kind := py "CFG" }]

/-- SHA-256 on the inputs hashed for the two graphs. -/
def twoScopesSha256 : Hash :=
  tableHash [
    (orderDomain .strong ++ encodedGraph (twoScopesSlice "" "" "a.f" "b.g") [0, 1],
      0x3230cfed0792a04683850a929a2120e0b5fa067986c254decb78313027d52437),
    (orderDomain .strong
        ++ encodedGraph (twoScopesSlice "%local0" "%local1" "%pkg.f" "%pkg.g") [0, 1],
      0x5e8bba51bf8cc457f81a139e3fc42b3a32a71d9f252132c7e95a3fdd7379d21f),
    (strongSliceDomain
        ++ encodedGraph (twoScopesSlice "%local0" "%local1" "%pkg.f" "%pkg.g") [0, 1],
      0xf807b38f1b179833aa561b076a5cc0d36efcc1687b5f3b49ab5c9376bb3c0241),
    (orderDomain .strong ++ encodedGraph (twoScopesSlice "" "" "c.f" "b.g") [1, 0],
      0x3fe0eda1c3f7138bd7535dbc3938aff5d78e57196fbeed3d01b157bf6720e627),
    (orderDomain .strong
        ++ encodedGraph (twoScopesSlice "%local1" "%local0" "%pkg.f" "%pkg.g") [1, 0],
      0x0eea2afd8d90da0b775035965b702384006053e55d0fbc788065c683a513e42b),
    (strongSliceDomain
        ++ encodedGraph (twoScopesSlice "%local1" "%local0" "%pkg.f" "%pkg.g") [1, 0],
      0x0fce00c042a9c71610ae09d8e84d9eea22c36e0f85b5b1d805da92183ebb4b7a)]

theorem twoScopesSha256_injective : Function.Injective twoScopesSha256 :=
  tableHash_injective (by decide) (by decide)

theorem twoScopes_prefixChange : twoScopes.toCPG.PrefixChange twoScopesMoved.toCPG :=
  ⟨.cons ⟨rfl, rfl, rfl, rfl, rfl, by decide⟩ (.cons ⟨rfl, rfl, rfl, rfl, rfl, rfl⟩ .nil), rfl⟩

theorem twoScopes_fingerprint
    : ∃ result,
        computeSliceFingerprint twoScopesSha256 (fun _ => 0) twoScopes.toCPG [0, 1] 2 defaultT
          = .ok result
        ∧ result.sliceFingerprint
          = toBytes 32 0xf807b38f1b179833aa561b076a5cc0d36efcc1687b5f3b49ab5c9376bb3c0241
        ∧ result.fingerprintClass = .strong :=
  of_returned (by decide +kernel)

theorem twoScopesMoved_fingerprint
    : ∃ result,
        computeSliceFingerprint twoScopesSha256 (fun _ => 0) twoScopesMoved.toCPG [0, 1] 2 defaultT
          = .ok result
        ∧ result.sliceFingerprint
          = toBytes 32 0x0fce00c042a9c71610ae09d8e84d9eea22c36e0f85b5b1d805da92183ebb4b7a
        ∧ result.fingerprintClass = .strong :=
  of_returned (by decide +kernel)

end Scanipy.Analysis

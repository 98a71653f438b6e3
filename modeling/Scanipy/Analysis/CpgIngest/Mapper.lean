import Scanipy.Analysis.Ordering.Graph
import Scanipy.Library.Outcome

/-! The mapper from a Joern export to a code property graph and its source locations. -/

namespace Scanipy.Analysis.CpgIngest

open Analysis Library Python

/-- `RawJoernNode`. `none` is an absent key or a `None`. -/
structure RawJoernNode where
  id : Text
  label : Option Text := none
  code : Option Text := none
  name : Option Text := none
  methodFullName : Option Text := none
  fullName : Option Text := none
  filename : Option Text := none
  lineNumber : Option Int := none
  columnNumber : Option Int := none
  deriving DecidableEq

/-- `RawJoernEdge`. -/
structure RawJoernEdge where
  src : Text
  dst : Text
  kind : Text
  deriving DecidableEq

/-- `RawJoernExport`. -/
structure RawJoernExport where
  nodes : List RawJoernNode := []
  edges : List RawJoernEdge := []

/-- `SourceLocation`. -/
structure SourceLocation where
  filename : Text
  line : Int
  column : Int
  deriving DecidableEq

/-- What the mapper raises. `outOfFuel` is no exception of the source: the tree walk of the
model stopped early.
-/
inductive MapperError where
  | unknownEdgeKind (kind : Text)
  | unknownNodeReference (src dst : Text) (kind : Option Text)
  | outOfFuel
  deriving DecidableEq

/-- `_DECL_LABELS`. -/
def declLabels : List Text :=
  [py "METHOD", py "TYPE_DECL"]

/-- `EDGE_KIND_MAP`. -/
def edgeKindMap : Dict Text Text :=
  [
    (py "AST", py "AST"),
    (py "CFG", py "CFG"),
    (py "CDG", py "PDG"),
    (py "REACHING_DEF", py "PDG")
  ]

namespace RawJoernNode

variable (node : RawJoernNode)

/-- `node.get("label", "")`. -/
def labelText : Text :=
  node.label.getD []

/-- `label in _DECL_LABELS`. -/
def IsDecl : Prop :=
  node.labelText ∈ declLabels

instance : Decidable node.IsDecl :=
  inferInstanceAs (Decidable (_ ∈ _))

/-- `_line`. -/
def line : Int :=
  node.lineNumber.getD 0

/-- `_col`. -/
def col : Int :=
  node.columnNumber.getD 0

/-- `_operator_or_literal`. -/
def operatorOrLiteral : Text :=
  if node.labelText = py "LITERAL" then
    node.code.getD []
  else if node.labelText = py "CALL" ∧ py "<operator>." <+: node.name.getD [] then
    node.name.getD []
  else
    []

/-- `_resolved_fqn`. -/
def resolvedFqn : Text :=
  if node.labelText = py "CALL" then
    node.methodFullName.getD []
  else if node.IsDecl then
    node.fullName.getD []
  else
    []

/-- `node.get("filename") or inherited`. -/
def filenameOr (inherited : Text) : Text :=
  match node.filename with
  | none | some [] => inherited
  | some filename => filename

end RawJoernNode

/-- `nodes_by_id`. -/
def RawJoernExport.nodesById (exported : RawJoernExport) : Dict Text RawJoernNode :=
  Dict.ofPairs (exported.nodes.map fun node => (node.id, node))

/-- `nodes_by_id[nid]`. Every id the mapper asks for is a key: it is one of the dictionary's own,
or an end of an AST edge, which `collectAst` checks.
-/
def nodeAt (nodesById : Dict Text RawJoernNode) (nid : Text) : RawJoernNode :=
  nodesById.getD nid { id := nid }

/-- `ast_children` and `ast_parent_of`. -/
structure AstLinks where
  children : Dict Text (List Text) := []
  parentOf : Dict Text Text := []

/-- The body of the first edge loop. -/
def AstLinks.add (nodesById : Dict Text RawJoernNode) (links : AstLinks) (edge : RawJoernEdge)
    : Except MapperError AstLinks :=
  if edge.kind = py "AST" then do
    demand (edge.src ∈ nodesById.keys ∧ edge.dst ∈ nodesById.keys)
      (.unknownNodeReference edge.src edge.dst none)
    .ok {
      children := links.children.appendTo edge.src edge.dst
      parentOf := links.parentOf.set edge.dst edge.src
    }
  else
    .ok links

/-- The first edge loop. -/
def collectAst (nodesById : Dict Text RawJoernNode)
    : List RawJoernEdge → AstLinks → Except MapperError AstLinks
  | [], links => .ok links
  | edge :: rest, links => do
      let added ← links.add nodesById edge
      collectAst nodesById rest added

/-- `roots`. -/
def rootsOf (nodesById : Dict Text RawJoernNode) (links : AstLinks) : List Text :=
  nodesById.keys.filter fun nid => nid ∉ links.parentOf.keys

/-- `(filename, line, col, raw_id)`, compared as Python tuples are. -/
abbrev NodeSortKey := Text ×ₗ (Int ×ₗ (Int ×ₗ Text))

/-- `_node_sort_key`. -/
def nodeSortKey (nodesById : Dict Text RawJoernNode) (inheritedFilename nid : Text) : NodeSortKey :=
  let node := nodeAt nodesById nid
  toLex (node.filenameOr inheritedFilename, toLex (node.line, toLex (node.col, nid)))

/-- What the four maps of `_walk_ast` hold for one id; every visit assigns all four. -/
structure Placement where
  preorderIndex : Nat
  structuralPath : Text
  enclosingDeclFqn : Text
  resolvedFilename : Text
  deriving DecidableEq

/-- The four maps of `_walk_ast` and its counter. -/
structure Walk where
  placements : Dict Text Placement := []
  counter : Nat := 0

/-- Assign the four maps at one id and count the visit. -/
def Walk.place (walk : Walk) (nid structuralPath enclosingDeclFqn resolvedFilename : Text) : Walk where
  placements := walk.placements.set nid
    { preorderIndex := walk.counter, structuralPath, enclosingDeclFqn, resolvedFilename }
  counter := walk.counter + 1

/-- A stack entry. -/
structure Frame where
  nid : Text
  parentDeclFqn : Text
  parentFilename : Text
  localPrefix : Text

namespace Frame

variable (nodesById : Dict Text RawJoernNode) (frame : Frame)

def declFqn : Text :=
  if (nodeAt nodesById frame.nid).IsDecl then
    (nodeAt nodesById frame.nid).fullName.getD []
  else
    frame.parentDeclFqn

def filename : Text :=
  (nodeAt nodesById frame.nid).filenameOr frame.parentFilename

def path : Text :=
  if (nodeAt nodesById frame.nid).IsDecl then [] else frame.localPrefix

/-- `child_prefix` of the child at a position. -/
def childPath (position : Nat) : Text :=
  if frame.path nodesById = [] then
    decimal position
  else
    frame.path nodesById ++ py "." ++ decimal position

/-- The frames of the children, the one to be visited first in front. -/
def below (children : Dict Text (List Text)) : List Frame :=
  let sortedChildren := sortedBy (nodeSortKey nodesById (frame.filename nodesById))
    (children.getD frame.nid [])
  sortedChildren.zipIdx.map fun child =>
    {
      nid := child.1
      parentDeclFqn := frame.declFqn nodesById
      parentFilename := frame.filename nodesById
      localPrefix := frame.childPath nodesById child.2
    }

end Frame

/-- The loop of `_walk_ast`; the top of the stack is the head of the list. -/
def walkLoop (nodesById : Dict Text RawJoernNode) (children : Dict Text (List Text))
    : Nat → List Frame → Walk → Except MapperError Walk
  | _, [], walk => .ok walk
  | 0, _ :: _, _ => .error .outOfFuel
  | fuel + 1, frame :: stack, walk =>
      walkLoop nodesById children fuel (frame.below nodesById children ++ stack)
        (walk.place frame.nid (frame.path nodesById) (frame.declFqn nodesById)
          (frame.filename nodesById))

/-- The orphan loop of `_walk_ast`. -/
def placeOrphans (nodesById : Dict Text RawJoernNode) (walk : Walk) : Walk :=
  let orphans := sortedBy (nodeSortKey nodesById [])
    (nodesById.keys.filter fun nid => nid ∉ walk.placements.keys)
  orphans.foldl
    (fun walk nid => walk.place nid [] [] ((nodeAt nodesById nid).filenameOr []))
    walk

/-- `_walk_ast`. -/
def walkAst (fuel : Nat) (roots : List Text) (nodesById : Dict Text RawJoernNode)
    (children : Dict Text (List Text))
    : Except MapperError Walk := do
  let rootsSorted := sortedBy (nodeSortKey nodesById []) roots
  let stack := rootsSorted.map fun nid => Frame.mk nid [] [] []
  let walk ← walkLoop nodesById children fuel stack {}
  .ok (placeOrphans nodesById walk)

/-- The placement of an id; after the orphan loop every id has one. -/
def Walk.placement (walk : Walk) (nid : Text) : Placement :=
  walk.placements.getD nid
    { preorderIndex := 0, structuralPath := [], enclosingDeclFqn := [], resolvedFilename := [] }

/-- `(resolved_filename, line, col, preorder_index)`. -/
abbrev EmissionKey := Text ×ₗ (Int ×ₗ (Int ×ₗ Nat))

/-- The key of `emission_order`. -/
def emissionKey (nodesById : Dict Text RawJoernNode) (walk : Walk) (nid : Text) : EmissionKey :=
  let node := nodeAt nodesById nid
  let placement := walk.placement nid
  toLex (placement.resolvedFilename, toLex (node.line, toLex (node.col, placement.preorderIndex)))

/-- `emission_order`. -/
def emissionOrder (nodesById : Dict Text RawJoernNode) (walk : Walk) : List Text :=
  sortedBy (emissionKey nodesById walk) nodesById.keys

/-- `cpg`, `raw_to_node_id` and `locations`. -/
structure Emission where
  cpg : CPG := {}
  rawToNodeId : Dict Text NodeId := []
  locations : Dict NodeId SourceLocation := []

/-- The body of the emission loop. -/
def Emission.emit (nodesById : Dict Text RawJoernNode) (walk : Walk) (emission : Emission)
    (nid : Text) : Emission :=
  let node := nodeAt nodesById nid
  let placement := walk.placement nid
  let nodeId : NodeId := emission.cpg.nodes.length
  {
    cpg := emission.cpg.addNode node.labelText node.operatorOrLiteral node.resolvedFqn
      placement.enclosingDeclFqn placement.structuralPath
    rawToNodeId := emission.rawToNodeId.set nid nodeId
    locations := emission.locations.set nodeId
      { filename := placement.resolvedFilename, line := node.line, column := node.col }
  }

/-- `(kind, src_id, dst_id)`. -/
abbrev MappedEdge := Text ×ₗ (NodeId ×ₗ NodeId)

/-- The body of the second edge loop. -/
def mapEdge (rawToNodeId : Dict Text NodeId) (edge : RawJoernEdge) : Except MapperError MappedEdge :=
  match edgeKindMap.get? edge.kind with
  | none => .error (.unknownEdgeKind edge.kind)
  | some kind =>
      match rawToNodeId.get? edge.src, rawToNodeId.get? edge.dst with
      | some src, some dst => .ok (toLex (kind, toLex (src, dst)))
      | _, _ => .error (.unknownNodeReference edge.src edge.dst (some edge.kind))

/-- The loop that adds the sorted edges. -/
def addMappedEdges (cpg : CPG) (mappedEdges : List MappedEdge) : CPG :=
  (sorted mappedEdges).foldl
    (fun cpg edge => cpg.addEdge (ofLex (ofLex edge).2).1 (ofLex (ofLex edge).2).2 (ofLex edge).1)
    cpg

/-- `map_export_with_locations`. The fuel bounds the tree walk, which need not end when AST edges
form a cycle.
-/
def mapExportWithLocations (fuel : Nat) (exported : RawJoernExport)
    : Except MapperError (CPG × Dict NodeId SourceLocation) := do
  let nodesById := exported.nodesById
  let links ← collectAst nodesById exported.edges {}
  let walk ← walkAst fuel (rootsOf nodesById links) nodesById links.children
  let emission := (emissionOrder nodesById walk).foldl (Emission.emit nodesById walk) {}
  let mappedEdges ← Metered.collect (mapEdge emission.rawToNodeId) exported.edges
  .ok (addMappedEdges emission.cpg mappedEdges, emission.locations)

/-- The call returns, with this graph and this location table. -/
def MapsTo (exported : RawJoernExport) (result : CPG × Dict NodeId SourceLocation) : Prop :=
  ∃ fuel, mapExportWithLocations fuel exported = .ok result

end Scanipy.Analysis.CpgIngest

import Scanipy.Analysis.CpgIngest.Mapper

/-! The mapped graph and its locations do not depend on the order of the export's arrays.
Children, roots and orphans are sorted by keys that end in the id, and a walk numbers its visits
one by one, so no sort of the mapper is left with a tie that the listing could break.
-/

namespace Scanipy.Analysis.CpgIngest

open Analysis Library Python

/-- The same export, with its arrays listed in any order. -/
structure RawJoernExport.Relisted (left right : RawJoernExport) : Prop where
  distinct : (left.nodes.map RawJoernNode.id).Nodup
  nodes : right.nodes.Perm left.nodes
  edges : right.edges.Perm left.edges

/-- Two node tables with the same entries, listed in any order. -/
structure SameTable (left right : Dict Text RawJoernNode) : Prop where
  nodeAt : ∀ nid, nodeAt right nid = nodeAt left nid
  keys : right.keys.Perm left.keys

variable {left right : RawJoernExport}

namespace RawJoernExport.Relisted

theorem nodesById (relisted : left.Relisted right)
    : SameTable left.nodesById right.nodesById := by
  have leftDistinct : ((left.nodes.map fun node => (node.id, node)).map Prod.fst).Nodup := by
    rw [List.map_map]
    exact relisted.distinct
  have perm := relisted.nodes.map fun node => (node.id, node)
  have rightDistinct := (perm.map Prod.fst).nodup_iff.mpr leftDistinct
  unfold RawJoernExport.nodesById
  rw [Dict.ofPairs_eq_self leftDistinct, Dict.ofPairs_eq_self rightDistinct]
  exact {
    nodeAt := fun nid => by
      unfold CpgIngest.nodeAt Dict.getD
      rw [Dict.get?_perm perm leftDistinct]
    keys := perm.map Prod.fst
  }

end RawJoernExport.Relisted

/-- The edges the first loop reads. -/
def astEdges (edges : List RawJoernEdge) : List RawJoernEdge :=
  edges.filter fun edge => edge.kind = py "AST"

variable {nodesById : Dict Text RawJoernNode} {edges : List RawJoernEdge} {links : AstLinks}

/-- The first loop succeeds when both ends of every AST edge are known, by list induction. -/
theorem collectAst_ok_iff {final : AstLinks}
    : collectAst nodesById edges links = .ok final
      ↔ (∀ edge ∈ astEdges edges, edge.src ∈ nodesById.keys ∧ edge.dst ∈ nodesById.keys)
        ∧ final = {
            children := (astEdges edges).foldl
              (fun children edge => children.appendTo edge.src edge.dst) links.children
            parentOf := (astEdges edges).foldl
              (fun parentOf edge => parentOf.set edge.dst edge.src) links.parentOf
          } := by
  induction edges generalizing links with
  | nil => simp [collectAst, astEdges, eq_comm]
  | cons edge rest ih =>
      by_cases ast : edge.kind = py "AST"
      · have listed : astEdges (edge :: rest) = edge :: astEdges rest := by
          simp [astEdges, ast]
        simp only [collectAst, AstLinks.add, if_pos ast, bind_ok, demand_ok,
          exists_const, Except.ok.injEq, listed, List.forall_mem_cons, List.foldl_cons]
        constructor
        · rintro ⟨_, ⟨known, rfl⟩, later⟩
          obtain ⟨others, same⟩ := ih.mp later
          exact ⟨⟨known, others⟩, same⟩
        · rintro ⟨⟨known, others⟩, same⟩
          exact ⟨_, ⟨known, rfl⟩, ih.mpr ⟨others, same⟩⟩
      · have listed : astEdges (edge :: rest) = astEdges rest := by
          simp [astEdges, ast]
        simp only [collectAst, AstLinks.add, if_neg ast, ok_bind, ih, listed]

variable {nid : Text}

/-- The ids with a parent are the targets of the edges, by list induction. -/
theorem mem_keys_foldl_set {parentOf : Dict Text Text}
    : nid ∈ Dict.keys (edges.foldl (fun parentOf edge => parentOf.set edge.dst edge.src) parentOf)
      ↔ nid ∈ parentOf.keys ∨ ∃ edge ∈ edges, edge.dst = nid := by
  induction edges generalizing parentOf with
  | nil => simp
  | cons edge rest ih =>
      rw [List.foldl_cons, ih, Dict.mem_keys_set, List.exists_mem_cons_iff, or_assoc, or_left_comm,
        eq_comm]
      tauto

/-- Two listings of the same links. -/
structure SameLinks (left right : AstLinks) : Prop where
  children : ∀ nid, (right.children.getD nid []).Perm (left.children.getD nid [])
  parents : ∀ nid, nid ∈ right.parentOf.keys ↔ nid ∈ left.parentOf.keys

variable {others : List RawJoernEdge}

/-- A listing that is accepted is accepted in any order, with the same links. -/
theorem collectAst_relisted {table other : Dict Text RawJoernNode} (same : SameTable table other)
    (perm : others.Perm edges) (collected : collectAst table edges {} = .ok links)
    : ∃ relinked, collectAst other others {} = .ok relinked ∧ SameLinks links relinked := by
  obtain ⟨known, rfl⟩ := collectAst_ok_iff.mp collected
  have astPerm : (astEdges others).Perm (astEdges edges) := perm.filter _
  refine ⟨_, collectAst_ok_iff.mpr ⟨fun edge member => ?_, rfl⟩, ?_, ?_⟩
  · obtain ⟨src, dst⟩ := known edge (astPerm.mem_iff.mp member)
    exact ⟨same.keys.mem_iff.mpr src, same.keys.mem_iff.mpr dst⟩
  · intro nid
    rw [Dict.getD_foldl_appendTo, Dict.getD_foldl_appendTo]
    exact ((astPerm.filter _).map _).append_left _
  · intro nid
    simp only [mem_keys_foldl_set, astPerm.mem_iff]

/-- The last component of a sort key is the id itself. -/
theorem nodeSortKey_injective (nodesById : Dict Text RawJoernNode) (inheritedFilename : Text)
    : Function.Injective (nodeSortKey nodesById inheritedFilename) := by
  intro left right same
  simp only [nodeSortKey, EmbeddingLike.apply_eq_iff_eq, Prod.mk.injEq] at same
  exact same.2.2.2

variable {children : Dict Text (List Text)}

section Walk

variable {table other : Dict Text RawJoernNode} (same : SameTable table other)

include same

theorem sortedBy_nodeSortKey {nids others : List Text} (perm : others.Perm nids)
    (inheritedFilename : Text)
    : sortedBy (nodeSortKey other inheritedFilename) others
      = sortedBy (nodeSortKey table inheritedFilename) nids := by
  have keys : nodeSortKey other inheritedFilename = nodeSortKey table inheritedFilename := by
    funext nid
    simp only [nodeSortKey, same.nodeAt]
  rw [keys]
  exact sortedBy_eq_of_perm perm (nodeSortKey_injective table inheritedFilename).injOn

theorem declFqn_relisted (frame : Frame) : frame.declFqn other = frame.declFqn table := by
  rw [Frame.declFqn, same.nodeAt, Frame.declFqn]

theorem filename_relisted (frame : Frame) : frame.filename other = frame.filename table := by
  rw [Frame.filename, same.nodeAt, Frame.filename]

theorem path_relisted (frame : Frame) : frame.path other = frame.path table := by
  rw [Frame.path, same.nodeAt, Frame.path]

variable {reordered : Dict Text (List Text)}

theorem below_relisted (frame : Frame)
    (perm : (reordered.getD frame.nid []).Perm (children.getD frame.nid []))
    : frame.below other reordered = frame.below table children := by
  have path := path_relisted same frame
  have filename := filename_relisted same frame
  have declFqn := declFqn_relisted same frame
  simp only [Frame.below, Frame.childPath, path, filename, declFqn,
    sortedBy_nodeSortKey same perm]

/-- A walk visits the same nodes in the same order, by induction on the fuel. -/
theorem walkLoop_relisted (perm : ∀ nid, (reordered.getD nid []).Perm (children.getD nid []))
    (fuel : Nat) (stack : List Frame) (walk : Walk)
    : walkLoop other reordered fuel stack walk = walkLoop table children fuel stack walk := by
  induction fuel generalizing stack walk with
  | zero => cases stack <;> rfl
  | succ fuel ih =>
      cases stack with
      | nil => rfl
      | cons frame rest =>
          simp only [walkLoop, below_relisted same frame (perm frame.nid), path_relisted same,
            filename_relisted same, declFqn_relisted same, ih]

theorem placeOrphans_relisted (walk : Walk) : placeOrphans other walk = placeOrphans table walk := by
  unfold placeOrphans
  simp only [same.nodeAt, sortedBy_nodeSortKey same (same.keys.filter _)]

theorem walkAst_relisted {relinked : AstLinks} (sameLinks : SameLinks links relinked) (fuel : Nat)
    : walkAst fuel (rootsOf other relinked) other relinked.children
      = walkAst fuel (rootsOf table links) table links.children := by
  have roots : (rootsOf other relinked).Perm (rootsOf table links) := by
    unfold rootsOf
    simp only [sameLinks.parents]
    exact same.keys.filter _
  simp only [walkAst, sortedBy_nodeSortKey same roots, walkLoop_relisted same sameLinks.children,
    placeOrphans_relisted same]

end Walk

/-- Every index is below the counter, and no two ids share one. -/
structure Walk.Numbered (walk : Walk) : Prop where
  below : ∀ nid placement, walk.placements.get? nid = some placement
    → placement.preorderIndex < walk.counter
  apart : ∀ left right first second, walk.placements.get? left = some first
    → walk.placements.get? right = some second
    → first.preorderIndex = second.preorderIndex → left = right

theorem Walk.numbered_start : ({} : Walk).Numbered :=
  ⟨fun _ _ found => by simp [Dict.get?] at found, fun _ _ _ _ found => by simp [Dict.get?] at found⟩

variable {walk : Walk}

/-- A visit takes the next number, also when it comes back to an id. -/
theorem Walk.Numbered.place (numbered : walk.Numbered)
    (nid structuralPath enclosingDeclFqn resolvedFilename : Text)
    : (walk.place nid structuralPath enclosingDeclFqn resolvedFilename).Numbered where
  below := by
    intro wanted placement found
    simp only [Walk.place, Dict.get?_set] at found ⊢
    by_cases hit : nid = wanted
    · rw [if_pos hit] at found
      cases found
      exact Nat.lt_succ_self _
    · rw [if_neg hit] at found
      exact Nat.lt_succ_of_lt (numbered.below wanted placement found)
  apart := by
    intro left right first second firstFound secondFound shared
    simp only [Walk.place, Dict.get?_set] at firstFound secondFound
    by_cases atLeft : nid = left <;> by_cases atRight : nid = right
    · exact atLeft.symm.trans atRight
    · rw [if_pos atLeft] at firstFound
      rw [if_neg atRight] at secondFound
      cases firstFound
      exact absurd shared (numbered.below right second secondFound).ne'
    · rw [if_neg atLeft] at firstFound
      rw [if_pos atRight] at secondFound
      cases secondFound
      exact absurd shared (numbered.below left first firstFound).ne
    · rw [if_neg atLeft] at firstFound
      rw [if_neg atRight] at secondFound
      exact numbered.apart left right first second firstFound secondFound shared

theorem Walk.mem_keys_place {structuralPath enclosingDeclFqn resolvedFilename : Text}
    {wanted : Text}
    : wanted ∈ (walk.place nid structuralPath enclosingDeclFqn resolvedFilename).placements.keys
      ↔ wanted ∈ walk.placements.keys ∨ wanted = nid :=
  Dict.mem_keys_set

variable {fuel : Nat} {stack : List Frame} {final : Walk}

/-- The loop keeps the numbering, by induction on the fuel. -/
theorem walkLoop_numbered (numbered : walk.Numbered)
    (walked : walkLoop nodesById children fuel stack walk = .ok final)
    : final.Numbered := by
  induction fuel generalizing stack walk with
  | zero =>
      cases stack with
      | nil => exact Except.ok.inj walked ▸ numbered
      | cons frame rest => cases walked
  | succ fuel ih =>
      cases stack with
      | nil => exact Except.ok.inj walked ▸ numbered
      | cons frame rest => exact ih (numbered.place _ _ _ _) walked

/-- The orphan loop numbers the orphans and leaves no id without a number, by list induction. -/
theorem foldl_place_numbered (nids : List Text) (filename : Text → Text) (numbered : walk.Numbered)
    : (nids.foldl (fun walk nid => walk.place nid [] [] (filename nid)) walk).Numbered
      ∧ ∀ nid, nid ∈ (nids.foldl
            (fun walk nid => walk.place nid [] [] (filename nid)) walk).placements.keys
          ↔ nid ∈ nids ∨ nid ∈ walk.placements.keys := by
  induction nids generalizing walk with
  | nil => simpa using numbered
  | cons head rest ih =>
      obtain ⟨kept, placed⟩ := ih (numbered.place head [] [] (filename head))
      refine ⟨kept, fun nid => ?_⟩
      rw [List.foldl_cons, placed nid, Walk.mem_keys_place, List.mem_cons]
      tauto

/-- A finished walk has numbered every node. -/
theorem walkAst_numbered {roots : List Text}
    (walked : walkAst fuel roots nodesById children = .ok walk)
    : walk.Numbered ∧ ∀ nid ∈ nodesById.keys, nid ∈ walk.placements.keys := by
  obtain ⟨reached, looped, done⟩ := bind_ok.mp walked
  cases done
  obtain ⟨numbered, placed⟩ := foldl_place_numbered
    (sortedBy (nodeSortKey nodesById [])
      (nodesById.keys.filter fun nid => nid ∉ reached.placements.keys))
    (fun nid => (nodeAt nodesById nid).filenameOr [])
    (walkLoop_numbered Walk.numbered_start looped)
  refine ⟨numbered, fun nid member => (placed nid).mpr ?_⟩
  by_cases visited : nid ∈ reached.placements.keys
  · exact .inr visited
  · exact .inl (mem_sortedBy.mpr (List.mem_filter.mpr ⟨member, decide_eq_true visited⟩))

/-- Numbered nodes have distinct emission keys. -/
theorem emissionKey_injOn (numbered : walk.Numbered)
    (placed : ∀ nid ∈ nodesById.keys, nid ∈ walk.placements.keys)
    : Set.InjOn (emissionKey nodesById walk) {nid | nid ∈ nodesById.keys} := by
  intro left leftMember right rightMember same
  obtain ⟨first, firstFound⟩ := Dict.mem_keys.mp (placed left leftMember)
  obtain ⟨second, secondFound⟩ := Dict.mem_keys.mp (placed right rightMember)
  simp only [emissionKey, Walk.placement, Dict.getD, firstFound, secondFound, Option.getD_some,
    EmbeddingLike.apply_eq_iff_eq, Prod.mk.injEq] at same
  exact numbered.apart left right first second firstFound secondFound same.2.2.2

section Emission

variable {table other : Dict Text RawJoernNode} (same : SameTable table other)

include same

theorem emissionOrder_relisted (numbered : walk.Numbered)
    (placed : ∀ nid ∈ table.keys, nid ∈ walk.placements.keys)
    : emissionOrder other walk = emissionOrder table walk := by
  have keys : emissionKey other walk = emissionKey table walk := by
    funext nid
    simp only [emissionKey, same.nodeAt]
  unfold emissionOrder
  rw [keys]
  refine sortedBy_eq_of_perm same.keys ?_
  simpa only [same.keys.mem_iff] using emissionKey_injOn numbered placed

theorem emit_relisted (walk : Walk) : Emission.emit other walk = Emission.emit table walk := by
  funext emission nid
  simp only [Emission.emit, same.nodeAt]

end Emission

/-- A fallible loop over a permutation gives a permutation of the results. -/
theorem collect_relisted {rawToNodeId : Dict Text NodeId} (perm : others.Perm edges)
    {mappedEdges : List MappedEdge}
    (collected : Metered.collect (mapEdge rawToNodeId) edges = .ok mappedEdges)
    : ∃ remapped, Metered.collect (mapEdge rawToNodeId) others = .ok remapped
      ∧ remapped.Perm mappedEdges := by
  obtain ⟨remapped, pairs, remappedPerm⟩ :=
    (List.perm_comp_forall₂ perm (collect_ok_iff.mp collected))
  exact ⟨remapped, collect_ok_iff.mpr pairs, remappedPerm⟩

-- The whole call

variable {more : Nat}

/-- More fuel does not change a finished walk, by induction on the fuel. -/
theorem walkLoop_of_le (le : fuel ≤ more)
    (walked : walkLoop nodesById children fuel stack walk = .ok final)
    : walkLoop nodesById children more stack walk = .ok final := by
  induction fuel generalizing stack walk more with
  | zero =>
      cases stack with
      | nil => cases more <;> exact walked
      | cons frame rest => cases walked
  | succ fuel ih =>
      cases stack with
      | nil => cases more <;> exact walked
      | cons frame rest =>
          cases more with
          | zero => exact absurd le (Nat.not_succ_le_zero fuel)
          | succ more =>
              rw [walkLoop] at walked ⊢
              exact ih (Nat.le_of_lt_succ le) walked

variable {exported : RawJoernExport} {result : CPG × Dict NodeId SourceLocation}

theorem mapExportWithLocations_of_le (le : fuel ≤ more)
    (mapped : mapExportWithLocations fuel exported = .ok result)
    : mapExportWithLocations more exported = .ok result := by
  simp only [mapExportWithLocations, walkAst, bind_ok] at mapped ⊢
  obtain ⟨links, collected, walk, ⟨reached, looped, placed⟩, rest⟩ := mapped
  exact ⟨links, collected, walk, ⟨reached, walkLoop_of_le le looped, placed⟩, rest⟩

/-- A call has one result. -/
theorem MapsTo.unique {first second : CPG × Dict NodeId SourceLocation}
    (firstMaps : MapsTo exported first) (secondMaps : MapsTo exported second)
    : first = second := by
  obtain ⟨fuel, firstMapped⟩ := firstMaps
  obtain ⟨more, secondMapped⟩ := secondMaps
  have left := mapExportWithLocations_of_le (le_max_left fuel more) firstMapped
  have right := mapExportWithLocations_of_le (le_max_right fuel more) secondMapped
  exact Except.ok.inj (left.symm.trans right)

theorem MapsTo.relisted (relisted : left.Relisted right) (maps : MapsTo left result)
    : MapsTo right result := by
  obtain ⟨fuel, mapped⟩ := maps
  refine ⟨fuel, ?_⟩
  have same := relisted.nodesById
  simp only [mapExportWithLocations, bind_ok] at mapped ⊢
  obtain ⟨links, collected, walk, walked, mappedEdges, mappedAll, done⟩ := mapped
  obtain ⟨relinked, recollected, sameLinks⟩ := collectAst_relisted same relisted.edges collected
  obtain ⟨numbered, placed⟩ := walkAst_numbered walked
  obtain ⟨remapped, remappedAll, perm⟩ := collect_relisted relisted.edges mappedAll
  refine ⟨relinked, recollected, walk, ?_, remapped, ?_, ?_⟩
  · rw [walkAst_relisted same sameLinks, walked]
  · rw [emissionOrder_relisted same numbered placed, emit_relisted same]
    exact remappedAll
  · rw [emissionOrder_relisted same numbered placed, emit_relisted same, ← done]
    simp only [addMappedEdges, sorted_eq_sorted.mpr perm]

/-- For an export with distinct node ids for which the call returns, and every permutation of its
two arrays, the call returns exactly the same graph and location table.
-/
theorem mapsTo_permuted_iff {exported permuted : RawJoernExport}
    {result : CPG × Dict NodeId SourceLocation}
    (distinct : (exported.nodes.map RawJoernNode.id).Nodup)
    (nodes : permuted.nodes.Perm exported.nodes) (edges : permuted.edges.Perm exported.edges)
    (maps : MapsTo exported result) (other : CPG × Dict NodeId SourceLocation)
    : MapsTo permuted other ↔ other = result := by
  have moved := maps.relisted ⟨distinct, nodes, edges⟩
  constructor
  · intro otherMaps
    exact otherMaps.unique moved
  · rintro rfl
    exact moved

/-- A method whose literal is a child of the method and of a call, beside an orphan. -/
def sharedLiteral : RawJoernExport where
  nodes := [
    {
      id := py "1", label := py "METHOD", fullName := py "f", filename := py "a.py",
      lineNumber := some 1
    },
    { id := py "2", label := py "CALL", name := py "<operator>.addition", lineNumber := some 2 },
    { id := py "3", label := py "LITERAL", code := py "7", lineNumber := some 2 },
    { id := py "4", label := py "COMMENT" }]
  edges := [
    ⟨py "1", py "2", py "AST"⟩, ⟨py "1", py "3", py "AST"⟩, ⟨py "2", py "3", py "AST"⟩,
    ⟨py "3", py "2", py "REACHING_DEF"⟩]

deriving instance DecidableEq for CPG

/-- What `sharedLiteral` maps to: the literal keeps the path of its last visit. -/
def sharedLiteralGraph : CPG where
  nodes := [
    { nodeId := 0, kind := py "COMMENT" },
    { nodeId := 1, kind := py "METHOD", resolvedFqn := py "f", enclosingDeclFqn := py "f" },
    {
      nodeId := 2, kind := py "CALL", operatorOrLiteral := py "<operator>.addition",
      enclosingDeclFqn := py "f", structuralPath := py "0"
    },
    {
      nodeId := 3, kind := py "LITERAL", operatorOrLiteral := py "7", enclosingDeclFqn := py "f",
      structuralPath := py "1"
    }]
  edges := [⟨1, 2, py "AST", []⟩, ⟨1, 3, py "AST", []⟩, ⟨2, 3, py "AST", []⟩, ⟨3, 2, py "PDG", []⟩]

def sharedLiteralLocations : Dict NodeId SourceLocation :=
  [(0, ⟨[], 0, 0⟩), (1, ⟨py "a.py", 1, 0⟩), (2, ⟨py "a.py", 2, 0⟩), (3, ⟨py "a.py", 2, 0⟩)]

/-- Both arrays of `sharedLiteral` read backwards. -/
theorem mapsTo_permuted_iff_reversed
    : MapsTo { nodes := sharedLiteral.nodes.reverse, edges := sharedLiteral.edges.reverse }
        (sharedLiteralGraph, sharedLiteralLocations) :=
  have maps : MapsTo sharedLiteral (sharedLiteralGraph, sharedLiteralLocations) :=
    ⟨9, by decide +kernel⟩
  (mapsTo_permuted_iff (by decide) (List.reverse_perm _) (List.reverse_perm _) maps _).mpr
    rfl

end Scanipy.Analysis.CpgIngest

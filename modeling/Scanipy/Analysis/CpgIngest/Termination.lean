import Scanipy.Analysis.CpgIngest.Relisting
import Scanipy.Library.DepthFirst

/-! When the tree walk of the mapper ends. The walk keeps no record of the nodes it has visited, so
it ends exactly when every path of AST edges from a parentless node does.
-/

namespace Scanipy.Analysis.CpgIngest

open Analysis Library Python

/-- An AST edge joins the two ids. -/
def AstChild (edges : List RawJoernEdge) (parent child : Text) : Prop :=
  ∃ edge ∈ edges, edge.kind = py "AST" ∧ edge.src = parent ∧ edge.dst = child

section Loop

variable {nodesById : Dict Text RawJoernNode} {children : Dict Text (List Text)}

/-- One node is listed as a child of another. -/
def Listed (children : Dict Text (List Text)) (parent child : Text) : Prop :=
  child ∈ children.getD parent []

/-- The frames below a frame are those of its children. -/
theorem mem_below {frame : Frame} {child : Text}
    : (∃ lower ∈ frame.below nodesById children, lower.nid = child)
      ↔ Listed children frame.nid child := by
  have sorted : child ∈ sortedBy (nodeSortKey nodesById (frame.filename nodesById))
        (children.getD frame.nid [])
      ↔ Listed children frame.nid child := mem_sortedBy
  rw [← sorted]
  constructor
  · rintro ⟨lower, below, rfl⟩
    obtain ⟨⟨nid, position⟩, among, rfl⟩ := List.mem_map.mp below
    exact (List.mem_zipIdx' among).2 ▸ List.getElem_mem _
  · intro among
    obtain ⟨position, inside, rfl⟩ := List.getElem_of_mem among
    exact ⟨_, List.mem_map_of_mem (List.mk_mem_zipIdx_iff_getElem?.mpr
      (List.getElem?_eq_getElem inside)), rfl⟩

/-- A loop that ends has exhausted every path from its stack, by induction on the fuel. -/
theorem acc_of_walkLoop {fuel : Nat} {stack : List Frame} {walk final : Walk}
    (walked : walkLoop nodesById children fuel stack walk = .ok final)
    : ∀ frame ∈ stack, Acc (Function.swap (Listed children)) frame.nid := by
  induction fuel generalizing stack walk with
  | zero =>
      cases stack with
      | nil => exact fun _ member => absurd member List.not_mem_nil
      | cons frame rest => cases walked
  | succ fuel ih =>
      cases stack with
      | nil => exact fun _ member => absurd member List.not_mem_nil
      | cons top rest =>
          have later := ih walked
          intro frame member
          rcases List.mem_cons.mp member with rfl | among
          · refine .intro _ fun child listed => ?_
            obtain ⟨lower, below, rfl⟩ := mem_below.mpr listed
            exact later lower (List.mem_append_left _ below)
          · exact later frame (List.mem_append_right _ among)

/-- The frames are visited, with all that is below them, before the rest of the stack. -/
def Passes (nodesById : Dict Text RawJoernNode) (children : Dict Text (List Text))
    (frames : List Frame) : Prop :=
  ∀ walk, ∃ rounds passed, ∀ fuel stack,
    walkLoop nodesById children (rounds + fuel) (frames ++ stack) walk
      = walkLoop nodesById children fuel stack passed

/-- Frames that are passed one by one are passed together, by list induction. -/
theorem passes_of_each {frames : List Frame}
    (each : ∀ frame ∈ frames, Passes nodesById children [frame])
    : Passes nodesById children frames := by
  induction frames with
  | nil => exact fun walk => ⟨0, walk, fun fuel stack => by rw [Nat.zero_add, List.nil_append]⟩
  | cons frame rest ih =>
      intro walk
      obtain ⟨first, reached, top⟩ := each frame List.mem_cons_self walk
      obtain ⟨others, passed, below⟩ :=
        ih (fun lower among => each lower (List.mem_cons_of_mem _ among)) reached
      refine ⟨first + others, passed, fun fuel stack => ?_⟩
      have one := top (others + fuel) (rest ++ stack)
      rw [List.singleton_append] at one
      rw [Nat.add_assoc, List.cons_append, one, below]

/-- A frame from which every path ends is passed, by induction on the paths. -/
theorem passes_of_acc {nid : Text} (ends : Acc (Function.swap (Listed children)) nid)
    {frame : Frame} (named : frame.nid = nid)
    : Passes nodesById children [frame] := by
  induction ends generalizing frame with
  | intro nid _ ih =>
      subst named
      intro walk
      have lower : Passes nodesById children (frame.below nodesById children) :=
        passes_of_each fun lower below => ih lower.nid (mem_below.mp ⟨lower, below, rfl⟩) rfl
      obtain ⟨rounds, passed, through⟩ := lower _
      refine ⟨rounds + 1, passed, fun fuel stack => ?_⟩
      rw [Nat.add_right_comm, List.singleton_append, walkLoop, through]

theorem walkLoop_ends_iff {stack : List Frame} (walk : Walk)
    : (∃ fuel final, walkLoop nodesById children fuel stack walk = .ok final)
      ↔ ∀ frame ∈ stack, Acc (Function.swap (Listed children)) frame.nid := by
  constructor
  · rintro ⟨fuel, final, walked⟩
    exact acc_of_walkLoop walked
  · intro ends
    have each (frame : Frame) (among : frame ∈ stack) : Passes nodesById children [frame] :=
      passes_of_acc (ends frame among) rfl
    obtain ⟨rounds, passed, through⟩ := passes_of_each each walk
    refine ⟨rounds + 0, passed, ?_⟩
    have done := through 0 []
    rwa [List.append_nil, walkLoop] at done

end Loop

/-- The children the walk reads are those of the AST edges, and the roots have no parent. -/
theorem links_of_collectAst {nodesById : Dict Text RawJoernNode} {edges : List RawJoernEdge}
    {links : AstLinks} (collected : collectAst nodesById edges {} = .ok links)
    : Listed links.children = AstChild edges
      ∧ ∀ nid, nid ∈ rootsOf nodesById links
          ↔ nid ∈ nodesById.keys ∧ ∀ parent, ¬AstChild edges parent nid := by
  obtain ⟨_, rfl⟩ := collectAst_ok_iff.mp collected
  refine ⟨?_, fun nid => ?_⟩
  · funext parent child
    unfold Listed
    rw [Dict.getD_foldl_appendTo]
    simp [AstChild, astEdges, Dict.getD, Dict.get?, and_assoc, and_left_comm]
  · rw [rootsOf, List.mem_filter, decide_eq_true_eq, mem_keys_foldl_set]
    refine and_congr_right fun _ => ?_
    constructor
    · rintro orphan parent ⟨edge, among, ast, _, targets⟩
      exact orphan (.inr ⟨edge, List.mem_filter.mpr ⟨among, decide_eq_true ast⟩, targets⟩)
    · rintro orphan (listed | ⟨edge, among, targets⟩)
      · exact List.not_mem_nil listed
      · obtain ⟨listed, ast⟩ := List.mem_filter.mp among
        exact orphan edge.src ⟨edge, listed, of_decide_eq_true ast, rfl, targets⟩

/-- The call ends, and its walk gives every node an index of its own. -/
def Numbers (exported : RawJoernExport) : Prop :=
  ∃ fuel links walk, mapExportWithLocations fuel exported ≠ .error .outOfFuel
    ∧ collectAst exported.nodesById exported.edges {} = .ok links
    ∧ walkAst fuel (rootsOf exported.nodesById links) exported.nodesById links.children = .ok walk
    ∧ walk.Numbered ∧ ∀ nid ∈ exported.nodesById.keys, nid ∈ walk.placements.keys

/-- A node that AST edges reach from a parentless node is on no cycle of them. -/
def RawJoernExport.AcyclicBelowRoots (exported : RawJoernExport) : Prop :=
  ∀ root ∈ exported.nodesById.keys, (∀ parent, ¬AstChild exported.edges parent root)
    → ∀ nid, Relation.ReflTransGen (AstChild exported.edges) root nid
    → ¬Relation.TransGen (AstChild exported.edges) nid nid

theorem Numbers.acyclic {exported : RawJoernExport} (numbers : Numbers exported)
    : exported.AcyclicBelowRoots := by
  obtain ⟨fuel, links, walk, _, collected, walked, _⟩ := numbers
  obtain ⟨children, roots⟩ := links_of_collectAst collected
  obtain ⟨reached, looped, _⟩ := bind_ok.mp walked
  intro root member parentless nid
  have ends := acc_of_walkLoop looped ⟨root, [], [], []⟩
    (List.mem_map_of_mem (mem_sortedBy.mpr ((roots root).mpr ⟨member, parentless⟩)))
  rw [children] at ends
  exact DepthFirst.acyclic_of_acc ends

/-- Only the tree walk runs out of fuel. -/
theorem mapEdge_avoids (rawToNodeId : Dict Text NodeId) (edge : RawJoernEdge)
    : Avoids .outOfFuel (mapEdge rawToNodeId edge) := by
  unfold mapEdge
  split
  · exact Avoids.error (by simp)
  · split
    · exact Avoids.ok _
    · exact Avoids.error (by simp)

/-- An export whose edges join known nodes is walked to an end, with an index of its own for every
node, exactly when no node that AST edges reach from a parentless node lies on a cycle of them.
-/
theorem numbers_iff {exported : RawJoernExport}
    (closed : ∀ edge ∈ exported.edges, edge.src ∈ exported.nodesById.keys
      ∧ edge.dst ∈ exported.nodesById.keys)
    : Numbers exported ↔ exported.AcyclicBelowRoots := by
  refine ⟨Numbers.acyclic, fun acyclic => ?_⟩
  have known : ∀ edge ∈ astEdges exported.edges, edge.src ∈ exported.nodesById.keys
      ∧ edge.dst ∈ exported.nodesById.keys :=
    fun edge among => closed edge (List.mem_of_mem_filter among)
  obtain ⟨links, collected⟩ : ∃ links, collectAst exported.nodesById exported.edges {} = .ok links :=
    ⟨_, collectAst_ok_iff.mpr ⟨known, rfl⟩⟩
  obtain ⟨children, roots⟩ := links_of_collectAst collected
  have target (parent child : Text) (edge : AstChild exported.edges parent child)
      : child ∈ exported.nodesById.keys := by
    obtain ⟨edge, among, _, _, rfl⟩ := edge
    exact (closed edge among).2
  have ends : ∀ frame ∈ (sortedBy (nodeSortKey exported.nodesById [])
          (rootsOf exported.nodesById links)).map fun nid => Frame.mk nid [] [] [],
      Acc (Function.swap (Listed links.children)) frame.nid := by
    intro frame pushed
    obtain ⟨root, among, rfl⟩ := List.mem_map.mp pushed
    obtain ⟨member, parentless⟩ := (roots root).mp (mem_sortedBy.mp among)
    rw [children]
    exact (DepthFirst.acc_iff_acyclic target).mpr (acyclic root member parentless)
  obtain ⟨fuel, reached, looped⟩ := (walkLoop_ends_iff {}).mpr ends
  have walked : walkAst fuel (rootsOf exported.nodesById links) exported.nodesById links.children
      = .ok (placeOrphans exported.nodesById reached) :=
    bind_ok.mpr ⟨reached, looped, rfl⟩
  obtain ⟨numbered, placed⟩ := walkAst_numbered walked
  refine ⟨fuel, _, _, ?_, collected, walked, numbered, placed⟩
  simp only [mapExportWithLocations, collected, walked, ok_bind]
  exact Avoids.bind (Avoids.collect fun edge _ => mapEdge_avoids _ edge) fun _ _ => Avoids.ok _

/-- A method, its block and a call below the block, with the given further edges. -/
def threeNodes (further : List RawJoernEdge) : RawJoernExport where
  nodes := [{ id := py "1", label := py "METHOD" }, { id := py "2", label := py "BLOCK" },
    { id := py "3", label := py "CALL" }]
  edges := [⟨py "1", py "2", py "AST"⟩, ⟨py "2", py "3", py "AST"⟩] ++ further

/-- Without further edges the walk visits the three nodes once each. -/
theorem numbers_iff_three
    : (threeNodes []).AcyclicBelowRoots := by
  let links : AstLinks := {
    children := [(py "1", [py "2"]), (py "2", [py "3"])]
    parentOf := [(py "2", py "1"), (py "3", py "2")]
  }
  obtain ⟨walk, walked⟩ : ∃ walk,
      walkAst 3 (rootsOf (threeNodes []).nodesById links) (threeNodes []).nodesById links.children
        = .ok walk := ⟨_, rfl⟩
  exact (numbers_iff (by decide)).mp
    ⟨3, links, walk, by decide, rfl, walked, walkAst_numbered walked⟩

/-- An edge from the call back to the block makes the walk go round for ever. -/
theorem not_numbers_cyclic
    : (∀ edge ∈ (threeNodes [⟨py "3", py "2", py "AST"⟩]).edges,
        edge.src ∈ (threeNodes [⟨py "3", py "2", py "AST"⟩]).nodesById.keys
          ∧ edge.dst ∈ (threeNodes [⟨py "3", py "2", py "AST"⟩]).nodesById.keys)
      ∧ ¬Numbers (threeNodes [⟨py "3", py "2", py "AST"⟩]) := by
  refine ⟨by decide, fun numbers => ?_⟩
  have parentless : ∀ edge ∈ (threeNodes [⟨py "3", py "2", py "AST"⟩]).edges,
      edge.dst ≠ py "1" := by decide
  refine numbers.acyclic (py "1") (by decide) ?_ (py "2") (.single ?_)
    (.head (show AstChild _ (py "2") (py "3") from ?_) (.single ?_))
  · rintro parent ⟨edge, among, _, _, targets⟩
    exact parentless edge among targets
  · exact ⟨_, .head _, rfl, rfl, rfl⟩
  · exact ⟨_, .tail _ (.head _), rfl, rfl, rfl⟩
  · exact ⟨_, .tail _ (.tail _ (.head _)), rfl, rfl, rfl⟩

end Scanipy.Analysis.CpgIngest

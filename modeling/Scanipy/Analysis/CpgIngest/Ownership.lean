import Scanipy.Analysis.CpgIngest.AstForest

/-! The ownership views of an accepted export: every node belongs to the nearest method among itself
and its AST ancestors.
-/

namespace Scanipy.Analysis.CpgIngest.RawV2

open Relation Library Library.Ancestry Python

-- The views

/-- `ObservedNode`, with the fields that ownership depends on. -/
structure ObservedNode where
  nodeId : Text
  kind : Text

/-- `ObservedEdge`, with the fields that ownership depends on. -/
structure ObservedEdge where
  ordinal : Nat
  src : Text
  dst : Text
  kind : Text

/-- The nodes of a validated document, in order. -/
def observedNodes (document : Json) : List ObservedNode :=
  (nodeItems document).map fun node => ⟨(node.get "id").chars, (node.get "kind").chars⟩

/-- The edges of a validated document, in order. -/
def observedEdges (document : Json) : List ObservedEdge :=
  (edgeItems document).zipIdx.map fun edge =>
    ⟨edge.2, (edge.1.get "src").chars, (edge.1.get "dst").chars, (edge.1.get "kind").chars⟩

/-- `parents` and `parent_edges`. -/
structure ParentTable where
  parents : Dict Text Text := []
  parentEdges : Dict Text (List Nat) := []

/-- The body of the edge loop, for the AST edges. -/
def ParentTable.add (table : ParentTable) (edge : ObservedEdge) : ParentTable :=
  if edge.kind = py "AST" then
    {
      parents := table.parents.set edge.dst edge.src
      parentEdges := table.parentEdges.appendTo edge.dst edge.ordinal }
  else
    table

/-- `owners`. -/
abbrev Owners := Dict Text (Option Text)

/-- `KeyError`. `outOfFuel` is no exception of the source: a walk of the model stopped early. -/
inductive ViewError where
  | keyError
  | outOfFuel
  deriving DecidableEq

/-- `entries[key]`. -/
def lookup {β : Type} (entries : Dict Text β) (key : Text) : Except ViewError β :=
  match entries.get? key with
  | some value => .ok value
  | none => .error .keyError

section Views

variable (byId : Dict Text ObservedNode) (parents : Dict Text Text)

/-- The inner loop of the owner loop, with its trail: up to a node that has an owner. -/
def climb : (fuel : Nat) → (owners : Owners) → (trail : List Text) → (cursor : Text)
    → Except ViewError (Owners × List Text × Text)
  | 0, _, _, _ => .error .outOfFuel
  | fuel + 1, owners, trail, cursor =>
      if cursor ∈ owners.keys then .ok (owners, trail, cursor)
      else do
        let node ← lookup byId cursor
        if node.kind = py "METHOD" then
          .ok (owners.set cursor (some cursor), trail, cursor)
        else
          match parents.get? cursor with
          | none => .ok (owners.set cursor none, trail ++ [cursor], cursor)
          | some parent => climb fuel owners (trail ++ [cursor]) parent

/-- The body of the owner loop: all nodes of the trail get the owner. Every round of the climb meets
another node, or the last one.
-/
def assignOwner (owners : Owners) (node : ObservedNode) : Except ViewError Owners := do
  let (owners, trail, cursor) ← climb byId parents (byId.length + 1) owners [] node.nodeId
  let owner ← lookup owners cursor
  .ok (trail.foldl (fun owners descendant => owners.set descendant owner) owners)

end Views

/-- `AstParent`. -/
structure AstParent where
  nodeId : Text
  parentId : Text
  edgeOrdinals : List Nat

/-- `MethodOwnership`. -/
structure MethodOwnership where
  nodeId : Text
  methodId : Option Text
  status : Text

/-- `StructuralViews`, with the views that tell who owns a node. -/
structure OwnershipViews where
  astParents : List AstParent
  ownership : List MethodOwnership

/-- `MethodOwnership` of a node. -/
def methodOwnership (owners : Owners) (node : ObservedNode) : Except ViewError MethodOwnership := do
  let methodId ← lookup owners node.nodeId
  .ok {
    nodeId := node.nodeId
    methodId
    status := if methodId ≠ none then py "observed" else py "no_method_ancestor" }

/-- `AstParent` of a node that has one. -/
def astParent (table : ParentTable) (node : ObservedNode) : Except ViewError AstParent := do
  let parentId ← lookup table.parents node.nodeId
  let edgeOrdinals ← lookup table.parentEdges node.nodeId
  .ok { nodeId := node.nodeId, parentId, edgeOrdinals }

/-- `_views`, as far as it tells who owns a node. -/
def ownershipViews (nodes : List ObservedNode) (edges : List ObservedEdge)
    : Except ViewError OwnershipViews := do
  let byId := Dict.ofPairs (nodes.map fun node => (node.nodeId, node))
  let table := edges.foldl ParentTable.add {}
  let owners ← nodes.foldlM (assignOwner byId table.parents) []
  let astParents ← Metered.collect (astParent table)
    (nodes.filter fun node => node.nodeId ∈ table.parents.keys)
  let ownership ← Metered.collect (methodOwnership owners) nodes
  .ok { astParents, ownership }

/-- An AST edge among observed edges, from the child to the parent. -/
def ObservedAbove (edges : List ObservedEdge) (child parent : Text) : Prop :=
  ∃ edge ∈ edges, edge.kind = py "AST" ∧ edge.src = parent ∧ edge.dst = child

/-- The table holds parents of the edges seen, and one for every child among them. -/
structure ParentTable.Describes (table : ParentTable) (seen : List ObservedEdge) : Prop where
  sound : ∀ child parent, table.parents.get? child = some parent → ObservedAbove seen child parent
  total : ∀ child parent, ObservedAbove seen child parent → child ∈ table.parents.keys
  ordinals : ∀ child, child ∈ table.parentEdges.keys ↔ child ∈ table.parents.keys

theorem ObservedAbove.append {before after : List ObservedEdge} {child parent : Text}
    (above : ObservedAbove before child parent)
    : ObservedAbove (before ++ after) child parent := by
  obtain ⟨edge, member, rest⟩ := above
  exact ⟨edge, List.mem_append_left _ member, rest⟩

variable {table : ParentTable} {seen : List ObservedEdge}

theorem ParentTable.Describes.add (describes : table.Describes seen) (edge : ObservedEdge)
    : (table.add edge).Describes (seen ++ [edge]) := by
  unfold ParentTable.add
  split
  next isAst =>
    constructor
    · intro child parent stored
      rw [Dict.get?_set] at stored
      split at stored
      next same =>
        obtain rfl := Option.some.inj stored
        exact ⟨edge, List.mem_append_right _ (List.mem_singleton.mpr rfl), isAst, rfl, same⟩
      next => exact (describes.sound child parent stored).append
    · rintro child parent ⟨other, member, otherAst, isSrc, isDst⟩
      rw [Dict.mem_keys_set]
      rcases List.mem_append.mp member with before | new
      · exact .inl (describes.total child parent ⟨other, before, otherAst, isSrc, isDst⟩)
      · rw [List.mem_singleton.mp new] at isDst
        exact .inr isDst.symm
    · intro child
      rw [Dict.appendTo, Dict.mem_keys_set, Dict.mem_keys_set, describes.ordinals]
  next other =>
    constructor
    · exact fun child parent stored => (describes.sound child parent stored).append
    · rintro child parent ⟨found, member, foundAst, isSrc, isDst⟩
      rcases List.mem_append.mp member with before | new
      · exact describes.total child parent ⟨found, before, foundAst, isSrc, isDst⟩
      · rw [List.mem_singleton.mp new] at foundAst
        exact absurd foundAst other
    · exact describes.ordinals

/-- The edge loop, by list induction. -/
theorem ParentTable.describes_foldl (describes : table.Describes seen) (edges : List ObservedEdge)
    : (edges.foldl ParentTable.add table).Describes (seen ++ edges) := by
  induction edges generalizing table seen with
  | nil => simpa using describes
  | cons head rest ih =>
      rw [List.foldl_cons, List.append_cons]
      exact ih (describes.add head)

theorem parentTable_describes (edges : List ObservedEdge)
    : (edges.foldl ParentTable.add {}).Describes edges := by
  have start : ParentTable.Describes {} [] := by
    constructor
    · intro child parent stored
      cases stored
    · rintro child parent ⟨edge, member, _⟩
      exact absurd member List.not_mem_nil
    · exact fun child => Iff.rfl
  exact ParentTable.describes_foldl start edges

/-- Where no node has two parents, the table looks the parents up. -/
theorem ParentTable.Describes.storedAbove_eq {edges : List ObservedEdge}
    (describes : table.Describes edges) (single : ¬Branching (ObservedAbove edges))
    : StoredAbove table.parents = ObservedAbove edges := by
  funext child parent
  apply propext
  constructor
  · exact describes.sound child parent
  · intro above
    obtain ⟨stored, found⟩ := Dict.mem_keys.mp (describes.total child parent above)
    have unique := rightUnique_of_not_branching single
    rw [StoredAbove, found, unique (describes.sound child stored found) above]

-- The owner loop

/-- The node is a method. -/
def IsMethod (byId : Dict Text ObservedNode) (nodeId : Text) : Prop :=
  ∃ node, byId.get? nodeId = some node ∧ node.kind = py "METHOD"

/-- A forest over the nodes: parents are nodes, and no node is its own ancestor. -/
structure IsForest (byId : Dict Text ObservedNode) (parents : Dict Text Text) : Prop where
  inside : ∀ child parent, StoredAbove parents child parent → parent ∈ byId.keys
  acyclic : ¬Cyclic (StoredAbove parents)

/-- Every owner is the nearest method. -/
def Correct (byId : Dict Text ObservedNode) (parents : Dict Text Text) (owners : Owners) : Prop :=
  ∀ nodeId owner,
    owners.get? nodeId = some owner →
      Nearest (StoredAbove parents) (IsMethod byId) nodeId owner

/-- The trail of a climb: nodes below the cursor, none of them twice, with its nearest method. -/
structure ClimbTrail (byId : Dict Text ObservedNode) (parents : Dict Text Text)
    (trail : List Text) (cursor : Text)
    : Prop where
  distinct : trail.Nodup
  listed : trail ⊆ byId.keys
  below : ∀ node ∈ trail, TransGen (StoredAbove parents) node cursor
  inherits : ∀ owner, Nearest (StoredAbove parents) (IsMethod byId) cursor owner →
    ∀ node ∈ trail, Nearest (StoredAbove parents) (IsMethod byId) node owner

/-- What a climb returns: the last node has an owner, which all nodes of the trail share. -/
structure Climbed (byId : Dict Text ObservedNode) (parents : Dict Text Text) (owners : Owners)
    (cursor : Text) (result : Owners × List Text × Text)
    : Prop where
  correct : Correct byId parents result.1
  keeps : owners.keys ⊆ result.1.keys
  shared : ∃ owner, result.1.get? result.2.2 = some owner
    ∧ ∀ node ∈ result.2.1, Nearest (StoredAbove parents) (IsMethod byId) node owner
  meets : cursor = result.2.2 ∨ cursor ∈ result.2.1

variable {node : ObservedNode}

section OwnerLoop

variable {byId : Dict Text ObservedNode} {parents : Dict Text Text} {owners : Owners}
  {trail : List Text} {cursor parent : Text}

variable {owner : Option Text}

theorem Correct.set (correct : Correct byId parents owners) {nodeId : Text}
    (nearest : Nearest (StoredAbove parents) (IsMethod byId) nodeId owner)
    : Correct byId parents (owners.set nodeId owner) := by
  intro other found stored
  rw [Dict.get?_set] at stored
  split at stored
  next same =>
    subst same
    obtain rfl := Option.some.inj stored
    exact nearest
  next => exact correct other found stored

theorem keys_subset_set (owners : Owners) (nodeId : Text) (owner : Option Text)
    : owners.keys ⊆ (owners.set nodeId owner).keys :=
  fun _ member => Dict.mem_keys_set.mpr (.inl member)

theorem ClimbTrail.start (cursor : Text) : ClimbTrail byId parents [] cursor :=
  ⟨List.nodup_nil, List.nil_subset _, fun _ none => absurd none List.not_mem_nil,
    fun _ _ _ none => absurd none List.not_mem_nil⟩

/-- One step up, from a node that is no method. -/
theorem ClimbTrail.step (forest : IsForest byId parents)
    (along : ClimbTrail byId parents trail cursor) (listed : cursor ∈ byId.keys)
    (unmarked : ¬IsMethod byId cursor) (stored : parents.get? cursor = some parent)
    : ClimbTrail byId parents (trail ++ [cursor]) parent := by
  constructor
  · refine List.nodup_append.mpr ⟨along.distinct, List.nodup_singleton _, ?_⟩
    intro node member other same equal
    rw [List.mem_singleton.mp same] at equal
    subst equal
    exact forest.acyclic ⟨node, along.below node member⟩
  · intro node member
    rcases List.mem_append.mp member with before | new
    · exact along.listed before
    · rw [List.mem_singleton.mp new]
      exact listed
  · intro node member
    rcases List.mem_append.mp member with before | new
    · exact (along.below node before).tail stored
    · rw [List.mem_singleton.mp new]
      exact .single stored
  · intro owner nearest node member
    have atCursor := Nearest.step (storedAbove_unique parents) unmarked stored nearest
    rcases List.mem_append.mp member with before | new
    · exact along.inherits owner atCursor node before
    · rw [List.mem_singleton.mp new]
      exact atCursor

/-- A climb with fuel for every node ends at an owner that is right for all of its trail.
Witness: induction on the fuel; the trail has a node for each round before.
-/
theorem climb_spec (forest : IsForest byId parents) (correct : Correct byId parents owners)
    {fuel : Nat} (enough : byId.length + 1 ≤ fuel + trail.length)
    (along : ClimbTrail byId parents trail cursor) (listed : cursor ∈ byId.keys)
    : ∃ result, climb byId parents fuel owners trail cursor = .ok result
        ∧ Climbed byId parents owners cursor result ∧ trail ⊆ result.2.1 := by
  induction fuel generalizing trail cursor with
  | zero =>
      have bounded := (along.distinct.subperm along.listed).length_le
      rw [Dict.keys, List.length_map] at bounded
      omega
  | succ fuel ih =>
      rw [climb]
      by_cases owned : cursor ∈ owners.keys
      · rw [if_pos owned]
        obtain ⟨owner, stored⟩ := Dict.mem_keys.mp owned
        exact ⟨_, rfl, ⟨correct, List.Subset.refl _,
          ⟨owner, stored, along.inherits owner (correct cursor owner stored)⟩, .inl rfl⟩,
          List.Subset.refl _⟩
      · rw [if_neg owned]
        obtain ⟨node, found⟩ := Dict.mem_keys.mp listed
        rw [lookup, found, ok_bind]
        by_cases isMethod : node.kind = py "METHOD"
        · rw [if_pos isMethod]
          have nearest : Nearest (StoredAbove parents) (IsMethod byId) cursor (some cursor) :=
            Nearest.self ⟨node, found, isMethod⟩
          refine ⟨_, rfl, ⟨correct.set nearest, keys_subset_set _ _ _,
            ⟨some cursor, ?_, along.inherits _ nearest⟩, .inl rfl⟩, List.Subset.refl _⟩
          rw [Dict.get?_set, if_pos rfl]
        · rw [if_neg isMethod]
          have unmarked : ¬IsMethod byId cursor := by
            rintro ⟨other, otherFound, otherMethod⟩
            rw [found] at otherFound
            exact isMethod (Option.some.inj otherFound ▸ otherMethod)
          cases stored : parents.get? cursor with
          | none =>
              have nearest : Nearest (StoredAbove parents) (IsMethod byId) cursor none := by
                refine Nearest.top unmarked fun upper step => ?_
                rw [StoredAbove, stored] at step
                cases step
              refine ⟨_, rfl, ⟨correct.set nearest, keys_subset_set _ _ _, ⟨none, ?_, ?_⟩,
                .inl rfl⟩, List.subset_append_left _ _⟩
              · rw [Dict.get?_set, if_pos rfl]
              · intro other member
                rcases List.mem_append.mp member with before | new
                · exact along.inherits none nearest other before
                · rw [List.mem_singleton.mp new]
                  exact nearest
          | some parent =>
              have longer : (trail ++ [cursor]).length = trail.length + 1 := by simp
              obtain ⟨result, climbed, spec, subset⟩ := ih (by omega)
                (along.step forest listed unmarked stored) (forest.inside cursor parent stored)
              refine ⟨result, climbed, ⟨spec.correct, spec.keeps, spec.shared, ?_⟩, ?_⟩
              · exact .inr (subset (List.mem_append_right _ (List.mem_singleton.mpr rfl)))
              · exact List.Subset.trans (List.subset_append_left _ _) subset

/-- Giving the trail its shared owner, by list induction. -/
theorem shareOwner_spec (correct : Correct byId parents owners)
    (shared : ∀ node ∈ trail, Nearest (StoredAbove parents) (IsMethod byId) node owner)
    : let after := trail.foldl (fun owners descendant => owners.set descendant owner) owners
      Correct byId parents after ∧ owners.keys ⊆ after.keys ∧ trail ⊆ after.keys := by
  induction trail generalizing owners with
  | nil => exact ⟨correct, List.Subset.refl _, List.nil_subset _⟩
  | cons head rest ih =>
      obtain ⟨correctAfter, keeps, adds⟩ := ih (correct.set (shared head List.mem_cons_self))
        fun node later => shared node (List.mem_cons_of_mem _ later)
      refine ⟨correctAfter, List.Subset.trans (keys_subset_set _ _ _) keeps, ?_⟩
      intro node member
      rcases List.mem_cons.mp member with rfl | later
      · exact keeps (Dict.mem_keys_set.mpr (.inr rfl))
      · exact adds later

/-- One round of the owner loop owns its node, and keeps the owners before. -/
theorem assignOwner_spec (forest : IsForest byId parents) (correct : Correct byId parents owners)
    (listed : node.nodeId ∈ byId.keys)
    : ∃ after, assignOwner byId parents owners node = .ok after
        ∧ Correct byId parents after ∧ owners.keys ⊆ after.keys ∧ node.nodeId ∈ after.keys := by
  obtain ⟨⟨climbedOwners, trail, last⟩, climbed, spec, _⟩ := climb_spec forest correct
    (Nat.le_refl _) (ClimbTrail.start node.nodeId) listed
  obtain ⟨owner, stored, shared⟩ := spec.shared
  obtain ⟨correctAfter, keeps, adds⟩ := shareOwner_spec spec.correct shared
  refine ⟨_, ?_, correctAfter, List.Subset.trans spec.keeps keeps, ?_⟩
  · rw [assignOwner, climbed, ok_bind]
    dsimp only at stored ⊢
    rw [lookup, stored]
    rfl
  · rcases spec.meets with isLast | onTrail
    · rw [isLast]
      exact keeps (Dict.mem_keys.mpr ⟨owner, stored⟩)
    · exact adds onTrail

/-- The owner loop ends with the right owner for each of its nodes, by list induction. -/
theorem assignOwners_spec (forest : IsForest byId parents) (correct : Correct byId parents owners)
    {nodes : List ObservedNode} (listed : ∀ node ∈ nodes, node.nodeId ∈ byId.keys)
    : ∃ after, nodes.foldlM (assignOwner byId parents) owners = .ok after
        ∧ Correct byId parents after ∧ owners.keys ⊆ after.keys
        ∧ ∀ node ∈ nodes, node.nodeId ∈ after.keys := by
  induction nodes generalizing owners with
  | nil =>
      exact ⟨owners, rfl, correct, List.Subset.refl _, fun _ none => absurd none List.not_mem_nil⟩
  | cons head rest ih =>
      obtain ⟨middle, assigned, correctMiddle, keeps, owned⟩ :=
        assignOwner_spec forest correct (listed head List.mem_cons_self)
      obtain ⟨after, looped, correctAfter, keepsLater, ownedLater⟩ :=
        ih correctMiddle fun node later => listed node (List.mem_cons_of_mem _ later)
      refine ⟨after, ?_, correctAfter, List.Subset.trans keeps keepsLater, ?_⟩
      · rw [List.foldlM_cons, assigned, ok_bind, looped]
      · intro node member
        rcases List.mem_cons.mp member with rfl | later
        · exact keepsLater owned
        · exact ownedLater node later

end OwnerLoop

-- The views of an accepted document

/-- Every node of the document is owned by the nearest method among itself and its AST ancestors. -/
structure OwnedByNearest (document : Json) (views : OwnershipViews) : Prop where
  nodes : views.ownership.map MethodOwnership.nodeId = (nodeItems document).map idOf
  nearest : ∀ entry ∈ views.ownership,
    Nearest (AstAbove document) (IsKind document (py "METHOD")) entry.nodeId entry.methodId
  status : ∀ entry ∈ views.ownership,
    entry.status = if entry.methodId ≠ none then py "observed" else py "no_method_ancestor"

/-- What acceptance says about the nodes and edges of a document. -/
structure Accepted (document : Json) (nodes : Dict Text Json) : Prop where
  lists : Lists nodes (nodeItems document)
  edges : ∀ rawEdge ∈ edgeItems document, EdgePasses nodes rawEdge
  single : ¬Branching (AstAbove document)
  acyclic : ¬Cyclic (AstAbove document)

theorem accepted_of_validateRawExport {sha256 : Bytes → Bytes} {document : Json}
    {requireCompleted : Bool}
    (accepted : validateRawExport sha256 document requireCompleted = .ok ())
    : ∃ nodes, Accepted document nodes := by
  obtain ⟨⟨completed, header, arrays⟩, single, acyclic⟩ :=
    validateRawExport_ok_iff.mp accepted
  cases completed with
  | none =>
      obtain ⟨noNodes, noEdges⟩ := items_of_failure header
      refine ⟨[], ⟨?_, ?_, single, acyclic⟩⟩
      · rw [noNodes]
        exact ⟨rfl, List.nodup_nil, fun _ none => absurd none List.not_mem_nil,
          fun _ none => absurd none List.not_mem_nil⟩
      · rw [noEdges]
        exact fun _ none => absurd none List.not_mem_nil
  | some frontend =>
      obtain ⟨nodes, read, other⟩ := arrays frontend rfl
      exact ⟨nodes, readNodes_lists read, other.edges, single, acyclic⟩

section Views

variable {document : Json} {nodes : Dict Text Json}

/-- `by_id` of the views. -/
def viewById (document : Json) : Dict Text ObservedNode :=
  (observedNodes document).map fun node => (node.nodeId, node)

theorem Accepted.viewKeys (accepted : Accepted document nodes)
    : (viewById document).keys = nodes.keys := by
  rw [viewById, Dict.keys, Dict.keys, accepted.lists.entries, observedNodes, List.map_map,
    List.map_map, List.map_map]
  rfl

/-- The identifiers are distinct, so the dictionary lists the nodes. -/
theorem Accepted.ofPairs_eq (accepted : Accepted document nodes)
    : Dict.ofPairs ((observedNodes document).map fun node => (node.nodeId, node))
      = viewById document := by
  refine Dict.ofPairs_eq_self ?_
  have distinct := accepted.lists.distinct
  rw [← accepted.viewKeys] at distinct
  exact distinct

theorem Accepted.isMethod_eq (accepted : Accepted document nodes)
    : IsMethod (viewById document) = IsKind document (py "METHOD") := by
  funext nodeId
  apply propext
  constructor
  · rintro ⟨node, found, isMethod⟩
    obtain ⟨listed, member, same⟩ := List.mem_map.mp (Dict.mem_of_get? found)
    obtain ⟨item, isItem, rfl⟩ := List.mem_map.mp member
    obtain ⟨sameId, rfl⟩ := Prod.mk.inj same
    obtain ⟨kind, isKind⟩ := accepted.lists.kinds item isItem
    refine ⟨item, isItem, ?_, ?_⟩
    · rw [accepted.lists.ids item isItem]
      exact congrArg Json.str sameId
    · rw [isKind] at isMethod ⊢
      exact congrArg Json.str isMethod
  · rintro ⟨item, isItem, isId, isKind⟩
    have distinct := accepted.lists.distinct
    rw [← accepted.viewKeys] at distinct
    refine ⟨⟨nodeId, py "METHOD"⟩, Dict.get?_of_mem distinct ?_, rfl⟩
    rw [viewById, observedNodes, List.map_map, List.mem_map]
    refine ⟨item, isItem, ?_⟩
    simp [isId, isKind, Json.chars]

/-- The edges of the views are the edges of the document. -/
theorem Accepted.observedAbove_eq (accepted : Accepted document nodes)
    : ObservedAbove (observedEdges document) = AstAbove document := by
  funext child parent
  apply propext
  constructor
  · rintro ⟨edge, member, isAst, rfl, rfl⟩
    obtain ⟨⟨rawEdge, ordinal⟩, listed, rfl⟩ := List.mem_map.mp member
    have inside := (List.mem_zipIdx' listed).2
    have member : rawEdge ∈ edgeItems document := by
      rw [inside]
      exact List.getElem_mem _
    have reads := (accepted.edges rawEdge member).reads
    refine ⟨rawEdge, member, ?_, reads.src, reads.dst⟩
    rw [reads.kind]
    exact congrArg Json.str isAst
  · rintro ⟨rawEdge, member, isAst, isSrc, isDst⟩
    obtain ⟨ordinal, inside, same⟩ := List.mem_iff_getElem.mp member
    refine ⟨_, List.mem_map.mpr ⟨(rawEdge, ordinal), ?_, rfl⟩, ?_, ?_, ?_⟩
    · rw [← same]
      exact List.mk_mem_zipIdx_iff_getElem?.mpr (List.getElem?_eq_getElem inside)
    · simp [isAst, Json.chars]
    · simp [isSrc, Json.chars]
    · simp [isDst, Json.chars]

/-- The parents of the views are the AST edges of the document. -/
theorem Accepted.storedAbove_eq (accepted : Accepted document nodes)
    : StoredAbove ((observedEdges document).foldl ParentTable.add {}).parents
      = AstAbove document := by
  have single : ¬Branching (ObservedAbove (observedEdges document)) := by
    rw [accepted.observedAbove_eq]
    exact accepted.single
  rw [(parentTable_describes _).storedAbove_eq single, accepted.observedAbove_eq]

theorem Accepted.isForest (accepted : Accepted document nodes)
    : IsForest (viewById document)
        ((observedEdges document).foldl ParentTable.add {}).parents := by
  constructor
  · intro child parent stored
    rw [accepted.storedAbove_eq] at stored
    obtain ⟨rawEdge, member, _, isSrc, _⟩ := stored
    have reads := (accepted.edges rawEdge member).reads
    rw [accepted.viewKeys, ← Json.str.inj (reads.src.symm.trans isSrc)]
    exact reads.srcListed
  · rw [accepted.storedAbove_eq]
    exact accepted.acyclic

theorem lookup_of_mem {β : Type} {entries : Dict Text β} {key : Text} (stored : key ∈ entries.keys)
    : ∃ value, entries.get? key = some value ∧ lookup entries key = .ok value := by
  obtain ⟨value, found⟩ := Dict.mem_keys.mp stored
  exact ⟨value, found, by rw [lookup, found]⟩

variable {owners : Owners}

theorem methodOwnership_ok {entry : MethodOwnership}
    (made : methodOwnership owners node = .ok entry)
    : entry.nodeId = node.nodeId ∧ owners.get? node.nodeId = some entry.methodId
      ∧ entry.status
        = if entry.methodId ≠ none then py "observed" else py "no_method_ancestor" := by
  obtain ⟨owner, found, made⟩ := bind_ok.mp made
  obtain rfl := Except.ok.inj made
  rw [lookup] at found
  split at found
  next value stored =>
    obtain rfl := Except.ok.inj found
    exact ⟨rfl, stored, rfl⟩
  next => cases found

/-- There is an entry for every node, in order, by list induction. -/
theorem ownershipNodes {entries : List MethodOwnership}
    (read : Metered.collect (methodOwnership owners) (observedNodes document) = .ok entries)
    : entries.map MethodOwnership.nodeId = (nodeItems document).map idOf := by
  have pairs := collect_ok_iff.mp read
  rw [observedNodes, List.forall₂_map_left_iff] at pairs
  clear read
  generalize nodeItems document = items at pairs
  induction pairs with
  | nil => rfl
  | cons made _ ih =>
      rw [List.map_cons, List.map_cons, ih, (methodOwnership_ok made).1]
      rfl

/-- The views of an accepted document are built, and they own every node by its nearest method. -/
theorem Accepted.ownedByNearest (accepted : Accepted document nodes)
    : ∃ views, ownershipViews (observedNodes document) (observedEdges document) = .ok views
        ∧ OwnedByNearest document views := by
  have listed : ∀ node ∈ observedNodes document, node.nodeId ∈ (viewById document).keys := by
    intro node member
    rw [viewById, Dict.keys, List.map_map]
    exact List.mem_map.mpr ⟨node, member, rfl⟩
  have start : Correct (viewById document)
      ((observedEdges document).foldl ParentTable.add {}).parents [] := by
    intro nodeId owner stored
    cases stored
  obtain ⟨owners, looped, correct, _, owned⟩ := assignOwners_spec accepted.isForest start listed
  have table := parentTable_describes (observedEdges document)
  have parented : ∀ node ∈ (observedNodes document).filter fun node =>
        node.nodeId ∈ ((observedEdges document).foldl ParentTable.add {}).parents.keys,
      ∃ value, astParent ((observedEdges document).foldl ParentTable.add {}) node = .ok value := by
    intro node member
    have stored := of_decide_eq_true (List.mem_filter.mp member).2
    obtain ⟨parentId, _, foundParent⟩ := lookup_of_mem stored
    obtain ⟨ordinals, _, foundOrdinals⟩ := lookup_of_mem ((table.ordinals node.nodeId).mpr stored)
    refine ⟨⟨node.nodeId, parentId, ordinals⟩, ?_⟩
    rw [astParent, foundParent, ok_bind, foundOrdinals]
    rfl
  have ownedNodes : ∀ node ∈ observedNodes document,
      ∃ entry, methodOwnership owners node = .ok entry := by
    intro node member
    obtain ⟨owner, _, found⟩ := lookup_of_mem (owned node member)
    exact ⟨_, by rw [methodOwnership, found, ok_bind]⟩
  obtain ⟨astParents, parentsRead⟩ := (collect_returns_iff _ _).mpr parented
  obtain ⟨ownership, ownersRead⟩ := (collect_returns_iff _ _).mpr ownedNodes
  refine ⟨⟨astParents, ownership⟩, ?_, ?_, ?_, ?_⟩
  · unfold ownershipViews
    dsimp only
    rw [accepted.ofPairs_eq, looped, ok_bind, parentsRead, ok_bind, ownersRead]
    rfl
  · exact ownershipNodes ownersRead
  · intro entry member
    obtain ⟨node, _, made⟩ := exists_mem_of_result ownersRead member
    obtain ⟨isNode, stored, _⟩ := methodOwnership_ok made
    have nearest := correct entry.nodeId entry.methodId (isNode ▸ stored)
    rwa [accepted.storedAbove_eq, accepted.isMethod_eq] at nearest
  · intro entry member
    obtain ⟨node, _, made⟩ := exists_mem_of_result ownersRead member
    exact (methodOwnership_ok made).2.2

variable {other : Json}

/-- Two documents with the same nodes and edges have the same AST edges and methods. -/
theorem astAbove_of_perm (edges : (edgeItems other).Perm (edgeItems document))
    : AstAbove other = AstAbove document := by
  funext child parent
  apply propext
  constructor
  · rintro ⟨edge, member, rest⟩
    exact ⟨edge, edges.mem_iff.mp member, rest⟩
  · rintro ⟨edge, member, rest⟩
    exact ⟨edge, edges.mem_iff.mpr member, rest⟩

theorem isKind_of_perm (items : (nodeItems other).Perm (nodeItems document))
    : IsKind other = IsKind document := by
  funext kind nodeId
  apply propext
  constructor
  · rintro ⟨node, member, rest⟩
    exact ⟨node, items.mem_iff.mp member, rest⟩
  · rintro ⟨node, member, rest⟩
    exact ⟨node, items.mem_iff.mpr member, rest⟩

end Views

/-- The AST edges are rejected exactly when they are no forest, and in a document that is accepted
every node belongs to its nearest method, in whatever order the nodes and edges are listed. Witness:
the walks of the reader, the climbs of the views, and the uniqueness of the nearest method.
-/
theorem ownership_is_nearest (sha256 : Bytes → Bytes) (document : Json) (requireCompleted : Bool)
    : (validateRawExport sha256 document requireCompleted = .ok ()
        ↔ OtherChecks sha256 document requireCompleted
          ∧ ¬Branching (AstAbove document) ∧ ¬Cyclic (AstAbove document))
      ∧ (OtherChecks sha256 document requireCompleted →
          (RejectsAst sha256 document requireCompleted
            ↔ Branching (AstAbove document) ∨ Cyclic (AstAbove document)))
      ∧ (validateRawExport sha256 document requireCompleted = .ok () →
          ∃ views, ownershipViews (observedNodes document) (observedEdges document) = .ok views
            ∧ OwnedByNearest document views
            ∧ ∀ other otherViews,
                validateRawExport sha256 other requireCompleted = .ok () →
                (nodeItems other).Perm (nodeItems document) →
                (edgeItems other).Perm (edgeItems document) →
                ownershipViews (observedNodes other) (observedEdges other) = .ok otherViews →
                  ∀ entry ∈ views.ownership, ∀ otherEntry ∈ otherViews.ownership,
                    otherEntry.nodeId = entry.nodeId → otherEntry.methodId = entry.methodId) := by
  refine ⟨validateRawExport_ok_iff, rejectsAst_iff, fun valid => ?_⟩
  obtain ⟨nodes, accepted⟩ := accepted_of_validateRawExport valid
  obtain ⟨views, built, owned⟩ := accepted.ownedByNearest
  refine ⟨views, built, owned, ?_⟩
  intro other otherViews otherValid nodePerm edgePerm otherBuilt entry member otherEntry otherMember
    sameNode
  obtain ⟨otherNodes, otherAccepted⟩ := accepted_of_validateRawExport otherValid
  obtain ⟨same, otherAgain, otherOwned⟩ := otherAccepted.ownedByNearest
  obtain rfl : same = otherViews := Except.ok.inj (otherAgain.symm.trans otherBuilt)
  have nearest := owned.nearest entry member
  have otherNearest := otherOwned.nearest otherEntry otherMember
  rw [astAbove_of_perm edgePerm, isKind_of_perm nodePerm, sameNode] at otherNearest
  exact otherNearest.unique accepted.acyclic nearest

namespace NestedFunction

/-- A node that has none of the properties that its kind asks for. -/
def bareNode (nodeId kind : String) (properties : List (String × Json)) : Json :=
  Json.record [
    ("id", .str (py nodeId)),
    ("kind", .str (py kind)),
    ("properties", Json.record properties),
    ("missing_properties",
      .arr ((missingProperties (nodeProperties.getD (py kind) [])
        (properties.map fun property => (py property.1, property.2))).map Json.str))]

def bareEdge (src dst kind : String) : Json :=
  Json.record [
    ("src", .str (py src)),
    ("dst", .str (py dst)),
    ("kind", .str (py kind)),
    ("properties", .obj [])]

/-- The digest of an empty manifest, and nothing else. -/
def emptyManifestHash : Bytes → Bytes :=
  tableHash [(({} : Manifest).hashed, 0x387cba4a545c993bdd8d9d94070f9235559237a1cf9d857f226d056c531ff269)]

def artifactRecord (path : String) (more : List (String × Json)) : Json :=
  Json.record ([("path", Json.str (py path)), ("sha256", .str (List.replicate 64 0x61))] ++ more)

def toolRecord (role version : String) : Json :=
  artifactRecord "/opt/joern" [("role", .str (py role)), ("version", .str (py version))]

def producerRecord : Json :=
  Json.record [
    ("schema_version", .int 1),
    ("image", Json.record [
      ("kind", .str (py "docker-image-id")),
      ("reference", .str (py "sha256:" ++ List.replicate 64 0x61)),
      ("observation", .str (py "caller-observed"))]),
    ("tools", .arr [
      toolRecord "joern-console" "4.0.554",
      toolRecord "frontend" "4.0.554",
      toolRecord "cpg-domain" "1.7.65",
      toolRecord "flatgraph-core" "0.1.31"]),
    ("script", artifactRecord "/work/export.sc" []),
    ("input_cpg", artifactRecord "/work/cpg.bin" []),
    ("source", Json.record [
      ("root", .str (py "/src")),
      ("tree_namespace", .str (py "scanipy-source-tree/1")),
      ("tree_sha256", .str (hex (toBytes 32 0x387cba4a545c993bdd8d9d94070f9235559237a1cf9d857f226d056c531ff269))),
      ("files", .arr [])]),
    ("frontend", .str (py "pythonsrc")),
    ("import_mode", .str (py "importCpg-default-overlays")),
    ("java_runtime_version", .str (py "21")),
    ("java_tool_options", .str [])]

/-- A method with a method inside it; the inner one is listed first, and the block in it before
both.
-/
def document : Json :=
  Json.record [
    ("format", .str (py "scanipy-joern-export")),
    ("format_version", .int 2),
    ("status", .str (py "completed")),
    ("producer", producerRecord),
    ("capabilities", Json.record ((rawCaps ++ derivedCaps).map fun name =>
      (name, Json.record [
        ("status", .str (if name ∈ rawCaps then py "completed" else py "unsupported")),
        ("reason", .str (py "none"))]))),
    ("nodes", .arr [
      bareNode "4" "BLOCK" [],
      bareNode "3" "METHOD" [],
      bareNode "2" "METHOD" [],
      bareNode "1" "META_DATA" [("LANGUAGE", .str (py "PYTHONSRC"))]]),
    ("edges", .arr [bareEdge "3" "4" "AST", bareEdge "2" "3" "AST"]),
    ("error", .null)]

end NestedFunction

/-- The document is accepted; its block belongs to the inner method. -/
theorem ownership_is_nearest_nested
    : ∃ views,
        ownershipViews (observedNodes NestedFunction.document)
            (observedEdges NestedFunction.document)
          = .ok views
        ∧ OwnedByNearest NestedFunction.document views
        ∧ views.ownership.map (fun entry => (entry.nodeId, entry.methodId))
          = [(py "4", some (py "3")), (py "3", some (py "3")), (py "2", some (py "2")),
              (py "1", none)] := by
  have valid : validateRawExport NestedFunction.emptyManifestHash NestedFunction.document true
      = .ok () := by
    decide +kernel
  obtain ⟨views, built, owned, _⟩ :=
    (ownership_is_nearest NestedFunction.emptyManifestHash NestedFunction.document true).2.2 valid
  refine ⟨views, built, owned, ?_⟩
  have listed : ((ownershipViews (observedNodes NestedFunction.document)
          (observedEdges NestedFunction.document)).map fun views =>
        views.ownership.map fun entry => (entry.nodeId, entry.methodId))
      = .ok [(py "4", some (py "3")), (py "3", some (py "3")), (py "2", some (py "2")),
          (py "1", none)] := by
    decide +kernel
  rw [built] at listed
  exact Except.ok.inj listed

end Scanipy.Analysis.CpgIngest.RawV2

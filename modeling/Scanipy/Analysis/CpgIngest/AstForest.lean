import Mathlib.Data.List.Perm.Subperm
import Scanipy.Analysis.CpgIngest.RawExport
import Scanipy.Library.Ancestry

/-! The AST edges of an accepted export form a forest: no node has two parents and none is its own
ancestor. Nothing else makes the ownership checks of the reader fail.
-/

namespace Scanipy.Analysis.CpgIngest.RawV2

open Relation Library Library.Ancestry Python

def nodeItems (document : Json) : List Json :=
  (document.get "nodes").items

def edgeItems (document : Json) : List Json :=
  (document.get "edges").items

/-- An AST edge leads from the parent to the child. -/
def AstAbove (document : Json) (child parent : Text) : Prop :=
  ∃ edge ∈ edgeItems document,
    edge.get "kind" = .str (py "AST") ∧ edge.get "src" = .str parent ∧ edge.get "dst" = .str child

/-- A node of the document is of the kind. -/
def IsKind (document : Json) (kind nodeId : Text) : Prop :=
  ∃ node ∈ nodeItems document, node.get "id" = .str nodeId ∧ node.get "kind" = .str kind

/-- The two errors that reject the AST edges of a document. -/
def multipleOwners : ReadError :=
  .rawExport (py "AST node cannot have multiple owners")

def cyclicOwnership : ReadError :=
  .rawExport (py "cyclic AST ownership")

variable {value : Json} {label : Text}

theorem shape_ok {read : Json} {keys : List String} (done : shape value keys label = .ok read)
    : read = value := by
  obtain ⟨members, _, done⟩ := bind_ok.mp done
  obtain ⟨_, done⟩ := check_ok.mp done
  exact (Except.ok.inj done).symm

theorem string_ok {text : Text} {nonempty : Bool} (done : string value label nonempty = .ok text)
    : value = .str text := by
  cases value with
  | str found =>
      obtain ⟨_, done⟩ := check_ok.mp done
      obtain ⟨_, done⟩ := check_ok.mp done
      exact congrArg Json.str (Except.ok.inj done)
  | null | bool _ | int _ | arr _ | obj _ => cases done

variable {items : List Json}

theorem array_ok (done : array value label = .ok items)
    : items = value.items := by
  cases value with
  | arr found => exact (Except.ok.inj done).symm
  | null | bool _ | int _ | str _ | obj _ => cases done

/-- `node["id"]` of a node that was read. -/
def idOf (node : Json) : Text :=
  (node.get "id").chars

/-- A dictionary of nodes under their identifiers, in the order of the nodes. -/
structure Lists (nodes : Dict Text Json) (items : List Json) : Prop where
  entries : nodes = items.map fun node => (idOf node, node)
  distinct : nodes.keys.Nodup
  ids : ∀ node ∈ items, node.get "id" = .str (idOf node)
  kinds : ∀ node ∈ items, ∃ kind, node.get "kind" = .str kind

/-- A round of the loop appends its node. -/
theorem NodeTable.add_lists {table after : NodeTable} {node : Json} (lists : Lists table.byId items)
    (done : table.add node = .ok after)
    : Lists after.byId (items ++ [node]) := by
  obtain ⟨read, shaped, checks⟩ := bind_ok.mp done
  obtain rfl := shape_ok shaped
  obtain ⟨nodeId, isId, checks⟩ := bind_ok.mp checks
  have idString := string_ok isId
  obtain ⟨_, checks⟩ := check_ok.mp checks
  obtain ⟨_, checks⟩ := check_ok.mp checks
  obtain ⟨fresh, checks⟩ := check_ok.mp checks
  have fresh := (demand_ok.mp fresh).2
  obtain ⟨kind, isKind, checks⟩ := bind_ok.mp checks
  obtain ⟨_, checks⟩ := check_ok.mp checks
  obtain ⟨properties, _, checks⟩ := bind_ok.mp checks
  obtain ⟨_, checks⟩ := check_ok.mp checks
  have same : idOf read = nodeId := by rw [idOf, idString, Json.chars]
  have after := Except.ok.inj checks
  subst after
  have stored := Dict.set_of_not_mem fresh read
  constructor
  · rw [stored, lists.entries, List.map_append, List.map_singleton, same]
  · exact Dict.nodup_keys_set lists.distinct nodeId read
  · intro node member
    rcases List.mem_append.mp member with before | new
    · exact lists.ids node before
    · rw [List.mem_singleton.mp new, same, idString]
  · intro node member
    rcases List.mem_append.mp member with before | new
    · exact lists.kinds node before
    · rw [List.mem_singleton.mp new]
      exact ⟨kind, string_ok isKind⟩

variable {nodes : Dict Text Json}

/-- The nodes that are read are those of the array, by induction on the loop. -/
theorem readNodes_lists {frontend : Text} (done : readNodes value frontend = .ok nodes)
    : Lists nodes value.items := by
  obtain ⟨items, isArray, checks⟩ := bind_ok.mp done
  obtain rfl := array_ok isArray
  obtain ⟨table, looped, checks⟩ := bind_ok.mp checks
  obtain ⟨_, checks⟩ := check_ok.mp checks
  obtain rfl := Except.ok.inj checks
  have run := foldlM_ok_induction
    (motive := fun rest before after =>
      ∀ seen, Lists before.byId seen → Lists after.byId (seen ++ rest))
    (fun _ seen lists => by simpa using lists)
    (fun first later seen lists => by
      simpa using later _ (NodeTable.add_lists lists first))
    looped
  exact run [] ⟨rfl, List.nodup_nil, fun _ none => absurd none List.not_mem_nil,
    fun _ none => absurd none List.not_mem_nil⟩

-- Edges

/-- An edge as the document has it. -/
def edgeOf (edge : Json) : RawEdge where
  src := (edge.get "src").chars
  dst := (edge.get "dst").chars
  kind := (edge.get "kind").chars

/-- The edge passes every check but the one of its ownership. -/
def EdgePasses (nodes : Dict Text Json) (rawEdge : Json) : Prop :=
  ∃ edge, readEdge nodes rawEdge = .ok edge ∧ checkEnds nodes edge = .ok ()

/-- What was read of an edge that has its ends among the nodes. -/
structure Reads (nodes : Dict Text Json) (rawEdge : Json) (edge : RawEdge) : Prop where
  src : rawEdge.get "src" = .str edge.src
  dst : rawEdge.get "dst" = .str edge.dst
  kind : rawEdge.get "kind" = .str edge.kind
  srcListed : edge.src ∈ nodes.keys
  dstListed : edge.dst ∈ nodes.keys

variable {rawEdge : Json}

theorem readEdge_reads {edge : RawEdge} (done : readEdge nodes rawEdge = .ok edge)
    : Reads nodes rawEdge edge := by
  obtain ⟨read, shaped, checks⟩ := bind_ok.mp done
  obtain rfl := shape_ok shaped
  obtain ⟨src, isSrc, checks⟩ := bind_ok.mp checks
  obtain ⟨dst, isDst, checks⟩ := bind_ok.mp checks
  obtain ⟨listed, checks⟩ := check_ok.mp checks
  have listed := demand_ok.mp listed
  obtain ⟨kind, isKind, checks⟩ := bind_ok.mp checks
  obtain ⟨_, checks⟩ := check_ok.mp checks
  obtain ⟨properties, _, checks⟩ := bind_ok.mp checks
  obtain ⟨_, checks⟩ := check_ok.mp checks
  obtain ⟨_, checks⟩ := check_ok.mp checks
  obtain rfl := Except.ok.inj checks
  exact ⟨string_ok isSrc, string_ok isDst, string_ok isKind, listed.1, listed.2⟩

theorem Reads.edgeOf_eq {edge : RawEdge} (reads : Reads nodes rawEdge edge)
    : edgeOf rawEdge = edge := by
  rw [edgeOf, reads.src, reads.dst, reads.kind]
  rfl

theorem EdgePasses.reads (passes : EdgePasses nodes rawEdge)
    : Reads nodes rawEdge (edgeOf rawEdge) := by
  obtain ⟨edge, read, _⟩ := passes
  have reads := readEdge_reads read
  rw [reads.edgeOf_eq]
  exact reads

/-- Among edges that pass, the AST edges of the document are those that were read. -/
theorem astAbove_iff {document : Json}
    (passes : ∀ rawEdge ∈ edgeItems document, EdgePasses nodes rawEdge) {child parent : Text}
    : AstAbove document child parent
      ↔ ⟨parent, child, py "AST"⟩ ∈ (edgeItems document).map edgeOf := by
  rw [List.mem_map]
  constructor
  · rintro ⟨edge, member, kind, src, dst⟩
    refine ⟨edge, member, ?_⟩
    rw [edgeOf, kind, src, dst]
    rfl
  · rintro ⟨edge, member, same⟩
    have reads := (passes edge member).reads
    rw [same] at reads
    exact ⟨edge, member, reads.kind, reads.src, reads.dst⟩

/-- The links after some edges: every child has the parent of each of its AST edges. -/
structure Describes (links : EdgeLinks) (seen : List RawEdge) : Prop where
  parents : ∀ child parent,
    links.astParents.get? child = some parent ↔ ⟨parent, child, py "AST"⟩ ∈ seen
  links : ∀ source target,
    (source, target) ∈ links.parameterLinks ↔ ⟨source, target, py "PARAMETER_LINK"⟩ ∈ seen

/-- The AST edges of a list, from the child to the parent. -/
def ListAbove (edges : List RawEdge) (child parent : Text) : Prop :=
  ⟨parent, child, py "AST"⟩ ∈ edges

variable {links : EdgeLinks} {seen : List RawEdge}

/-- A dictionary has one parent for a child. -/
theorem Describes.not_branching (describes : Describes links seen)
    : ¬Branching (ListAbove seen) := by
  rintro ⟨child, left, right, first, second, different⟩
  have leftStored := (describes.parents child left).mpr first
  have rightStored := (describes.parents child right).mpr second
  exact different (Option.some.inj (leftStored.symm.trans rightStored))

/-- An edge that is no AST edge leaves the parents. -/
theorem Describes.link {links : EdgeLinks} {seen : List RawEdge} {edge : RawEdge}
    (parents : ∀ child parent,
      links.astParents.get? child = some parent ↔ ⟨parent, child, py "AST"⟩ ∈ seen ++ [edge])
    (before : ∀ source target,
      (source, target) ∈ links.parameterLinks ↔ ⟨source, target, py "PARAMETER_LINK"⟩ ∈ seen)
    : Describes (links.link edge) (seen ++ [edge]) := by
  unfold EdgeLinks.link
  split
  next isLink =>
    refine ⟨parents, fun source target => ?_⟩
    rw [List.mem_append, List.mem_append, before, List.mem_singleton, List.mem_singleton]
    obtain ⟨src, dst, kind⟩ := edge
    obtain rfl : kind = py "PARAMETER_LINK" := isLink
    simp
  next other =>
    refine ⟨parents, fun source target => ?_⟩
    rw [before, List.mem_append, List.mem_singleton]
    constructor
    · exact .inl
    · rintro (seenBefore | rfl)
      · exact seenBefore
      · exact absurd rfl other

/-- A round of the loop stores the edge, or finds a second parent. -/
theorem add_describes (describes : Describes links seen) (passes : EdgePasses nodes rawEdge)
    : (∃ after, links.add nodes rawEdge = .ok after ∧ Describes after (seen ++ [edgeOf rawEdge]))
      ∨ links.add nodes rawEdge = .error multipleOwners
        ∧ Branching (ListAbove (seen ++ [edgeOf rawEdge])) := by
  obtain ⟨edge, read, ends⟩ := passes
  have sameEdge := (readEdge_reads read).edgeOf_eq
  have unfolded : links.add nodes rawEdge
      = (links.own edge >>= fun owned => .ok (owned.link edge)) := by
    rw [EdgeLinks.add, read, ok_bind, ends]
    rfl
  rw [unfolded, sameEdge, EdgeLinks.own]
  by_cases isAst : edge.kind = py "AST"
  · rw [if_pos isAst]
    obtain ⟨src, dst, kind⟩ := edge
    obtain rfl : kind = py "AST" := isAst
    by_cases agrees : links.astParents.getD dst src = src
    · left
      rw [require, demand, if_pos agrees]
      refine ⟨EdgeLinks.link ⟨links.astParents.set dst src, links.parameterLinks⟩ _, rfl,
        Describes.link ?_ describes.links⟩
      intro child parent
      rw [Dict.get?_set, List.mem_append, List.mem_singleton, ← describes.parents]
      by_cases same : dst = child
      · subst same
        rw [if_pos rfl]
        constructor
        · intro found
          right
          rw [Option.some.inj found]
        · rintro (stored | new)
          · rw [Dict.getD, stored, Option.getD_some] at agrees
            rw [agrees]
          · rw [(RawEdge.mk.inj new).1]
      · rw [if_neg same]
        constructor
        · exact .inl
        · rintro (stored | new)
          · exact stored
          · exact absurd (RawEdge.mk.inj new).2.1.symm same
    · right
      refine ⟨by rw [require, demand, if_neg agrees]; rfl, ?_⟩
      cases stored : links.astParents.get? dst with
      | none => exact absurd (by rw [Dict.getD, stored, Option.getD_none]) agrees
      | some parent =>
          rw [Dict.getD, stored, Option.getD_some] at agrees
          refine ⟨dst, parent, src, ?_, ?_, agrees⟩
          · exact List.mem_append_left _ ((describes.parents dst parent).mp stored)
          · exact List.mem_append_right _ (List.mem_singleton.mpr rfl)
  · rw [if_neg isAst]
    left
    refine ⟨_, rfl, Describes.link ?_ describes.links⟩
    intro child parent
    rw [describes.parents, List.mem_append, List.mem_singleton]
    constructor
    · exact .inl
    · rintro (before | rfl)
      · exact before
      · exact absurd rfl isAst

theorem branching_mono {before after : List RawEdge} (subset : before ⊆ after)
    (branching : Branching (ListAbove before))
    : Branching (ListAbove after) := by
  obtain ⟨child, left, right, first, second, different⟩ := branching
  exact ⟨child, left, right, subset first, subset second, different⟩

/-- The loop of `_edges` over edges that pass, by list induction. -/
theorem addEdges_describes (passes : ∀ rawEdge ∈ items, EdgePasses nodes rawEdge)
    (describes : Describes links seen)
    : (∃ after, items.foldlM (EdgeLinks.add nodes) links = .ok after
          ∧ Describes after (seen ++ items.map edgeOf))
      ∨ items.foldlM (EdgeLinks.add nodes) links = .error multipleOwners
        ∧ Branching (ListAbove (seen ++ items.map edgeOf)) := by
  induction items generalizing links seen with
  | nil => exact .inl ⟨links, rfl, by simpa using describes⟩
  | cons head rest ih =>
      rw [List.foldlM_cons, List.map_cons, List.append_cons]
      rcases add_describes describes (passes head List.mem_cons_self) with
        ⟨after, added, describesAfter⟩ | ⟨failed, branching⟩
      · rw [added]
        exact ih (fun rawEdge listed => passes rawEdge (List.mem_cons_of_mem _ listed))
          describesAfter
      · rw [failed]
        exact .inr ⟨rfl, branching_mono (List.subset_append_left _ _) branching⟩

/-- A loop that ends has let every edge pass. -/
theorem passes_of_addEdges {before after : EdgeLinks}
    (done : items.foldlM (EdgeLinks.add nodes) before = .ok after)
    : ∀ rawEdge ∈ items, EdgePasses nodes rawEdge := by
  refine foldlM_ok_induction
    (motive := fun rest _ _ => ∀ rawEdge ∈ rest, EdgePasses nodes rawEdge)
    (fun _ _ none => absurd none List.not_mem_nil) ?_ done
  intro item rest before middle after added later rawEdge member
  rcases List.mem_cons.mp member with rfl | listed
  · obtain ⟨edge, read, added⟩ := bind_ok.mp added
    obtain ⟨owned, _, added⟩ := bind_ok.mp added
    obtain ⟨ends, _⟩ := check_ok.mp added
    exact ⟨edge, read, ends⟩
  · exact later rawEdge listed

-- The walks

/-- The parents of a dictionary, from the child. -/
def StoredAbove (astParents : Dict Text Text) (child parent : Text) : Prop :=
  astParents.get? child = some parent

theorem storedAbove_unique (astParents : Dict Text Text)
    : Relator.RightUnique (StoredAbove astParents) :=
  fun _ _ _ first second => Option.some.inj (first.symm.trans second)

/-- The trail of a walk: parented nodes below the cursor, none of them twice. -/
structure Trail (astParents : Dict Text Text) (trail : PySet Text) (cursor : Text) : Prop where
  distinct : trail.Nodup
  parented : trail ⊆ astParents.keys
  below : ∀ node ∈ trail, TransGen (StoredAbove astParents) node cursor
  ends : Grounded (StoredAbove astParents) cursor →
    ∀ node ∈ trail, Grounded (StoredAbove astParents) node

section Walk

variable {astParents : Dict Text Text} {checked trail : PySet Text} {cursor parent : Text}

theorem Trail.start (cursor : Text) : Trail astParents [] cursor :=
  ⟨List.nodup_nil, List.nil_subset _, fun _ none => absurd none List.not_mem_nil,
    fun _ _ none => absurd none List.not_mem_nil⟩

/-- One step up, from a cursor that the trail did not meet. -/
theorem Trail.step (along : Trail astParents trail cursor) (fresh : cursor ∉ trail)
    (stored : astParents.get? cursor = some parent)
    : Trail astParents (PySet.add trail cursor) parent := by
  have grounded : Grounded (StoredAbove astParents) parent
      → Grounded (StoredAbove astParents) cursor :=
    Grounded.step (storedAbove_unique astParents) stored
  constructor
  · exact PySet.nodup_add along.distinct cursor
  · intro node member
    rcases PySet.mem_add.mp member with before | rfl
    · exact along.parented before
    · exact Dict.mem_keys.mpr ⟨parent, stored⟩
  · intro node member
    rcases PySet.mem_add.mp member with before | rfl
    · exact (along.below node before).tail stored
    · exact .single stored
  · intro parentGrounded node member
    rcases PySet.mem_add.mp member with before | rfl
    · exact along.ends (grounded parentGrounded) node before
    · exact grounded parentGrounded

/-- A walk with fuel for every parented node ends above grounded nodes only, or meets a cycle.
Witness: induction on the fuel; the trail has a parented node for each round before.
-/
theorem walk_spec (known : ∀ node ∈ checked, Grounded (StoredAbove astParents) node)
    {fuel : Nat} (enough : astParents.length + 1 ≤ fuel + trail.length)
    (along : Trail astParents trail cursor)
    : (∃ after, walk astParents checked fuel trail cursor = .ok after
          ∧ (∀ node ∈ after, Grounded (StoredAbove astParents) node)
          ∧ Grounded (StoredAbove astParents) cursor)
      ∨ walk astParents checked fuel trail cursor = .error cyclicOwnership
        ∧ Cyclic (StoredAbove astParents) := by
  induction fuel generalizing trail cursor with
  | zero =>
      have bounded := (along.distinct.subperm along.parented).length_le
      rw [Dict.keys, List.length_map] at bounded
      omega
  | succ fuel ih =>
      rw [walk]
      cases stored : astParents.get? cursor with
      | none =>
          have grounded : Grounded (StoredAbove astParents) cursor := by
            refine Grounded.top fun upper step => ?_
            rw [StoredAbove, stored] at step
            cases step
          exact .inl ⟨trail, rfl, along.ends grounded, grounded⟩
      | some parent =>
          dsimp only
          split
          next isChecked =>
            have grounded := known cursor isChecked
            exact .inl ⟨trail, rfl, along.ends grounded, grounded⟩
          next =>
            split
            next met => exact .inr ⟨rfl, cursor, along.below cursor met⟩
            next fresh =>
              have longer : (PySet.add trail cursor).length = trail.length + 1 := by
                rw [PySet.add, if_neg fresh, List.length_append, List.length_singleton]
              rcases ih (by omega) (along.step fresh stored) with
                ⟨after, walked, allGrounded, grounded⟩ | failed
              · refine .inl ⟨after, walked, allGrounded, ?_⟩
                exact Grounded.step (storedAbove_unique astParents) stored grounded
              · exact .inr failed

/-- The loop over the starting points, by list induction. -/
theorem walks_spec (starts : List Text)
    (known : ∀ node ∈ checked, Grounded (StoredAbove astParents) node)
    : let loop := starts.foldlM
        (fun checked nodeId => do
          let trail ← walk astParents checked (astParents.length + 1) [] nodeId
          (.ok (PySet.update checked trail) : Except ReadError (PySet Text)))
        checked
      (∃ after, loop = .ok after ∧ ∀ node ∈ starts, Grounded (StoredAbove astParents) node)
      ∨ loop = .error cyclicOwnership ∧ Cyclic (StoredAbove astParents) := by
  induction starts generalizing checked with
  | nil => exact .inl ⟨checked, rfl, fun _ none => absurd none List.not_mem_nil⟩
  | cons head rest ih =>
      dsimp only at ih ⊢
      rw [List.foldlM_cons]
      rcases walk_spec known (Nat.le_refl _) (Trail.start head) with
        ⟨after, walked, allGrounded, grounded⟩ | ⟨failed, cyclic⟩
      · have knownAfter : ∀ node ∈ PySet.update checked after,
            Grounded (StoredAbove astParents) node := by
          intro node member
          rcases PySet.mem_update.mp member with before | new
          · exact known node before
          · exact allGrounded node new
        rw [walked, ok_bind, ok_bind]
        rcases ih knownAfter with ⟨last, looped, others⟩ | failed
        · refine .inl ⟨last, looped, fun node member => ?_⟩
          rcases List.mem_cons.mp member with rfl | later
          · exact grounded
          · exact others node later
        · exact .inr failed
      · rw [failed]
        exact .inr ⟨rfl, cyclic⟩

/-- The first loop of `_ownership` decides whether the stored parents have a cycle. -/
theorem checkTrails_spec (astParents : Dict Text Text)
    : (∃ checked, checkTrails astParents = .ok checked) ∧ ¬Cyclic (StoredAbove astParents)
      ∨ checkTrails astParents = .error cyclicOwnership ∧ Cyclic (StoredAbove astParents) := by
  have nothing : ∀ node ∈ ([] : PySet Text), Grounded (StoredAbove astParents) node :=
    fun _ none => absurd none List.not_mem_nil
  rcases walks_spec astParents.keys nothing with ⟨after, looped, grounded⟩ | failed
  · refine .inl ⟨⟨after, looped⟩, not_cyclic_of_grounded fun node parent stored => ?_⟩
    exact grounded node (Dict.mem_keys.mpr ⟨parent, stored⟩)
  · exact .inr failed

end Walk

-- Acceptance

/-- Every check of the edges but those that reject the AST edges as such. -/
structure OtherEdgeChecks (document : Json) (nodes : Dict Text Json) : Prop where
  isArray : document.get "edges" = .arr (edgeItems document)
  edges : ∀ rawEdge ∈ edgeItems document, EdgePasses nodes rawEdge
  formals : ∀ nodeId ∈ nodes.keys,
    kindOf nodes nodeId ∈ formalKinds →
      ∃ owner, AstAbove document nodeId owner ∧ kindOf nodes owner = py "METHOD"
  links : ∀ edge ∈ edgeItems document,
    edge.get "kind" = .str (py "PARAMETER_LINK") →
      ∃ owner, AstAbove document (edgeOf edge).src owner ∧ AstAbove document (edgeOf edge).dst owner

/-- Every check of a document but those that reject its AST edges. -/
def OtherChecks (sha256 : Bytes → Bytes) (document : Json) (requireCompleted : Bool) : Prop :=
  ∃ completed, checkHeader sha256 document requireCompleted = .ok completed
    ∧ ∀ frontend, completed = some frontend →
        ∃ nodes, readNodes (document.get "nodes") frontend = .ok nodes
          ∧ OtherEdgeChecks document nodes

section Acceptance

variable {document : Json} {nodes : Dict Text Json} {links : EdgeLinks}

/-- The links of all edges that pass hold the AST edges of the document. -/
theorem Describes.storedAbove_eq (describes : Describes links ((edgeItems document).map edgeOf))
    (passes : ∀ rawEdge ∈ edgeItems document, EdgePasses nodes rawEdge)
    : StoredAbove links.astParents = AstAbove document := by
  funext child parent
  rw [StoredAbove, describes.parents child parent, astAbove_iff passes]

theorem listAbove_eq (passes : ∀ rawEdge ∈ edgeItems document, EdgePasses nodes rawEdge)
    : ListAbove ((edgeItems document).map edgeOf) = AstAbove document := by
  funext child parent
  rw [ListAbove, astAbove_iff passes]

theorem describes_nil : Describes {} [] := by
  constructor <;> simp [Dict.get?]

/-- The formal nodes and the links pass where the document has the owners that they ask for. -/
theorem ownership_tail (describes : Describes links ((edgeItems document).map edgeOf))
    (other : OtherEdgeChecks document nodes)
    : Metered.visit (checkFormal nodes links.astParents) nodes.keys = .ok ()
      ∧ Metered.visit (checkLink links.astParents) links.parameterLinks = .ok () := by
  have stored := describes.storedAbove_eq other.edges
  rw [visit_ok, visit_ok]
  constructor
  · intro nodeId listed
    rw [checkFormal, require, demand_ok]
    intro isFormal
    obtain ⟨owner, above, isMethod⟩ := other.formals nodeId listed isFormal
    rw [← stored] at above
    rw [above, Option.map_some, isMethod]
  · rintro ⟨source, target⟩ listed
    obtain ⟨edge, member, same⟩ := List.mem_map.mp ((describes.links source target).mp listed)
    have reads := (other.edges edge member).reads
    rw [same] at reads
    obtain ⟨owner, sourceAbove, targetAbove⟩ := other.links edge member reads.kind
    rw [same, ← stored] at sourceAbove targetAbove
    rw [checkLink, sourceAbove, targetAbove]
    exact demand_ok.mpr rfl

/-- With the other checks passing, the edges pass or one of the two errors is raised. -/
theorem checkEdges_of_otherChecks (other : OtherEdgeChecks document nodes)
    : checkEdges (document.get "edges") nodes = .ok ()
        ∧ ¬Branching (AstAbove document) ∧ ¬Cyclic (AstAbove document)
      ∨ checkEdges (document.get "edges") nodes = .error multipleOwners
        ∧ Branching (AstAbove document)
      ∨ checkEdges (document.get "edges") nodes = .error cyclicOwnership
        ∧ Cyclic (AstAbove document) := by
  rw [checkEdges, other.isArray, array, ok_bind]
  have same := listAbove_eq other.edges
  rcases addEdges_describes other.edges describes_nil with
    ⟨links, looped, describes⟩ | ⟨failed, branching⟩
  · rw [List.nil_append] at describes
    have single := describes.not_branching
    rw [same] at single
    have trails := checkTrails_spec links.astParents
    rw [describes.storedAbove_eq other.edges] at trails
    obtain ⟨formals, linked⟩ := ownership_tail describes other
    rw [looped, ok_bind, ownership]
    rcases trails with ⟨⟨checked, walked⟩, acyclic⟩ | ⟨failed, cyclic⟩
    · rw [walked, ok_bind, formals, ok_bind, linked]
      exact .inl ⟨rfl, single, acyclic⟩
    · rw [failed]
      exact .inr (.inr ⟨rfl, cyclic⟩)
  · rw [List.nil_append, same] at branching
    rw [failed]
    exact .inr (.inl ⟨rfl, branching⟩)

/-- Edges that are accepted pass the other checks. -/
theorem otherChecks_of_checkEdges (done : checkEdges (document.get "edges") nodes = .ok ())
    : OtherEdgeChecks document nodes := by
  obtain ⟨items, isArray, done⟩ := bind_ok.mp done
  have itemsEq : items = edgeItems document := array_ok isArray
  subst itemsEq
  obtain ⟨links, looped, owned⟩ := bind_ok.mp done
  have passes := passes_of_addEdges looped
  have describes : Describes links ((edgeItems document).map edgeOf) := by
    rcases addEdges_describes passes describes_nil with ⟨after, same, describes⟩ | ⟨failed, _⟩
    · obtain rfl := Except.ok.inj (looped.symm.trans same)
      rwa [List.nil_append] at describes
    · rw [looped] at failed
      cases failed
  have stored := describes.storedAbove_eq passes
  obtain ⟨_, _, owned⟩ := bind_ok.mp owned
  obtain ⟨formals, linked⟩ := check_ok.mp owned
  rw [visit_ok] at formals linked
  constructor
  · cases isEdges : document.get "edges" with
    | arr items => rw [edgeItems, isEdges, Json.items]
    | null | bool _ | int _ | str _ | obj _ =>
        rw [isEdges] at isArray
        cases isArray
  · exact passes
  · intro nodeId listed isFormal
    have owned := demand_ok.mp (formals nodeId listed) isFormal
    obtain ⟨owner, above, isMethod⟩ := Option.map_eq_some_iff.mp owned
    refine ⟨owner, ?_, isMethod⟩
    rw [← stored]
    exact above
  · intro edge member isLink
    have reads := (passes edge member).reads
    have link : ((edgeOf edge).src, (edgeOf edge).dst) ∈ links.parameterLinks := by
      rw [describes.links, List.mem_map]
      refine ⟨edge, member, ?_⟩
      rw [← Json.str.inj (reads.kind.symm.trans isLink)]
    have same := linked _ link
    rw [checkLink] at same
    split at same
    next source target sourceStored targetStored =>
      have equal : source = target := demand_ok.mp same
      subst equal
      refine ⟨source, ?_⟩
      rw [← stored]
      exact ⟨sourceStored, targetStored⟩
    next => cases same

/-- A report of a failure has no nodes and no edges. -/
theorem items_of_failure {sha256 : Bytes → Bytes} {requireCompleted : Bool}
    (done : checkHeader sha256 document requireCompleted = .ok none)
    : nodeItems document = [] ∧ edgeItems document = [] := by
  obtain ⟨read, shaped, checks⟩ := bind_ok.mp done
  obtain rfl := shape_ok shaped
  obtain ⟨_, checks⟩ := check_ok.mp checks
  obtain ⟨_, checks⟩ := check_ok.mp checks
  obtain ⟨_, _, checks⟩ := bind_ok.mp checks
  obtain ⟨status, _, checks⟩ := bind_ok.mp checks
  obtain ⟨_, checks⟩ := check_ok.mp checks
  obtain ⟨_, _, checks⟩ := bind_ok.mp checks
  obtain ⟨_, _, checks⟩ := bind_ok.mp checks
  obtain ⟨_, checks⟩ := check_ok.mp checks
  split at checks
  · obtain ⟨failure, _⟩ := check_ok.mp checks
    obtain ⟨empty, _⟩ := check_ok.mp failure
    obtain ⟨noNodes, noEdges⟩ := demand_ok.mp empty
    rw [nodeItems, noNodes, edgeItems, noEdges]
    exact ⟨rfl, rfl⟩
  · obtain ⟨_, checks⟩ := check_ok.mp checks
    cases checks

variable {sha256 : Bytes → Bytes} {requireCompleted : Bool}

/-- With the other checks passing, a document is accepted or one of the two errors is raised. -/
theorem validateRawExport_of_otherChecks (other : OtherChecks sha256 document requireCompleted)
    : validateRawExport sha256 document requireCompleted = .ok ()
        ∧ ¬Branching (AstAbove document) ∧ ¬Cyclic (AstAbove document)
      ∨ validateRawExport sha256 document requireCompleted = .error multipleOwners
        ∧ Branching (AstAbove document)
      ∨ validateRawExport sha256 document requireCompleted = .error cyclicOwnership
        ∧ Cyclic (AstAbove document) := by
  obtain ⟨completed, header, arrays⟩ := other
  rw [validateRawExport, header, ok_bind]
  cases completed with
  | none =>
      have none : ∀ child parent, ¬AstAbove document child parent := by
        rintro child parent ⟨edge, member, _⟩
        rw [(items_of_failure header).2] at member
        exact List.not_mem_nil member
      refine .inl ⟨rfl, ?_, ?_⟩
      · rintro ⟨child, parent, _, above, _⟩
        exact none child parent above
      · refine not_cyclic_of_grounded fun child parent above => absurd above (none child parent)
  | some frontend =>
      obtain ⟨nodes, read, edges⟩ := arrays frontend rfl
      dsimp only
      rw [read, ok_bind]
      exact checkEdges_of_otherChecks edges

/-- A document that is accepted passes the other checks. -/
theorem otherChecks_of_validateRawExport
    (accepted : validateRawExport sha256 document requireCompleted = .ok ())
    : OtherChecks sha256 document requireCompleted := by
  obtain ⟨completed, header, rest⟩ := bind_ok.mp accepted
  refine ⟨completed, header, ?_⟩
  rintro frontend rfl
  obtain ⟨nodes, read, edges⟩ := bind_ok.mp rest
  exact ⟨nodes, read, otherChecks_of_checkEdges edges⟩

/-- What is accepted is a forest that passes the other checks, and every such document is. -/
theorem validateRawExport_ok_iff
    : validateRawExport sha256 document requireCompleted = .ok ()
      ↔ OtherChecks sha256 document requireCompleted
        ∧ ¬Branching (AstAbove document) ∧ ¬Cyclic (AstAbove document) := by
  constructor
  · intro accepted
    have other := otherChecks_of_validateRawExport accepted
    refine ⟨other, ?_⟩
    rcases validateRawExport_of_otherChecks other with ⟨_, forest⟩ | ⟨failed, _⟩ | ⟨failed, _⟩
    · exact forest
    · rw [accepted] at failed
      cases failed
    · rw [accepted] at failed
      cases failed
  · rintro ⟨other, single, acyclic⟩
    rcases validateRawExport_of_otherChecks other with ⟨accepted, _⟩ | ⟨_, branching⟩ | ⟨_, cyclic⟩
    · exact accepted
    · exact absurd branching single
    · exact absurd cyclic acyclic

/-- The AST edges are rejected: one of the two errors is raised. -/
def RejectsAst (sha256 : Bytes → Bytes) (document : Json) (requireCompleted : Bool) : Prop :=
  validateRawExport sha256 document requireCompleted = .error multipleOwners
  ∨ validateRawExport sha256 document requireCompleted = .error cyclicOwnership

theorem rejectsAst_iff (other : OtherChecks sha256 document requireCompleted)
    : RejectsAst sha256 document requireCompleted
      ↔ Branching (AstAbove document) ∨ Cyclic (AstAbove document) := by
  rw [RejectsAst]
  rcases validateRawExport_of_otherChecks other with
    ⟨accepted, single, acyclic⟩ | ⟨failed, branching⟩ | ⟨failed, cyclic⟩
  · simp [accepted, single, acyclic]
  · simp [failed, branching]
  · simp [failed, cyclic]

end Acceptance

end Scanipy.Analysis.CpgIngest.RawV2

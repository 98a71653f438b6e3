import Scanipy.Analysis.Ordering.Graph
import Scanipy.Library.Outcome

/-! The `cpg_tarball` artifact at its JSON payload. What is written is read back; what is read back
is what is written only for payloads without missing, coerced or unknown members.
-/

namespace Scanipy.Services.Substrate

open Analysis Library Python

/-- What `json.loads` returns. A float has its `repr` and its value, `none` where it is not finite.
-/
inductive Payload where
  | null
  | bool (value : Bool)
  | int (value : Int)
  | float (text : Text) (value : Option Rat)
  | str (value : Text)
  | arr (items : List Payload)
  | obj (members : List (Text × Payload))

/-- `members.get(key)`. -/
def Payload.get (members : List (Text × Payload)) (key : String) : Option Payload :=
  Dict.get? members (py key)

/-- The number that a value is equal to. -/
def Payload.number : Payload → Option Rat
  | .bool value => some (if value then 1 else 0)
  | .int value => some value
  | .float _ value => value
  | _ => none

/-- The integer that `isinstance(value, int)` admits: a `bool` is an `int`. -/
def Payload.asInt : Payload → Option Int
  | .bool value => some (if value then 1 else 0)
  | .int value => some value
  | _ => none

/-- `str(value)`, where `repr` is the text of a value that is not a string. -/
def pyStr (repr : Payload → Text) : Payload → Text
  | .str value => value
  | value => repr value

/-- What each `CPGDeserializationError` about the payload is raised for. -/
inductive CPGDeserializationError where
  | notPayload
  | notArrays
  | nodeNotObject (position : Nat)
  | notDense (position : Nat) (nodeId : Option Payload)
  | edgeNotObject (edge : Payload)
  | malformedEdge (edge : Payload)
  | outOfRange (edge : Payload)

/-- `str(raw_node.get(key, ""))`. -/
def textField (repr : Payload → Text) (members : List (Text × Payload)) (key : Text) : Text :=
  ((Dict.get? members key).map (pyStr repr)).getD []

/-- The node that is added for a position. -/
def nodeOf (repr : Payload → Text) (members : List (Text × Payload)) (position : Nat) : CPGNode where
  nodeId := position
  kind := textField repr members (py "kind")
  operatorOrLiteral := textField repr members (py "operator_or_literal")
  resolvedFqn := textField repr members (py "resolved_fqn")
  enclosingDeclFqn := textField repr members (py "enclosing_decl_fqn")
  structuralPath := textField repr members (py "structural_path")

/-- The body of the node loop. `add_node` numbers the nodes in order, so its result is the position.
-/
def readNode (repr : Payload → Text) : Payload × Nat → Except CPGDeserializationError CPGNode
  | (.obj members, position) => do
      demand ((Payload.get members "node_id").bind Payload.number = some (position : Rat))
        (.notDense position (Payload.get members "node_id"))
      .ok (nodeOf repr members position)
  | (_, position) => .error (.nodeNotObject position)

/-- The body of the edge loop. -/
def readEdge (count : Nat) (edge : Payload) : Except CPGDeserializationError CPGEdge :=
  match edge with
  | .obj members =>
      match (Payload.get members "src").bind Payload.asInt,
          (Payload.get members "dst").bind Payload.asInt, Payload.get members "kind" with
      | some src, some dst, some (.str kind) => do
          demand ((0 ≤ src ∧ src < count) ∧ 0 ≤ dst ∧ dst < count) (.outOfRange edge)
          .ok { src, dst, kind }
      | _, _, _ => .error (.malformedEdge edge)
  | _ => .error (.edgeNotObject edge)

/-- `deserialize_cpg_tarball` on the payload of the tarball. -/
def deserializeCpgTarball (repr : Payload → Text) : Payload → Except CPGDeserializationError CPG
  | .obj members =>
      match Payload.get members "nodes", Payload.get members "edges" with
      | some (.arr nodes), some (.arr edges) => do
          let added ← Metered.collect (readNode repr) nodes.zipIdx
          let addedEdges ← Metered.collect (readEdge nodes.length) edges
          .ok { nodes := added, edges := addedEdges }
      | some _, some _ => .error .notArrays
      | _, _ => .error .notPayload
  | _ => .error .notPayload

/-- The members of a node, by key. -/
def nodeMembers (node : CPGNode) : Dict Text Payload :=
  [(py "enclosing_decl_fqn", .str node.enclosingDeclFqn), (py "kind", .str node.kind),
    (py "node_id", .int node.nodeId), (py "operator_or_literal", .str node.operatorOrLiteral),
    (py "resolved_fqn", .str node.resolvedFqn), (py "structural_path", .str node.structuralPath)]

def edgeMembers (edge : CPGEdge) : Dict Text Payload :=
  [(py "dst", .int edge.dst), (py "kind", .str edge.kind), (py "src", .int edge.src)]

/-- The payload that `serialize_cpg_tarball` writes. -/
def serializeCpgTarball (cpg : CPG) : Payload :=
  .obj [
    (py "edges", .arr (cpg.edges.map fun edge => .obj (edgeMembers edge))),
    (py "format_version", .str (py "1")),
    (py "nodes", .arr (cpg.nodes.map fun node => .obj (nodeMembers node)))]

/-- Two payloads are the same up to the order of members. -/
inductive Alike : Payload → Payload → Prop where
  | refl (value : Payload) : Alike value value
  | arr {items others : List Payload}
      (length : items.length = others.length)
      (each : ∀ pair ∈ items.zip others, Alike pair.1 pair.2)
    : Alike (.arr items) (.arr others)
  | obj {members others : List (Text × Payload)}
      (keys : (Dict.keys members).Perm (Dict.keys others))
      (each : ∀ key value other, (key, value) ∈ members → (key, other) ∈ others → Alike value other)
    : Alike (.obj members) (.obj others)

-- What a strict reader would accept

/-- A node has exactly its six members: an integer and five strings. -/
def StrictNode (node : Payload) : Prop :=
  ∃ (members : List (Text × Payload)) (fields : CPGNode),
    node = .obj members ∧ members.Perm (nodeMembers fields)

/-- An edge has exactly its three members: two integers and a string. -/
def StrictEdge (edge : Payload) : Prop :=
  ∃ (members : List (Text × Payload)) (fields : CPGEdge),
    edge = .obj members ∧ members.Perm (edgeMembers fields)

/-- A payload has exactly its three members: the version that is written, strict nodes and strict
edges.
-/
def Strict (payload : Payload) : Prop :=
  ∃ members nodes edges, payload = .obj members
    ∧ members.Perm [(py "edges", .arr edges), (py "format_version", .str (py "1")),
      (py "nodes", .arr nodes)]
    ∧ (∀ node ∈ nodes, StrictNode node) ∧ ∀ edge ∈ edges, StrictEdge edge

-- What the reader accepts

/-- A node says its position. -/
def ReadableNode (entry : Payload × Nat) : Prop :=
  ∃ members, entry.1 = .obj members
    ∧ (Payload.get members "node_id").bind Payload.number = some (entry.2 : Rat)

/-- The ends of an edge are nodes, and its kind is a string. -/
def ReadableEdge (count : Nat) (edge : Payload) : Prop :=
  ∃ (members : List (Text × Payload)) (src dst : Int) (kind : Text), edge = .obj members
    ∧ (Payload.get members "src").bind Payload.asInt = some src
    ∧ (Payload.get members "dst").bind Payload.asInt = some dst
    ∧ Payload.get members "kind" = some (.str kind)
    ∧ (0 ≤ src ∧ src < count) ∧ 0 ≤ dst ∧ dst < count

def Readable (payload : Payload) : Prop :=
  ∃ (members : List (Text × Payload)) (nodes edges : List Payload), payload = .obj members
    ∧ Payload.get members "nodes" = some (.arr nodes)
    ∧ Payload.get members "edges" = some (.arr edges)
    ∧ (∀ entry ∈ nodes.zipIdx, ReadableNode entry) ∧ ∀ edge ∈ edges, ReadableEdge nodes.length edge

variable {repr : Payload → Text} {payload value : Payload}

theorem readNode_returns_iff {entry : Payload × Nat}
    : (∃ node, readNode repr entry = .ok node) ↔ ReadableNode entry := by
  obtain ⟨value, position⟩ := entry
  cases value <;>
    simp [readNode, ReadableNode, check_ok, demand_ok]

variable {count : Nat}

theorem readEdge_returns_iff
    : (∃ edge, readEdge count value = .ok edge) ↔ ReadableEdge count value := by
  cases value with
  | obj members =>
      simp only [readEdge, ReadableEdge, Payload.obj.injEq, exists_and_left, exists_eq_left']
      split
      next src dst kind first second third =>
        simp [first, second, third, check_ok, demand_ok]
      next other =>
        simp only [reduceCtorEq, exists_false, false_iff]
        rintro ⟨src, first, dst, second, kind, third, _⟩
        exact other src dst kind first second third
  | null | bool _ | int _ | float _ _ | str _ | arr _ => simp [readEdge, ReadableEdge]

variable {cpg : CPG}

theorem deserialize_ok
    : deserializeCpgTarball repr payload = .ok cpg
      ↔ ∃ (members : List (Text × Payload)) (nodes edges : List Payload) (added : List CPGNode)
          (addedEdges : List CPGEdge), payload = .obj members
        ∧ Payload.get members "nodes" = some (.arr nodes)
        ∧ Payload.get members "edges" = some (.arr edges)
        ∧ Metered.collect (readNode repr) nodes.zipIdx = .ok added
        ∧ Metered.collect (readEdge nodes.length) edges = .ok addedEdges
        ∧ cpg = { nodes := added, edges := addedEdges } := by
  cases payload with
  | obj members =>
      simp only [deserializeCpgTarball]
      constructor
      · intro ran
        split at ran
        next nodes edges first second =>
          obtain ⟨added, nodesRan, ran⟩ := bind_ok.mp ran
          obtain ⟨addedEdges, edgesRan, done⟩ := bind_ok.mp ran
          cases done
          exact ⟨members, nodes, edges, added, addedEdges, rfl, first, second, nodesRan, edgesRan, rfl⟩
        next => cases ran
        next => cases ran
      · rintro ⟨_, nodes, edges, added, addedEdges, same, first, second, nodesRan, edgesRan, rfl⟩
        cases same
        simp only [first, second, nodesRan, edgesRan, ok_bind]
  | null | bool _ | int _ | float _ _ | str _ | arr _ => simp [deserializeCpgTarball]

/-- The reader accepts exactly the readable payloads. -/
theorem deserialize_returns_iff
    : (∃ cpg, deserializeCpgTarball repr payload = .ok cpg) ↔ Readable payload := by
  simp only [deserialize_ok, Readable, ← @readNode_returns_iff repr,
    ← readEdge_returns_iff, ← collect_returns_iff]
  constructor
  · rintro ⟨_, members, nodes, edges, added, addedEdges, same, first, second, nodesRan, edgesRan, _⟩
    exact ⟨members, nodes, edges, same, first, second, ⟨added, nodesRan⟩, addedEdges, edgesRan⟩
  · rintro ⟨members, nodes, edges, same, first, second, ⟨added, nodesRan⟩, addedEdges, edgesRan⟩
    exact ⟨_, members, nodes, edges, added, addedEdges, same, first, second, nodesRan, edgesRan, rfl⟩

-- Same up to the order of members

/-- An integer or a string. -/
def Payload.Scalar : Payload → Prop
  | .int _ | .str _ => True
  | _ => False

theorem Alike.eq_scalar {other : Payload} (alike : Alike value other) (scalar : other.Scalar)
    : value = other := by
  cases alike with
  | refl => rfl
  | arr _ _ | obj _ _ => cases scalar

theorem alike_arr_iff {items others : List Payload}
    : Alike (.arr items) (.arr others) ↔ List.Forall₂ Alike items others := by
  rw [List.forall₂_iff_zip]
  constructor
  · intro alike
    cases alike with
    | refl => exact (List.forall₂_iff_zip.mp (List.forall₂_same.mpr fun item _ => .refl item))
    | arr length each => exact ⟨length, fun listed => each _ listed⟩
  · rintro ⟨length, each⟩
    exact .arr length fun pair listed => each listed

variable {members others : Dict Text Payload}

theorem alike_obj_iff (distinct : others.keys.Nodup)
    : Alike (.obj members) (.obj others)
      ↔ members.keys.Perm others.keys
        ∧ ∀ key value other, (key, value) ∈ members → (key, other) ∈ others → Alike value other := by
  constructor
  · intro alike
    cases alike with
    | refl =>
        refine ⟨.refl _, fun key value other listed among => ?_⟩
        have same := (Dict.get?_of_mem distinct listed).symm.trans (Dict.get?_of_mem distinct among)
        cases same
        exact .refl _
    | obj keys each => exact ⟨keys, each⟩
  · rintro ⟨keys, each⟩
    exact .obj keys each

/-- Objects of scalars are the same when they have the same members. -/
theorem alike_scalars_iff (distinct : others.keys.Nodup)
    (scalars : ∀ entry ∈ others, entry.2.Scalar)
    : Alike (.obj members) (.obj others) ↔ members.Perm others := by
  rw [alike_obj_iff distinct]
  constructor
  · rintro ⟨keys, each⟩
    have within : members ⊆ others := by
      rintro ⟨key, value⟩ listed
      obtain ⟨⟨_, other⟩, among, rfl⟩ :=
        List.mem_map.mp (keys.mem_iff.mp (List.mem_map_of_mem listed))
      rwa [(each _ _ _ listed among).eq_scalar (scalars _ among)]
    have unique : members.Nodup := List.Nodup.of_map Prod.fst (keys.nodup_iff.mpr distinct)
    have length : others.length = members.length := by simpa [Dict.keys] using keys.length_eq.symm
    exact (List.subperm_of_subset unique within).perm_of_length_le length.le
  · intro perm
    refine ⟨perm.map Prod.fst, fun key value other listed among => ?_⟩
    have stored := Dict.get?_of_mem distinct (perm.mem_iff.mp listed)
    cases stored.symm.trans (Dict.get?_of_mem distinct among)
    exact .refl _

theorem nodeMembers_nodup (node : CPGNode) : (nodeMembers node).keys.Nodup := by
  change [py "enclosing_decl_fqn", py "kind", py "node_id", py "operator_or_literal",
    py "resolved_fqn", py "structural_path"].Nodup
  decide

theorem edgeMembers_nodup (edge : CPGEdge) : (edgeMembers edge).keys.Nodup := by
  change [py "dst", py "kind", py "src"].Nodup
  decide

variable {node : CPGNode}

/-- A node with its six members is read as it is, at its position. -/
theorem readNode_of_perm {fields : CPGNode} {position : Nat}
    (perm : members.Perm (nodeMembers fields))
    : readNode repr (.obj members, position) = .ok node
      ↔ fields.nodeId = position ∧ node = { fields with extraFields := [] } := by
  have entry {key : Text} {value : Payload} (listed : (key, value) ∈ nodeMembers fields)
      : Dict.get? members key = some value :=
    (Dict.get?_perm perm (nodeMembers_nodup fields) key).trans
      (Dict.get?_of_mem (nodeMembers_nodup fields) listed)
  have field {key text : Text} (listed : (key, .str text) ∈ nodeMembers fields)
      : textField repr members key = text := by
    rw [textField, entry listed]
    rfl
  have id := entry (.tail _ (.tail _ List.mem_cons_self))
  have enclosing := field List.mem_cons_self
  have kind := field (.tail _ List.mem_cons_self)
  have operator := field (.tail _ (.tail _ (.tail _ List.mem_cons_self)))
  have resolved := field (.tail _ (.tail _ (.tail _ (.tail _ List.mem_cons_self))))
  have path := field (.tail _ (.tail _ (.tail _ (.tail _ (.tail _ List.mem_cons_self)))))
  have numbered : (fields.nodeId : Rat) = (position : Nat) ↔ fields.nodeId = position := by
    exact_mod_cast Iff.rfl
  simp only [readNode, check_ok, demand_ok, Payload.get, id, Option.bind_some,
    Payload.number, Option.some.injEq, numbered, Except.ok.injEq, nodeOf, enclosing, kind, operator,
    resolved, path]
  refine and_congr_right fun placed => ?_
  rw [← placed, eq_comm]

variable {edge : CPGEdge}

/-- An edge with its three members is read as it is, between nodes. -/
theorem readEdge_of_perm {fields : CPGEdge} (perm : members.Perm (edgeMembers fields))
    : readEdge count (.obj members) = .ok edge
      ↔ ((0 ≤ fields.src ∧ fields.src < count) ∧ 0 ≤ fields.dst ∧ fields.dst < count)
        ∧ edge = { fields with extraFields := [] } := by
  have entry {key : Text} {value : Payload} (listed : (key, value) ∈ edgeMembers fields)
      : Dict.get? members key = some value :=
    (Dict.get?_perm perm (edgeMembers_nodup fields) key).trans
      (Dict.get?_of_mem (edgeMembers_nodup fields) listed)
  have dst := entry List.mem_cons_self
  have kind := entry (.tail _ List.mem_cons_self)
  have src := entry (.tail _ (.tail _ List.mem_cons_self))
  simp only [readEdge, Payload.get, src, dst, kind, Option.bind_some, Payload.asInt,
    check_ok, demand_ok, Except.ok.injEq]
  exact and_congr_right fun _ => eq_comm

/-- A node that is read is written as it was exactly when it is strict. -/
theorem alike_node_iff {entry : Payload × Nat} (ran : readNode repr entry = .ok node)
    : Alike entry.1 (.obj (nodeMembers node)) ↔ StrictNode entry.1 := by
  obtain ⟨value, position⟩ := entry
  obtain ⟨members, rfl, _⟩ := readNode_returns_iff.mp ⟨node, ran⟩
  rw [alike_scalars_iff (nodeMembers_nodup node) (by simp [nodeMembers, Payload.Scalar])]
  constructor
  · exact fun perm => ⟨members, node, rfl, perm⟩
  · rintro ⟨_, fields, same, perm⟩
    cases same
    rw [((readNode_of_perm perm).mp ran).2]
    exact perm

/-- An edge that is read is written as it was exactly when it is strict. -/
theorem alike_edge_iff (ran : readEdge count value = .ok edge)
    : Alike value (.obj (edgeMembers edge)) ↔ StrictEdge value := by
  obtain ⟨members, _, _, _, rfl, _⟩ := readEdge_returns_iff.mp ⟨edge, ran⟩
  rw [alike_scalars_iff (edgeMembers_nodup edge) (by simp [edgeMembers, Payload.Scalar])]
  constructor
  · exact fun perm => ⟨members, edge, rfl, perm⟩
  · rintro ⟨_, fields, same, perm⟩
    cases same
    rw [((readEdge_of_perm perm).mp ran).2]
    exact perm

/-- A list that is read is written as it was exactly when its elements are strict. By list
induction.
-/
theorem forall₂_written_iff {α β : Type} {reads : α → β → Prop} {view : α → Payload}
    {write : β → Payload} {strict : Payload → Prop} {elements : List α} {values : List β}
    (ran : List.Forall₂ reads elements values)
    (each : ∀ element value, reads element value →
      (Alike (view element) (write value) ↔ strict (view element)))
    : Alike (.arr (elements.map view)) (.arr (values.map write))
      ↔ ∀ element ∈ elements.map view, strict element := by
  rw [alike_arr_iff]
  induction ran with
  | nil => simp
  | cons read _ ih =>
      rw [List.map_cons, List.map_cons, List.forall₂_cons, ih, each _ _ read, List.forall_mem_cons]

/-- A payload that is accepted is written as it was exactly when it is strict. -/
theorem alike_serialize_iff (accepted : deserializeCpgTarball repr payload = .ok cpg)
    : Alike payload (serializeCpgTarball cpg) ↔ Strict payload := by
  obtain ⟨members, nodes, edges, added, addedEdges, rfl, hasNodes, hasEdges, nodesRan, edgesRan, rfl⟩ :=
    deserialize_ok.mp accepted
  have nodesIff := forall₂_written_iff (collect_ok_iff.mp nodesRan)
    fun _ _ ran => alike_node_iff ran
  have edgesIff := forall₂_written_iff (collect_ok_iff.mp edgesRan)
    fun (_ : Payload) _ ran => alike_edge_iff ran
  rw [List.zipIdx_map_fst] at nodesIff
  rw [List.map_id'] at edgesIff
  have distinct {first second third : Payload}
      : (Dict.keys [(py "edges", first), (py "format_version", second), (py "nodes", third)]).Nodup := by
    change [py "edges", py "format_version", py "nodes"].Nodup
    decide
  rw [serializeCpgTarball, alike_obj_iff distinct]
  constructor
  · rintro ⟨keys, each⟩
    have listedNodes := Dict.mem_of_get? hasNodes
    have listedEdges := Dict.mem_of_get? hasEdges
    have hasVersion : py "format_version" ∈ Dict.keys members :=
      keys.mem_iff.mpr (by simp [Dict.keys])
    obtain ⟨⟨_, version⟩, listedVersion, rfl⟩ := List.mem_map.mp hasVersion
    have versioned := (each _ _ _ listedVersion (.tail _ List.mem_cons_self)).eq_scalar trivial
    rw [versioned] at listedVersion
    refine ⟨members, nodes, edges, rfl, ?_, nodesIff.mp (each _ _ _ listedNodes ?_),
      edgesIff.mp (each _ _ _ listedEdges List.mem_cons_self)⟩
    swap
    · exact .tail _ (.tail _ List.mem_cons_self)
    have listed := List.cons_subset.mpr ⟨listedEdges,
      List.cons_subset.mpr ⟨listedVersion, List.cons_subset.mpr ⟨listedNodes, List.nil_subset _⟩⟩⟩
    have three : members.length = 3 := by simpa [Dict.keys] using keys.length_eq
    refine ((List.subperm_of_subset ?_ listed).perm_of_length_le three.le).symm
    exact List.Nodup.of_map Prod.fst distinct
  · rintro ⟨_, others, otherEdges, same, perm, strictNodes, strictEdges⟩
    cases same
    have unique : (Dict.keys members).Nodup := (perm.map Prod.fst).nodup_iff.mpr distinct
    have entry {key : Text} {value : Payload} (listed : (key, value) ∈ _)
        : Dict.get? members key = some value :=
      Dict.get?_of_mem unique (perm.mem_iff.mpr listed)
    have version := entry (.tail _ List.mem_cons_self)
    cases (entry List.mem_cons_self).symm.trans hasEdges
    cases (entry (.tail _ (.tail _ List.mem_cons_self))).symm.trans hasNodes
    refine ⟨perm.map Prod.fst, fun key value other listed among => ?_⟩
    have found := Dict.get?_of_mem unique listed
    simp only [List.mem_cons, Prod.mk.injEq, List.not_mem_nil, or_false] at among
    rcases among with ⟨rfl, rfl⟩ | ⟨rfl, rfl⟩ | ⟨rfl, rfl⟩
    · rw [Option.some.inj (found.symm.trans hasEdges)]
      exact edgesIff.mpr strictEdges
    · rw [Option.some.inj (found.symm.trans version)]
      exact .refl _
    · rw [Option.some.inj (found.symm.trans hasNodes)]
      exact nodesIff.mpr strictNodes

-- The two directions

/-- Node ids are positions, and edges join nodes. -/
structure Dense (cpg : CPG) : Prop where
  nodes : ∀ entry ∈ cpg.nodes.zipIdx, entry.1.nodeId = (entry.2 : Nat)
  edges : ∀ edge ∈ cpg.edges,
    (0 ≤ edge.src ∧ edge.src < cpg.nodes.length) ∧ 0 ≤ edge.dst ∧ edge.dst < cpg.nodes.length

/-- A graph that is written is read back, with its declared fields. -/
theorem deserialize_serialize (dense : Dense cpg)
    : deserializeCpgTarball repr (serializeCpgTarball cpg) = .ok {
        nodes := cpg.nodes.map fun node => { node with extraFields := [] }
        edges := cpg.edges.map fun edge => { edge with extraFields := [] } } := by
  have hasNodes {first second third : Payload}
      : Payload.get [(py "edges", first), (py "format_version", second), (py "nodes", third)] "nodes"
        = some third := rfl
  have hasEdges {first second third : Payload}
      : Payload.get [(py "edges", first), (py "format_version", second), (py "nodes", third)] "edges"
        = some first := rfl
  refine deserialize_ok.mpr ⟨_, _, _, _, _, rfl, hasNodes, hasEdges, ?_, ?_, rfl⟩
  · have listed : cpg.nodes.map (fun node => { node with extraFields := [] })
        = cpg.nodes.zipIdx.map fun entry => { entry.1 with extraFields := [] } := by
      conv_lhs => rw [← List.zipIdx_map_fst 0 cpg.nodes, List.map_map]
      rfl
    rw [collect_ok_iff, List.zipIdx_map, listed, List.forall₂_map_left_iff,
      List.forall₂_map_right_iff, List.forall₂_same]
    exact fun entry member => (readNode_of_perm (.refl _)).mpr ⟨dense.nodes entry member, rfl⟩
  · rw [List.length_map, collect_ok_iff, List.forall₂_map_left_iff, List.forall₂_map_right_iff,
      List.forall₂_same]
    exact fun edge member => (readEdge_of_perm (.refl _)).mpr ⟨dense.edges edge member, rfl⟩

/-- A dense graph is read back as it was written. What is accepted is, up to the order of members,
what is written for the graph that is returned, exactly when what is readable is strict.
-/
theorem cpgTarball_exact_iff (repr : Payload → Text) (payload : Payload)
    : (∀ cpg, Dense cpg → deserializeCpgTarball repr (serializeCpgTarball cpg) = .ok {
          nodes := cpg.nodes.map fun node => { node with extraFields := [] }
          edges := cpg.edges.map fun edge => { edge with extraFields := [] } })
      ∧ ((∀ cpg, deserializeCpgTarball repr payload = .ok cpg →
            Alike payload (serializeCpgTarball cpg))
        ↔ (Readable payload → Strict payload)) := by
  refine ⟨fun cpg => deserialize_serialize, ?_⟩
  rw [← @deserialize_returns_iff repr]
  constructor
  · rintro same ⟨cpg, accepted⟩
    exact (alike_serialize_iff accepted).mp (same cpg accepted)
  · intro strict cpg accepted
    exact (alike_serialize_iff accepted).mpr (strict ⟨cpg, accepted⟩)

/-- A payload without a version is accepted. -/
theorem cpgTarball_unversioned
    : ¬∀ payload cpg, deserializeCpgTarball (fun _ => []) payload = .ok cpg →
        Alike payload (serializeCpgTarball cpg) := by
  intro claimed
  have accepted : deserializeCpgTarball (fun _ => [])
      (.obj [(py "edges", .arr []), (py "nodes", .arr [])]) = .ok {} := rfl
  cases claimed _ _ accepted with
  | obj keys _ =>
      have length := keys.length_eq
      simp [Dict.keys] at length

end Scanipy.Services.Substrate

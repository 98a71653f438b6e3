import Scanipy.Analysis.Fingerprint.Extract
import Scanipy.Analysis.Ifds.Supergraph

/-! What `build_supergraph` builds from an accepted graph and a complete order. -/

namespace Scanipy.Analysis.Ifds

open Library Python

/-- An edge of the kind leads from the first node to the second. -/
def ListsEdge (edges : List CPGEdge) (kind : Text) (src dst : NodeId) : Prop :=
  ∃ edge ∈ edges, edge.kind = kind ∧ edge.src = src ∧ edge.dst = dst

def HasEdge (cpg : CPG) : Text → NodeId → NodeId → Prop :=
  ListsEdge cpg.edges

/-- The id is that of a METHOD node. -/
def MethodAt (cpg : CPG) (pid : ProcId) : Prop :=
  pid ∈ cpg.nodeIds ∧ IsMethod (cpg.nodeAt pid)

/-- A procedure a node may belong to: a METHOD node is its own, any other node is named by its
enclosing declaration.
-/
def Owns (cpg : CPG) (pid : ProcId) (id : NodeId) : Prop :=
  id ∈ cpg.nodeIds
  ∧ MethodAt cpg pid
  ∧ if IsMethod (cpg.nodeAt id) then
      pid = id
    else
      (cpg.nodeAt id).enclosingDeclFqn ≠ []
      ∧ methodFqn (cpg.nodeAt pid) = (cpg.nodeAt id).enclosingDeclFqn

/-- The supergraph holds the procedures, the owners and the successors of the graph. -/
structure ExplodedSupergraph.Describes (sg : ExplodedSupergraph) (cpg : CPG) : Prop where
  graph : sg.cpg = cpg
  procKeys : ∀ pid, pid ∈ sg.procs.keys ↔ MethodAt cpg pid
  procs : ∀ pid proc, sg.procs.get? pid = some proc →
    proc.entry = pid ∧ proc.bodyNodes ⊆ cpg.nodeIds
  owned : ∀ id pid, sg.procOfNode.get? id = some pid → Owns cpg pid id
  unowned : ∀ id pid, sg.procOfNode.get? id = none → ¬Owns cpg pid id
  cfg : ∀ src dst, dst ∈ sg.cfgSucc.getD src [] ↔ HasEdge cpg cfgEdge src dst
  calls : ∀ src pid,
    pid ∈ sg.callSucc.getD src [] ↔ HasEdge cpg callEdge src pid ∧ MethodAt cpg pid
  callers : ∀ pid caller,
    caller ∈ sg.callers.getD pid []
      ↔ MethodAt cpg pid ∧ ∃ src, HasEdge cpg callEdge src pid ∧ sg.procOfNode.get? src = some caller
  callersDistinct : ∀ pid, (sg.callers.getD pid []).Nodup

theorem subscript_ok {α β : Type} [DecidableEq α] {entries : Dict α β} {key : α} {value : β}
    (stored : entries.get? key = some value)
    : subscript entries key = .ok value := by
  rw [subscript, stored]

theorem appendAt_ok {α β : Type} [DecidableEq α] {entries : Dict α (List β)} {key : α}
    (known : key ∈ entries.keys) (value : β)
    : ∃ after,
        appendAt entries key value = .ok after
        ∧ (∀ other, other ∈ after.keys ↔ other ∈ entries.keys)
        ∧ ∀ other item, item ∈ after.getD other []
          ↔ item ∈ entries.getD other [] ∨ (other = key ∧ item = value) := by
  obtain ⟨values, stored⟩ := Dict.mem_keys.mp known
  refine ⟨entries.set key (values ++ [value]), ?_, fun other => ?_, fun other item => ?_⟩
  · rw [appendAt, subscript_ok stored, ok_bind]
  · rw [Dict.mem_keys_set]
    exact ⟨fun either => either.elim id fun same => same ▸ known, .inl⟩
  · rw [Dict.getD_set]
    by_cases same : key = other
    · subst same
      simp [Dict.getD, stored]
    · simp [same, Ne.symm same]

theorem addAt_ok {α β : Type} [DecidableEq α] [DecidableEq β] {entries : Dict α (PySet β)}
    {key : α} (known : key ∈ entries.keys) (value : β)
    : ∃ after,
        addAt entries key value = .ok after
        ∧ (∀ other, other ∈ after.keys ↔ other ∈ entries.keys)
        ∧ (∀ other item, item ∈ after.getD other []
          ↔ item ∈ entries.getD other [] ∨ (other = key ∧ item = value))
        ∧ ∀ other, (entries.getD other []).Nodup → (after.getD other []).Nodup := by
  obtain ⟨values, stored⟩ := Dict.mem_keys.mp known
  refine ⟨entries.set key (PySet.add values value), ?_, fun other => ?_, fun other item => ?_,
    fun other distinct => ?_⟩
  · rw [addAt, subscript_ok stored, ok_bind]
  · rw [Dict.mem_keys_set]
    exact ⟨fun either => either.elim id fun same => same ▸ known, .inl⟩
  · rw [Dict.getD_set]
    by_cases same : key = other
    · subst same
      simp [Dict.getD, stored]
    · simp [same, Ne.symm same]
  · rw [Dict.getD_set]
    split
    next same =>
      subst same
      rw [Dict.getD, stored, Option.getD_some] at distinct
      exact PySet.nodup_add distinct value
    next => exact distinct

/-- What step 1 has built after the listed METHOD nodes. -/
structure Registered (cpg : CPG) (listed : List CPGNode) (sg : ExplodedSupergraph)
    (names : Dict Text ProcId) : Prop where
  graph : sg.cpg = cpg
  procKeys : ∀ pid, pid ∈ sg.procs.keys ↔ ∃ node ∈ listed, node.nodeId = pid
  procs : ∀ pid proc, sg.procs.get? pid = some proc → proc.entry = pid ∧ proc.bodyNodes = []
  calleeKeys : ∀ pid, pid ∈ sg.callees.keys ↔ pid ∈ sg.procs.keys
  callerKeys : ∀ pid, pid ∈ sg.callers.keys ↔ pid ∈ sg.procs.keys
  callers : ∀ pid, sg.callers.getD pid [] = []
  named : ∀ fqn pid, names.get? fqn = some pid →
    fqn ≠ [] ∧ ∃ node ∈ listed, node.nodeId = pid ∧ methodFqn node = fqn
  unnamed : ∀ node ∈ listed, methodFqn node ≠ [] → names.get? (methodFqn node) ≠ none
  procOfNode : sg.procOfNode = []
  cfgSucc : sg.cfgSucc = []
  callSucc : sg.callSucc = []

theorem registered_nil (cpg : CPG) : Registered cpg [] { cpg } [] :=
  ⟨rfl, by simp [Dict.keys], by simp [Dict.get?], by simp [Dict.keys], by simp [Dict.keys],
    by simp [Dict.getD, Dict.get?], by simp [Dict.get?], by simp, rfl, rfl, rfl⟩

variable {cpg : CPG} {listed : List CPGNode} {sg : ExplodedSupergraph} {names : Dict Text ProcId}

/-- Step 1 registers every METHOD node, by list induction. -/
theorem addProcedures_registered (nodes : List CPGNode) (before : Registered cpg listed sg names)
    : Registered cpg (listed ++ nodes) (addProcedures nodes (sg, names)).1
        (addProcedures nodes (sg, names)).2 := by
  induction nodes generalizing listed sg names with
  | nil => simpa [addProcedures] using before
  | cons node rest ih =>
      rw [List.append_cons]
      refine ih ?_
      refine ⟨before.graph, fun pid => ?_, fun pid proc stored => ?_, fun pid => ?_, fun pid => ?_,
        fun pid => ?_, fun fqn pid stored => ?_, fun other member visible => ?_, before.procOfNode,
        before.cfgSucc, before.callSucc⟩
      · rw [Dict.mem_keys_set, before.procKeys]
        simp [eq_comm, or_and_right, exists_or]
      · rw [Dict.get?_set] at stored
        split at stored
        next same =>
          cases stored
          exact ⟨same, rfl⟩
        next => exact before.procs pid proc stored
      · rw [Dict.mem_keys_set, Dict.mem_keys_set, before.calleeKeys]
      · rw [Dict.mem_keys_set, Dict.mem_keys_set, before.callerKeys]
      · rw [Dict.getD_set, before.callers, ite_self]
      · have kept (stored : names.get? fqn = some pid)
            : fqn ≠ [] ∧ ∃ other ∈ listed ++ [node], other.nodeId = pid ∧ methodFqn other = fqn := by
          obtain ⟨visible, other, member, same⟩ := before.named fqn pid stored
          exact ⟨visible, other, List.mem_append_left _ member, same⟩
        split at stored
        · exact kept stored
        next visible =>
          rw [Dict.get?_set] at stored
          split at stored
          next same =>
            cases stored
            exact ⟨same ▸ visible, node, by simp, rfl, same⟩
          next => exact kept stored
      · split
        next hidden =>
          rcases List.mem_append.mp member with old | last
          · exact before.unnamed other old visible
          · rw [List.mem_singleton.mp last] at visible
            exact absurd hidden visible
        next =>
          rw [Dict.get?_set]
          split
          · simp
          next apart =>
            rcases List.mem_append.mp member with old | last
            · exact before.unnamed other old visible
            · rw [List.mem_singleton.mp last] at apart
              exact absurd rfl apart

-- Step 2

/-- The ids of the listed nodes. -/
def idsOf (listed : List CPGNode) : List NodeId :=
  listed.map CPGNode.nodeId

theorem idsOf_append (first second : List CPGNode)
    : idsOf (first ++ second) = idsOf first ++ idsOf second :=
  List.map_append

/-- What step 2 has built after the listed nodes, from what step 1 made. -/
structure Assigned (names : Dict Text ProcId) (made : ExplodedSupergraph) (listed : List CPGNode)
    (sg : ExplodedSupergraph) (body : Dict ProcId (List NodeId)) : Prop where
  graph : sg.cpg = made.cpg
  procs : sg.procs = made.procs
  callees : sg.callees = made.callees
  callers : sg.callers = made.callers
  owned : ∀ id pid, sg.procOfNode.get? id = some pid
    ↔ ∃ node ∈ listed, node.nodeId = id ∧ owner names node = pid ∧ pid ≠ -1
  cfgKeys : ∀ id, id ∈ sg.cfgSucc.keys ↔ id ∈ idsOf listed
  cfgSucc : ∀ id, sg.cfgSucc.getD id [] = []
  callKeys : ∀ id, id ∈ sg.callSucc.keys ↔ id ∈ idsOf listed
  callSucc : ∀ id, sg.callSucc.getD id [] = []
  bodyKeys : ∀ pid, pid ∈ body.keys ↔ pid ∈ made.procs.keys
  body : ∀ entry ∈ body, entry.2 ⊆ idsOf listed

variable {entries : Dict NodeId (List NodeId)}

theorem setDefault_keys (node : CPGNode) (keys : ∀ id, id ∈ entries.keys ↔ id ∈ idsOf listed)
    (id : NodeId)
    : id ∈ (setDefault entries node.nodeId).keys ↔ id ∈ idsOf (listed ++ [node]) := by
  rw [idsOf_append, List.mem_append, ← keys]
  unfold setDefault
  split
  next known =>
    refine ⟨.inl, fun either => either.elim (fun old => old) fun last => ?_⟩
    rwa [List.mem_singleton.mp last]
  next =>
    rw [Dict.mem_keys_set]
    exact or_congr_right List.mem_singleton.symm

theorem setDefault_getD (empty : ∀ id, entries.getD id [] = []) (key id : NodeId)
    : (setDefault entries key).getD id [] = [] := by
  unfold setDefault
  split
  · exact empty id
  · rw [Dict.getD_set, empty, ite_self]

variable {made : ExplodedSupergraph} {body : Dict ProcId (List NodeId)} {node : CPGNode}

/-- A node without an owner only gets empty successor lists. -/
theorem Assigned.unowned (before : Assigned names made listed sg body)
    (none : owner names node = -1)
    : Assigned names made (listed ++ [node])
        {
          sg with
          cfgSucc := setDefault sg.cfgSucc node.nodeId
          callSucc := setDefault sg.callSucc node.nodeId
        } body := by
  refine ⟨before.graph, before.procs, before.callees, before.callers, fun id pid => ?_,
    setDefault_keys node before.cfgKeys, setDefault_getD before.cfgSucc _,
    setDefault_keys node before.callKeys, setDefault_getD before.callSucc _, before.bodyKeys,
    fun entry member id inside => ?_⟩
  · refine (before.owned id pid).trans ?_
    constructor
    · rintro ⟨other, member, same⟩
      exact ⟨other, List.mem_append_left _ member, same⟩
    · rintro ⟨other, member, sameId, owned, some⟩
      rcases List.mem_append.mp member with old | last
      · exact ⟨other, old, sameId, owned, some⟩
      · rw [List.mem_singleton.mp last, none] at owned
        exact absurd owned.symm some
  · rw [idsOf_append]
    exact List.mem_append_left _ (before.body entry member inside)

/-- A node with an owner is recorded as well. -/
theorem Assigned.owner {after : Dict ProcId (List NodeId)}
    (before : Assigned names made listed sg body) (fresh : node.nodeId ∉ idsOf listed)
    (some : owner names node ≠ -1) (bodyKeys : ∀ pid, pid ∈ after.keys ↔ pid ∈ body.keys)
    (members : ∀ entry ∈ after, entry.2 ⊆ idsOf (listed ++ [node]))
    : Assigned names made (listed ++ [node])
        {
          sg with
          procOfNode := sg.procOfNode.set node.nodeId (owner names node)
          cfgSucc := setDefault sg.cfgSucc node.nodeId
          callSucc := setDefault sg.callSucc node.nodeId
        } after := by
  refine ⟨before.graph, before.procs, before.callees, before.callers, fun id pid => ?_,
    setDefault_keys node before.cfgKeys, setDefault_getD before.cfgSucc _,
    setDefault_keys node before.callKeys, setDefault_getD before.callSucc _,
    fun pid => (bodyKeys pid).trans (before.bodyKeys pid), members⟩
  rw [Dict.get?_set]
  by_cases same : node.nodeId = id
  · rw [if_pos same, Option.some.injEq]
    constructor
    · rintro rfl
      exact ⟨node, by simp, same, rfl, some⟩
    · rintro ⟨other, member, otherId, owned, _⟩
      rcases List.mem_append.mp member with old | last
      · refine absurd (List.mem_map_of_mem (f := CPGNode.nodeId) old) ?_
        rwa [otherId, ← same]
      · rw [List.mem_singleton.mp last] at owned
        exact owned
  · rw [if_neg same, before.owned]
    constructor
    · rintro ⟨other, member, rest⟩
      exact ⟨other, List.mem_append_left _ member, rest⟩
    · rintro ⟨other, member, otherId, rest⟩
      rcases List.mem_append.mp member with old | last
      · exact ⟨other, old, otherId, rest⟩
      · rw [List.mem_singleton.mp last] at otherId
        exact absurd otherId same

/-- Step 2 assigns every node, by list induction. -/
theorem assignNodes_assigned (known : ∀ fqn pid, names.get? fqn = some pid → pid ∈ made.procs.keys)
    (nodes : List CPGNode) (before : Assigned names made listed sg body)
    (distinct : (idsOf (listed ++ nodes)).Nodup)
    : ∃ assigned stored,
        assignNodes names nodes sg body = .ok (assigned, stored)
        ∧ Assigned names made (listed ++ nodes) assigned stored := by
  induction nodes generalizing listed sg body with
  | nil => exact ⟨sg, body, rfl, by simpa using before⟩
  | cons node rest ih =>
      have fresh : node.nodeId ∉ idsOf listed := by
        intro member
        rw [idsOf_append] at distinct
        exact (List.nodup_append.mp distinct).2.2 _ member _ List.mem_cons_self rfl
      have grown (entry : ProcId × List NodeId) (member : entry ∈ body)
          : entry.2 ⊆ idsOf (listed ++ [node]) := by
        rw [idsOf_append]
        exact fun id inside => List.mem_append_left _ (before.body entry member inside)
      rw [List.append_cons] at distinct ⊢
      rw [assignNodes, assignNode]
      by_cases none : owner names node = -1
      · rw [if_pos none, ok_bind]
        exact ih (before.unowned none) distinct
      · rw [if_neg none]
        by_cases method : IsMethod node
        · rw [if_pos method, ok_bind]
          exact ih (before.owner fresh none (fun _ => Iff.rfl) grown) distinct
        · have ownerKnown : owner names node ∈ body.keys := by
            have owned : owner names node = names.getD node.enclosingDeclFqn (-1) := if_neg method
            rw [before.bodyKeys]
            cases stored : names.get? node.enclosingDeclFqn with
            | none =>
                rw [owned, Dict.getD, stored] at none
                exact absurd rfl none
            | some pid =>
                rw [owned, Dict.getD, stored]
                exact known _ _ stored
          obtain ⟨values, stored⟩ := Dict.mem_keys.mp ownerKnown
          obtain ⟨after, appended, keys, _⟩ := appendAt_ok ownerKnown node.nodeId
          have members (entry : ProcId × List NodeId) (member : entry ∈ after)
              : entry.2 ⊆ idsOf (listed ++ [node]) := by
            rw [appendAt, subscript_ok stored, ok_bind] at appended
            cases appended
            rcases Dict.mem_of_mem_set member with old | rfl
            · exact grown entry old
            · intro id inside
              rcases List.mem_append.mp inside with earlier | last
              · exact grown _ (Dict.mem_of_get? stored) earlier
              · rw [idsOf_append]
                exact List.mem_append_right _ last
          rw [if_neg method, appended, ok_bind, ok_bind]
          exact ih (before.owner fresh none keys members) distinct

theorem storeBodies_ok (order ids : List NodeId) (entries : List (ProcId × List NodeId))
    (known : ∀ entry ∈ entries, entry.1 ∈ sg.procs.keys ∧ entry.2 ⊆ ids)
    (procs : ∀ pid proc, sg.procs.get? pid = some proc → proc.entry = pid ∧ proc.bodyNodes ⊆ ids)
    : ∃ stored,
        storeBodies order entries sg = .ok { sg with procs := stored }
        ∧ (∀ pid, pid ∈ stored.keys ↔ pid ∈ sg.procs.keys)
        ∧ ∀ pid proc, stored.get? pid = some proc → proc.entry = pid ∧ proc.bodyNodes ⊆ ids := by
  induction entries generalizing sg with
  | nil => exact ⟨sg.procs, rfl, fun _ => Iff.rfl, procs⟩
  | cons entry rest ih =>
      obtain ⟨pid, members⟩ := entry
      obtain ⟨pidKnown, inside⟩ := known _ List.mem_cons_self
      obtain ⟨proc, stored⟩ := Dict.mem_keys.mp pidKnown
      have keys (other : ProcId) (value : Procedure)
          : other ∈ (sg.procs.set pid value).keys ↔ other ∈ sg.procs.keys := by
        rw [Dict.mem_keys_set]
        exact ⟨fun either => either.elim (fun old => old) fun same => same ▸ pidKnown, .inl⟩
      rw [storeBodies, subscript_ok stored, ok_bind]
      obtain ⟨after, ran, afterKeys, afterProcs⟩ := @ih {
          sg with
          procs := sg.procs.set pid {
            proc with
            procId := pid
            bodyNodes := sortedBy (okey order) members
          }
        }
        (fun other later => by
          obtain ⟨otherKnown, otherInside⟩ := known other (List.mem_cons_of_mem _ later)
          exact ⟨(keys _ _).mpr otherKnown, otherInside⟩)
        (fun other value found => by
          rw [Dict.get?_set] at found
          split at found
          next same =>
            cases found
            refine ⟨same ▸ (procs pid proc stored).1, fun id member => ?_⟩
            exact inside (mem_sortedBy.mp member)
          next => exact procs other value found)
      exact ⟨after, ran, fun other => (afterKeys other).trans (keys _ _), afterProcs⟩

-- Step 3

variable {listed : List CPGEdge}

theorem listsEdge_append {edge : CPGEdge} {kind : Text} {src dst : NodeId}
    : ListsEdge (listed ++ [edge]) kind src dst
      ↔ ListsEdge listed kind src dst ∨ (edge.kind = kind ∧ edge.src = src ∧ edge.dst = dst) := by
  simp [ListsEdge, or_and_right, exists_or]

/-- What step 3 has built after the listed edges, from what was placed before. -/
structure Linked (cpg : CPG) (placed : ExplodedSupergraph) (listed : List CPGEdge)
    (sg : ExplodedSupergraph) : Prop where
  graph : sg.cpg = placed.cpg
  procs : sg.procs = placed.procs
  procOfNode : sg.procOfNode = placed.procOfNode
  cfgKeys : ∀ id, id ∈ sg.cfgSucc.keys ↔ id ∈ cpg.nodeIds
  cfg : ∀ src dst, dst ∈ sg.cfgSucc.getD src [] ↔ ListsEdge listed cfgEdge src dst
  callKeys : ∀ id, id ∈ sg.callSucc.keys ↔ id ∈ cpg.nodeIds
  calls : ∀ src pid,
    pid ∈ sg.callSucc.getD src [] ↔ ListsEdge listed callEdge src pid ∧ MethodAt cpg pid
  calleeKeys : ∀ pid, pid ∈ sg.callees.keys ↔ MethodAt cpg pid
  callerKeys : ∀ pid, pid ∈ sg.callers.keys ↔ MethodAt cpg pid
  callers : ∀ pid caller,
    caller ∈ sg.callers.getD pid []
      ↔ MethodAt cpg pid
        ∧ ∃ src, ListsEdge listed callEdge src pid ∧ placed.procOfNode.get? src = some caller
  callersDistinct : ∀ pid, (sg.callers.getD pid []).Nodup

section Links

variable {cpg : CPG} {placed sg : ExplodedSupergraph} {listed : List CPGEdge} {edge : CPGEdge}
  (before : Linked cpg placed listed sg)

include before

/-- An edge that is no call to a METHOD leaves the calls as they are. -/
theorem Linked.noCall (other : ¬(edge.kind = callEdge ∧ MethodAt cpg edge.dst))
    : (∀ src pid, pid ∈ sg.callSucc.getD src []
        ↔ ListsEdge (listed ++ [edge]) callEdge src pid ∧ MethodAt cpg pid)
      ∧ ∀ pid caller, caller ∈ sg.callers.getD pid []
        ↔ MethodAt cpg pid
          ∧ ∃ src, ListsEdge (listed ++ [edge]) callEdge src pid
            ∧ placed.procOfNode.get? src = some caller := by
  have same {src pid : NodeId} (method : MethodAt cpg pid)
      : ListsEdge (listed ++ [edge]) callEdge src pid ↔ ListsEdge listed callEdge src pid := by
    rw [listsEdge_append]
    refine ⟨fun either => either.resolve_right ?_, .inl⟩
    rintro ⟨kind, _, rfl⟩
    exact other ⟨kind, method⟩
  constructor
  · intro src pid
    rw [before.calls]
    exact and_congr_left fun method => (same method).symm
  · intro pid caller
    rw [before.callers]
    exact and_congr_right fun method => exists_congr fun src =>
      and_congr_left fun _ => (same method).symm

/-- An edge that is no CFG edge leaves the CFG successors as they are. -/
theorem Linked.noCfg (other : edge.kind ≠ cfgEdge) (src dst : NodeId)
    : dst ∈ sg.cfgSucc.getD src [] ↔ ListsEdge (listed ++ [edge]) cfgEdge src dst := by
  rw [before.cfg, listsEdge_append]
  exact ⟨.inl, fun either => either.resolve_right fun same => other same.1⟩

/-- An edge of another kind, or a call to no METHOD, changes nothing. -/
theorem Linked.skip (notCfg : edge.kind ≠ cfgEdge)
    (other : ¬(edge.kind = callEdge ∧ MethodAt cpg edge.dst))
    : Linked cpg placed (listed ++ [edge]) sg := by
  obtain ⟨calls, callers⟩ := before.noCall other
  exact ⟨before.graph, before.procs, before.procOfNode, before.cfgKeys, before.noCfg notCfg,
    before.callKeys, calls, before.calleeKeys, before.callerKeys, callers, before.callersDistinct⟩

theorem Linked.addCfg (kind : edge.kind = cfgEdge) (known : edge.src ∈ cpg.nodeIds)
    : ∃ cfgSucc,
        appendAt sg.cfgSucc edge.src edge.dst = .ok cfgSucc
        ∧ Linked cpg placed (listed ++ [edge]) { sg with cfgSucc } := by
  obtain ⟨cfgSucc, appended, keys, members⟩ :=
    appendAt_ok ((before.cfgKeys edge.src).mpr known) edge.dst
  have notCall : ¬(edge.kind = callEdge ∧ MethodAt cpg edge.dst) := by
    rw [kind]
    exact fun both => absurd both.1 (by decide)
  obtain ⟨calls, callers⟩ := before.noCall notCall
  refine ⟨cfgSucc, appended, before.graph, before.procs, before.procOfNode,
    fun id => (keys id).trans (before.cfgKeys id), fun src dst => ?_, before.callKeys, calls,
    before.calleeKeys, before.callerKeys, callers, before.callersDistinct⟩
  rw [members, before.cfg, listsEdge_append]
  refine or_congr_right ⟨fun ⟨sameSrc, sameDst⟩ => ⟨kind, sameSrc.symm, sameDst.symm⟩, ?_⟩
  exact fun ⟨_, sameSrc, sameDst⟩ => ⟨sameSrc.symm, sameDst.symm⟩

theorem Linked.addCall (kind : edge.kind = callEdge) (known : edge.src ∈ cpg.nodeIds)
    (method : MethodAt cpg edge.dst)
    (owners : ∀ id pid, placed.procOfNode.get? id = some pid → MethodAt cpg pid)
    : ∃ after, addCall edge.src edge.dst sg = .ok after ∧ Linked cpg placed (listed ++ [edge]) after := by
  have notCfg : edge.kind ≠ cfgEdge := by
    rw [kind]
    decide
  obtain ⟨callSucc, appended, keys, members⟩ :=
    appendAt_ok ((before.callKeys edge.src).mpr known) edge.dst
  have calls (src pid : NodeId)
      : pid ∈ callSucc.getD src []
        ↔ ListsEdge (listed ++ [edge]) callEdge src pid ∧ MethodAt cpg pid := by
    rw [members, before.calls, listsEdge_append]
    constructor
    · rintro (⟨old, oldMethod⟩ | ⟨rfl, rfl⟩)
      · exact ⟨.inl old, oldMethod⟩
      · exact ⟨.inr ⟨kind, rfl, rfl⟩, method⟩
    · rintro ⟨old | ⟨_, rfl, rfl⟩, pidMethod⟩
      · exact .inl ⟨old, pidMethod⟩
      · exact .inr ⟨rfl, rfl⟩
  have callKeys (id : NodeId) := (keys id).trans (before.callKeys id)
  unfold Ifds.addCall
  rw [appended, ok_bind]
  cases owned : sg.procOfNode.get? edge.src with
  | none =>
      refine ⟨_, rfl, before.graph, before.procs, before.procOfNode, before.cfgKeys,
        before.noCfg notCfg, callKeys, calls, before.calleeKeys, before.callerKeys,
        fun pid caller => ?_, before.callersDistinct⟩
      rw [before.procOfNode] at owned
      rw [before.callers]
      refine and_congr_right fun _ => exists_congr fun src => and_congr_left fun stored => ?_
      rw [listsEdge_append]
      refine ⟨.inl, fun either => either.resolve_right ?_⟩
      rintro ⟨_, rfl, _⟩
      rw [owned] at stored
      cases stored
  | some owner =>
      rw [before.procOfNode] at owned
      obtain ⟨callees, calleesAdded, calleeKeys, _, _⟩ :=
        addAt_ok ((before.calleeKeys owner).mpr (owners _ _ owned)) edge.dst
      obtain ⟨callers, callersAdded, callerKeys, callerMembers, distinct⟩ :=
        addAt_ok ((before.callerKeys edge.dst).mpr method) owner
      dsimp only
      rw [calleesAdded, ok_bind, callersAdded, ok_bind]
      refine ⟨_, rfl, before.graph, before.procs, before.procOfNode, before.cfgKeys,
        before.noCfg notCfg, callKeys, calls, fun pid => (calleeKeys pid).trans (before.calleeKeys pid),
        fun pid => (callerKeys pid).trans (before.callerKeys pid), fun pid caller => ?_,
        fun pid => distinct pid (before.callersDistinct pid)⟩
      rw [callerMembers, before.callers]
      simp only [listsEdge_append]
      constructor
      · rintro (⟨pidMethod, src, old, stored⟩ | ⟨rfl, rfl⟩)
        · exact ⟨pidMethod, src, .inl old, stored⟩
        · exact ⟨method, edge.src, .inr ⟨kind, rfl, rfl⟩, owned⟩
      · rintro ⟨pidMethod, src, old | ⟨_, rfl, rfl⟩, stored⟩
        · exact .inl ⟨pidMethod, src, old, stored⟩
        · exact .inr ⟨rfl, Option.some.inj (stored.symm.trans owned)⟩

end Links

/-- Step 3 links every edge, by list induction. -/
theorem addSuccessors_linked (formed : cpg.WellFormed) {placed : ExplodedSupergraph}
    (owners : ∀ id pid, placed.procOfNode.get? id = some pid → MethodAt cpg pid)
    (edges : List CPGEdge) (known : ∀ edge ∈ edges, edge.src ∈ cpg.nodeIds ∧ edge.dst ∈ cpg.nodeIds)
    (before : Linked cpg placed listed sg)
    : ∃ after,
        addSuccessors cpg.byId edges sg = .ok after ∧ Linked cpg placed (listed ++ edges) after := by
  induction edges generalizing listed sg with
  | nil => exact ⟨sg, rfl, by simpa using before⟩
  | cons edge rest ih =>
      obtain ⟨srcKnown, dstKnown⟩ := known edge List.mem_cons_self
      have restKnown (other : CPGEdge) (later : other ∈ rest) :=
        known other (List.mem_cons_of_mem _ later)
      obtain ⟨dstMember, dstId⟩ := CPG.nodeAt_mem formed.distinct dstKnown
      have found : cpg.byId.get? edge.dst = some (cpg.nodeAt edge.dst) := by
        have stored := CPG.byId_get? formed.distinct dstMember
        rwa [dstId] at stored
      rw [List.append_cons, addSuccessors, addSuccessor]
      by_cases cfg : edge.kind = cfgEdge
      · obtain ⟨cfgSucc, appended, linked⟩ := before.addCfg cfg srcKnown
        rw [if_pos cfg, appended, ok_bind, ok_bind]
        exact ih restKnown linked
      · rw [if_neg cfg]
        by_cases call : edge.kind = callEdge
        · rw [if_pos call, found]
          dsimp only
          by_cases method : IsMethod (cpg.nodeAt edge.dst)
          · obtain ⟨after, added, linked⟩ :=
              before.addCall call srcKnown ⟨dstKnown, method⟩ owners
            rw [if_pos method, dstId, added, ok_bind]
            exact ih restKnown linked
          · rw [if_neg method, ok_bind]
            exact ih restKnown (before.skip cfg fun both => method both.2.2)
        · rw [if_neg call, ok_bind]
          exact ih restKnown (before.skip cfg fun both => call both.1)

-- The whole supergraph

theorem sortSuccessors_mem (order : List NodeId) (successors : Dict NodeId (List NodeId))
    (src dst : NodeId)
    : dst ∈ (sortSuccessors order successors).getD src [] ↔ dst ∈ successors.getD src [] := by
  rw [sortSuccessors, Dict.getD, Dict.get?_map_snd, Dict.getD]
  cases successors.get? src with
  | none => exact Iff.rfl
  | some listed => exact mem_sortedBy

variable {pid : ProcId}

theorem methodAt_ne (formed : cpg.WellFormed) (method : MethodAt cpg pid)
    : pid ≠ -1 := by
  obtain ⟨node, member, rfl⟩ := List.mem_map.mp method.1
  intro same
  have range := (formed.nodes node member).nodeId
  rw [same] at range
  exact absurd range.1 (by decide)

section Owners

variable {cpg : CPG} (formed : cpg.WellFormed) {methods : List CPGNode}
  (members : ∀ node, node ∈ methods ↔ node ∈ cpg.nodes ∧ IsMethod node) {sg : ExplodedSupergraph}
  {names : Dict Text ProcId} (registered : Registered cpg methods sg names)

include formed members

theorem methodAt_iff (pid : ProcId)
    : (∃ node ∈ methods, node.nodeId = pid) ↔ MethodAt cpg pid := by
  constructor
  · rintro ⟨node, listed, rfl⟩
    obtain ⟨member, method⟩ := (members node).mp listed
    refine ⟨List.mem_map_of_mem member, ?_⟩
    rwa [CPG.nodeAt_of_mem formed.distinct member]
  · rintro ⟨known, method⟩
    obtain ⟨member, same⟩ := CPG.nodeAt_mem formed.distinct known
    exact ⟨_, (members _).mpr ⟨member, method⟩, same⟩

include registered

/-- The owner of a node in terms of the graph. -/
theorem owner_iff (member : node ∈ cpg.nodes) (owned : owner names node = pid) (some : pid ≠ -1)
    : Owns cpg pid node.nodeId := by
  rw [Owns, CPG.nodeAt_of_mem formed.distinct member]
  refine ⟨List.mem_map_of_mem member, ?_⟩
  unfold owner at owned
  by_cases method : IsMethod node
  · rw [if_pos method] at owned ⊢
    subst owned
    refine ⟨⟨List.mem_map_of_mem member, ?_⟩, rfl⟩
    rwa [CPG.nodeAt_of_mem formed.distinct member]
  · rw [if_neg method] at owned ⊢
    cases stored : names.get? node.enclosingDeclFqn with
    | none =>
        rw [Dict.getD, stored] at owned
        exact absurd owned.symm some
    | some found =>
        rw [Dict.getD, stored] at owned
        have same : found = pid := owned
        subst same
        obtain ⟨visible, named, listed, rfl, fqn⟩ := registered.named _ _ stored
        obtain ⟨namedMember, _⟩ := (members named).mp listed
        refine ⟨(methodAt_iff formed members _).mp ⟨named, listed, rfl⟩, visible, ?_⟩
        rwa [CPG.nodeAt_of_mem formed.distinct namedMember]

/-- A node that some procedure may own has an owner. -/
theorem owner_ne (member : node ∈ cpg.nodes) (owns : Owns cpg pid node.nodeId)
    : owner names node ≠ -1 := by
  rw [Owns, CPG.nodeAt_of_mem formed.distinct member] at owns
  obtain ⟨known, methodPid, rest⟩ := owns
  unfold owner
  by_cases method : IsMethod node
  · rw [if_pos method] at rest ⊢
    exact rest ▸ methodAt_ne formed methodPid
  · rw [if_neg method] at rest ⊢
    obtain ⟨visible, fqn⟩ := rest
    obtain ⟨pidMember, _⟩ := CPG.nodeAt_mem formed.distinct methodPid.1
    have named := registered.unnamed _ ((members _).mpr ⟨pidMember, methodPid.2⟩)
      (by rwa [fqn])
    rw [fqn] at named
    obtain ⟨found, stored⟩ := Option.ne_none_iff_exists'.mp named
    obtain ⟨_, other, listed, rfl, _⟩ := registered.named _ _ stored
    rw [Dict.getD, stored]
    exact methodAt_ne formed ((methodAt_iff formed members _).mp ⟨other, listed, rfl⟩)

end Owners

/-- The METHOD nodes in canonical order. -/
def methodNodes (cpg : CPG) (order : List NodeId) : List CPGNode :=
  sortedBy (fun node => okey order node.nodeId) (cpg.nodes.filter fun node => IsMethod node)

/-- `fqn_to_proc`: a later METHOD node takes the name of an earlier one. -/
def methodNames (methods : List CPGNode) : Dict Text ProcId :=
  (addProcedures methods ({ cpg := {} }, [])).2

/-- Step 1 collects the names whatever it registers them in, by list induction. -/
theorem addProcedures_names (methods : List CPGNode) (sg other : ExplodedSupergraph)
    (names : Dict Text ProcId)
    : (addProcedures methods (sg, names)).2 = (addProcedures methods (other, names)).2 := by
  induction methods generalizing sg other names with
  | nil => rfl
  | cons node rest ih => exact ih _ _ _

/-- The supergraph of an accepted graph is built and describes it, whatever the order. The
order decides among METHOD nodes of one name.
-/
theorem buildSupergraph_owners (formed : cpg.WellFormed) (order : List NodeId)
    : ∃ sg,
        buildSupergraph cpg order = .ok sg
        ∧ sg.Describes cpg
        ∧ ∀ id pid,
            sg.procOfNode.get? id = some pid
              ↔ ∃ node ∈ cpg.nodes,
                  node.nodeId = id
                  ∧ owner (methodNames (methodNodes cpg order)) node = pid
                  ∧ pid ≠ -1 := by
  obtain ⟨methods, listed⟩ : ∃ methods, methods = methodNodes cpg order := ⟨_, rfl⟩
  have members (node : CPGNode) : node ∈ methods ↔ node ∈ cpg.nodes ∧ IsMethod node := by
    rw [listed, methodNodes, mem_sortedBy, List.mem_filter, decide_eq_true_eq]
  have registered := addProcedures_registered methods (registered_nil cpg)
  rw [List.nil_append] at registered
  obtain ⟨made, names, step1⟩ : ∃ made names, (made, names) = addProcedures methods ({ cpg }, []) :=
    ⟨_, _, rfl⟩
  rw [← step1] at registered
  dsimp only at registered
  have start : Assigned names made [] made (made.procs.map fun entry => (entry.1, [])) := by
    refine ⟨rfl, rfl, rfl, rfl, ?_, ?_, ?_, ?_, ?_, fun pid => ?_, fun entry member => ?_⟩
    · simp [registered.procOfNode, Dict.get?]
    · simp [registered.cfgSucc, Dict.keys, idsOf]
    · simp [registered.cfgSucc, Dict.getD, Dict.get?]
    · simp [registered.callSucc, Dict.keys, idsOf]
    · simp [registered.callSucc, Dict.getD, Dict.get?]
    · rw [Dict.keys, List.map_map]
      rfl
    · obtain ⟨original, _, rfl⟩ := List.mem_map.mp member
      exact List.nil_subset _
  have namesKnown (fqn : Text) (pid : ProcId) (stored : names.get? fqn = some pid)
      : pid ∈ made.procs.keys := by
    obtain ⟨_, node, member, same, _⟩ := registered.named fqn pid stored
    exact (registered.procKeys pid).mpr ⟨node, member, same⟩
  obtain ⟨assigned, body, step2, owners⟩ :=
    assignNodes_assigned namesKnown cpg.nodes start formed.distinct
  rw [List.nil_append] at owners
  have procKeys (pid : ProcId) : pid ∈ assigned.procs.keys ↔ MethodAt cpg pid := by
    rw [owners.procs, registered.procKeys, methodAt_iff formed members]
  obtain ⟨stored, step3, storedKeys, storedProcs⟩ :=
    storeBodies_ok order cpg.nodeIds body
      (fun entry member => by
        refine ⟨?_, owners.body entry member⟩
        rw [owners.procs, ← owners.bodyKeys]
        exact List.mem_map_of_mem member)
      (fun pid proc found => by
        rw [owners.procs] at found
        obtain ⟨entry, empty⟩ := registered.procs pid proc found
        rw [empty]
        exact ⟨entry, List.nil_subset _⟩)
  have placedOwners (id : NodeId) (pid : ProcId) (found : assigned.procOfNode.get? id = some pid)
      : Owns cpg pid id := by
    obtain ⟨node, member, rfl, owned, some⟩ := (owners.owned id pid).mp found
    exact owner_iff formed members registered member owned some
  have unlinked : Linked cpg { assigned with procs := stored } [] { assigned with procs := stored } := by
    refine ⟨rfl, rfl, rfl, owners.cfgKeys, fun src dst => ?_, owners.callKeys, fun src pid => ?_,
      fun pid => ?_, fun pid => ?_, fun pid caller => ?_, fun pid => ?_⟩
    · simp [owners.cfgSucc, ListsEdge]
    · simp [owners.callSucc, ListsEdge]
    · rw [← procKeys, owners.procs, ← registered.calleeKeys, ← owners.callees]
    · rw [← procKeys, owners.procs, ← registered.callerKeys, ← owners.callers]
    · simp [owners.callers, registered.callers, ListsEdge]
    · simp [owners.callers, registered.callers]
  obtain ⟨placed, step3Result⟩ : ∃ placed : ExplodedSupergraph,
      placed = { assigned with procs := stored } := ⟨_, rfl⟩
  have placedOwner (id : NodeId) : placed.procOfNode.get? id = assigned.procOfNode.get? id := by
    rw [step3Result]
  rw [← step3Result] at step3 unlinked
  obtain ⟨sg, step4, linked⟩ := addSuccessors_linked formed
    (fun id pid found => (placedOwners id pid (placedOwner id ▸ found)).2.1) cpg.edges formed.ends
    unlinked
  rw [List.nil_append] at linked
  refine ⟨{
      sg with
      cfgSucc := sortSuccessors order sg.cfgSucc
      callSucc := sortSuccessors order sg.callSucc
    }, ?_, ?_, fun id pid => ?_⟩
  · rw [buildSupergraph, ← methodNodes, ← listed, ← step1]
    dsimp only
    rw [step2, ok_bind]
    dsimp only
    rw [step3, ok_bind, step4, ok_bind]
  · refine ⟨?_, fun pid => ?_, fun pid proc found => ?_, fun id pid found => ?_,
      fun id pid missing owns => ?_, fun src dst => ?_, fun src pid => ?_, fun pid caller => ?_,
      linked.callersDistinct⟩
    · rw [linked.graph, step3Result]
      exact owners.graph.trans registered.graph
    · rw [← procKeys, ← storedKeys]
      change pid ∈ sg.procs.keys ↔ _
      rw [linked.procs, step3Result]
    · change sg.procs.get? pid = some proc at found
      rw [linked.procs, step3Result] at found
      exact storedProcs pid proc found
    · change sg.procOfNode.get? id = some pid at found
      rw [linked.procOfNode, placedOwner] at found
      exact placedOwners id pid found
    · obtain ⟨member, sameId⟩ := CPG.nodeAt_mem formed.distinct owns.1
      have some := owner_ne formed members registered member (sameId.symm ▸ owns)
      have found := (owners.owned id _).mpr ⟨_, member, sameId, rfl, some⟩
      change sg.procOfNode.get? id = none at missing
      rw [linked.procOfNode, placedOwner, found] at missing
      cases missing
    · exact (sortSuccessors_mem order sg.cfgSucc src dst).trans (linked.cfg src dst)
    · exact (sortSuccessors_mem order sg.callSucc src pid).trans (linked.calls src pid)
    · change caller ∈ sg.callers.getD pid [] ↔ _ ∧ ∃ src, _ ∧ sg.procOfNode.get? src = some caller
      rw [linked.callers, linked.procOfNode]
      exact Iff.rfl
  · have collected : methodNames (methodNodes cpg order) = names := by
      rw [methodNames, addProcedures_names _ _ { cpg }, ← listed, ← step1]
    change sg.procOfNode.get? id = some pid ↔ _
    rw [linked.procOfNode, placedOwner, collected]
    exact owners.owned id pid

theorem buildSupergraph_ok (formed : cpg.WellFormed) (order : List NodeId)
    : ∃ sg, buildSupergraph cpg order = .ok sg ∧ sg.Describes cpg := by
  obtain ⟨sg, built, describes, _⟩ := buildSupergraph_owners formed order
  exact ⟨sg, built, describes⟩

end Scanipy.Analysis.Ifds

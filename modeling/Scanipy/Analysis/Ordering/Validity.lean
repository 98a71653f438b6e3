import Scanipy.Analysis.Ordering.Graph
import Scanipy.Library.Outcome

/-! What `validate_cpg` accepts, and that its budgeted and budget-free forms agree. -/

namespace Scanipy.Analysis

open Library Python
open CanonicalizationBudget (check check_settles)

theorem Settles.bind {α β : Type} {first : BudgetM α} {outcome : Except AnalysisError α}
    {rest : α → BudgetM β} {further : α → Except AnalysisError β}
    (head : Settles first outcome) (tail : ∀ value, Settles (rest value) (further value))
    : Settles (first >>= rest) (outcome >>= further) := by
  have sequenced : (Metered.lift (outcome >>= further) : Allowance β)
      = Metered.lift outcome >>= fun value => Metered.lift (further value) := by
    cases outcome <;> rfl
  rw [Settles, sequenced]
  refine Metered.Refines.bind head ?_
  rintro value _ rfl
  exact tail value

theorem Settles.pure {α : Type} (value : α) : Settles (pure value) (.ok value) :=
  Metered.Refines.pure rfl

theorem Settles.reraise {α : Type} (outcome : Except AnalysisError α)
    : Settles (reraise outcome) outcome := by
  have lifted : (Analysis.reraise outcome : BudgetM α) = Metered.lift outcome := by
    cases outcome <;> rfl
  rw [lifted]
  exact .lift outcome

theorem Settles.visit {γ : Type} {act : γ → BudgetM Unit} {spec : γ → Except AnalysisError Unit}
    (each : ∀ element, Settles (act element) (spec element)) (elements : List γ)
    : Settles (Metered.visit act elements) (Metered.visit spec elements) := by
  induction elements with
  | nil => exact .pure ()
  | cons head rest ih => exact (each head).bind fun _ => ih

theorem Settles.collect {α γ : Type} {act : γ → BudgetM α} {spec : γ → Except AnalysisError α}
    (each : ∀ element, Settles (act element) (spec element)) (elements : List γ)
    : Settles (Metered.collect act elements) (Metered.collect spec elements) := by
  induction elements with
  | nil => exact .pure []
  | cons head rest ih =>
      exact (each head).bind fun value => ih.bind fun values => .pure (value :: values)

theorem reraise_except {α : Type} (outcome : Except AnalysisError α)
    : (reraise outcome : Except AnalysisError α) = outcome := by
  cases outcome <;> rfl

/-- The budgeted validation has the budget-free outcome. -/
theorem validateCpg_settles (cpg : CPG)
    : Settles (validateCpg check cpg) (validateCpg (pure ()) cpg) := by
  have nodes (list : List CPGNode) (seen : List NodeId)
      : Settles (validateNodes check list seen) (validateNodes (pure ()) list seen) := by
    induction list generalizing seen with
    | nil => exact .pure seen
    | cons node rest ih =>
        refine check_settles.bind fun _ => ?_
        rw [reraise_except]
        exact (Settles.reraise _).bind fun _ => ih _
  unfold validateCpg
  refine Settles.bind ?_ fun _ => Settles.bind ?_ fun _ => Settles.bind (nodes _ _) fun seen => ?_
  · rw [reraise_except]
    exact .reraise _
  · rw [reraise_except]
    exact .reraise _
  · refine .visit (fun edge => check_settles.bind fun _ => ?_) _
    rw [reraise_except]
    exact .reraise _

variable {value : Unit}

theorem require_ok_iff {condition : Prop} [Decidable condition] {message : String}
    : require condition message = .ok value ↔ condition := by
  by_cases holds : condition <;> simp [require, holds]

/-- Unsigned 64-bit range of `_u64`. -/
def IsU64 (value : Int) : Prop :=
  0 ≤ value ∧ value < 2 ^ 64

variable {bytes : Bytes}

theorem u64_ok {value : Int}
    : u64 value = .ok bytes ↔ IsU64 value ∧ bytes = toBytes 8 value.toNat := by
  unfold u64 IsU64
  split_ifs with range
  · rw [Except.ok.injEq]
    constructor
    · intro same
      constructor
      · exact range
      · exact same.symm
    · intro both
      exact both.2.symm
  · constructor
    · intro same
      cases same
    · intro both
      exact (range both.1).elim

theorem u64_natCast {value : Nat} (bound : value < 2 ^ 64)
    : u64 value = .ok (toBytes 8 value) := by
  rw [u64_ok, Int.toNat_natCast]
  constructor
  · unfold IsU64
    omega
  · rfl

/-- A text with a strict UTF-8 form whose length fits its frame. -/
structure TextFits (value : Text) : Prop where
  encodable : value.Encodable
  length : value.utf8.length < 2 ^ 64

/-- Length-prefixed raw bytes as a total function. -/
def framedBytes (content : Bytes) : Bytes :=
  toBytes 8 content.length ++ content

/-- `_text` as a total function. -/
def textBytes (value : Text) : Bytes :=
  framedBytes value.utf8

/-- `_label` as a total function. -/
def labelBytes (node : CPGNode) : Bytes :=
  textBytes node.kind ++ textBytes node.operatorOrLiteral ++ textBytes node.resolvedFqn
    ++ textBytes node.enclosingDeclFqn

theorem encodeText_ok {value : Text}
    : encodeText value = .ok bytes ↔ value.Encodable ∧ bytes = value.utf8 := by
  unfold encodeText Text.encode
  by_cases encodable : value.Encodable
  · rw [if_pos encodable]
    exact ⟨fun same => ⟨encodable, (Except.ok.inj same).symm⟩, fun both => by rw [both.2]⟩
  · rw [if_neg encodable]
    exact ⟨fun same => (nomatch same), fun both => (encodable both.1).elim⟩

theorem frameBytes_ok {content : Bytes}
    : frameBytes content = .ok bytes
      ↔ content.length < 2 ^ 64 ∧ bytes = framedBytes content := by
  unfold frameBytes
  rw [bind_ok]
  constructor
  · rintro ⟨length, framed, done⟩
    obtain ⟨range, rfl⟩ := u64_ok.mp framed
    cases done
    exact ⟨by exact_mod_cast range.2, by simp [framedBytes]⟩
  · rintro ⟨bound, rfl⟩
    exact ⟨_, u64_natCast bound, rfl⟩

theorem text_ok {value : Text}
    : text value = .ok bytes ↔ TextFits value ∧ bytes = textBytes value := by
  unfold text
  rw [bind_ok]
  constructor
  · rintro ⟨encoded, encodes, framed⟩
    obtain ⟨encodable, rfl⟩ := encodeText_ok.mp encodes
    obtain ⟨bound, rfl⟩ := frameBytes_ok.mp framed
    exact ⟨⟨encodable, bound⟩, rfl⟩
  · rintro ⟨fits, rfl⟩
    exact ⟨_, encodeText_ok.mpr ⟨fits.encodable, rfl⟩,
      frameBytes_ok.mpr ⟨fits.length, rfl⟩⟩

/-- The four fields of a label can be framed. -/
structure CPGNode.LabelFits (node : CPGNode) : Prop where
  kind : TextFits node.kind
  operatorOrLiteral : TextFits node.operatorOrLiteral
  resolvedFqn : TextFits node.resolvedFqn
  enclosingDeclFqn : TextFits node.enclosingDeclFqn

variable {node : CPGNode}

theorem label_ok
    : label node = .ok bytes ↔ node.LabelFits ∧ bytes = labelBytes node := by
  unfold label
  simp only [bind_ok, text_ok, Except.ok.injEq]
  constructor
  · rintro ⟨_, ⟨kind, rfl⟩, _, ⟨operator, rfl⟩, _, ⟨resolved, rfl⟩, _, ⟨enclosing, rfl⟩, rfl⟩
    exact ⟨⟨kind, operator, resolved, enclosing⟩, rfl⟩
  · rintro ⟨fits, rfl⟩
    exact ⟨_, ⟨fits.kind, rfl⟩, _, ⟨fits.operatorOrLiteral, rfl⟩, _, ⟨fits.resolvedFqn, rfl⟩, _,
      ⟨fits.enclosingDeclFqn, rfl⟩, rfl⟩

/-- A node of an accepted graph. -/
structure CPGNode.WellFormed (node : CPGNode) : Prop where
  noExtraFields : node.extraFields = []
  nodeId : IsU64 node.nodeId
  label : node.LabelFits
  structuralPath : TextFits node.structuralPath

/-- An edge of an accepted graph with the given node ids. -/
structure CPGEdge.WellFormed (ids : List NodeId) (edge : CPGEdge) : Prop where
  noExtraFields : edge.extraFields = []
  src : edge.src ∈ ids
  dst : edge.dst ∈ ids
  kindNonempty : edge.kind ≠ []
  kind : TextFits edge.kind

/-- The graphs `validate_cpg` accepts. -/
structure CPG.WellFormed (cpg : CPG) : Prop where
  noExtraFields : cpg.extraFields = []
  modelVersion : cpg.modelVersion.getD (py "scanipy-cpg/1") = py "scanipy-cpg/1"
  nodes : ∀ node ∈ cpg.nodes, node.WellFormed
  distinct : cpg.nodeIds.Nodup
  edges : ∀ edge ∈ cpg.edges, edge.WellFormed cpg.nodeIds

variable {seen : List NodeId}

theorem validateNode_ok
    : validateNode seen node = .ok value ↔ node.WellFormed ∧ node.nodeId ∉ seen := by
  unfold validateNode
  simp only [bind_ok, require_ok_iff, u64_ok, label_ok, text_ok,
    and_true]
  constructor
  · rintro ⟨_, extra, _, ⟨range, _⟩, _, fresh, _, ⟨fits, _⟩, _, path, _⟩
    exact ⟨⟨extra, range, fits, path⟩, fresh⟩
  · rintro ⟨formed, fresh⟩
    exact ⟨(), formed.noExtraFields, _, ⟨formed.nodeId, rfl⟩, (), fresh, _, ⟨formed.label, rfl⟩,
      _, formed.structuralPath, rfl⟩

/-- The node loop collects the ids seen, and accepts well-formed nodes with fresh ids. -/
theorem validateNodes_ok {nodes : List CPGNode} {result : List NodeId}
    : (validateNodes (pure ()) nodes seen : Except AnalysisError _) = .ok result
      ↔ (∀ node ∈ nodes, node.WellFormed)
        ∧ (nodes.map CPGNode.nodeId).Nodup
        ∧ (∀ node ∈ nodes, node.nodeId ∉ seen)
        ∧ result = seen ++ nodes.map CPGNode.nodeId := by
  induction nodes generalizing seen with
  | nil =>
      simp only [validateNodes, pure, Except.pure, Except.ok.injEq, List.map_nil, List.append_nil]
      simp [eq_comm]
  | cons node rest ih =>
      change ((reraise (validateNode seen node) : Except AnalysisError Unit) >>= fun _ =>
        validateNodes (pure ()) rest (seen ++ [node.nodeId])) = .ok result ↔ _
      rw [reraise_except, bind_ok]
      simp only [validateNode_ok, ih, List.mem_cons, forall_eq_or_imp, List.map_cons,
        List.nodup_cons, List.mem_append, not_or, List.append_assoc,
        List.singleton_append, List.mem_map, not_exists, not_and]
      constructor
      · rintro ⟨_, ⟨formed, fresh⟩, others, distinct, apart, rfl⟩
        exact ⟨⟨formed, others⟩, ⟨fun other member => (apart other member).2.1, distinct⟩,
          ⟨fresh, fun other member => (apart other member).1⟩, rfl⟩
      · rintro ⟨⟨formed, others⟩, ⟨apart, distinct⟩, ⟨fresh, unseen⟩, rfl⟩
        exact ⟨(), ⟨formed, fresh⟩, others, distinct,
          fun other member => ⟨unseen other member, apart other member, List.not_mem_nil⟩, rfl⟩

theorem validateEdge_ok {ids : List NodeId} {edge : CPGEdge} (ranges : ∀ id ∈ ids, IsU64 id)
    : validateEdge ids edge = .ok value ↔ edge.WellFormed ids := by
  unfold validateEdge
  simp only [bind_ok, require_ok_iff, u64_ok, text_ok, and_true]
  constructor
  · rintro ⟨_, extra, _, _, _, _, _, ends, _, nonempty, _, kind, _⟩
    exact ⟨extra, ends.1, ends.2, nonempty, kind⟩
  · intro formed
    exact ⟨(), formed.noExtraFields, _, ⟨ranges _ formed.src, rfl⟩, _, ⟨ranges _ formed.dst, rfl⟩,
      (), ⟨formed.src, formed.dst⟩, (), formed.kindNonempty, _, formed.kind, rfl⟩

/-- `validate_cpg` accepts exactly the well-formed graphs. -/
theorem validateCpg_ok_iff {cpg : CPG}
    : (validateCpg (pure ()) cpg : Except AnalysisError Unit) = .ok () ↔ cpg.WellFormed := by
  unfold validateCpg
  simp only [reraise_except, bind_ok, require_ok_iff, validateNodes_ok,
    visit_ok]
  constructor
  · rintro ⟨_, extra, _, version, _, ⟨nodes, distinct, _, rfl⟩, edges⟩
    refine ⟨extra, version, nodes, distinct, fun edge member => ?_⟩
    obtain ⟨_, _, accepted⟩ := edges edge member
    refine (validateEdge_ok ?_).mp accepted
    intro id idMember
    obtain ⟨node, nodeMember, rfl⟩ := List.mem_map.mp idMember
    exact (nodes node nodeMember).nodeId
  · intro formed
    refine ⟨(), formed.noExtraFields, (), formed.modelVersion, _,
      ⟨formed.nodes, formed.distinct, by simp, rfl⟩, fun edge member => ⟨(), rfl, ?_⟩⟩
    refine (validateEdge_ok ?_).mpr (formed.edges edge member)
    intro id idMember
    obtain ⟨node, nodeMember, rfl⟩ := List.mem_map.mp idMember
    exact (formed.nodes node nodeMember).nodeId

end Scanipy.Analysis

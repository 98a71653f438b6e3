import Scanipy.Analysis.Ordering.Certificate

/-! What `canonical_order` reports, as a function of the graph and the states allowed. -/

namespace Scanipy.Analysis

open Library Python
open CanonicalizationBudget (check check_settles elapsedMs_settles)

/-- `fallbackKey` as a total function. -/
def fallbackEntry (sha256 : Hash) (cpg : CPG) (node : CPGNode) : FallbackKey × NodeId :=
  (toLex (sha256 node.enclosingDeclFqn.utf8, toLex (node.structuralPath.utf8,
      toLex (sorted ((incident cpg).getD node.nodeId []), toLex (labelBytes node, node.nodeId)))),
    node.nodeId)

/-- `stableOrderFallback` as a total function. -/
def fallbackOrder (sha256 : Hash) (cpg : CPG) : List NodeId :=
  (sortedBy Prod.fst (cpg.nodes.map (fallbackEntry sha256 cpg))).map Prod.snd

theorem fallbackOrder_perm (sha256 : Hash) (cpg : CPG)
    : (fallbackOrder sha256 cpg).Perm cpg.nodeIds := by
  refine ((sortedBy_perm _ _).map Prod.snd).trans (List.Perm.of_eq ?_)
  rw [List.map_map]
  rfl

variable {cpg : CPG}

/-- Every node has its list of incident kinds. -/
theorem incident_get? {id : NodeId} (member : id ∈ cpg.nodeIds)
    : (incident cpg).get? id = some ((incident cpg).getD id []) := by
  have kept (edges : List CPGEdge) (entries : Dict NodeId (List Text))
      (stored : (entries.get? id).isSome)
      : ((edges.foldl (fun kinds edge =>
          (kinds.appendTo edge.src edge.kind).appendTo edge.dst edge.kind) entries).get? id).isSome := by
    induction edges generalizing entries with
    | nil => exact stored
    | cons edge rest ih =>
        refine ih _ ?_
        simp only [Dict.appendTo, Dict.get?_set]
        split
        · rfl
        · split
          · rfl
          · exact stored
  have found : ((incident cpg).get? id).isSome := by
    refine kept cpg.edges _ ?_
    rw [Dict.get?_map fun _ => [], if_pos member]
    rfl
  obtain ⟨kinds, same⟩ := Option.isSome_iff_exists.mp found
  rw [Dict.getD, same, Option.getD_some]

theorem stableOrderFallback_ok (sha256 : Hash) (formed : cpg.WellFormed)
    : stableOrderFallback sha256 cpg = .ok (fallbackOrder sha256 cpg) := by
  have keyed : Metered.collect (fallbackKey sha256 cpg) cpg.nodes
      = .ok (cpg.nodes.map (fallbackEntry sha256 cpg)) := by
    refine collect_ok fun node member => ?_
    have nodeFormed := formed.nodes node member
    unfold fallbackKey
    rw [encodeText_ok.mpr ⟨nodeFormed.label.enclosingDeclFqn.encodable, rfl⟩, ok_bind,
      encodeText_ok.mpr ⟨nodeFormed.structuralPath.encodable, rfl⟩, ok_bind, subscript,
      incident_get? (List.mem_map_of_mem member), label_ok.mpr ⟨nodeFormed.label, rfl⟩]
    rfl
  rw [stableOrderFallback, keyed, ok_bind]
  rfl

/-- What `canonical_order` decides on an allowance, and the allowance left. -/
def orderSpec (sha256 : Hash) (cpg : CPG) : Allowance (List NodeId × Bytes × FingerprintClass) :=
  fun allowed =>
    if cpg.searchSize ≤ allowed then
      (.ok (cpg.certificate.1, cpg.certificate.2, .strong), allowed - cpg.searchSize)
    else
      (.ok (fallbackOrder sha256 cpg, encodedGraph cpg (fallbackOrder sha256 cpg), .weak), 0)

/-- The search's result with the class it earns. -/
def strongSpec (cpg : CPG) : Allowance (List NodeId × Bytes × FingerprintClass) := do
  let found ← searchSpec cpg
  pure (found.1, found.2, .strong)

theorem orderSpec_eq (sha256 : Hash) (cpg : CPG)
    : orderSpec sha256 cpg = Metered.except .budgetExhausted (strongSpec cpg) (Metered.lift
        (.ok (fallbackOrder sha256 cpg, encodedGraph cpg (fallbackOrder sha256 cpg), .weak))) := by
  funext allowed
  by_cases enough : cpg.searchSize ≤ allowed
  · have searched : searchSpec cpg allowed = (.ok cpg.certificate, allowed - cpg.searchSize) :=
      if_pos enough
    have strong : strongSpec cpg allowed = (.ok (cpg.certificate.1, cpg.certificate.2, .strong),
        allowed - cpg.searchSize) := Metered.bind_ok searched
    rw [Metered.except_ok strong, orderSpec, if_pos enough]
  · have searched : searchSpec cpg allowed = (.error .budgetExhausted, 0) := if_neg enough
    have exhausted : strongSpec cpg allowed = (.error .budgetExhausted, 0) :=
      Metered.bind_error searched
    rw [Metered.except_caught exhausted, orderSpec, if_neg enough]
    rfl

theorem orderAndEncoding_budgeted (sha256 : Hash) {index : GraphIndex} (ready : cpg.Ready)
    (describes : index.Describes cpg)
    : Budgeted Eq (orderAndEncoding sha256 cpg index) (orderSpec sha256 cpg) := by
  have handler : Settles
      (do
        check
        let order ← reraise (stableOrderFallback sha256 cpg)
        let encoded ← encodeGraph check cpg order
        pure (order, encoded, FingerprintClass.weak))
      (.ok (fallbackOrder sha256 cpg, encodedGraph cpg (fallbackOrder sha256 cpg), .weak)) := by
    have encoded := encodeGraph_settles cpg (fallbackOrder sha256 cpg)
    rw [encodeGraph_eq_ok ready (fallbackOrder_perm sha256 cpg)] at encoded
    rw [stableOrderFallback_ok sha256 ready.wellFormed]
    exact check_settles.step ((Settles.reraise _).step (encoded.step (Settles.pure _)))
  rw [orderSpec_eq]
  refine .except (by decide) (.bind (canonicalSearch_budgeted ready describes) ?_) handler
  rintro ⟨order, encoded⟩ _ rfl
  exact .pure rfl

/-- The fields of a result that are decided by order, encoding and class. -/
structure Reports (sha256 : Hash) (result : CanonicalOrderResult)
    (decided : List NodeId × Bytes × FingerprintClass) : Prop where
  canonicalOrder : result.canonicalOrder = decided.1
  cpgOrderHash : result.cpgOrderHash = sha256 (orderDomain decided.2.2 ++ decided.2.1)
  fingerprintClass : result.fingerprintClass = decided.2.2

theorem canonicalOrder_budgeted (sha256 : Hash) (ready : cpg.Ready)
    : Budgeted (Reports sha256) (canonicalOrder sha256 cpg) (orderSpec sha256 cpg) := by
  rw [← Metered.bind_pure_self (orderSpec sha256 cpg)]
  refine (GraphIndex.build_budgeted ready.wellFormed).pick fun index describes => ?_
  refine .bind (orderAndEncoding_budgeted sha256 ready describes) ?_
  rintro ⟨order, encoded, klass⟩ _ rfl
  refine elapsedMs_settles.pick fun elapsed _ => ?_
  refine check_settles.step ?_
  exact fun budget sound => .inr ⟨⟨rfl, rfl, rfl⟩, rfl, sound, ⟨rfl, rfl, rfl, rfl⟩⟩

/-- Whatever is decided, the order lists every node once. -/
theorem orderSpec_complete (sha256 : Hash) (ready : cpg.Ready) (allowed : Nat)
    (decided : List NodeId × Bytes × FingerprintClass)
    (outcome : (orderSpec sha256 cpg allowed).1 = .ok decided)
    : decided.1.Perm cpg.nodeIds := by
  unfold orderSpec at outcome
  split at outcome
  · cases outcome
    exact (certificate_encodes ready).1
  · cases outcome
    exact fallbackOrder_perm sha256 cpg

variable {sha256 : Hash} {budget : CanonicalizationBudget} {result : CanonicalOrderResult}

/-- The reported count is the budget's. -/
theorem searchStates_eq (ran : (canonicalOrder sha256 cpg budget).1 = .ok result)
    : result.searchStates = (canonicalOrder sha256 cpg budget).2.searchStates := by
  unfold canonicalOrder at ran ⊢
  obtain ⟨index, built, _, step⟩ := Metered.of_bind_ok ran
  rw [step] at ran ⊢
  obtain ⟨⟨order, encoded, klass⟩, searched, _, step⟩ := Metered.of_bind_ok ran
  rw [step] at ran ⊢
  dsimp only at ran ⊢
  obtain ⟨elapsed, timed, _, step⟩ := Metered.of_bind_ok ran
  rw [step] at ran ⊢
  obtain ⟨_, checked, _, step⟩ := Metered.of_bind_ok ran
  rw [step] at ran ⊢
  rw [← Except.ok.inj ran]

/-- A run that returns is strong with the least certificate, after entering every state of
the pruned tree, or weak with the fallback order, after entering every state allowed.
-/
theorem canonicalOrder_reports (ready : cpg.Ready) (sound : budget.searchStates ≤ budget.stateLimit)
    (ran : (canonicalOrder sha256 cpg budget).1 = .ok result)
    : (cpg.searchSize ≤ budget.remaining
        ∧ Reports sha256 result (cpg.certificate.1, cpg.certificate.2, .strong)
        ∧ result.searchStates = budget.searchStates + cpg.searchSize)
      ∨ (budget.remaining < cpg.searchSize
        ∧ Reports sha256 result
          (fallbackOrder sha256 cpg, encodedGraph cpg (fallbackOrder sha256 cpg), .weak)
        ∧ result.searchStates = budget.stateLimit) := by
  obtain ⟨decided, outcome, reports, left, afterSound, frame⟩ :=
    (canonicalOrder_budgeted sha256 ready).of_ok sound ran
  have counted := searchStates_eq ran
  have limit := frame.stateLimit
  change (orderSpec sha256 cpg budget.remaining).1 = .ok decided at outcome
  change (canonicalOrder sha256 cpg budget).2.remaining
    = (orderSpec sha256 cpg budget.remaining).2 at left
  change (canonicalOrder sha256 cpg budget).2.searchStates
    ≤ (canonicalOrder sha256 cpg budget).2.stateLimit at afterSound
  rw [← counted, limit] at afterSound
  rw [CanonicalizationBudget.remaining, ← counted, limit] at left
  unfold orderSpec at outcome left
  by_cases enough : cpg.searchSize ≤ budget.remaining
  · rw [if_pos enough] at outcome left
    refine .inl ⟨enough, Except.ok.inj outcome ▸ reports, ?_⟩
    unfold CanonicalizationBudget.remaining at left enough
    dsimp only at left
    omega
  · rw [if_neg enough] at outcome left
    refine .inr ⟨Nat.lt_of_not_le enough, Except.ok.inj outcome ▸ reports, ?_⟩
    dsimp only at left
    omega

/-- The clock never reaches a deadline of `T` seconds after its first reading. -/
def NeverExpires (clock : Nat → Rat) (T : Rat) : Prop :=
  ∀ reading, clock reading - clock 0 < T

/-- A stopped clock never reaches the default deadline. -/
theorem neverExpires_stopped (time : Rat) : NeverExpires (fun _ => time) defaultT := by
  intro _
  rw [sub_self]
  decide +kernel

/-- A fresh budget. -/
def freshBudget (clock : Nat → Rat) (B : Int) (T : Rat) : CanonicalizationBudget :=
  { stateLimit := B.toNat, duration := T, clock, startedAt := clock 0, readings := 1 }

variable {clock : Nat → Rat} {B : Int} {T : Rat}

theorem start_ok (started : CanonicalizationBudget.start clock B T = .ok budget)
    : 0 < B ∧ budget = freshBudget clock B T := by
  unfold CanonicalizationBudget.start durationSeconds at started
  split at started
  · cases started
  next positive =>
    split at started
    · cases started
    · cases started
      exact ⟨not_le.mp positive, rfl⟩

theorem start_returns (positive : 0 < B) (alive : NeverExpires clock T)
    : CanonicalizationBudget.start clock B T = .ok (freshBudget clock B T) := by
  have lasting : 0 < T := by
    have first := alive 0
    rwa [sub_self] at first
  unfold CanonicalizationBudget.start durationSeconds
  rw [if_neg (not_le.mpr positive), if_neg (not_le.mpr lasting)]
  rfl

theorem canonicalOrderFresh_reports (ready : cpg.Ready)
    (ran : canonicalOrderFresh sha256 clock cpg B T = .ok result)
    : ((cpg.searchSize : Int) ≤ B
        ∧ Reports sha256 result (cpg.certificate.1, cpg.certificate.2, .strong)
        ∧ result.searchStates = cpg.searchSize)
      ∨ (B < cpg.searchSize
        ∧ Reports sha256 result
          (fallbackOrder sha256 cpg, encodedGraph cpg (fallbackOrder sha256 cpg), .weak)
        ∧ (result.searchStates : Int) = B) := by
  obtain ⟨budget, started, ran⟩ := bind_ok.mp ran
  obtain ⟨positive, rfl⟩ := start_ok started
  have remaining : (freshBudget clock B T).remaining = B.toNat := rfl
  have outcome := canonicalOrder_reports ready (Nat.zero_le _) ran
  rw [remaining] at outcome
  rcases outcome with ⟨enough, reports, counted⟩ | ⟨short, reports, counted⟩
  · exact .inl ⟨by omega, reports, counted.trans (Nat.zero_add _)⟩
  · have limit : result.searchStates = B.toNat := counted
    exact .inr ⟨by omega, reports, by omega⟩

theorem canonicalOrderFresh_returns (sha256 : Hash) (ready : cpg.Ready) (positive : 0 < B)
    (alive : NeverExpires clock T)
    : ∃ result, canonicalOrderFresh sha256 clock cpg B T = .ok result := by
  have decided : ∃ decided,
      (orderSpec sha256 cpg (freshBudget clock B T).remaining).1 = .ok decided := by
    unfold orderSpec
    split <;> exact ⟨_, rfl⟩
  obtain ⟨result, ran⟩ := (canonicalOrder_budgeted sha256 ready).returns
    (freshBudget clock B T) (Nat.zero_le _) alive decided.choose_spec
  exact ⟨result, bind_ok.mpr ⟨_, start_returns positive alive, ran⟩⟩

end Scanipy.Analysis

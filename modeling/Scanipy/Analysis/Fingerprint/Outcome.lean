import Scanipy.Analysis.Fingerprint.NormalForm

/-! What `_compute` reports, as a function of the slice and the states allowed. -/

namespace Scanipy.Analysis

open Library Python
open CanonicalizationBudget (check check_settles elapsedMs_settles)

/-- The slice of an accepted graph can be edited and ordered. -/
theorem extract_sliceReady (cpg : ValidCPG) {members : List NodeId} (distinct : members.Nodup)
    (known : members ⊆ cpg.nodeIds)
    : (cpg.toCPG.extract members).SliceReady := by
  have numbered := extract_numbered distinct cpg.toCPG
  have count : members.length ≤ maxsize := by
    have fewer := (List.subperm_of_subset distinct known).length_le
    rw [CPG.length_nodeIds] at fewer
    exact le_trans fewer cpg.representable.nodes
  have limit : maxsize < 2 ^ 63 := by decide
  have original {id : NodeId} (member : id ∈ members) : cpg.nodeAt id ∈ cpg.nodes :=
    (CPG.nodeAt_mem cpg.wellFormed.distinct (known member)).1
  refine ⟨numbered, ⟨⟨rfl, rfl, ?_, numbered.distinct, ?_⟩, ?_, ?_⟩, ?_⟩
  · intro node member
    obtain ⟨id, listed, rfl⟩ := List.mem_map.mp member
    have formed := cpg.wellFormed.nodes _ (original listed)
    have position : members.idxOf id < members.length := List.idxOf_lt_length_of_mem listed
    refine ⟨rfl, ?_, ⟨formed.label.kind, formed.label.operatorOrLiteral, formed.label.resolvedFqn,
      formed.label.enclosingDeclFqn⟩, formed.structuralPath⟩
    change 0 ≤ (members.idxOf id : Int) ∧ (members.idxOf id : Int) < 2 ^ 64
    omega
  · intro edge member
    obtain ⟨srcKnown, dstKnown⟩ := numbered.ends edge member
    obtain ⟨copied, listed, rfl⟩ := List.mem_map.mp member
    have formed := cpg.wellFormed.edges copied (List.mem_of_mem_filter listed)
    exact ⟨rfl, srcKnown, dstKnown, formed.kindNonempty, formed.kind⟩
  · rw [CPG.extract, List.length_map]
    omega
  · rw [CPG.extract, List.length_map]
    have fewer := List.length_filter_le
      (fun edge : CPGEdge => decide (edge.src ∈ members ∧ edge.dst ∈ members)) cpg.edges
    have total := cpg.representable.edges
    omega
  · intro node member
    obtain ⟨id, listed, rfl⟩ := List.mem_map.mp member
    have resolved := cpg.representable.resolvedFqn _ (original listed)
    have enclosing := cpg.representable.enclosingDeclFqn _ (original listed)
    exact ⟨resolved, enclosing⟩

/-- The search states that the strong fingerprint of a slice takes. -/
def CPG.strongCost (slice : CPG) : Nat :=
  slice.renameCost + slice.normalForm.searchSize

/-- The strong fingerprint of a slice. -/
def CPG.strongHash (sha256 : Hash) (slice : CPG) : Bytes :=
  sha256 (strongSliceDomain ++ slice.normalForm.certificate.2)

/-- What the `try` body returns on an allowance, and the allowance left. -/
def strongFingerprintSpec (sha256 : Hash) (slice : CPG) : Allowance Bytes := fun allowed =>
  if slice.strongCost ≤ allowed then
    (.ok (slice.strongHash sha256), allowed - slice.strongCost)
  else
    (.error .budgetExhausted, 0)

/-- The `try` body on what `canonical_order` decided about the normal form. -/
def hashBy (sha256 : Hash) (normal : CPG) (decided : List NodeId × Bytes × FingerprintClass)
    : Allowance Bytes :=
  if decided.2.2 = .weak then
    Metered.raise .budgetExhausted
  else
    pure (sha256 (strongSliceDomain ++ encodedGraph normal decided.1))

theorem strongFingerprintSpec_eq (sha256 : Hash) {slice : CPG} (ready : slice.normalForm.Ready)
    : strongFingerprintSpec sha256 slice
      = (normaliseSpec slice >>= fun normal =>
          orderSpec sha256 normal >>= hashBy sha256 normal) := by
  funext allowed
  rw [strongFingerprintSpec, CPG.strongCost]
  by_cases renamed : slice.renameCost ≤ allowed
  · have normal : normaliseSpec slice allowed = (.ok _, _) := if_pos renamed
    rw [Metered.bind_ok normal]
    by_cases enough : slice.normalForm.searchSize ≤ allowed - slice.renameCost
    · have decided : orderSpec sha256 slice.normalForm (allowed - slice.renameCost)
          = (.ok _, _) := if_pos enough
      rw [Metered.bind_ok decided, if_pos (by omega), CPG.strongHash,
        (certificate_encodes ready).2, Nat.sub_add_eq]
      rfl
    · have decided : orderSpec sha256 slice.normalForm (allowed - slice.renameCost)
          = (.ok _, _) := if_neg enough
      rw [Metered.bind_ok decided, if_neg (by omega)]
      rfl
  · have exhausted : normaliseSpec slice allowed = (.error .budgetExhausted, 0) := if_neg renamed
    rw [Metered.bind_error exhausted, if_neg (by omega)]

theorem strongFingerprint_budgeted (sha256 : Hash) {slice : CPG} (sliced : slice.SliceReady)
    : Budgeted Eq (strongFingerprint sha256 slice) (strongFingerprintSpec sha256 slice) := by
  have known (allowed : Nat) (normal : CPG)
      (outcome : (normaliseSpec slice allowed).1 = .ok normal)
      : normal = slice.normalForm := by
    unfold normaliseSpec at outcome
    split at outcome
    · exact (Except.ok.inj outcome).symm
    · cases outcome
  rw [strongFingerprintSpec_eq sha256 sliced.normalForm]
  refine .bind ((normalise_budgeted sha256 sliced).knowing known) ?_
  rintro _ _ ⟨rfl, rfl⟩
  have ordered := (canonicalOrder_budgeted sha256 sliced.normalForm).knowing
    (orderSpec_complete sha256 sliced.normalForm)
  refine .bind ordered ?_
  rintro result decided ⟨reports, complete⟩
  rw [reports.fingerprintClass, reports.canonicalOrder, hashBy]
  split
  · exact .raise _
  · have encoded := encodeGraph_settles slice.normalForm decided.1
    rw [encodeGraph_eq_ok sliced.normalForm complete] at encoded
    exact encoded.step (.pure rfl)

/-- Deadline aside, a computation has one outcome, enters no state, and returns only values
that satisfy `holds`.
-/
def Steady {α : Type} (holds : α → Prop) (actual : BudgetM α) : Prop :=
  ∃ outcome, Settles actual outcome ∧ ∀ value, outcome = .ok value → holds value

theorem Steady.bind {α β : Type} {holds : β → Prop} {first : BudgetM α} {rest : α → BudgetM β}
    {outcome : Except AnalysisError α} (head : Settles first outcome)
    (tail : ∀ value, Steady holds (rest value))
    : Steady holds (first >>= rest) := by
  choose further settled each using tail
  refine ⟨outcome >>= further, head.bind settled, fun value returned => ?_⟩
  obtain ⟨middle, _, done⟩ := bind_ok.mp returned
  exact each middle value done

/-- The adjacency of the witness hash has one outcome, by list induction. -/
theorem witnessAdjacency_steady (edges : List CPGEdge)
    (adjacency : Dict (NodeId × NodeId) (List Bytes))
    : Steady (fun _ => True) (witnessAdjacency edges adjacency) := by
  induction edges generalizing adjacency with
  | nil => exact ⟨_, Settles.pure _, fun _ _ => trivial⟩
  | cons edge rest ih =>
      exact .bind check_settles fun _ => .bind (.reraise _) fun _ => ih _

/-- A source-scoped weak fingerprint hashes bytes of its own domain. -/
theorem sourceWitnessHash_steady (sha256 : Hash) (cpg : CPG) (witness : List NodeId)
    (digest : Bytes)
    : Steady (fun fingerprint => ∃ content, fingerprint = sha256 (sourceWitnessDomain ++ content))
        (sourceWitnessHash sha256 cpg witness digest) := by
  obtain ⟨_, adjacent, _⟩ := witnessAdjacency_steady cpg.edges []
  refine .bind adjacent fun adjacency => .bind (.reraise _) fun length => ?_
  refine .bind (.collect (fun node => check_settles.bind fun _ => .reraise _) _) fun ids => ?_
  refine .bind (.reraise _) fun steps => ?_
  refine ⟨_, Settles.pure _, fun value returned => ?_⟩
  rw [← Except.ok.inj returned]
  simp only [List.append_assoc]
  exact ⟨_, rfl⟩

/-- The legacy weak fingerprint of a renumbered witness. -/
def legacyHash (sha256 : Hash) (witness : List NodeId) : Bytes :=
  sha256 (legacyWitnessDomain ++ (witness.map fun id => toBytes 8 id.toNat).flatten)

variable {witness : List NodeId}

theorem witnessEdgeSequenceHash_ok (sha256 : Hash) (bounded : ∀ id ∈ witness, IsU64 id)
    : witnessEdgeSequenceHash sha256 witness = .ok (legacyHash sha256 witness) := by
  have ids : Metered.collect toBytes8 witness = .ok (witness.map fun id => toBytes 8 id.toNat) :=
    collect_ok fun id member => if_pos (bounded id member)
  rw [witnessEdgeSequenceHash, ids, ok_bind, legacyHash]

/-- What the handler reports for a source-scoped or a legacy caller. -/
def weakOutcome (sha256 : Hash) (witness : List NodeId) : Option Bytes → Bytes × Text
  | none => (legacyHash sha256 witness, legacyWitnessNamespace)
  | some fingerprint => (fingerprint, sourceWitnessNamespace)

theorem weakFingerprint_settles (sha256 : Hash) (bounded : ∀ id ∈ witness, IsU64 id)
    (sourceWeak : Option Bytes)
    : Settles (weakFingerprint sha256 witness sourceWeak)
        (.ok ((weakOutcome sha256 witness sourceWeak).1, .weak,
          (weakOutcome sha256 witness sourceWeak).2)) := by
  refine check_settles.step ?_
  cases sourceWeak with
  | none =>
      dsimp only
      rw [witnessEdgeSequenceHash_ok sha256 bounded]
      exact (Settles.reraise _).step (Settles.pure _)
  | some fingerprint => exact Settles.pure _

-- `_compute`

/-- Fingerprint, class and namespace on an allowance, and the allowance left. -/
def fingerprintSpec (sha256 : Hash) (slice : CPG) (weak : Bytes × Text)
    : Allowance (Bytes × FingerprintClass × Text) := fun allowed =>
  if slice.strongCost ≤ allowed then
    (.ok (slice.strongHash sha256, .strong, sliceIdentityNamespace), allowed - slice.strongCost)
  else
    (.ok (weak.1, .weak, weak.2), 0)

/-- The `try` body with the class it earns. -/
def strongOutcome (sha256 : Hash) (slice : CPG) : Allowance (Bytes × FingerprintClass × Text) := do
  let fingerprint ← strongFingerprintSpec sha256 slice
  pure (fingerprint, .strong, sliceIdentityNamespace)

theorem fingerprintSpec_eq (sha256 : Hash) (slice : CPG) (weak : Bytes × Text)
    : fingerprintSpec sha256 slice weak
      = Metered.except .budgetExhausted (strongOutcome sha256 slice)
          (Metered.lift (.ok (weak.1, .weak, weak.2))) := by
  funext allowed
  by_cases enough : slice.strongCost ≤ allowed
  · have hashed : strongFingerprintSpec sha256 slice allowed
        = (.ok (slice.strongHash sha256), allowed - slice.strongCost) := if_pos enough
    have strong : strongOutcome sha256 slice allowed
        = (.ok (slice.strongHash sha256, .strong, sliceIdentityNamespace),
            allowed - slice.strongCost) := Metered.bind_ok hashed
    rw [Metered.except_ok strong, fingerprintSpec, if_pos enough]
  · have hashed : strongFingerprintSpec sha256 slice allowed = (.error .budgetExhausted, 0) :=
      if_neg enough
    have exhausted : strongOutcome sha256 slice allowed = (.error .budgetExhausted, 0) :=
      Metered.bind_error hashed
    rw [Metered.except_caught exhausted, fingerprintSpec, if_neg enough]
    rfl

/-- The fields of a result that are decided by fingerprint, class and namespace. -/
structure Identifies (result : SliceFingerprintResult) (decided : Bytes × FingerprintClass × Text)
    : Prop where
  sliceFingerprint : result.sliceFingerprint = decided.1
  fingerprintClass : result.fingerprintClass = decided.2.1
  identityNamespace : result.identityNamespace = decided.2.2

variable {source : Option Bytes}

theorem computeWith_budgeted (sha256 : Hash) (cpg : ValidCPG) {members : List NodeId}
    (sliced : cpg.SliceMembers witness members) {prepared : Except AnalysisError (Option Bytes)}
    (settled : Settles (sourceWeak sha256 cpg.toCPG witness source) prepared)
    : Budgeted Identifies (computeWith sha256 cpg.toCPG witness source)
        (Metered.lift prepared >>= fun weak =>
          fingerprintSpec sha256 (cpg.extract members)
            (weakOutcome sha256 (cpg.sliceOn witness members).witness weak)) := by
  have ready := extract_sliceReady cpg sliced.distinct sliced.known
  have accepted := validateCpg_settles cpg.toCPG
  rw [cpg.accepted] at accepted
  have extracted := (backwardInterproceduralSlice_ok_iff cpg.wellFormed).mpr
    ⟨members, sliced, rfl⟩
  have bounded : ∀ id ∈ (cpg.sliceOn witness members).witness, IsU64 id := by
    intro id member
    obtain ⟨seed, listed, rfl⟩ := List.mem_map.mp member
    have inside := List.idxOf_lt_length_of_mem (sliced.seeds listed)
    have count := ready.ready.nodes
    rw [CPG.extract, List.length_map] at count
    unfold IsU64
    omega
  unfold computeWith
  rw [extracted]
  refine accepted.step ((Settles.reraise _).step (check_settles.step ?_))
  refine .bind settled ?_
  rintro weak _ rfl
  have body : Budgeted Eq
      (do
        let fingerprint ← strongFingerprint sha256 (cpg.extract members)
        pure (fingerprint, FingerprintClass.strong, sliceIdentityNamespace))
      (strongOutcome sha256 (cpg.extract members)) := by
    refine .bind (strongFingerprint_budgeted sha256 ready) ?_
    rintro fingerprint _ rfl
    exact .pure rfl
  rw [← Metered.bind_pure_self (fingerprintSpec sha256 _ _), fingerprintSpec_eq]
  refine .bind (.except (by decide) body (weakFingerprint_settles sha256 bounded weak)) ?_
  rintro ⟨fingerprint, klass, identity⟩ _ rfl
  refine elapsedMs_settles.pick fun elapsed _ => ?_
  refine check_settles.step ?_
  exact fun budget sound => .inr ⟨⟨rfl, rfl, rfl⟩, rfl, sound, ⟨rfl, rfl, rfl, rfl⟩⟩

/-- How the weak fingerprint of a caller is formed. -/
def WeakFingerprint (sha256 : Hash) (witness : List NodeId)
    : Option Bytes → Bytes → Prop
  | none, fingerprint => fingerprint = legacyHash sha256 witness
  | some _, fingerprint => ∃ content, fingerprint = sha256 (sourceWitnessDomain ++ content)

theorem sourceWeak_steady (sha256 : Hash) (cpg : CPG) (witness renumbered : List NodeId)
    (source : Option Bytes)
    : Steady
        (fun weak => WeakFingerprint sha256 renumbered source
          (weakOutcome sha256 renumbered weak).1)
        (sourceWeak sha256 cpg witness source) := by
  cases source with
  | none => exact ⟨_, Settles.pure _, fun weak returned => by cases returned; rfl⟩
  | some digest =>
      obtain ⟨outcome, settled, each⟩ := sourceWitnessHash_steady sha256 cpg witness digest
      refine ⟨_, settled.bind fun weak => Settles.pure _, fun weak returned => ?_⟩
      obtain ⟨fingerprint, hashed, done⟩ := bind_ok.mp returned
      cases done
      exact each fingerprint hashed

variable {sha256 : Hash} {cpg : ValidCPG} {clock : Nat → Rat} {B : Int} {T : Rat}
  {result : SliceFingerprintResult}

/-- A returning run reports what the states allowed decide about the slice of its witness. -/
theorem compute_decides (ran : compute sha256 clock cpg.toCPG witness B T source = .ok result)
    : 0 < B
      ∧ ∃ members decided weak,
        cpg.SliceMembers witness members
        ∧ (fingerprintSpec sha256 (cpg.extract members)
            (weakOutcome sha256 (cpg.sliceOn witness members).witness weak) B.toNat).1 = .ok decided
        ∧ Identifies result decided
        ∧ WeakFingerprint sha256 (cpg.sliceOn witness members).witness source
          (weakOutcome sha256 (cpg.sliceOn witness members).witness weak).1 := by
  obtain ⟨budget, started, ran⟩ := bind_ok.mp ran
  obtain ⟨positive, rfl⟩ := start_ok started
  obtain ⟨members, sliced⟩ : ∃ members, cpg.SliceMembers witness members := by
    have opened := ran
    unfold computeWith at opened
    obtain ⟨_, _, _, step⟩ := Metered.of_bind_ok opened
    rw [step] at opened
    obtain ⟨slice, next, extracted, _⟩ := Metered.of_bind_ok opened
    have returned : backwardInterproceduralSlice cpg.toCPG witness = .ok slice := by
      cases outcome : backwardInterproceduralSlice cpg.toCPG witness with
      | error raised =>
          rw [outcome] at extracted
          cases extracted
      | ok other =>
          rw [outcome] at extracted
          cases extracted
          rfl
    obtain ⟨members, sliced, _⟩ :=
      (backwardInterproceduralSlice_ok_iff cpg.wellFormed).mp returned
    exact ⟨members, sliced⟩
  obtain ⟨prepared, settled, each⟩ := sourceWeak_steady sha256 cpg.toCPG witness
    (cpg.sliceOn witness members).witness source
  obtain ⟨decided, outcome, identifies, _⟩ :=
    (computeWith_budgeted sha256 cpg sliced settled).of_ok (Nat.zero_le _) ran
  cases prepared with
  | error raised => cases outcome
  | ok weak => exact ⟨positive, members, decided, weak, sliced, outcome, identifies, each weak rfl⟩

/-- What a returning run reports: strong with the hash of the normal form when the states
allowed cover its cost, else weak.
-/
theorem compute_reports (ran : compute sha256 clock cpg.toCPG witness B T source = .ok result)
    : ∃ members,
        cpg.SliceMembers witness members
        ∧ (((cpg.extract members).strongCost ≤ B
            ∧ result.fingerprintClass = .strong
            ∧ result.sliceFingerprint = (cpg.extract members).strongHash sha256)
          ∨ (B < (cpg.extract members).strongCost
            ∧ result.fingerprintClass = .weak
            ∧ WeakFingerprint sha256 (cpg.sliceOn witness members).witness source
              result.sliceFingerprint)) := by
  obtain ⟨positive, members, decided, weak, sliced, reported, identifies, formed⟩ :=
    compute_decides ran
  refine ⟨members, sliced, ?_⟩
  unfold fingerprintSpec at reported
  rw [identifies.fingerprintClass, identifies.sliceFingerprint]
  split at reported
  · cases reported
    exact .inl ⟨by omega, rfl, rfl⟩
  · cases reported
    exact .inr ⟨by omega, rfl, formed⟩

/-- A strong run reports the hash of the normal form under the namespace of slices. -/
theorem compute_strong (ran : compute sha256 clock cpg.toCPG witness B T source = .ok result)
    (strong : result.fingerprintClass = .strong)
    : 0 < B
      ∧ ∃ members,
        cpg.SliceMembers witness members
        ∧ (cpg.extract members).strongCost ≤ B
        ∧ result.sliceFingerprint = (cpg.extract members).strongHash sha256
        ∧ result.identityNamespace = sliceIdentityNamespace := by
  obtain ⟨positive, members, decided, weak, sliced, reported, identifies, _⟩ := compute_decides ran
  refine ⟨positive, members, sliced, ?_⟩
  rw [identifies.fingerprintClass] at strong
  rw [identifies.sliceFingerprint, identifies.identityNamespace]
  unfold fingerprintSpec at reported
  split at reported
  · cases reported
    exact ⟨by omega, rfl, rfl⟩
  · cases reported
    cases strong

/-- A run whose clock never expires returns for every nonempty witness in the graph. -/
theorem compute_returns (sha256 : Hash) (cpg : ValidCPG) (nonempty : witness ≠ [])
    (known : witness ⊆ cpg.nodeIds) (positive : 0 < B) (alive : NeverExpires clock T)
    : ∃ result, computeSliceFingerprint sha256 clock cpg.toCPG witness B T = .ok result := by
  obtain ⟨members, sliced, _⟩ := backwardInterproceduralSlice_eq_ok cpg.wellFormed
    (fun id member => known member) (List.getLast?_eq_some_getLast nonempty)
  have settled : Settles (sourceWeak sha256 cpg.toCPG witness none) (.ok none) := Settles.pure _
  have decided : ∃ decided,
      (fingerprintSpec sha256 (cpg.extract members)
        (weakOutcome sha256 (cpg.sliceOn witness members).witness none)
        (freshBudget clock B T).remaining).1 = .ok decided := by
    unfold fingerprintSpec
    split <;> exact ⟨_, rfl⟩
  obtain ⟨result, ran⟩ := (computeWith_budgeted sha256 cpg sliced settled).returns
    (freshBudget clock B T) (Nat.zero_le _) alive decided.choose_spec
  exact ⟨result, bind_ok.mpr ⟨_, start_returns positive alive, ran⟩⟩

end Scanipy.Analysis

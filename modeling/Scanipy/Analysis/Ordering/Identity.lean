import Scanipy.Analysis.Ordering.Outcome

/-! Canonical graph identity: invariant under isomorphism, complete, and decided by one
threshold of the work budget.
-/

namespace Scanipy.Analysis

open Library Python

/-- Isomorphic graphs get the same class after the same number of states under every state
limit, and the same encoding and hash when strong.
Witness: the trees match, so their sizes and least encodings agree.
-/
theorem canonicalOrder_isomorphism_invariant (sha256 : Hash) (left right : ValidCPG)
    (rename : NodeId → NodeId) (iso : CPG.Iso CPGNode.identity rename left.toCPG right.toCPG)
    (B : Int) (positive : 0 < B) (T : Rat) (leftClock rightClock : Nat → Rat)
    (leftAlive : NeverExpires leftClock T) (rightAlive : NeverExpires rightClock T)
    : ∃ leftResult rightResult,
        canonicalOrderFresh sha256 leftClock left.toCPG B T = .ok leftResult
        ∧ canonicalOrderFresh sha256 rightClock right.toCPG B T = .ok rightResult
        ∧ leftResult.fingerprintClass = rightResult.fingerprintClass
        ∧ leftResult.searchStates = rightResult.searchStates
        ∧ (leftResult.fingerprintClass = .strong
          → (∃ encoded : Bytes,
              encodeGraph (pure ()) left.toCPG leftResult.canonicalOrder
                = (.ok encoded : Except AnalysisError Bytes)
              ∧ encodeGraph (pure ()) right.toCPG rightResult.canonicalOrder
                = (.ok encoded : Except AnalysisError Bytes))
            ∧ leftResult.cpgOrderHash = rightResult.cpgOrderHash) := by
  have along : Transport rename left.toCPG right.toCPG := ⟨iso, left.ready, right.ready⟩
  obtain ⟨leftResult, leftRan⟩ := canonicalOrderFresh_returns sha256 left.ready positive leftAlive
  obtain ⟨rightResult, rightRan⟩ :=
    canonicalOrderFresh_returns sha256 right.ready positive rightAlive
  refine ⟨leftResult, rightResult, leftRan, rightRan, ?_⟩
  have sizes := along.searchSize
  rcases canonicalOrderFresh_reports left.ready leftRan with
    ⟨leftEnough, leftReports, leftCount⟩ | ⟨leftShort, leftReports, leftCount⟩
  · rcases canonicalOrderFresh_reports right.ready rightRan with
      ⟨_, rightReports, rightCount⟩ | ⟨rightShort, _, _⟩
    · refine ⟨leftReports.fingerprintClass.trans rightReports.fingerprintClass.symm,
        by rw [leftCount, rightCount, sizes], fun _ => ⟨⟨left.certificate.2, ?_, ?_⟩, ?_⟩⟩
      · obtain ⟨complete, encodes⟩ := certificate_encodes left.ready
        rw [leftReports.canonicalOrder, encodeGraph_eq_ok left.ready complete, encodes]
      · obtain ⟨complete, encodes⟩ := certificate_encodes right.ready
        rw [rightReports.canonicalOrder, encodeGraph_eq_ok right.ready complete, ← encodes,
          along.certificate]
      · rw [leftReports.cpgOrderHash, rightReports.cpgOrderHash, along.certificate]
    · omega
  · rcases canonicalOrderFresh_reports right.ready rightRan with
      ⟨rightEnough, _, _⟩ | ⟨_, rightReports, rightCount⟩
    · omega
    · refine ⟨leftReports.fingerprintClass.trans rightReports.fingerprintClass.symm, by omega,
        fun strong => ?_⟩
      rw [leftReports.fingerprintClass] at strong
      cases strong

/-- A call and the name it reads. -/
def callWithName : ValidCPG where
  nodes := [
    { nodeId := 0, kind := py "CALL", operatorOrLiteral := py "f" },
    { nodeId := 1, kind := py "IDENTIFIER", operatorOrLiteral := py "x" }]
  edges := [{ src := 0, dst := 1, kind := py "AST" }]
  accepted := by decide
  representable := ⟨by decide, by decide, by decide, by decide⟩

/-- The same call with other ids, listed the other way round. -/
def callRelabelled : ValidCPG where
  nodes := [
    { nodeId := 7, kind := py "IDENTIFIER", operatorOrLiteral := py "x" },
    { nodeId := 3, kind := py "CALL", operatorOrLiteral := py "f" }]
  edges := [{ src := 3, dst := 7, kind := py "AST" }]
  accepted := by decide
  representable := ⟨by decide, by decide, by decide, by decide⟩

/-- SHA-256 on the one input hashed for these graphs. -/
def callSha256 : Hash :=
  tableHash [(orderDomain .strong ++ encodedGraph callWithName.toCPG [0, 1],
    0x090a5d82820e167b2992818878129c0b6f66c56b8fd7b895a849a0c2ea10d763)]

theorem callWithName_iso
    : CPG.Iso CPGNode.identity (fun id => if id = 0 then 3 else 7) callWithName.toCPG
        callRelabelled.toCPG :=
  ⟨by decide, by decide⟩

theorem canonicalOrder_isomorphism_invariant_call
    : ∃ leftResult rightResult,
        canonicalOrderFresh callSha256 (fun _ => 0) callWithName.toCPG 1 defaultT = .ok leftResult
        ∧ canonicalOrderFresh callSha256 (fun _ => 5) callRelabelled.toCPG 1 defaultT
          = .ok rightResult
        ∧ leftResult.fingerprintClass = rightResult.fingerprintClass
        ∧ leftResult.searchStates = rightResult.searchStates
        ∧ (leftResult.fingerprintClass = .strong
          → (∃ encoded : Bytes,
              encodeGraph (pure ()) callWithName.toCPG leftResult.canonicalOrder
                = (.ok encoded : Except AnalysisError Bytes)
              ∧ encodeGraph (pure ()) callRelabelled.toCPG rightResult.canonicalOrder
                = (.ok encoded : Except AnalysisError Bytes))
            ∧ leftResult.cpgOrderHash = rightResult.cpgOrderHash) :=
  canonicalOrder_isomorphism_invariant callSha256 callWithName callRelabelled _ callWithName_iso
    1 (by decide) defaultT _ _ (neverExpires_stopped 0) (neverExpires_stopped 5)

/-- A table of different digests is collision free. -/
theorem tableHash_injective {table : List (Bytes × Nat)} (distinct : (table.map Prod.snd).Nodup)
    (bounded : ∀ entry ∈ table, entry.2 < 2 ^ 256)
    : Function.Injective (tableHash table) := by
  have hit {input : Bytes} {entry : Bytes × Nat}
      (found : table.find? (fun entry => entry.1 = input) = some entry)
      : entry ∈ table ∧ entry.1 = input :=
    ⟨List.mem_of_find?_eq_some found, by simpa using List.find?_some found⟩
  intro first second same
  unfold tableHash at same
  cases firstFound : table.find? fun entry => entry.1 = first with
  | none =>
      cases secondFound : table.find? fun entry => entry.1 = second with
      | none =>
          rw [firstFound, secondFound] at same
          exact List.append_cancel_left same
      | some entry =>
          rw [firstFound, secondFound] at same
          have lengths := congrArg List.length same
          simp only [List.length_append, length_toBytes] at lengths
          omega
  | some entry =>
      cases secondFound : table.find? fun entry => entry.1 = second with
      | none =>
          rw [firstFound, secondFound] at same
          have lengths := congrArg List.length same
          simp only [List.length_append, length_toBytes] at lengths
          omega
      | some other =>
          rw [firstFound, secondFound] at same
          obtain ⟨entryMember, rfl⟩ := hit firstFound
          obtain ⟨otherMember, rfl⟩ := hit secondFound
          have digests := SelfDelimiting.injOn (toBytes_selfDelimiting 32)
            (bounded entry entryMember) (bounded other otherMember) same
          rw [List.inj_on_of_nodup_map distinct entryMember otherMember digests]

theorem orderDomain_append_injective {left right : FingerprintClass} {encoded other : Bytes}
    (same : orderDomain left ++ encoded = orderDomain right ++ other)
    : left = right ∧ encoded = other := by
  cases left <;> cases right
  · exact ⟨rfl, List.append_cancel_left same⟩
  · exact absurd same (by simp [orderDomain, pyb])
  · exact absurd same (by simp [orderDomain, pyb])
  · exact ⟨rfl, List.append_cancel_left same⟩

/-- The hash of a returned result is that of its class and of its encoded order. -/
theorem canonicalOrderFresh_hash {sha256 : Hash} {cpg : CPG} (ready : cpg.Ready)
    {clock : Nat → Rat} {B : Int} {T : Rat} {result : CanonicalOrderResult}
    (ran : canonicalOrderFresh sha256 clock cpg B T = .ok result)
    : result.canonicalOrder.Perm cpg.nodeIds
      ∧ result.cpgOrderHash = sha256 (orderDomain result.fingerprintClass
          ++ encodedGraph cpg result.canonicalOrder) := by
  rcases canonicalOrderFresh_reports ready ran with ⟨_, reports, _⟩ | ⟨_, reports, _⟩
  · obtain ⟨complete, encodes⟩ := certificate_encodes ready
    rw [reports.canonicalOrder, reports.cpgOrderHash, reports.fingerprintClass]
    exact ⟨complete, by rw [encodes]⟩
  · rw [reports.canonicalOrder, reports.cpgOrderHash, reports.fingerprintClass]
    exact ⟨fallbackOrder_perm sha256 cpg, rfl⟩

/-- The encoding is complete, and under a collision-free hash so is the strong identity.
Witness: equal hashes are equal domains and equal encodings, which list isomorphic graphs.
-/
theorem encodeGraph_complete (sha256 : Hash) (collisionFree : Function.Injective sha256)
    (left right : ValidCPG)
    : (∀ order image : List NodeId,
        order.Perm left.nodeIds
        → image.Perm right.nodeIds
        → ∃ encoded other : Bytes,
            encodeGraph (pure ()) left.toCPG order = (.ok encoded : Except AnalysisError Bytes)
            ∧ encodeGraph (pure ()) right.toCPG image = (.ok other : Except AnalysisError Bytes)
            ∧ (encoded = other
              ↔ order.length = image.length
                ∧ CPG.Iso CPGNode.identity (follow order image) left.toCPG right.toCPG))
      ∧ ∀ (leftClock rightClock : Nat → Rat) (leftB rightB : Int) (leftT rightT : Rat)
          (leftResult rightResult : CanonicalOrderResult),
          canonicalOrderFresh sha256 leftClock left.toCPG leftB leftT = .ok leftResult
          → canonicalOrderFresh sha256 rightClock right.toCPG rightB rightT = .ok rightResult
          → leftResult.fingerprintClass = .strong
          → (rightResult.fingerprintClass = .strong
              → leftResult.cpgOrderHash = rightResult.cpgOrderHash
              → ∃ rename, CPG.Iso CPGNode.identity rename left.toCPG right.toCPG)
            ∧ (rightResult.fingerprintClass = .weak
              → leftResult.cpgOrderHash ≠ rightResult.cpgOrderHash) := by
  constructor
  · intro order image complete imageComplete
    exact ⟨_, _, encodeGraph_eq_ok left.ready complete,
      encodeGraph_eq_ok right.ready imageComplete,
      encodedGraph_eq_iff left.ready right.ready complete imageComplete⟩
  · intro leftClock rightClock leftB rightB leftT rightT leftResult rightResult leftRan rightRan
      strong
    obtain ⟨complete, leftHash⟩ := canonicalOrderFresh_hash left.ready leftRan
    obtain ⟨imageComplete, rightHash⟩ := canonicalOrderFresh_hash right.ready rightRan
    have inputs (same : leftResult.cpgOrderHash = rightResult.cpgOrderHash) :=
      orderDomain_append_injective (collisionFree (leftHash.symm.trans (same.trans rightHash)))
    constructor
    · intro _ same
      exact ⟨_, ((encodedGraph_eq_iff left.ready right.ready complete imageComplete).mp
        (inputs same).2).2⟩
    · intro weak same
      have classes := (inputs same).1
      rw [strong, weak] at classes
      cases classes

theorem encodeGraph_complete_call
    : Function.Injective callSha256
      ∧ (∃ encoded other : Bytes,
          encodeGraph (pure ()) callWithName.toCPG [0, 1]
            = (.ok encoded : Except AnalysisError Bytes)
          ∧ encodeGraph (pure ()) callRelabelled.toCPG [3, 7]
            = (.ok other : Except AnalysisError Bytes)
          ∧ (encoded = other
            ↔ ([0, 1] : List NodeId).length = ([3, 7] : List NodeId).length
              ∧ CPG.Iso CPGNode.identity (follow [0, 1] [3, 7]) callWithName.toCPG
                callRelabelled.toCPG)) := by
  have collisionFree : Function.Injective callSha256 :=
    tableHash_injective (by decide) (by decide)
  exact ⟨collisionFree, (encodeGraph_complete callSha256 collisionFree callWithName
    callRelabelled).1 [0, 1] [3, 7] (by decide) (by decide)⟩

/-- One number of states separates the weak from the strong results of a graph; on each side
order and hash are the same under every state limit.
-/
theorem canonicalOrder_threshold (sha256 : Hash) (cpg : ValidCPG)
    : ∃ (threshold : Nat) (strongOrder weakOrder : List NodeId) (strongHash weakHash : Bytes),
        1 ≤ threshold
        ∧ ∀ (clock : Nat → Rat) (B : Int) (T : Rat),
            0 < B
            → NeverExpires clock T
            → ∃ result,
                canonicalOrderFresh sha256 clock cpg.toCPG B T = .ok result
                ∧ ((threshold : Int) ≤ B
                  → result.fingerprintClass = .strong
                    ∧ result.canonicalOrder = strongOrder
                    ∧ result.cpgOrderHash = strongHash
                    ∧ result.searchStates = threshold)
                ∧ (B < threshold
                  → result.fingerprintClass = .weak
                    ∧ result.canonicalOrder = weakOrder
                    ∧ result.cpgOrderHash = weakHash
                    ∧ (result.searchStates : Int) = B) := by
  refine ⟨cpg.searchSize, cpg.certificate.1, fallbackOrder sha256 cpg.toCPG,
    sha256 (orderDomain .strong ++ cpg.certificate.2),
    sha256 (orderDomain .weak ++ encodedGraph cpg.toCPG (fallbackOrder sha256 cpg.toCPG)),
    SearchTree.size_pos _, fun clock B T positive alive => ?_⟩
  obtain ⟨result, ran⟩ := canonicalOrderFresh_returns sha256 cpg.ready positive alive
  refine ⟨result, ran, ?_⟩
  rcases canonicalOrderFresh_reports cpg.ready ran with
    ⟨enough, reports, counted⟩ | ⟨short, reports, counted⟩
  · exact ⟨fun _ => ⟨reports.fingerprintClass, reports.canonicalOrder, reports.cpgOrderHash,
      counted⟩, fun below => by omega⟩
  · exact ⟨fun above => by omega, fun _ => ⟨reports.fingerprintClass, reports.canonicalOrder,
      reports.cpgOrderHash, counted⟩⟩

end Scanipy.Analysis

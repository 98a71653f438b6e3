import Scanipy.Analysis.Fingerprint.Renaming
import Scanipy.Analysis.Ordering.Identity

/-! Slice identity: independent of local names, numbering and position, never shared by
different slices, and dependent on package prefixes only through the order of the locals.
-/

namespace Scanipy.Analysis

open Library Python

variable {sha256 : Hash}

section Slices

variable {left right : CPG} (leftReady : left.SliceReady) (rightReady : right.SliceReady)

include leftReady rightReady

/-- Equal certificates are isomorphic normal forms, and conversely. -/
theorem normalForm_certificate_iff
    : left.normalForm.certificate.2 = right.normalForm.certificate.2
      ↔ ∃ rename,
          CPG.Iso CPGNode.essence rename left right ∧ left.locals.map rename = right.locals := by
  have leftNormal := leftReady.normalForm
  have rightNormal := rightReady.normalForm
  obtain ⟨complete, encodes⟩ := certificate_encodes leftNormal
  obtain ⟨imageComplete, imageEncodes⟩ := certificate_encodes rightNormal
  constructor
  · intro same
    rw [encodes, imageEncodes] at same
    obtain ⟨_, iso⟩ :=
      (encodedGraph_eq_iff leftNormal rightNormal complete imageComplete).mp same
    exact ⟨_, (normalForm_iso_iff leftReady.ready rightReady.ready).mp iso⟩
  · rintro ⟨rename, carried⟩
    have iso := (normalForm_iso_iff leftReady.ready rightReady.ready).mpr carried
    exact Transport.certificate ⟨iso, leftNormal, rightNormal⟩

variable {rename : NodeId → NodeId}

/-- Slices that differ in local names only number their locals alike, up to an isomorphism.
Witness: the canonical orders of the anonymised slices, position by position.
-/
theorem CPG.Iso.normalForm (iso : CPG.Iso CPGNode.nameless rename left right)
    : ∃ other, Transport other left.normalForm right.normalForm := by
  have leftAnonymous := anonymous_ready leftReady.ready
  have rightAnonymous := anonymous_ready rightReady.ready
  have along : Transport rename left.anonymous right.anonymous :=
    ⟨anonymous_iso_iff.mpr iso, leftAnonymous, rightAnonymous⟩
  obtain ⟨complete, encodes⟩ := certificate_encodes leftAnonymous
  obtain ⟨imageComplete, imageEncodes⟩ := certificate_encodes rightAnonymous
  have same := along.certificate
  rw [encodes, imageEncodes] at same
  obtain ⟨sameLength, listed⟩ :=
    (encodedGraph_eq_iff leftAnonymous rightAnonymous complete imageComplete).mp same
  have nameless := anonymous_iso_iff.mp listed
  have essences : CPG.Iso CPGNode.essence _ left right :=
    nameless.coarsen fun seen => (seen.1, seen.2.1, shortName seen.2.2.1, shortName seen.2.2.2)
  have distinct : left.anonymous.certificate.1.Nodup :=
    complete.nodup_iff.mpr leftAnonymous.wellFormed.distinct
  have numbered : left.locals.map (follow left.anonymous.certificate.1
      right.anonymous.certificate.1) = right.locals := by
    have kinds (id : NodeId) (member : id ∈ left.anonymous.certificate.1)
        : (right.nodeAt (follow left.anonymous.certificate.1 right.anonymous.certificate.1 id)).kind
          = (left.nodeAt id).kind := by
      have known : id ∈ left.nodeIds := by
        have listedId := complete.mem_iff.mp member
        rwa [CPG.anonymous, CPG.nodeIds_mapNodes keepsId_anonymise] at listedId
      exact congrArg Prod.fst (nameless.nodeAt leftReady.ready.wellFormed.distinct
        rightReady.ready.wellFormed.distinct known)
    have images := map_follow distinct sameLength
    calc
      _ = (left.anonymous.certificate.1.filter
            ((fun id => decide (right.nodeAt id).IsIdentifier) ∘ follow left.anonymous.certificate.1
              right.anonymous.certificate.1)).map _ := by
        refine congrArg _ (List.filter_congr fun id member => ?_)
        refine decide_eq_decide.mpr ?_
        simp only [CPGNode.IsIdentifier, kinds id member]
      _ = right.localsIn (left.anonymous.certificate.1.map _) := List.filter_map.symm
      _ = right.locals := by rw [images, CPG.locals]
  exact ⟨_, (normalForm_iso_iff leftReady.ready rightReady.ready).mpr ⟨essences, numbered⟩,
    leftReady.normalForm, rightReady.normalForm⟩

theorem CPG.Iso.renameCost (iso : CPG.Iso CPGNode.nameless rename left right)
    : left.renameCost = right.renameCost := by
  have along : Transport rename left.anonymous right.anonymous :=
    ⟨anonymous_iso_iff.mpr iso, anonymous_ready leftReady.ready, anonymous_ready rightReady.ready⟩
  have kinds : (left.nodes.map CPGNode.kind).Perm (right.nodes.map CPGNode.kind) := by
    have step := iso.nodes.map fun pair => pair.2.1
    simpa only [List.map_map, Function.comp_def, CPGNode.nameless] using step
  have none (cpg : CPG) : (∀ node ∈ cpg.nodes, ¬node.IsIdentifier)
      ↔ py "IDENTIFIER" ∉ cpg.nodes.map CPGNode.kind := by
    simp [CPGNode.IsIdentifier, List.mem_map]
  rw [CPG.renameCost, CPG.renameCost, along.searchSize]
  simp only [none, kinds.mem_iff]

/-- Slices that differ in local names only have the same cost and the same strong hash. -/
theorem CPG.Iso.strong (sha256 : Hash) (iso : CPG.Iso CPGNode.nameless rename left right)
    : left.strongCost = right.strongCost ∧ left.strongHash sha256 = right.strongHash sha256 := by
  obtain ⟨other, along⟩ := iso.normalForm leftReady rightReady
  rw [CPG.strongCost, CPG.strongCost, iso.renameCost leftReady rightReady, along.searchSize,
    CPG.strongHash, CPG.strongHash, along.certificate]
  exact ⟨rfl, rfl⟩

/-- Under a collision-free hash, equal strong hashes are isomorphic slices whose locals are
numbered alike.
-/
theorem strongHash_eq_iff (collisionFree : Function.Injective sha256)
    : left.strongHash sha256 = right.strongHash sha256
      ↔ ∃ rename,
          CPG.Iso CPGNode.essence rename left right ∧ left.locals.map rename = right.locals := by
  rw [← normalForm_certificate_iff leftReady rightReady, CPG.strongHash, CPG.strongHash,
    collisionFree.eq_iff, List.append_cancel_left_eq]

end Slices

/-- Graphs that differ in local names, node ids, list order and structural paths get the same
class under every state limit, and the same fingerprint when strong.
Witness: the slices are isomorphic, and so are their normal forms.
-/
theorem sliceFingerprint_ignores_names (sha256 : Hash) (left right : ValidCPG)
    (rename : NodeId → NodeId) (iso : CPG.Iso CPGNode.nameless rename left.toCPG right.toCPG)
    (witness : List NodeId) (nonempty : witness ≠ []) (known : witness ⊆ left.nodeIds) (B : Int)
    (positive : 0 < B) (T : Rat) (leftClock rightClock : Nat → Rat)
    (leftAlive : NeverExpires leftClock T) (rightAlive : NeverExpires rightClock T)
    : ∃ leftResult rightResult,
        computeSliceFingerprint sha256 leftClock left.toCPG witness B T = .ok leftResult
        ∧ computeSliceFingerprint sha256 rightClock right.toCPG (witness.map rename) B T
          = .ok rightResult
        ∧ leftResult.fingerprintClass = rightResult.fingerprintClass
        ∧ (leftResult.fingerprintClass = .strong
          → leftResult.sliceFingerprint = rightResult.sliceFingerprint) := by
  obtain ⟨leftResult, leftRan⟩ :=
    compute_returns sha256 left nonempty known positive leftAlive
  have mapped : witness.map rename ⊆ right.nodeIds := by
    intro id member
    obtain ⟨seed, listed, rfl⟩ := List.mem_map.mp member
    exact iso.mem_nodeIds (known listed)
  obtain ⟨rightResult, rightRan⟩ :=
    compute_returns sha256 right (by simpa using nonempty) mapped positive rightAlive
  refine ⟨leftResult, rightResult, leftRan, rightRan, ?_⟩
  obtain ⟨members, sliced, leftReports⟩ := compute_reports leftRan
  obtain ⟨images, imageSliced, rightReports⟩ := compute_reports rightRan
  have carried := iso.sliceMembers left.wellFormed right.wellFormed sliced imageSliced
  have extracted := iso.extract left.wellFormed right.wellFormed (fun _ _ => rfl) sliced.known
    carried
  obtain ⟨costs, hashes⟩ := extracted.strong
    (extract_sliceReady left sliced.distinct sliced.known)
    (extract_sliceReady right imageSliced.distinct imageSliced.known) sha256
  rcases leftReports with ⟨leftEnough, leftClass, leftHash⟩ | ⟨leftShort, leftClass, _⟩
  · rcases rightReports with ⟨_, rightClass, rightHash⟩ | ⟨rightShort, _, _⟩
    · exact ⟨leftClass.trans rightClass.symm, fun _ => by rw [leftHash, rightHash, hashes]⟩
    · omega
  · rcases rightReports with ⟨rightEnough, _, _⟩ | ⟨_, rightClass, _⟩
    · omega
    · refine ⟨leftClass.trans rightClass.symm, fun strong => ?_⟩
      rw [leftClass] at strong
      cases strong

/-- The call of another version: the name renamed, ids and paths changed. -/
def callRenamed : ValidCPG where
  nodes := [
    { nodeId := 7, kind := py "IDENTIFIER", operatorOrLiteral := py "y",
      structuralPath := py "body" },
    { nodeId := 3, kind := py "CALL", operatorOrLiteral := py "f" }]
  edges := [{ src := 3, dst := 7, kind := py "AST" }]
  accepted := by decide
  representable := ⟨by decide, by decide, by decide, by decide⟩

/-- The slice of the call with its local name replaced. -/
def callSlice (name : Text) : CPG where
  nodes := [
    { nodeId := 0, kind := py "CALL", operatorOrLiteral := py "f" },
    { nodeId := 1, kind := py "IDENTIFIER", operatorOrLiteral := name }]
  edges := [{ src := 0, dst := 1, kind := py "AST" }]

/-- SHA-256 on the inputs hashed for the slice of the call. -/
def callSliceSha256 : Hash :=
  tableHash [
    (orderDomain .strong ++ encodedGraph (callSlice []) [0, 1],
      0xc1434ca249bf4663fd7427f752b699ac5ff3a76cec317bfc642e1a2e721500bf),
    (orderDomain .strong ++ encodedGraph (callSlice (py "%local0")) [0, 1],
      0xad0193d153e05b942bcf572df58037308343dbf3aca10d8b24c599d9093963c6),
    (strongSliceDomain ++ encodedGraph (callSlice (py "%local0")) [0, 1],
      0x8e73d5fb422647930cbb37835255b964b6dc7603a91d70b4566c50b6a86fc1f4)]

theorem sliceFingerprint_ignores_names_call
    : ∃ leftResult rightResult,
        computeSliceFingerprint callSliceSha256 (fun _ => 0) callWithName.toCPG [0, 1] 2 defaultT
          = .ok leftResult
        ∧ computeSliceFingerprint callSliceSha256 (fun _ => 5) callRenamed.toCPG [3, 7] 2 defaultT
          = .ok rightResult
        ∧ leftResult.fingerprintClass = rightResult.fingerprintClass
        ∧ (leftResult.fingerprintClass = .strong
          → leftResult.sliceFingerprint = rightResult.sliceFingerprint) :=
  sliceFingerprint_ignores_names callSliceSha256 callWithName callRenamed
    (fun id => if id = 0 then 3 else 7) ⟨by decide, by decide⟩ [0, 1] (by decide)
    (by decide) 2 (by decide) defaultT _ _ (neverExpires_stopped 0) (neverExpires_stopped 5)

-- Different slices

/-- A run of either entry point returns the result for the witness. -/
def Fingerprinted (sha256 : Hash) (cpg : CPG) (witness : List NodeId)
    (result : SliceFingerprintResult)
    : Prop :=
  ∃ (clock : Nat → Rat) (B : Int) (T : Rat),
    computeSliceFingerprint sha256 clock cpg witness B T = .ok result
    ∨ ∃ digest, computeSliceFingerprintV2 sha256 clock cpg witness digest B T = .ok result

variable {witness : List NodeId}

theorem Fingerprinted.compute {cpg : CPG} {result : SliceFingerprintResult}
    (ran : Fingerprinted sha256 cpg witness result)
    : ∃ clock B T source, compute sha256 clock cpg witness B T source = .ok result := by
  obtain ⟨clock, B, T, legacy | ⟨digest, aware⟩⟩ := ran
  · exact ⟨clock, B, T, none, legacy⟩
  · obtain ⟨_, _, aware⟩ := bind_ok.mp aware
    exact ⟨clock, B, T, some digest, aware⟩

/-- Strong and weak hash inputs are told apart by their domains. -/
theorem strongSliceDomain_append_ne {domain content other : Bytes} (long : 15 ≤ domain.length)
    (apart : domain.take 15 ≠ strongSliceDomain.take 15)
    : strongSliceDomain ++ content ≠ domain ++ other := by
  intro same
  have heads := congrArg (List.take 15) same
  rw [List.take_append_of_le_length (by decide), List.take_append_of_le_length long] at heads
  exact apart heads.symm

variable {fingerprint : Bytes}

theorem strongHash_ne_weak (collisionFree : Function.Injective sha256) (slice : CPG)
    {source : Option Bytes} (weak : WeakFingerprint sha256 witness source fingerprint)
    : slice.strongHash sha256 ≠ fingerprint := by
  cases source with
  | none =>
      rw [weak]
      exact fun same => strongSliceDomain_append_ne (by decide) (by decide) (collisionFree same)
  | some digest =>
      obtain ⟨content, rfl⟩ := weak
      exact fun same => strongSliceDomain_append_ne (by decide) (by decide) (collisionFree same)

/-- Equal strong fingerprints belong to slices that differ at most in numbering, local names
and package prefixes, and no weak fingerprint equals a strong one.
Witness: equal hashes have equal domains and encodings, which list isomorphic normal forms.
-/
theorem sliceFingerprint_separates (sha256 : Hash) (collisionFree : Function.Injective sha256)
    (left right : ValidCPG) (leftWitness rightWitness : List NodeId)
    (leftResult rightResult : SliceFingerprintResult)
    (leftRan : Fingerprinted sha256 left.toCPG leftWitness leftResult)
    (rightRan : Fingerprinted sha256 right.toCPG rightWitness rightResult)
    (strong : leftResult.fingerprintClass = .strong)
    : (rightResult.fingerprintClass = .strong
        → leftResult.sliceFingerprint = rightResult.sliceFingerprint
        → ∃ leftSlice rightSlice,
            backwardInterproceduralSlice left.toCPG leftWitness = .ok leftSlice
            ∧ backwardInterproceduralSlice right.toCPG rightWitness = .ok rightSlice
            ∧ ∃ rename, CPG.Iso CPGNode.essence rename leftSlice.cpg rightSlice.cpg)
      ∧ (rightResult.fingerprintClass = .weak
        → leftResult.sliceFingerprint ≠ rightResult.sliceFingerprint) := by
  obtain ⟨_, _, _, _, leftComputed⟩ := leftRan.compute
  obtain ⟨_, _, _, _, rightComputed⟩ := rightRan.compute
  obtain ⟨members, sliced, leftReports⟩ := compute_reports leftComputed
  obtain ⟨images, imageSliced, rightReports⟩ := compute_reports rightComputed
  rcases leftReports with ⟨_, _, leftHash⟩ | ⟨_, leftClass, _⟩
  · constructor
    · intro rightStrong same
      rcases rightReports with ⟨_, _, rightHash⟩ | ⟨_, rightClass, _⟩
      · rw [leftHash, rightHash] at same
        obtain ⟨rename, iso, _⟩ := (strongHash_eq_iff
          (extract_sliceReady left sliced.distinct sliced.known)
          (extract_sliceReady right imageSliced.distinct imageSliced.known) collisionFree).mp same
        exact ⟨left.sliceOn leftWitness members, right.sliceOn rightWitness images,
          (backwardInterproceduralSlice_ok_iff left.wellFormed).mpr ⟨members, sliced, rfl⟩,
          (backwardInterproceduralSlice_ok_iff right.wellFormed).mpr ⟨images, imageSliced, rfl⟩,
          rename, iso⟩
      · rw [rightClass] at rightStrong
        cases rightStrong
    · intro rightWeak
      rcases rightReports with ⟨_, rightClass, _⟩ | ⟨_, _, weak⟩
      · rw [rightClass] at rightWeak
        cases rightWeak
      · rw [leftHash]
        exact strongHash_ne_weak collisionFree _ weak
  · rw [leftClass] at strong
    cases strong

/-- Fingerprint and class of a run that returned. -/
def returned (outcome : Except AnalysisError SliceFingerprintResult)
    : Option (Bytes × FingerprintClass) :=
  outcome.toOption.map fun result => (result.sliceFingerprint, result.fingerprintClass)

theorem of_returned {outcome : Except AnalysisError SliceFingerprintResult}
    {klass : FingerprintClass} (ran : returned outcome = some (fingerprint, klass))
    : ∃ result,
        outcome = .ok result
        ∧ result.sliceFingerprint = fingerprint
        ∧ result.fingerprintClass = klass := by
  obtain ⟨result, stored, same⟩ := Option.map_eq_some_iff.mp ran
  obtain ⟨sameFingerprint, sameClass⟩ := Prod.mk.inj same
  cases outcome with
  | error raised => cases stored
  | ok other =>
      cases stored
      exact ⟨result, rfl, sameFingerprint, sameClass⟩

theorem callSlice_fingerprint (cpg : ValidCPG) (witness : List NodeId)
    (ran : returned (computeSliceFingerprint callSliceSha256 (fun _ => 0) cpg.toCPG witness 2
        defaultT)
      = some (toBytes 32 0x8e73d5fb422647930cbb37835255b964b6dc7603a91d70b4566c50b6a86fc1f4,
          .strong))
    : ∃ result,
        Fingerprinted callSliceSha256 cpg.toCPG witness result
        ∧ result.sliceFingerprint
          = toBytes 32 0x8e73d5fb422647930cbb37835255b964b6dc7603a91d70b4566c50b6a86fc1f4
        ∧ result.fingerprintClass = .strong := by
  obtain ⟨result, ran, fingerprint, strong⟩ := of_returned ran
  exact ⟨result, ⟨_, _, _, .inl ran⟩, fingerprint, strong⟩

theorem sliceFingerprint_separates_call
    : ∃ leftSlice rightSlice,
        backwardInterproceduralSlice callWithName.toCPG [0, 1] = .ok leftSlice
        ∧ backwardInterproceduralSlice callRenamed.toCPG [3, 7] = .ok rightSlice
        ∧ ∃ rename, CPG.Iso CPGNode.essence rename leftSlice.cpg rightSlice.cpg := by
  obtain ⟨leftResult, leftRan, leftFingerprint, leftStrong⟩ :=
    callSlice_fingerprint callWithName [0, 1] (by decide +kernel)
  obtain ⟨rightResult, rightRan, rightFingerprint, rightStrong⟩ :=
    callSlice_fingerprint callRenamed [3, 7] (by decide +kernel)
  exact (sliceFingerprint_separates callSliceSha256
    (tableHash_injective (by decide) (by decide)) callWithName callRenamed [0, 1] [3, 7] leftResult
    rightResult leftRan rightRan leftStrong).1 rightStrong
    (leftFingerprint.trans rightFingerprint.symm)

end Scanipy.Analysis

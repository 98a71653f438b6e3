import Scanipy.Analysis.Ifds.Witnesses

/-! What the solution hash binds: the separator delimits findings whose witness ends where the
sink first occurs.
-/

namespace Scanipy.Analysis.Ifds

open Library Python

/-- What `_hash_solution` hashes of a finding. -/
def Finding.triple (finding : Finding) : NodeId × Fact × List NodeId :=
  (finding.sink, finding.fact, finding.witness)

/-- The sink stands at the end of the witness and nowhere else. -/
def Finding.EndsAtSink (finding : Finding) : Prop :=
  ∃ front, finding.witness = front ++ [finding.sink] ∧ finding.sink ∉ front

/-- The eight bytes of an id. -/
def idBytes (id : NodeId) : Bytes :=
  toBytes 8 id.toNat

/-- The record of a triple. -/
def recordBytes (record : NodeId × Fact × List NodeId) : Bytes :=
  idBytes record.1 ++ (toBytes 8 record.2.1 ++ (record.2.2.flatMap idBytes ++ pyb "|"))

theorem isU64_natCast_iff {value : Nat} : IsU64 value ↔ value < 256 ^ 8 := by
  unfold IsU64
  omega

variable {value : Int}

/-- Ids that fit eight bytes are numbers below a bound, and distinct as such. -/
theorem toNat_of_isU64 {other : Int} (inside : IsU64 value) (otherInside : IsU64 other)
    : value.toNat < 256 ^ 8 ∧ (value.toNat = other.toNat → value = other) := by
  unfold IsU64 at inside otherInside
  omega

variable {bytes : Bytes}

theorem toBytes8_ok
    : toBytes8 value = .ok bytes ↔ IsU64 value ∧ bytes = idBytes value := by
  unfold toBytes8 IsU64 idBytes
  split
  next inside => rw [Except.ok.injEq, and_iff_right inside, eq_comm]
  next outside =>
    constructor
    · intro raised
      cases raised
    · exact fun both => absurd both.1 outside

variable {parts : List Bytes}

/-- The ids of a witness are hashed one behind the other, by induction on them. -/
theorem collect_toBytes8_ok {ids : List NodeId}
    : Metered.collect toBytes8 ids = .ok parts
      ↔ (∀ id ∈ ids, IsU64 id) ∧ parts = ids.map idBytes := by
  induction ids generalizing parts with
  | nil => simp [Metered.collect, pure, Except.pure, eq_comm]
  | cons id rest ih =>
      simp only [Metered.collect, bind_ok, toBytes8_ok, ih, List.forall_mem_cons,
        List.map_cons]
      constructor
      · rintro ⟨_, ⟨first, rfl⟩, _, ⟨others, rfl⟩, same⟩
        exact ⟨⟨first, others⟩, (Except.ok.inj same).symm⟩
      · rintro ⟨⟨first, others⟩, rfl⟩
        exact ⟨_, ⟨first, rfl⟩, _, ⟨others, rfl⟩, rfl⟩

/-- A finding is hashed as the record of its triple, when all its numbers fit eight bytes. -/
theorem findingBytes_ok_iff {finding : Finding}
    : findingBytes finding = .ok bytes
      ↔ IsU64 finding.sink
        ∧ finding.fact < 256 ^ 8
        ∧ (∀ id ∈ finding.witness, IsU64 id)
        ∧ bytes = recordBytes finding.triple := by
  simp only [findingBytes, bind_ok, toBytes8_ok, collect_toBytes8_ok,
    isU64_natCast_iff, Except.ok.injEq]
  constructor
  · rintro ⟨_, ⟨sink, rfl⟩, _, ⟨small, rfl⟩, _, ⟨witness, rfl⟩, rfl⟩
    exact ⟨sink, small, witness, by simp [recordBytes, Finding.triple, List.flatMap_def, idBytes]⟩
  · rintro ⟨sink, small, witness, rfl⟩
    refine ⟨_, ⟨sink, rfl⟩, _, ⟨small, rfl⟩, _, ⟨witness, rfl⟩, ?_⟩
    simp [recordBytes, Finding.triple, List.flatMap_def, idBytes]

variable {findings : List Finding}

/-- Hashed findings are their records in order. -/
theorem collect_findingBytes_ok (ran : Metered.collect findingBytes findings = .ok parts)
    : (∀ finding ∈ findings,
        IsU64 finding.sink ∧ finding.fact < 256 ^ 8 ∧ ∀ id ∈ finding.witness, IsU64 id)
      ∧ parts.flatten = (findings.map Finding.triple).flatMap recordBytes := by
  induction findings generalizing parts with
  | nil =>
      cases ran
      simp
  | cons finding rest ih =>
      simp only [Metered.collect, bind_ok, findingBytes_ok_iff] at ran
      obtain ⟨_, ⟨sink, fact, witness, rfl⟩, others, collected, same⟩ := ran
      cases same
      obtain ⟨bounded, flattened⟩ := ih collected
      refine ⟨List.forall_mem_cons.mpr ⟨⟨sink, fact, witness⟩, bounded⟩, ?_⟩
      rw [List.flatten_cons, flattened, List.map_cons, List.flatMap_cons]

theorem idBytes_selfDelimiting : SelfDelimiting {id : NodeId | IsU64 id} idBytes := by
  refine SelfDelimiting.comap (toBytes_selfDelimiting 8) (fun id inside => ?_)
    fun first firstInside second secondInside same => ?_
  · exact (toNat_of_isU64 inside inside).1
  · exact (toNat_of_isU64 firstInside secondInside).2 same

/-- The triples of findings that end at their sink. -/
def EndingTriples : Set (NodeId × Fact × List NodeId) :=
  {record |
    IsU64 record.1
    ∧ record.2.1 < 256 ^ 8
    ∧ (∀ id ∈ record.2.2, IsU64 id)
    ∧ ∃ front, record.2.2 = front ++ [record.1] ∧ record.1 ∉ front}

/-- Records that end at their sink delimit themselves.
Witness: the sink is read first, and the witness goes on to its first occurrence.
-/
theorem recordBytes_selfDelimiting : SelfDelimiting EndingTriples recordBytes := by
  rintro ⟨sink, fact, witness⟩ ⟨otherSink, otherFact, otherWitness⟩
    ⟨sinkBound, factBound, ids, ends⟩ ⟨otherSinkBound, otherFactBound, otherIds, otherEnds⟩ rest more same
  simp only [recordBytes, List.append_assoc] at same
  obtain ⟨sinks, afterSink⟩ := idBytes_selfDelimiting sinkBound otherSinkBound same
  dsimp only at sinks
  subst sinks
  obtain ⟨facts, afterFact⟩ := toBytes_selfDelimiting 8 factBound otherFactBound afterSink
  dsimp only at facts
  subst facts
  obtain ⟨witnesses, afterWitness⟩ := SelfDelimiting.terminated idBytes_selfDelimiting sink
    ⟨ends, ids⟩ ⟨otherEnds, otherIds⟩ afterFact
  dsimp only at witnesses
  subst witnesses
  exact ⟨rfl, List.append_cancel_left afterWitness⟩

/-- The triples of findings in the order in which they are hashed. -/
def orderedTriples (canonIndex : Dict NodeId Nat) (findings : List Finding)
    : List (NodeId × Fact × List NodeId) :=
  (sortedBy (fun finding : Finding => worklistKey canonIndex (finding.sink, finding.fact))
    findings).map Finding.triple

/-- The preimage of the solution hash consists of the records of the ordered triples. -/
theorem hashSolution_preimage {canonIndex : Dict NodeId Nat} {preimage : Bytes}
    (ends : ∀ finding ∈ findings, finding.EndsAtSink)
    (hashed : hashSolution (fun bytes => bytes) findings canonIndex = .ok preimage)
    : preimage = (orderedTriples canonIndex findings).flatMap recordBytes
      ∧ ∀ record ∈ orderedTriples canonIndex findings, record ∈ EndingTriples := by
  obtain ⟨parts, collected, same⟩ := bind_ok.mp hashed
  obtain ⟨bounded, flattened⟩ := collect_findingBytes_ok collected
  refine ⟨(Except.ok.inj same).symm.trans flattened, fun record listed => ?_⟩
  obtain ⟨finding, member, rfl⟩ := List.mem_map.mp listed
  obtain ⟨sink, fact, witness⟩ := bounded finding member
  exact ⟨sink, fact, witness, ends finding (mem_sortedBy.mp member)⟩

/-- A taint path ends at its sink and meets it nowhere else. -/
theorem TaintPath.ends {cpg : CPG} {spec : Spec} {sink : NodeId} {fact : Fact} {path : List NodeId}
    (genuine : TaintPath cpg spec sink fact path)
    : ∃ front, path = front ++ [sink] ∧ sink ∉ front := by
  obtain ⟨front, rfl⟩ := List.getLast?_eq_some_iff.mp genuine.sink
  refine ⟨front, rfl, fun listed => ?_⟩
  exact (List.nodup_append.mp genuine.distinct).2.2 sink listed sink (List.mem_singleton_self _) rfl

/-- Among findings that end at their sink, as all findings of `solve` do, equal preimages of the
solution hash mean equal ordered triples.
Witness: the records delimit themselves, so their run is read in one way.
-/
theorem solution_hash_binds
    : (∀ (left right : List Finding) (leftIndex rightIndex : Dict NodeId Nat) (preimage : Bytes),
        (∀ finding ∈ left, finding.EndsAtSink)
        → (∀ finding ∈ right, finding.EndsAtSink)
        → hashSolution (fun bytes => bytes) left leftIndex = .ok preimage
        → hashSolution (fun bytes => bytes) right rightIndex = .ok preimage
        → orderedTriples leftIndex left = orderedTriples rightIndex right)
      ∧ ∀ (sha256 : Hash) (cpg : ValidCPG) (spec : Spec) (sVersion : Text) (envDigest : Bytes)
          (clock : Nat → Rat) (result : SolverResult),
          solve sha256 clock cpg.toCPG spec sVersion envDigest = .ok result
          → ∀ finding ∈ result.findings, finding.EndsAtSink := by
  constructor
  · intro left right leftIndex rightIndex preimage leftEnds rightEnds leftHashed rightHashed
    obtain ⟨leftWritten, leftDomain⟩ := hashSolution_preimage leftEnds leftHashed
    obtain ⟨rightWritten, rightDomain⟩ := hashSolution_preimage rightEnds rightHashed
    refine SelfDelimiting.flatMap_inj recordBytes_selfDelimiting (fun record _ => ?_) leftDomain
      rightDomain (leftWritten.symm.trans rightWritten)
    simp [recordBytes, pyb]
  · intro sha256 cpg spec sVersion envDigest clock result ran finding listed
    obtain ⟨_, order, _, sg, seeds, final, solved⟩ := solved_of_ok cpg.ready ran
    obtain ⟨item, path, traced, _, rfl⟩ := (solved.findings finding).mp listed
    exact (solved.explored.taintPath cpg.wellFormed traced).ends

/-- A finding with the fields that the solution hash does not read left out. -/
def bareFinding (sink : NodeId) (fact : Fact) (witness : List NodeId) : Finding where
  sink
  fact
  witness
  specId := []
  origin := []
  sVersion := []
  envDigest := []
  cpgOrderHash := []
  cpgOrderHashAnnotation := []
  fingerprintClass := .strong
  engine := .ifds

theorem solution_hash_binds_single
    : orderedTriples [] [bareFinding 4 0 [3, 4]] = orderedTriples [(4, 0)] [bareFinding 4 0 [3, 4]] := by
  refine solution_hash_binds.1 [bareFinding 4 0 [3, 4]] [bareFinding 4 0 [3, 4]] [] [(4, 0)]
    (recordBytes (4, 0, [3, 4])) ?_ ?_ (by decide) (by decide)
  · intro finding listed
    rw [List.mem_singleton.mp listed]
    exact ⟨[3], rfl, by decide⟩
  · intro finding listed
    rw [List.mem_singleton.mp listed]
    exact ⟨[3], rfl, by decide⟩

/-- Three nodes, two of whose ids begin and end with the separator. -/
def ambiguousIds : ValidCPG where
  nodes := [
    { nodeId := 0x7C00000000000000, kind := py "A" },
    { nodeId := 5, kind := py "B" },
    { nodeId := 0x7C, kind := py "C" }]
  accepted := by decide
  representable := ⟨by decide, by decide, by decide, by decide⟩

/-- The separator inside an id moves the boundary between two witnesses. -/
theorem solution_hash_ambiguous
    : ¬∀ (sha256 : Hash) (clock : Nat → Rat) (cpg : ValidCPG) (order : CanonicalOrderResult)
        (left right : List Finding) (preimage : Bytes),
        canonicalOrderFresh sha256 clock cpg.toCPG = .ok order
        → (∀ finding ∈ left ++ right,
            finding.sink ∈ cpg.nodeIds ∧ ∀ id ∈ finding.witness, id ∈ cpg.nodeIds)
        → hashSolution (fun bytes => bytes) left (canonIndexOf order.canonicalOrder) = .ok preimage
        → hashSolution (fun bytes => bytes) right (canonIndexOf order.canonicalOrder) = .ok preimage
        → orderedTriples (canonIndexOf order.canonicalOrder) left
          = orderedTriples (canonIndexOf order.canonicalOrder) right := by
  intro claimed
  have positive : 0 < defaultB := by decide
  obtain ⟨order, ordered⟩ := canonicalOrderFresh_returns (fun _ => []) ambiguousIds.ready positive
    (neverExpires_stopped 0)
  have computed : (canonicalOrderFresh (fun _ => []) (fun _ => 0) ambiguousIds.toCPG).toOption.map
      CanonicalOrderResult.canonicalOrder = some [0x7C00000000000000, 5, 0x7C] := by decide +kernel
  rw [ordered] at computed
  have listed : order.canonicalOrder = [0x7C00000000000000, 5, 0x7C] := Option.some.inj computed
  have same := claimed (fun _ => []) (fun _ => 0) ambiguousIds order
    [bareFinding 0x7C00000000000000 0 [0x7C00000000000000], bareFinding 0x7C 0x7C [5, 0x7C]]
    [bareFinding 0x7C00000000000000 0 [0x7C00000000000000, 0x7C00000000000000],
      bareFinding 0x7C 5 [0x7C]]
    (recordBytes (0x7C00000000000000, 0, [0x7C00000000000000]) ++ recordBytes (0x7C, 0x7C, [5, 0x7C]))
    ordered (by decide) (by rw [listed]; decide) (by rw [listed]; decide)
  rw [listed] at same
  revert same
  decide

end Scanipy.Analysis.Ifds

import Scanipy.Analysis.Fingerprint.Outcome
import Scanipy.Analysis.Ifds.Reachability

/-! Fingerprints of oracle findings: the sink at a source location gets the identity that a core
finding at the same sink gets.
-/

namespace Scanipy.Services.Scan

open Python Library Analysis Analysis.Ifds

structure SourceLocation where
  filename : Text
  line : Int
  column : Int

/-- A call first, then a known column, then the least column, then the least node. -/
def sinkKey (kind : Text) (location : SourceLocation) (nodeId : NodeId)
    : Bool ×ₗ Bool ×ₗ Int ×ₗ NodeId :=
  let other : Bool := kind ≠ py "CALL"
  let unknown : Bool := location.column = (0 : Int)
  toLex (other, toLex (unknown, toLex (location.column, nodeId)))

/-- The candidates on a line of a file, each as its sort key. -/
def sinkCandidates (cpg : CPG) (locations : Dict NodeId SourceLocation) (filename : Text)
    (line : Int) : List (Bool ×ₗ Bool ×ₗ Int ×ₗ NodeId) :=
  let inCpg := Dict.ofPairs (cpg.nodes.map fun node => (node.nodeId, node.kind))
  locations.filterMap fun entry =>
    match inCpg.get? entry.1 with
    | none => none
    | some kind =>
        if entry.2.filename ≠ filename ∨ entry.2.line ≠ line then
          none
        else
          some (sinkKey kind entry.2 entry.1)

def locateSinkNode (cpg : CPG) (locations : Dict NodeId SourceLocation) (filename : Text)
    (line : Int) : Option NodeId :=
  if line ≤ 0 ∨ filename = [] then
    none
  else
    (sinkCandidates cpg locations filename line).min?.map fun key =>
      (ofLex (ofLex (ofLex key).2).2).2

/-- `fingerprint_oracle_finding`: the sink alone is the witness. -/
def fingerprintOracleFinding (sha256 : Hash) (clock : Nat → Rat) (cpg : CPG)
    (locations : Dict NodeId SourceLocation) (filename : Text) (line : Int) (B : Int := defaultB)
    (T : Rat := defaultT) : Except AnalysisError (Option SliceFingerprintResult) :=
  match locateSinkNode cpg locations filename line with
  | none => .ok none
  | some sink => (computeSliceFingerprint sha256 clock cpg [sink] B T).map some

variable {spec : Spec} {scope : Option (PySet ProcId)}

/-- Taint flows along edges that the slice follows backwards. -/
theorem Flows.flowsInto {cpg : CPG} {source target : NodeId}
    (flows : Flows cpg spec scope source target)
    : source ∈ cpg.flowsInto target := by
  have along {kind : Text} (known : kind ∈ dataflowKinds)
      (edge : HasEdge cpg kind source target)
      : source ∈ cpg.flowsInto target := by
    obtain ⟨edge, member, rfl, rfl, rfl⟩ := edge
    exact List.mem_map_of_mem (List.mem_filter.mpr ⟨member, decide_eq_true ⟨known, rfl⟩⟩)
  rcases flows.2 with cfg | ⟨call, _⟩
  · exact along (by decide) cfg
  · exact along (by decide) call

/-- Every node of a chain of discoverers reaches its last, by induction on the chain. -/
theorem traced_reaches {cpg : CPG} {sg : ExplodedSupergraph} (describes : sg.Describes cpg)
    {seeds : List Item} {final : Frontier Item} (sound : final.Sound seeds (itemNext sg spec scope))
    {item : Item} {path : List Item} (traced : Traced final.found item path)
    : (path.map Prod.fst).getLast? = some item.1
      ∧ ∀ id ∈ path.map Prod.fst, cpg.Reaches id item.1 := by
  induction traced with
  | root listed =>
      refine ⟨rfl, fun id member => ?_⟩
      obtain rfl := List.mem_singleton.mp member
      exact .refl
  | @step item parent path listed before ih =>
      refine ⟨by simp, fun id member => ?_⟩
      rw [List.map_append, List.mem_append] at member
      rcases member with earlier | last
      · have flows := ((mem_itemNext describes).mp (sound.links _ _ listed)).2
        exact (ih.2 id earlier).tail (Flows.flowsInto flows)
      · obtain rfl := List.mem_singleton.mp last
        exact .refl

/-- A witness whose nodes all reach its last has the slice of its last. -/
theorem sliceMembers_sink_iff {cpg : CPG} {witness : List NodeId} {sink : NodeId}
    (last : witness.getLast? = some sink) (reaches : ∀ id ∈ witness, cpg.Reaches id sink)
    {members : List NodeId}
    : cpg.SliceMembers witness members ↔ cpg.SliceMembers [sink] members := by
  have same (id : NodeId) : cpg.OnSlice witness sink id ↔ cpg.OnSlice [sink] sink id := by
    unfold CPG.OnSlice
    constructor
    · rintro (seed | path)
      · exact .inr (reaches id seed)
      · exact .inr path
    · rintro (seed | path)
      · exact .inl (List.mem_singleton.mp seed ▸ List.mem_of_getLast? last)
      · exact .inr path
  constructor
  · rintro ⟨distinct, ascending, known, other, otherLast, onSlice⟩
    obtain rfl : sink = other := Option.some.inj (last.symm.trans otherLast)
    exact ⟨distinct, ascending, known, sink, rfl, fun id => (onSlice id).trans (same id)⟩
  · rintro ⟨distinct, ascending, known, other, otherLast, onSlice⟩
    obtain rfl : sink = other := Option.some.inj otherLast
    exact ⟨distinct, ascending, known, sink, last, fun id => (onSlice id).trans (same id).symm⟩

variable {sha256 : Hash} {cpg : ValidCPG} {clock : Nat → Rat} {finding : Finding}

/-- The nodes of the witness of a finding are known and reach its sink. -/
theorem solve_witness {sVersion : Text} {envDigest : Bytes} {result : SolverResult}
    (ran : solve sha256 clock cpg.toCPG spec sVersion envDigest = .ok result)
    (found : finding ∈ result.findings)
    : finding.witness.getLast? = some finding.sink
      ∧ finding.sink ∈ cpg.nodeIds
      ∧ ∀ id ∈ finding.witness, cpg.Reaches id finding.sink := by
  obtain ⟨_, order, _, sg, seeds, final, solved⟩ := solved_of_ok cpg.ready ran
  obtain ⟨item, path, traced, _, rfl⟩ := (solved.findings finding).mp found
  obtain ⟨sound, _⟩ := solved.explored.tabulated.sound
  obtain ⟨last, reaches⟩ := traced_reaches solved.explored.describes sound traced
  exact ⟨last, (solved.explored.inside cpg.wellFormed traced.mem_found).1, reaches⟩

-- One identity at one sink

/-- A run of the solver on the graph emits the finding. -/
def Emitted (sha256 : Hash) (cpg : CPG) (finding : Finding) : Prop :=
  ∃ clock spec sVersion envDigest result,
    solve sha256 clock cpg spec sVersion envDigest = .ok result ∧ finding ∈ result.findings

/-- A run on the witness of the finding returns the fingerprint, and it is strong. -/
def StronglyIdentified (sha256 : Hash) (cpg : CPG) (finding : Finding) (B : Int)
    (fingerprint : SliceFingerprintResult) : Prop :=
  (∃ clock T, computeSliceFingerprint sha256 clock cpg finding.witness B T = .ok fingerprint)
  ∧ fingerprint.fingerprintClass = .strong

/-- Equal digests, classes and namespaces. -/
structure SameIdentity (left right : SliceFingerprintResult) : Prop where
  sliceFingerprint : left.sliceFingerprint = right.sliceFingerprint
  fingerprintClass : left.fingerprintClass = right.fingerprintClass
  identityNamespace : left.identityNamespace = right.identityNamespace

theorem Emitted.witness (emitted : Emitted sha256 cpg.toCPG finding)
    : finding.sink ∈ cpg.nodeIds
      ∧ ∀ members,
        cpg.SliceMembers finding.witness members ↔ cpg.SliceMembers [finding.sink] members := by
  obtain ⟨clock, spec, sVersion, envDigest, result, ran, found⟩ := emitted
  obtain ⟨last, known, reaches⟩ := solve_witness ran found
  exact ⟨known, fun members => sliceMembers_sink_iff last reaches⟩

variable {B : Int} {fingerprint : SliceFingerprintResult}

/-- A strong fingerprint of a finding is that of the slice of its sink, within the budget. -/
theorem StronglyIdentified.slice (emitted : Emitted sha256 cpg.toCPG finding)
    (identified : StronglyIdentified sha256 cpg.toCPG finding B fingerprint)
    : 0 < B
      ∧ ∃ members,
        cpg.SliceMembers [finding.sink] members
        ∧ (cpg.extract members).strongCost ≤ B
        ∧ fingerprint.sliceFingerprint = (cpg.extract members).strongHash sha256
        ∧ fingerprint.identityNamespace = sliceIdentityNamespace := by
  obtain ⟨⟨clock, T, ran⟩, strong⟩ := identified
  obtain ⟨positive, members, sliced, rest⟩ := compute_strong ran strong
  exact ⟨positive, members, (emitted.witness.2 members).mp sliced, rest⟩

/-- The sink alone, within the same budget, has the identity of the finding. -/
theorem StronglyIdentified.sink (emitted : Emitted sha256 cpg.toCPG finding)
    (identified : StronglyIdentified sha256 cpg.toCPG finding B fingerprint) {T : Rat}
    {oracle : SliceFingerprintResult}
    (ran : computeSliceFingerprint sha256 clock cpg.toCPG [finding.sink] B T = .ok oracle)
    : SameIdentity fingerprint oracle := by
  obtain ⟨_, members, sliced, cost, hash, identity⟩ := identified.slice emitted
  obtain ⟨others, again, reports⟩ := compute_reports ran
  obtain rfl := sliced.unique again
  rcases reports with ⟨_, strong, _⟩ | ⟨short, _, _⟩
  · obtain ⟨_, images, listed, _, oracleHash, oracleIdentity⟩ := compute_strong ran strong
    obtain rfl := sliced.unique listed
    exact ⟨hash.trans oracleHash.symm, identified.2.trans strong.symm,
      identity.trans oracleIdentity.symm⟩
  · omega

/-- The slice of the witness of a finding is the slice of its sink alone. A strong fingerprint of
the finding has the identity that an oracle finding located at the sink gets with the same budget,
and that of every other strong finding at the sink.
-/
theorem oracle_finding_identity (sha256 : Hash) (cpg : ValidCPG) (finding : Finding)
    (emitted : Emitted sha256 cpg.toCPG finding)
    : (∃ slice sinkSlice,
        backwardInterproceduralSlice cpg.toCPG finding.witness = .ok slice
        ∧ backwardInterproceduralSlice cpg.toCPG [finding.sink] = .ok sinkSlice
        ∧ slice.cpg = sinkSlice.cpg)
      ∧ ∀ B fingerprint, StronglyIdentified sha256 cpg.toCPG finding B fingerprint
        → (∀ locations filename line,
            locateSinkNode cpg.toCPG locations filename line = some finding.sink
            → ∀ clock T,
              (NeverExpires clock T
                → ∃ oracle, fingerprintOracleFinding sha256 clock cpg.toCPG locations filename line B
                  T = .ok (some oracle))
              ∧ ∀ outcome,
                fingerprintOracleFinding sha256 clock cpg.toCPG locations filename line B T
                    = .ok outcome
                → ∃ oracle, outcome = some oracle ∧ SameIdentity fingerprint oracle)
          ∧ ∀ other otherB otherFingerprint,
            Emitted sha256 cpg.toCPG other → other.sink = finding.sink
            → StronglyIdentified sha256 cpg.toCPG other otherB otherFingerprint
            → SameIdentity fingerprint otherFingerprint := by
  obtain ⟨known, members⟩ := emitted.witness
  have sinkKnown : [finding.sink] ⊆ cpg.nodeIds := by simpa using known
  constructor
  · obtain ⟨nodes, sliced, same⟩ :=
      backwardInterproceduralSlice_eq_ok cpg.wellFormed sinkKnown rfl
    exact ⟨_, _, (backwardInterproceduralSlice_ok_iff cpg.wellFormed).mpr
      ⟨nodes, (members nodes).mpr sliced, rfl⟩, same, rfl⟩
  · intro B fingerprint identified
    obtain ⟨positive, nodes, sliced, _, hash, identity⟩ := identified.slice emitted
    refine ⟨fun locations filename line located clock T => ⟨fun alive => ?_, ?_⟩, ?_⟩
    · obtain ⟨oracle, ran⟩ :=
        compute_returns sha256 cpg (List.cons_ne_nil _ _) sinkKnown positive alive
      refine ⟨oracle, ?_⟩
      rw [fingerprintOracleFinding, located]
      dsimp only
      rw [ran]
      rfl
    · intro outcome ran
      rw [fingerprintOracleFinding, located] at ran
      dsimp only at ran
      cases computed
          : computeSliceFingerprint sha256 clock cpg.toCPG [finding.sink] B T with
      | error raised =>
          rw [computed] at ran
          cases ran
      | ok oracle =>
          rw [computed] at ran
          cases ran
          exact ⟨oracle, rfl, identified.sink emitted computed⟩
    · intro other otherB otherFingerprint otherEmitted sameSink otherIdentified
      obtain ⟨_, others, again, _, otherHash, otherIdentity⟩ := otherIdentified.slice otherEmitted
      rw [sameSink] at again
      obtain rfl := sliced.unique again
      exact ⟨hash.trans otherHash.symm, identified.2.trans otherIdentified.2.symm,
        identity.trans otherIdentity.symm⟩

/-- SHA-256 on the inputs hashed for the graph, its finding and the slice of its sink. -/
def sinkSha256 : Hash :=
  let slice := (logging.toCPG.extract [2, 3, 4]).normalForm
  tableHash [
    (orderDomain .strong ++ encodedGraph logging.toCPG [1, 4, 3, 2, 0],
      0x42a7c6ad0dd4ac390b5833340eb185a623b928c3e4635edceca61c0fdc9e5eae),
    (toBytes 8 4 ++ toBytes 8 0 ++ toBytes 8 3 ++ toBytes 8 4 ++ pyb "|",
      0xd50fa2c2a73c23270ef00c498fa9dabbff8ea0ce085499fd994671b87cd651d7),
    (orderDomain .strong ++ encodedGraph slice [2, 1, 0],
      0xb6a0ef5cbcfd4faebf24066e498150401a89b5d6d76eb3fb5b37776aaf65219d),
    (strongSliceDomain ++ encodedGraph slice [2, 1, 0],
      0x92ed3bcc328537c1b008632a164c1b2c4aeec0c6a62cfc35252bc39816271566)]

/-- The sink of the graph stands on line 3, next to a call before it. -/
def sinkLocations : Dict NodeId SourceLocation :=
  [(3, ⟨py "f.py", 2, 4⟩), (4, ⟨py "f.py", 3, 4⟩), (0, ⟨py "f.py", 3, 0⟩)]

theorem eq_ok_of_toOption {α ε : Type} {outcome : Except ε α} {value : α}
    (returned : outcome.toOption = some value)
    : outcome = .ok value := by
  cases outcome with
  | error raised => cases returned
  | ok other => exact congrArg Except.ok (Option.some.inj returned)

theorem oracle_finding_identity_logging
    : ∃ finding fingerprint oracle,
        Emitted sinkSha256 logging.toCPG finding
        ∧ StronglyIdentified sinkSha256 logging.toCPG finding 2 fingerprint
        ∧ fingerprintOracleFinding sinkSha256 (fun _ => 5) logging.toCPG sinkLocations (py "f.py") 3
          2 = .ok (some oracle)
        ∧ SameIdentity fingerprint oracle := by
  have solved : (solve sinkSha256 (fun _ => 0) logging.toCPG commandInjection (py "v1") [1]
      ).toOption.map (fun result => result.findings.map fun finding =>
        (finding.sink, finding.witness)) = some [(4, [3, 4])] := by
    decide +kernel
  obtain ⟨result, returned, findings⟩ := Option.map_eq_some_iff.mp solved
  obtain ⟨finding, rest, same, atSink, _⟩ := List.map_eq_cons_iff.mp findings
  obtain ⟨sink, witness⟩ := Prod.mk.inj atSink
  have emitted : Emitted sinkSha256 logging.toCPG finding :=
    ⟨_, _, _, _, result, eq_ok_of_toOption returned, same ▸ List.mem_cons_self⟩
  have computed : (computeSliceFingerprint sinkSha256 (fun _ => 0) logging.toCPG [3, 4] 2 defaultT
      ).toOption.map SliceFingerprintResult.fingerprintClass = some .strong := by
    decide +kernel
  obtain ⟨fingerprint, ran, strong⟩ := Option.map_eq_some_iff.mp computed
  have identified : StronglyIdentified sinkSha256 logging.toCPG finding 2 fingerprint := by
    refine ⟨⟨fun _ => 0, defaultT, ?_⟩, strong⟩
    rw [witness]
    exact eq_ok_of_toOption ran
  have located : locateSinkNode logging.toCPG sinkLocations (py "f.py") 3 = some finding.sink := by
    rw [sink]
    decide
  obtain ⟨returns, agrees⟩ :=
    ((oracle_finding_identity sinkSha256 logging finding emitted).2 2 fingerprint identified).1
      sinkLocations (py "f.py") 3 located (fun _ => 5) defaultT
  obtain ⟨oracle, outcome⟩ := returns (neverExpires_stopped 5)
  obtain ⟨other, same, agree⟩ := agrees _ outcome
  obtain rfl := Option.some.inj same
  exact ⟨finding, fingerprint, oracle, emitted, identified, outcome, agree⟩

end Scanipy.Services.Scan

import Scanipy.Analysis.Ifds.Region

/-! Incremental runs after an edit: when the findings kept from the old graph are those of the
new one.
-/

namespace Scanipy.Analysis.Ifds

open Library Python

/-- The node belongs to no affected procedure. -/
def Outside (sha256 : Hash) (affected : List ProcId) (cpg : CPG) (id : NodeId) : Prop :=
  ∀ pid ∈ affected, procedureOf sha256 cpg id ≠ some pid

instance (sha256 : Hash) (affected : List ProcId) (cpg : CPG) (id : NodeId)
    : Decidable (Outside sha256 affected cpg id) :=
  inferInstanceAs (Decidable (∀ _ ∈ _, _))

def outsideNodes (sha256 : Hash) (affected : List ProcId) (cpg : CPG) : List CPGNode :=
  cpg.nodes.filter fun node => Outside sha256 affected cpg node.nodeId

def outsideEdges (sha256 : Hash) (affected : List ProcId) (cpg : CPG) : List CPGEdge :=
  cpg.edges.filter fun edge =>
    Outside sha256 affected cpg edge.src ∧ Outside sha256 affected cpg edge.dst

/-- Nodes and edges outside the affected procedures are identical. -/
structure UnchangedOutside (sha256 : Hash) (affected : List ProcId) (old new : CPG) : Prop where
  nodes : ∀ node, node ∈ outsideNodes sha256 affected old ↔ node ∈ outsideNodes sha256 affected new
  edges : ∀ edge, edge ∈ outsideEdges sha256 affected old ↔ edge ∈ outsideEdges sha256 affected new

/-- The first procedure calls the second. -/
def CallsProcedure (sha256 : Hash) (cpg : CPG) (caller callee : ProcId) : Prop :=
  MethodAt cpg callee
  ∧ ∃ src, HasEdge cpg callEdge src callee ∧ procedureOf sha256 cpg src = some caller

/-- The affected procedures and their transitive callers. -/
def CallerClosure (sha256 : Hash) (cpg : CPG) (affected : List ProcId) (pid : ProcId) : Prop :=
  ∃ start ∈ affected, Relation.ReflTransGen (CallsProcedure sha256 cpg) pid start

/-- No procedure of the closure calls one outside it. -/
def NoCallsOut (sha256 : Hash) (cpg : CPG) (closure : ProcId → Prop) : Prop :=
  ∀ caller callee, closure caller → CallsProcedure sha256 cpg caller callee → closure callee

/-- The node is in the graph and belongs to no procedure of the closure. -/
def Untouched (sha256 : Hash) (affected : List ProcId) (cpg : CPG) (id : NodeId) : Prop :=
  id ∈ cpg.nodeIds
  ∧ ∀ pid, procedureOf sha256 cpg id = some pid → ¬CallerClosure sha256 cpg affected pid

/-- The edit deletes no sink that was reached; and if a source of the untouched part reaches a
sink there, the edit changes neither the identity of the graph, nor the number of matches
before the source, nor the path by which the search in canonical order first comes from the
source to the sink.
-/
structure Harmless (sha256 : Hash) (affected : List ProcId) (spec : Spec) (old new : CPG)
    (oldOrder newOrder : CanonicalOrderResult) : Prop where
  sinksKept : ∀ source sink,
    IsSource spec (old.nodeAt source)
    → (∃ pid, Owns old pid source)
    → isSink spec (old.nodeAt sink) = true
    → Relation.ReflTransGen (TaintStep old spec) source sink
    → sink ∈ new.nodeIds
  identity : ∀ source sink,
    RegionFlow new spec (Untouched sha256 affected new) source sink
    → oldOrder.cpgOrderHash = newOrder.cpgOrderHash
      ∧ oldOrder.fingerprintClass = newOrder.fingerprintClass
  numbering : ∀ source sink,
    RegionFlow new spec (Untouched sha256 affected new) source sink
    → firstFact old spec source = firstFact new spec source
  paths : ∀ source sink,
    RegionFlow new spec (Untouched sha256 affected new) source sink
    → ∃ path,
        FirstPath (fun id => oldOrder.canonicalOrder.idxOf id)
          (RegionStep new spec (Untouched sha256 affected new)) source sink path
        ∧ FirstPath (fun id => newOrder.canonicalOrder.idxOf id)
          (RegionStep new spec (Untouched sha256 affected new)) source sink path

variable {pid : ProcId} {id : NodeId}

section Procedures

variable {sha256 : Hash} {cpg : CPG} (ready : cpg.Ready)

include ready

theorem procedureOf_describes (sha256 : Hash)
    : ∃ sg : ExplodedSupergraph, sg.Describes cpg ∧ procedureOf sha256 cpg = sg.procOfNode.get? := by
  have positive : 0 < defaultB := by decide
  obtain ⟨order, ordered⟩ :=
    canonicalOrderFresh_returns sha256 ready positive (neverExpires_stopped 0)
  obtain ⟨sg, built, describes⟩ := buildSupergraph_ok ready.wellFormed order.canonicalOrder
  exact ⟨sg, describes, procedureOf_eq ready ordered built⟩

theorem procedureOf_method (method : MethodAt cpg pid)
    : procedureOf sha256 cpg pid = some pid := by
  obtain ⟨sg, describes, same⟩ := procedureOf_describes ready sha256
  rw [same]
  exact describes.method method

theorem procedureOf_owns (owned : procedureOf sha256 cpg id = some pid)
    : Owns cpg pid id := by
  obtain ⟨sg, describes, same⟩ := procedureOf_describes ready sha256
  rw [same] at owned
  exact describes.owned id pid owned

theorem exists_owns_iff (sha256 : Hash)
    : (∃ pid, Owns cpg pid id) ↔ ∃ pid, procedureOf sha256 cpg id = some pid := by
  obtain ⟨sg, describes, same⟩ := procedureOf_describes ready sha256
  rw [same]
  constructor
  · rintro ⟨pid, owns⟩
    cases owned : sg.procOfNode.get? id with
    | none => exact absurd owns (describes.unowned id pid owned)
    | some owner => exact ⟨owner, rfl⟩
  · rintro ⟨pid, owned⟩
    exact ⟨pid, describes.owned id pid owned⟩

end Procedures

variable {target : NodeId}

section Unchanged

variable {sha256 : Hash} {affected : List ProcId} {old new : CPG}
  (unchanged : UnchangedOutside sha256 affected old new)

include unchanged

theorem UnchangedOutside.symm : UnchangedOutside sha256 affected new old :=
  ⟨fun node => (unchanged.nodes node).symm, fun edge => (unchanged.edges edge).symm⟩

theorem UnchangedOutside.node (oldDistinct : old.nodeIds.Nodup) (newDistinct : new.nodeIds.Nodup)
    (known : id ∈ old.nodeIds) (outside : Outside sha256 affected old id)
    : id ∈ new.nodeIds ∧ Outside sha256 affected new id ∧ old.nodeAt id = new.nodeAt id := by
  obtain ⟨node, member, rfl⟩ := List.mem_map.mp known
  have kept : node ∈ outsideNodes sha256 affected old :=
    List.mem_filter.mpr ⟨member, decide_eq_true outside⟩
  obtain ⟨newMember, newOutside⟩ := List.mem_filter.mp ((unchanged.nodes node).mp kept)
  refine ⟨List.mem_map_of_mem newMember, of_decide_eq_true newOutside, ?_⟩
  rw [CPG.nodeAt_of_mem oldDistinct member, CPG.nodeAt_of_mem newDistinct newMember]

theorem UnchangedOutside.edge {kind : Text} {source : NodeId}
    (edge : HasEdge old kind source target) (sourceOutside : Outside sha256 affected old source)
    (targetOutside : Outside sha256 affected old target)
    : HasEdge new kind source target := by
  obtain ⟨listed, member, sameKind, rfl, rfl⟩ := edge
  have kept : listed ∈ outsideEdges sha256 affected old :=
    List.mem_filter.mpr ⟨member, decide_eq_true ⟨sourceOutside, targetOutside⟩⟩
  exact ⟨listed, (List.mem_filter.mp ((unchanged.edges listed).mp kept)).1, sameKind, rfl, rfl⟩

/-- A node outside keeps an owner that is a procedure outside. -/
theorem UnchangedOutside.owned (oldReady : old.Ready) (newReady : new.Ready)
    (known : id ∈ old.nodeIds) (outside : Outside sha256 affected old id)
    (owned : ∃ pid, Owns old pid id)
    : ∃ pid, Owns new pid id := by
  obtain ⟨pid, procedure⟩ := (exists_owns_iff oldReady sha256).mp owned
  obtain ⟨_, method, rule⟩ := procedureOf_owns oldReady procedure
  have methodOutside : Outside sha256 affected old pid := by
    intro other member same
    rw [procedureOf_method oldReady method] at same
    exact outside other member (same ▸ procedure)
  have distinct := oldReady.wellFormed.distinct
  have newDistinct := newReady.wellFormed.distinct
  obtain ⟨newKnown, _, sameNode⟩ := unchanged.node distinct newDistinct known outside
  obtain ⟨methodKnown, _, sameMethod⟩ := unchanged.node distinct newDistinct method.1 methodOutside
  refine ⟨pid, newKnown, ⟨methodKnown, sameMethod ▸ method.2⟩, ?_⟩
  rw [← sameNode, ← sameMethod]
  exact rule

end Unchanged

variable {cpg : CPG}

section Edit

variable {sha256 : Hash} {affected : List ProcId} {old new : CPG} (oldReady : old.Ready)
  (newReady : new.Ready) (oldIntra : IntraProcedural sha256 old)
  (newIntra : IntraProcedural sha256 new) (unchanged : UnchangedOutside sha256 affected old new)
  (oldCalls : NoCallsOut sha256 old (CallerClosure sha256 new affected))
  (newCalls : NoCallsOut sha256 new (CallerClosure sha256 new affected)) (spec : Spec)

theorem Untouched.outside (untouched : Untouched sha256 affected cpg id)
    : Outside sha256 affected cpg id := by
  intro pid member owned
  exact untouched.2 pid owned ⟨pid, member, .refl⟩

include newReady in
theorem Untouched.method (untouched : Untouched sha256 affected new pid) (method : MethodAt new pid)
    : ¬CallerClosure sha256 new affected pid :=
  untouched.2 pid (procedureOf_method newReady method)

include newReady newIntra newCalls in
/-- What flows along an edge of the new graph into the untouched part comes from it. -/
theorem Untouched.source {source : NodeId} (untouched : Untouched sha256 affected new target)
    (edge : HasEdge new cfgEdge source target
      ∨ (HasEdge new callEdge source target ∧ MethodAt new target))
    : Untouched sha256 affected new source := by
  rcases edge with edge | ⟨edge, method⟩
  · refine ⟨(edge.known newReady.wellFormed).1, fun pid owned => ?_⟩
    obtain ⟨listed, member, kind, rfl, rfl⟩ := edge
    exact untouched.2 pid ((newIntra listed member kind).2 ▸ owned)
  · refine ⟨(edge.known newReady.wellFormed).1, fun pid owned inClosure => ?_⟩
    exact untouched.method newReady method (newCalls pid target inClosure ⟨method, source, edge, owned⟩)

include newReady newIntra newCalls in
theorem region_new : Region new new spec (Untouched sha256 affected new) where
  same _ untouched := ⟨untouched.1, rfl⟩
  back _ _ step untouched := untouched.source newReady newIntra newCalls step.2
  steps _ _ _ _ := Iff.rfl
  owned _ _ := Iff.rfl

include oldReady newReady unchanged in
/-- An untouched node is the same node of the old graph, outside the affected procedures. -/
theorem Untouched.before (untouched : Untouched sha256 affected new id)
    : id ∈ old.nodeIds ∧ Outside sha256 affected old id ∧ old.nodeAt id = new.nodeAt id := by
  obtain ⟨known, outside, same⟩ := unchanged.symm.node newReady.wellFormed.distinct
    oldReady.wellFormed.distinct untouched.1 untouched.outside
  exact ⟨known, outside, same.symm⟩

include oldReady newReady oldIntra newIntra unchanged oldCalls newCalls in
theorem region_old : Region old new spec (Untouched sha256 affected new) := by
  have kept {id : NodeId} (untouched : Untouched sha256 affected new id) :=
    untouched.before oldReady newReady unchanged
  have sameMethod {id : NodeId} (untouched : Untouched sha256 affected new id)
      : MethodAt old id ↔ MethodAt new id := by
    obtain ⟨known, _, same⟩ := kept untouched
    rw [MethodAt, MethodAt, same]
    exact ⟨fun method => ⟨untouched.1, method.2⟩, fun method => ⟨known, method.2⟩⟩
  refine ⟨fun id untouched => ⟨(kept untouched).1, (kept untouched).2.2⟩,
    fun source target step untouched => ?_, fun source target sourceUntouched untouched => ?_,
    fun id untouched => ?_⟩
  · obtain ⟨_, targetOutside, _⟩ := kept untouched
    refine untouched.source newReady newIntra newCalls ?_
    rcases step.2 with edge | ⟨edge, method⟩
    · -- both ends have one procedure, which is not affected
      refine .inl (unchanged.edge edge (fun pid member owned => ?_) targetOutside)
      obtain ⟨listed, listedMember, kind, rfl, rfl⟩ := edge
      exact targetOutside pid member ((oldIntra listed listedMember kind).2 ▸ owned)
    · -- an affected caller would call out of the closure
      have newMethod := (sameMethod untouched).mp method
      refine .inr ⟨unchanged.edge edge (fun pid member owned => ?_) targetOutside, newMethod⟩
      exact untouched.method newReady newMethod
        (oldCalls pid target ⟨pid, member, .refl⟩ ⟨method, source, edge, owned⟩)
  · obtain ⟨_, sourceOutside, sameSource⟩ := kept sourceUntouched
    obtain ⟨_, targetOutside, _⟩ := kept untouched
    have sameEdge (kind : Text) : HasEdge old kind source target ↔ HasEdge new kind source target :=
      ⟨fun edge => unchanged.edge edge sourceOutside targetOutside, fun edge =>
        unchanged.symm.edge edge sourceUntouched.outside untouched.outside⟩
    rw [TaintStep, TaintStep, sameSource, sameEdge, sameEdge, sameMethod untouched]
  · obtain ⟨known, outside, _⟩ := kept untouched
    exact ⟨unchanged.owned oldReady newReady known outside,
      unchanged.symm.owned newReady oldReady untouched.1 untouched.outside⟩

end Edit

-- Kept findings

variable {sha256 : Hash}

/-- The closure of the supergraph is the closure of the graph. -/
theorem inClosure_iff {sg : ExplodedSupergraph} (describes : sg.Describes cpg)
    (same : procedureOf sha256 cpg = sg.procOfNode.get?) {affected : List ProcId}
    : sg.InClosure affected pid ↔ CallerClosure sha256 cpg affected pid := by
  have calls : sg.Calls = CallsProcedure sha256 cpg := by
    funext caller callee
    rw [ExplodedSupergraph.Calls, describes.callers, CallsProcedure, same]
  rw [ExplodedSupergraph.InClosure, CallerClosure, calls]

section Kept

variable {sha256 : Hash} {affected : List ProcId} {spec : Spec} {sVersion : Text}
  {envDigest : Bytes} {old new : CPG} {oldOrder newOrder : CanonicalOrderResult}
  {oldSg newSg : ExplodedSupergraph} {oldSeeds newSeeds : List Item}
  {oldFinal newFinal : Frontier Item} {prior full : SolverResult} (oldFormed : old.WellFormed)
  (newFormed : new.WellFormed)
  (oldSolved : Solved sha256 old spec sVersion envDigest oldOrder oldSg oldSeeds oldFinal prior)
  (newSolved : Solved sha256 new spec sVersion envDigest newOrder newSg newSeeds newFinal full)
  (oldRegion : Region old new spec (Untouched sha256 affected new))
  (newRegion : Region new new spec (Untouched sha256 affected new))

include oldFormed newFormed oldSolved newSolved oldRegion newRegion

/-- An edit is harmless when prior findings keep their sinks and, in the untouched part, are
those of the new graph.
-/
theorem harmless_iff
    : Harmless sha256 affected spec old new oldOrder newOrder
      ↔ (∀ finding ∈ prior.findings, finding.sink ∈ new.nodeIds)
        ∧ ∀ finding,
            Untouched sha256 affected new finding.sink
            → (finding ∈ prior.findings ↔ finding ∈ full.findings) := by
  have provenances (hashes : oldOrder.cpgOrderHash = newOrder.cpgOrderHash)
      (classes : oldOrder.fingerprintClass = newOrder.fingerprintClass)
      : provenanceOf spec sVersion envDigest oldOrder
        = provenanceOf spec sVersion envDigest newOrder := by
    rw [provenanceOf, provenanceOf, hashes, classes]
  constructor
  · intro harmless
    refine ⟨fun finding member => ?_, fun finding untouched => ?_⟩
    · obtain ⟨item, path, chain, atSink, rfl⟩ := (oldSolved.findings finding).mp member
      obtain ⟨source, introduces, inScope, reaches⟩ :=
        oldSolved.explored.mem_known_iff.mp chain.mem_found
      rw [flows_none] at reaches
      exact harmless.sinksKept source item.1 (introduces.isSource oldFormed.distinct)
        (oldSolved.explored.owned_iff.mp inScope) atSink reaches
    · rw [oldSolved.findings, newSolved.findings]
      constructor
      · refine oldRegion.readOut_transfer newRegion oldFormed newFormed oldSolved.explored
          newSolved.explored rfl rfl untouched fun source flow => ?_
        obtain ⟨hashes, classes⟩ := harmless.identity _ _ flow
        exact ⟨provenances hashes classes, harmless.numbering _ _ flow, harmless.paths _ _ flow⟩
      · refine newRegion.readOut_transfer oldRegion newFormed oldFormed newSolved.explored
          oldSolved.explored rfl rfl untouched fun source flow => ?_
        obtain ⟨hashes, classes⟩ := harmless.identity _ _ flow
        obtain ⟨path, oldPath, newPath⟩ := harmless.paths _ _ flow
        exact ⟨(provenances hashes classes).symm, (harmless.numbering _ _ flow).symm, path, newPath,
          oldPath⟩
  · rintro ⟨sinks, kept⟩
    have agree {source sink : NodeId}
        (flow : RegionFlow new spec (Untouched sha256 affected new) source sink) :=
      oldRegion.agree_of_readOut newRegion oldFormed newFormed oldSolved.explored
        newSolved.explored rfl rfl (fun finding untouched read => by
          have both := kept finding untouched
          rw [oldSolved.findings, newSolved.findings] at both
          exact both.mp read) flow
    refine ⟨fun source sink atSource owned atSink reaches => ?_, fun _ _ flow => (agree flow).1,
      fun _ _ flow => (agree flow).2.1, fun _ _ flow => (agree flow).2.2⟩
    have introduces := introduces_firstFact oldFormed.distinct owned.choose_spec.1 atSource
    have member : (sink, firstFact old spec source) ∈ oldFinal.known := by
      refine oldSolved.explored.mem_known_iff.mpr
        ⟨source, introduces, oldSolved.explored.owned_iff.mpr owned, ?_⟩
      rw [flows_none]
      exact reaches
    obtain ⟨finding, read, rfl, _⟩ := (oldSolved.explored.exists_readOut_iff
      (provenanceOf spec sVersion envDigest oldOrder) sink (firstFact old spec source)).mpr
        ⟨atSink, member⟩
    exact sinks finding ((oldSolved.findings finding).mpr read)

end Kept

/-- A graph without CALL edges has no calls out. -/
theorem noCallsOut_of_none (closure : ProcId → Prop)
    (none : ∀ edge ∈ cpg.edges, edge.kind ≠ callEdge)
    : NoCallsOut sha256 cpg closure := by
  rintro caller callee _ ⟨_, src, ⟨edge, member, kind, _⟩, _⟩
  exact absurd kind (none edge member)

/-- Only procedure `g` changes. -/
theorem reading_unchanged : UnchangedOutside taintSha256 [0] logging.toCPG reading.toCPG := by
  have nodes : outsideNodes taintSha256 [0] logging.toCPG
      = outsideNodes taintSha256 [0] reading.toCPG := by decide +kernel
  have edges : outsideEdges taintSha256 [0] logging.toCPG
      = outsideEdges taintSha256 [0] reading.toCPG := by decide +kernel
  exact ⟨fun node => by rw [nodes], fun edge => by rw [edges]⟩

/-- The finding in `f`, with its fact and the hash of the graph it was found in. -/
def execFinding (fact : Fact) (orderHash : Nat) : Finding :=
  Provenance.finding
    {
      spec := commandInjection, sVersion := py "v1", envDigest := toBytes 1 1
      cpgOrderHash := toBytes 32 orderHash, fingerprintClass := .strong
    }
    (4, fact) [3, 4]

/-- What `solve` returns for the graph before the edit. -/
def loggingResult : SolverResult where
  findings :=
    [execFinding 0 0x42a7c6ad0dd4ac390b5833340eb185a623b928c3e4635edceca61c0fdc9e5eae]
  solutionHash := toBytes 32 0xd50fa2c2a73c23270ef00c498fa9dabbff8ea0ce085499fd994671b87cd651d7
  visitedProcs := [2]
  summaries := { header := (py "v1", toBytes 1 1), summaries := [(2, [])], visited := [2] }

end Scanipy.Analysis.Ifds

import Mathlib.Data.Multiset.Filter
import Scanipy.Analysis.CpgDelta.Engine

/-! What an incremental build keeps, reparses and reports. -/

namespace Scanipy.Analysis.CpgDelta

open Library Python

/-- One name leads to another in a view of the graph. -/
def Leads (graph : Dict Text (PySet Text)) (source target : Text) : Prop :=
  target ∈ graph.getD source []

variable {name : Text}

/-- `_transitive_closure` lists exactly what the seeds lead to. -/
theorem mem_transitiveClosure {seeds : PySet Text} (distinct : seeds.Nodup)
    (graph : Dict Text (PySet Text))
    : name ∈ transitiveClosure seeds graph
      ↔ ∃ seed ∈ seeds, Relation.ReflTransGen (Leads graph) seed name := by
  have inside {source target : Text} (leads : Leads graph source target)
      : target ∈ graph.flatMap Prod.snd := by
    unfold Leads Dict.getD at leads
    cases found : graph.get? source with
    | none => simp [found] at leads
    | some targets =>
        rw [found] at leads
        exact List.mem_flatMap.mpr ⟨(source, targets), Dict.mem_of_get? found, leads⟩
  have bounded (source : Text) : graph.getD source [] ⊆ seeds ++ graph.flatMap Prod.snd :=
    fun target leads => List.mem_append_right _ (inside leads)
  refine Worklist.mem_closure_iff (fun source _ => bounded source)
    (List.subset_append_left _ _) distinct ?_
  · simp [List.length_flatMap]

/-- The affected declarations: the changed ones, what leads on from them by reverse symbols, their
direct callers, and the declarations in the cone of the changed types.
-/
theorem mem_computeAffected {changedDecls changedTypes : PySet Text} (decls : changedDecls.Nodup)
    (types : changedTypes.Nodup) (graph : GraphView)
    : name ∈ computeAffected changedDecls changedTypes graph
      ↔ (∃ decl ∈ changedDecls, Relation.ReflTransGen (Leads graph.reverseSymbolIndex) decl name)
        ∨ (∃ callees, (name, callees) ∈ graph.callGraph ∧ ∃ callee ∈ callees, callee ∈ changedDecls)
        ∨ ∃ type ∈ changedTypes, ∃ cone,
            Relation.ReflTransGen (Leads graph.classHierarchy) type cone
            ∧ (name, cone) ∈ graph.declToType := by
  simp only [computeAffected, PySet.mem_update, mem_transitiveClosure decls, directCallers,
    List.mem_map, List.mem_filter, List.any_eq_true, decide_eq_true_eq, mem_transitiveClosure types]
  constructor
  · rintro (((changed | closed) | (none | ⟨⟨_, callees⟩, ⟨listed, called⟩, rfl⟩)) | ⟨⟨_, cone⟩, ⟨listed,
      type, changed, reaches⟩, rfl⟩)
    · exact .inl ⟨name, changed, .refl⟩
    · exact .inl closed
    · exact absurd none List.not_mem_nil
    · exact .inr (.inl ⟨callees, listed, called⟩)
    · exact .inr (.inr ⟨type, changed, cone, reaches, listed⟩)
  · rintro (closed | ⟨callees, listed, called⟩ | ⟨type, changed, cone, reaches, listed⟩)
    · exact .inl (.inl (.inr closed))
    · exact .inl (.inr (.inr ⟨(name, callees), ⟨listed, called⟩, rfl⟩))
    · exact .inr ⟨(name, cone), ⟨listed, type, changed, reaches⟩, rfl⟩

/-- The affected declarations are a least closure, and what two commits change together affects what
one of them does.
-/
theorem affected_closure {changedDecls otherDecls changedTypes otherTypes : PySet Text}
    (decls : changedDecls.Nodup) (others : otherDecls.Nodup) (types : changedTypes.Nodup)
    (more : otherTypes.Nodup) (graph : GraphView)
    : (∀ name, name ∈ computeAffected changedDecls changedTypes graph
        ↔ (∃ decl ∈ changedDecls,
            Relation.ReflTransGen (Leads graph.reverseSymbolIndex) decl name)
          ∨ (∃ callees, (name, callees) ∈ graph.callGraph
            ∧ ∃ callee ∈ callees, callee ∈ changedDecls)
          ∨ ∃ type ∈ changedTypes, ∃ cone,
              Relation.ReflTransGen (Leads graph.classHierarchy) type cone
              ∧ (name, cone) ∈ graph.declToType)
      ∧ ∀ name, name ∈ computeAffected (PySet.update changedDecls otherDecls)
            (PySet.update changedTypes otherTypes) graph
        ↔ name ∈ computeAffected changedDecls changedTypes graph
          ∨ name ∈ computeAffected otherDecls otherTypes graph := by
  refine ⟨fun name => mem_computeAffected decls types graph, fun name => ?_⟩
  rw [mem_computeAffected (PySet.nodup_update decls _) (PySet.nodup_update types _),
    mem_computeAffected decls types, mem_computeAffected others more]
  simp only [PySet.mem_update, or_and_right, and_or_left, exists_or]
  exact (or_congr_right or_or_or_comm).trans or_or_or_comm

/-- Two declarations that name each other. -/
def mutualSymbols : GraphView where
  reverseSymbolIndex := [(py "a", [py "b"]), (py "b", [py "a"])]

theorem affected_closure_mutual
    : py "b" ∈ computeAffected (PySet.update [py "a"] [py "c"]) (PySet.update [] []) mutualSymbols := by
  refine ((affected_closure (List.nodup_singleton _) (List.nodup_singleton _) List.nodup_nil
    List.nodup_nil mutualSymbols).2 (py "b")).mpr (.inl ?_)
  decide

theorem changed_subset_affected (changedDecls changedTypes : PySet Text) (graph : GraphView)
    : ∀ decl ∈ changedDecls, decl ∈ computeAffected changedDecls changedTypes graph := by
  intro decl changed
  simp [computeAffected, PySet.mem_update, changed]

/-- The nodes that the calls of the reparser answered. -/
def reparsedNodes (calls : List Reparse) : List CPGNode :=
  calls.flatMap fun call => call.sub.nodes

/-- The edges that the calls of the reparser answered. -/
def reparsedEdges (calls : List Reparse) : List CPGEdge :=
  calls.flatMap fun call => call.sub.edges

/-- What the loop adds to a state over some declarations. -/
structure Reparsed (reparser : DeclReparser) (preservedIds : List NodeId) (decls : List Text)
    (before after : Building) (calls : List Reparse) : Prop where
  decls : calls.map Reparse.decl = decls
  answered : ∀ call ∈ calls, ∃ earlier, reparser earlier call.decl call.freshIdBase = .ok call.sub
  apart : ∀ node ∈ reparsedNodes calls, node.nodeId ∉ preservedIds
  called : after.calls = before.calls ++ calls
  nodes : after.newCpg.nodes = before.newCpg.nodes ++ reparsedNodes calls
  edges : after.newCpg.edges = before.newCpg.edges ++ reparsedEdges calls
  addedNodes : after.addedNodes = before.addedNodes ++ (reparsedNodes calls).map CPGNode.nodeId
  addedEdges : after.addedEdges = before.addedEdges ++ reparsedEdges calls

variable {reparser : DeclReparser} {preservedIds : List NodeId} {before after : Building}

/-- What one round of the loop does. -/
theorem reparseDecl_ok {decl : Text}
    : reparseDecl reparser preservedIds before decl = .ok after
      ↔ ∃ sub,
          reparser before.calls decl before.nextBase = .ok sub
          ∧ (∀ node ∈ sub.nodes, node.nodeId ∉ preservedIds)
          ∧ after = {
              newCpg := {
                before.newCpg with
                nodes := before.newCpg.nodes ++ sub.nodes
                edges := before.newCpg.edges ++ sub.edges
              }
              nextBase := aboveAll (sub.nodes.map CPGNode.nodeId) before.nextBase
              addedNodes := before.addedNodes ++ sub.nodes.map CPGNode.nodeId
              addedEdges := before.addedEdges ++ sub.edges
              calls := before.calls ++ [⟨decl, before.nextBase, sub⟩]
            } := by
  rw [reparseDecl, bind_ok]
  refine exists_congr fun sub => and_congr_right fun _ => ?_
  rw [check_ok, visit_ok, Except.ok.injEq, @eq_comm _ _ after]
  simp only [demand_ok]

/-- A run of the loop, by induction on the declarations. -/
theorem exists_reparsed {decls : List Text}
    (ran : decls.foldlM (reparseDecl reparser preservedIds) before = .ok after)
    : ∃ calls, Reparsed reparser preservedIds decls before after calls := by
  induction decls generalizing before with
  | nil =>
      cases ran
      exact ⟨[], rfl, by simp, by simp [reparsedNodes], by simp, by simp [reparsedNodes],
        by simp [reparsedEdges], by simp [reparsedNodes], by simp [reparsedEdges]⟩
  | cons decl rest ih =>
      rw [List.foldlM_cons] at ran
      obtain ⟨middle, stepped, ran⟩ := bind_ok.mp ran
      obtain ⟨sub, answered, apart, rfl⟩ := reparseDecl_ok.mp stepped
      obtain ⟨calls, run⟩ := ih ran
      refine ⟨⟨decl, before.nextBase, sub⟩ :: calls, ?_, ?_, ?_, ?_, ?_, ?_, ?_, ?_⟩
      · rw [List.map_cons, run.decls]
      · intro call listed
        rcases List.mem_cons.mp listed with rfl | later
        · exact ⟨before.calls, answered⟩
        · exact run.answered call later
      · intro node listed
        rw [reparsedNodes, List.flatMap_cons, List.mem_append] at listed
        rcases listed with here | later
        · exact apart node here
        · exact run.apart node later
      · rw [run.called, List.append_assoc, List.singleton_append]
      · rw [run.nodes, List.append_assoc]
        rfl
      · rw [run.edges, List.append_assoc]
        rfl
      · rw [run.addedNodes, reparsedNodes, reparsedNodes, List.flatMap_cons, List.map_append,
          List.append_assoc]
      · rw [run.addedEdges, List.append_assoc]
        rfl

/-- A build keeps the nodes of the other declarations, calls the reparser for every affected
declaration in turn, and appends its answers.
-/
theorem exists_built {parent new : CPG} {affected : PySet Text} {delta : GraphDelta}
    {calls : List Reparse}
    (built : buildPreservingNewCpg parent affected reparser = .ok (new, delta, calls))
    : calls.map Reparse.decl = sorted affected
      ∧ (∀ call ∈ calls, ∃ earlier, reparser earlier call.decl call.freshIdBase = .ok call.sub)
      ∧ (∀ node ∈ reparsedNodes calls,
          node.nodeId ∉ (preservedNodes parent affected).map CPGNode.nodeId)
      ∧ new.nodes = preservedNodes parent affected ++ reparsedNodes calls
      ∧ new.edges
        = preservedEdges parent ((preservedNodes parent affected).map CPGNode.nodeId)
          ++ reparsedEdges calls
      ∧ delta = {
          addedNodes := (reparsedNodes calls).map CPGNode.nodeId
          removedNodes :=
            (parent.nodes.filter fun node => node.nodeId ∉ new.nodeIds).map CPGNode.nodeId
          addedEdges := reparsedEdges calls
          removedEdges := parent.edges.filter fun edge => edge ∉ new.edges
          affectedSet := affected
        } := by
  obtain ⟨after, ran, same⟩ := bind_ok.mp built
  obtain ⟨answers, run⟩ := exists_reparsed ran
  cases same
  have calls : after.calls = answers := by simpa using run.called
  rw [calls]
  refine ⟨run.decls, run.answered, run.apart, run.nodes, run.edges, ?_⟩
  simp [run.addedNodes, run.addedEdges]

-- Every changed declaration is rebuilt

section Routes

variable {ρ : Type} [LT ρ] [DecidableLT ρ] (divide : Int → Int → Except IncrementalCpgError ρ)

/-- The whole program is reparsed: by the verdict, or because the changed files or the nodes of
affected declarations exceed their threshold.
-/
def IncrementalCpgRequest.FullReparse (req : IncrementalCpgRequest ρ) : Prop :=
  req.cwVerdict = .fullReparse
  ∨ (req.cwVerdict = .degraded
    ∧ ((∃ ratio, req.changedFilesRatio divide = .ok ratio ∧ req.thetaFiles < ratio)
      ∨ ∃ ratio,
          req.coneSizeRatio divide
              (computeAffected req.changedDecls req.changedTypes req.graph)
            = .ok ratio
          ∧ req.thetaCone < ratio))

/-- The route of a request that gets one. -/
theorem routeFor_eq_fullReparse_iff {req : IncrementalCpgRequest ρ} {filesRatio : ρ}
    {route : Route} {coneRatio : Option ρ} (files : req.changedFilesRatio divide = .ok filesRatio)
    (routed : routeFor divide req filesRatio
        (computeAffected req.changedDecls req.changedTypes req.graph)
      = .ok (route, coneRatio))
    : route = .fullReparse ↔ req.FullReparse divide := by
  unfold IncrementalCpgRequest.FullReparse
  unfold routeFor at routed
  rw [files]
  cases verdict : req.cwVerdict with
  | closedWorld =>
      rw [verdict] at routed
      cases routed
      simp
  | fullReparse =>
      rw [verdict] at routed
      cases routed
      simp
  | degraded =>
      rw [verdict] at routed
      dsimp only at routed
      split at routed
      next many =>
        cases routed
        simp [many]
      next few =>
        obtain ⟨ratio, cone, routed⟩ := bind_ok.mp routed
        rw [cone]
        split at routed
        next large =>
          cases routed
          simp [large]
        next small =>
          cases routed
          simp [few, small]

/-- Every changed declaration is affected, every affected one is reparsed once, and the new graph
has the parent nodes of the other declarations and the answers of the reparser.
-/
structure Rebuilt (req : IncrementalCpgRequest ρ) (result : IncrementalCpgResult ρ)
    (calls : List Reparse) : Prop where
  changed : ∀ decl ∈ req.changedDecls, decl ∈ result.affected
  once : (calls.map Reparse.decl).Nodup
  reparsed : ∀ decl, decl ∈ calls.map Reparse.decl ↔ decl ∈ result.affected
  answered
    : ∀ call ∈ calls, ∃ earlier, req.reparser earlier call.decl call.freshIdBase = .ok call.sub
  nodes
    : result.newCpg.nodes
      = (req.parentCpg.nodes.filter fun node => node.enclosingDeclFqn ∉ result.affected)
        ++ calls.flatMap fun call => call.sub.nodes

/-- A request that returns rebuilds every changed declaration exactly when it does not reparse the
whole program, or every changed declaration is one of the parent graph.
Witness: on that route the affected set is recomputed from the parent nodes alone.
-/
theorem changed_declarations_rebuilt (req : IncrementalCpgRequest ρ)
    (result : IncrementalCpgResult ρ) (calls : List Reparse)
    (ran : computeIncrementalCpg divide req = .ok (result, calls))
    : Rebuilt req result calls
      ↔ ¬req.FullReparse divide
        ∨ ∀ decl ∈ req.changedDecls, ∃ node ∈ req.parentCpg.nodes, node.enclosingDeclFqn = decl := by
  rw [computeIncrementalCpg, check_ok] at ran
  obtain ⟨filesRatio, files, ran⟩ := bind_ok.mp ran.2
  obtain ⟨⟨route, coneRatio⟩, routed, ran⟩ := bind_ok.mp ran
  have full := routeFor_eq_fullReparse_iff divide files routed
  obtain ⟨⟨new, delta, answers⟩, built, same⟩ := bind_ok.mp ran
  cases same
  obtain ⟨decls, answered, _, nodes, _, _⟩ := exists_built built
  have mem_allDecls (decl : Text)
      : decl ∈ allDecls req.parentCpg ↔ ∃ node ∈ req.parentCpg.nodes, node.enclosingDeclFqn = decl := by
    simp [allDecls, PySet.mem_update]
  -- The affected set of either route is a set, so sorting it lists every member once.
  have distinct : (if route = .fullReparse then allDecls req.parentCpg
      else computeAffected req.changedDecls req.changedTypes req.graph).Nodup := by
    split
    · exact PySet.nodup_update List.nodup_nil _
    · exact PySet.nodup_update (PySet.nodup_update (PySet.nodup_update req.declsDistinct _) _) _
  have rest : (calls.map Reparse.decl).Nodup ∧ ∀ decl, decl ∈ calls.map Reparse.decl
      ↔ decl ∈ if route = .fullReparse then allDecls req.parentCpg
        else computeAffected req.changedDecls req.changedTypes req.graph := by
    rw [decls]
    exact ⟨(sorted_perm _).nodup_iff.mpr distinct, fun decl => mem_sorted⟩
  constructor
  · intro rebuilt
    by_cases whole : req.FullReparse divide
    · refine .inr fun decl changed => (mem_allDecls decl).mp ?_
      have affected := rebuilt.changed decl changed
      rwa [if_pos (full.mpr whole)] at affected
    · exact .inl whole
  · intro holds
    refine ⟨fun decl changed => ?_, rest.1, rest.2, answered, nodes⟩
    dsimp only
    split
    next whole =>
      exact (mem_allDecls decl).mpr (holds.resolve_left (not_not_intro (full.mp whole)) decl changed)
    next => exact changed_subset_affected _ _ _ decl changed

end Routes

/-- Quotients that are not rounded. -/
def exactQuotient (dividend divisor : Int) : Except IncrementalCpgError Rat :=
  .ok (dividend / divisor)

/-- A reparser that answers one call node for every declaration. -/
def callReparser : DeclReparser := fun _ decl freshIdBase =>
  .ok { nodes := [{ nodeId := freshIdBase, kind := py "CALL", enclosingDeclFqn := decl }], edges := [] }

/-- A commit that changes declaration `a` and adds declaration `b`. -/
def addedDeclaration (verdict : Route) : IncrementalCpgRequest Rat where
  parentCpg := { nodes := [{ nodeId := 0, kind := py "CALL", enclosingDeclFqn := py "a" }] }
  parentEnvDigest := []
  workerEnvDigest := []
  cwVerdict := verdict
  changedDecls := [py "a", py "b"]
  changedTypes := []
  graph := {}
  reparser := callReparser
  thetaCone := 1 / 4
  thetaFiles := 2 / 5

theorem changed_declarations_rebuilt_added
    : ∃ result calls,
        computeIncrementalCpg exactQuotient (addedDeclaration .closedWorld) = .ok (result, calls)
        ∧ Rebuilt (addedDeclaration .closedWorld) result calls := by
  obtain ⟨result, calls, ran⟩ : ∃ result calls,
      computeIncrementalCpg exactQuotient (addedDeclaration .closedWorld) = .ok (result, calls) :=
    ⟨_, _, rfl⟩
  refine ⟨result, calls, ran, (changed_declarations_rebuilt exactQuotient _ result calls ran).mpr ?_⟩
  refine .inl fun whole => ?_
  rcases whole with verdict | ⟨verdict, _⟩
  · cases verdict
  · cases verdict

/-- When the whole program is reparsed, a declaration that the commit adds is not. -/
theorem added_declaration_missed
    : ¬∀ (req : IncrementalCpgRequest Rat) (result : IncrementalCpgResult Rat)
        (calls : List Reparse),
        req.parentEnvDigest = req.workerEnvDigest
        → computeIncrementalCpg exactQuotient req = .ok (result, calls)
        → Rebuilt req result calls := by
  intro claimed
  obtain ⟨result, calls, ran, missed⟩ : ∃ result calls,
      computeIncrementalCpg exactQuotient (addedDeclaration .fullReparse) = .ok (result, calls)
      ∧ py "b" ∉ result.affected :=
    ⟨_, _, rfl, by decide⟩
  have rebuilt := claimed (addedDeclaration .fullReparse) result calls rfl ran
  exact missed (rebuilt.changed (py "b") (by decide))

end Scanipy.Analysis.CpgDelta

import Mathlib.Data.List.ProdSigma
import Scanipy.Analysis.Ifds.Closure
import Scanipy.Analysis.Ifds.Seeds
import Scanipy.Library.BestFirst

/-! `_tabulate` as a best-first search: the items are the facts at nodes, the key is the
canonical position, and `pred` keeps the first discoverer of every item.
-/

namespace Scanipy.Analysis.Ifds

open Library Python

/-- What `_tabulate` has discovered and has still to propagate. -/
def Tabulation.frontier (state : Tabulation) : Frontier Item where
  found := state.pred
  pending := state.worklist

/-- The items that a popped item leads to. -/
def itemNext (sg : ExplodedSupergraph) (spec : Spec) (scope : Option (PySet ProcId)) (item : Item)
    : List Item :=
  if sanitizedAt spec (sg.cpg.nodeAt item.1) then
    []
  else
    (sg.cfgSucc.getD item.1 []).map (fun succ => (succ, item.2))
    ++ ((sg.callSucc.getD item.1 []).filter fun pid => ProcInScope scope (some pid)).map fun pid =>
      (pid, item.2)

/-- The items that seeding adds. -/
def seedItems (sg : ExplodedSupergraph) (scope : Option (PySet ProcId)) (seeding : Seeding)
    : List Item :=
  seeding.seeded.flatMap fun entry =>
    if ProcInScope scope (sg.procOfNode.get? entry.1) then
      (sorted entry.2).map fun fact => (entry.1, fact)
    else
      []

/-- No summary is spliced at a call: procedures in scope have none. -/
def NoSplice (scope : Option (PySet ProcId)) (summaries : SummaryCache) : Prop :=
  ∀ pid, ProcInScope scope (some pid) → summaries.summaries.getD pid [] = []

/-- The bookkeeping agrees with the items discovered. -/
structure Tabulation.Holds (cpg : CPG) (sg : ExplodedSupergraph) (state : Tabulation) : Prop where
  keys : ∀ id, id ∈ state.factsAt.keys ↔ id ∈ cpg.nodeIds
  facts : ∀ id fact, fact ∈ state.factsAt.getD id [] ↔ (id, fact) ∈ state.frontier.known
  distinct : ∀ id, (state.factsAt.getD id []).Nodup
  visited : ∀ pid,
    pid ∈ state.visited ↔ ∃ item ∈ state.frontier.known, sg.procOfNode.get? item.1 = some pid

theorem Tabulation.Holds.inside {cpg : CPG} {sg : ExplodedSupergraph} {state : Tabulation}
    (holds : state.Holds cpg sg) {item : Item} (member : item ∈ state.frontier.known)
    : item.1 ∈ cpg.nodeIds := by
  have listed := (holds.facts item.1 item.2).mpr member
  rw [← holds.keys, Dict.mem_keys]
  cases stored : state.factsAt.get? item.1 with
  | none => simp [Dict.getD, stored] at listed
  | some facts => exact ⟨facts, rfl⟩

-- One step

variable {state : Tabulation} {item : Item} {final : Frontier Item}

section Steps

variable {cpg : CPG} {sg : ExplodedSupergraph}

/-- `add` discovers an item. -/
theorem add_ok (holds : state.Holds cpg sg) (known : item.1 ∈ cpg.nodeIds) (predKey : Option Item)
    : ∃ after,
        add sg item predKey state = .ok after
        ∧ after.Holds cpg sg
        ∧ after.frontier = state.frontier.discover predKey item := by
  obtain ⟨facts, stored⟩ := Dict.mem_keys.mp ((holds.keys item.1).mpr known)
  have factsHere : state.factsAt.getD item.1 [] = facts := by rw [Dict.getD, stored]; rfl
  have present : item.2 ∈ facts ↔ item ∈ state.frontier.known := by
    rw [← factsHere, holds.facts]
  unfold Frontier.discover
  rw [add, subscript_ok stored, ok_bind]
  by_cases old : item.2 ∈ facts
  · rw [if_pos old, if_pos (present.mp old)]
    exact ⟨state, rfl, holds, rfl⟩
  · have new := mt present.mpr old
    have pred : state.pred.set item predKey = state.pred ++ [(item, predKey)] :=
      Dict.set_of_not_mem new predKey
    rw [if_neg old, if_neg new]
    refine ⟨_, rfl, ⟨fun id => ?_, fun id fact => ?_, fun id => ?_, fun pid => ?_⟩, ?_⟩
    · rw [Dict.mem_keys_set, holds.keys]
      exact ⟨fun either => either.elim (fun before => before) fun same => same ▸ known, .inl⟩
    · change _ ↔ (id, fact) ∈ (state.pred.set item predKey).map Prod.fst
      rw [pred, Dict.getD_set, List.map_append, List.mem_append]
      by_cases same : item.1 = id
      · subst same
        rw [if_pos rfl, PySet.mem_add, ← factsHere, holds.facts]
        simp [Frontier.known, Tabulation.frontier, Prod.ext_iff]
      · rw [if_neg same, holds.facts]
        simp [Frontier.known, Tabulation.frontier, Prod.ext_iff, Ne.symm same]
    · rw [Dict.getD_set]
      split
      · exact PySet.nodup_add (factsHere ▸ holds.distinct item.1) item.2
      · exact holds.distinct id
    · change _ ↔ ∃ other ∈ (state.pred.set item predKey).map Prod.fst, _
      rw [pred]
      simp only [List.map_append, List.mem_append, List.map_cons, List.map_nil,
        List.mem_singleton, or_and_right, exists_or, exists_eq_left]
      have before := holds.visited pid
      change _ ↔ ∃ other ∈ state.pred.map Prod.fst, _ at before
      rw [← before]
      cases sg.procOfNode.get? item.1 with
      | none => simp
      | some owner => simp [eq_comm]
    · rw [Tabulation.frontier, pred]
      rfl

/-- A loop of `add` discovers its items, by list induction. -/
theorem addAll_ok (predKey : Option Item) (items : List Item)
    (known : ∀ item ∈ items, item.1 ∈ cpg.nodeIds) (holds : state.Holds cpg sg)
    : ∃ after,
        addAll sg predKey items state = .ok after
        ∧ after.Holds cpg sg
        ∧ after.frontier = state.frontier.discoverAll predKey items := by
  induction items generalizing state with
  | nil => exact ⟨state, rfl, holds, rfl⟩
  | cons item rest ih =>
      obtain ⟨middle, added, middleHolds, found⟩ :=
        add_ok holds (known item List.mem_cons_self) predKey
      obtain ⟨after, ran, afterHolds, same⟩ :=
        ih (fun other member => known other (List.mem_cons_of_mem _ member)) middleHolds
      refine ⟨after, ?_, afterHolds, ?_⟩
      · rw [addAll, added, ok_bind, ran]
      · rw [same, found]
        rfl

/-- Seeding discovers the seeds in scope, by list induction. -/
theorem addSeeds_ok (scope : Option (PySet ProcId)) (seeded : Dict NodeId (PySet Fact))
    (known : ∀ entry ∈ seeded, ∀ fact ∈ entry.2, entry.1 ∈ cpg.nodeIds) (holds : state.Holds cpg sg)
    : ∃ after,
        addSeeds sg scope seeded state = .ok after
        ∧ after.Holds cpg sg
        ∧ after.frontier = state.frontier.discoverAll none (seedItems sg scope { seeded }) := by
  induction seeded generalizing state with
  | nil => exact ⟨state, rfl, holds, rfl⟩
  | cons entry rest ih =>
      obtain ⟨id, facts⟩ := entry
      have restKnown (other : NodeId × PySet Fact) (member : other ∈ rest) (fact : Fact)
          (among : fact ∈ other.2)
          : other.1 ∈ cpg.nodeIds :=
        known other (List.mem_cons_of_mem _ member) fact among
      unfold addSeeds
      by_cases inScope : ProcInScope scope (sg.procOfNode.get? id)
      · obtain ⟨middle, added, middleHolds, found⟩ := addAll_ok none
          ((sorted facts).map fun fact => (id, fact))
          (fun item member => by
            obtain ⟨fact, among, rfl⟩ := List.mem_map.mp member
            exact known (id, facts) List.mem_cons_self fact (mem_sorted.mp among)) holds
        obtain ⟨after, ran, afterHolds, same⟩ := ih restKnown middleHolds
        refine ⟨after, ?_, afterHolds, ?_⟩
        · rw [if_pos inScope, added, ok_bind, ran]
        · rw [same, found]
          simp [seedItems, inScope, Frontier.discoverAll]
      · obtain ⟨after, ran, afterHolds, same⟩ := ih restKnown holds
        refine ⟨after, ?_, afterHolds, ?_⟩
        · rw [if_neg inScope, ran]
        · rw [same]
          simp [seedItems, inScope]

variable (describes : sg.Describes cpg) {scope : Option (PySet ProcId)} {summaries : SummaryCache}
  (unspliced : NoSplice scope summaries)

include describes unspliced

/-- The loop over callees discovers the entries in scope, by list induction. -/
theorem enterCallees_ok (item : Item) (callees : List ProcId)
    (known : ∀ pid ∈ callees, MethodAt cpg pid) (holds : state.Holds cpg sg)
    : ∃ after,
        enterCallees sg scope summaries item callees state = .ok after
        ∧ after.Holds cpg sg
        ∧ after.frontier
          = state.frontier.discoverAll (some item)
              ((callees.filter fun pid => ProcInScope scope (some pid)).map fun pid =>
                (pid, item.2)) := by
  induction callees generalizing state with
  | nil => exact ⟨state, rfl, holds, rfl⟩
  | cons pid rest ih =>
      have restKnown (other : ProcId) (member : other ∈ rest) : MethodAt cpg other :=
        known other (List.mem_cons_of_mem _ member)
      have method := known pid List.mem_cons_self
      unfold enterCallees
      by_cases inScope : ProcInScope scope (some pid)
      · obtain ⟨callee, stored⟩ := Dict.mem_keys.mp ((describes.procKeys pid).mpr method)
        have entry := (describes.procs pid callee stored).1
        have entryKnown : (callee.entry, item.2).1 ∈ cpg.nodeIds := entry.symm ▸ method.1
        obtain ⟨middle, added, middleHolds, found⟩ := add_ok holds entryKnown (some item)
        have nothing : spliced sg summaries item pid = [] := by
          rw [spliced, unspliced pid inScope]
          rfl
        obtain ⟨after, ran, afterHolds, same⟩ := ih restKnown middleHolds
        refine ⟨after, ?_, afterHolds, ?_⟩
        · rw [if_pos inScope, subscript_ok stored, ok_bind, added, ok_bind, nothing, addAll,
            ok_bind, ran]
        · rw [same, found, entry]
          simp [inScope, Frontier.discoverAll]
      · obtain ⟨after, ran, afterHolds, same⟩ := ih restKnown holds
        refine ⟨after, ?_, afterHolds, ?_⟩
        · rw [if_neg inScope, ran]
        · rw [same]
          simp [inScope]

variable (formed : cpg.WellFormed)

include formed

/-- Propagating an item discovers what it leads to. -/
theorem propagate_ok (spec : Spec) (inside : item.1 ∈ cpg.nodeIds) (holds : state.Holds cpg sg)
    : ∃ after,
        propagate sg spec scope summaries item state = .ok after
        ∧ after.Holds cpg sg
        ∧ after.frontier = state.frontier.discoverAll (some item) (itemNext sg spec scope item) := by
  obtain ⟨member, same⟩ := CPG.nodeAt_mem formed.distinct inside
  have stored := CPG.byId_get? formed.distinct member
  rw [same, ← describes.graph] at stored
  unfold propagate itemNext
  rw [subscript_ok stored, ok_bind]
  by_cases killed : sanitizedAt spec (sg.cpg.nodeAt item.1)
  · rw [if_pos killed, if_pos killed]
    exact ⟨state, rfl, holds, rfl⟩
  · obtain ⟨middle, added, middleHolds, found⟩ := addAll_ok (some item)
      ((sg.cfgSucc.getD item.1 []).map fun succ => (succ, item.2))
      (fun other listed => by
        obtain ⟨succ, succListed, rfl⟩ := List.mem_map.mp listed
        obtain ⟨edge, edgeMember, _, _, rfl⟩ := (describes.cfg _ _).mp succListed
        exact (formed.ends edge edgeMember).2) holds
    obtain ⟨after, ran, afterHolds, afterFound⟩ := enterCallees_ok describes unspliced item
      (sg.callSucc.getD item.1 []) (fun pid listed => ((describes.calls _ _).mp listed).2)
      middleHolds
    refine ⟨after, ?_, afterHolds, ?_⟩
    · rw [if_neg killed, added, ok_bind, ran]
    · rw [if_neg killed, afterFound, found, Frontier.discoverAll, Frontier.discoverAll,
        Frontier.discoverAll, List.foldl_append]

/-- The loop runs as the search does, by induction on the fuel. -/
theorem tabulateLoop_ok (spec : Spec) (canonIndex : Dict NodeId Nat) (fuel : Nat)
    (holds : state.Holds cpg sg) (pendingKnown : state.worklist ⊆ state.frontier.known)
    (ran : Frontier.search (worklistKey canonIndex) (itemNext sg spec scope) fuel state.frontier
      = some final)
    : ∃ after,
        tabulateLoop sg spec scope summaries canonIndex fuel state = .ok after
        ∧ after.Holds cpg sg
        ∧ after.frontier = final := by
  induction fuel generalizing state with
  | zero =>
      unfold Frontier.search at ran
      unfold tabulateLoop
      cases popped : sortedBy (worklistKey canonIndex) state.worklist with
      | nil =>
          have waiting : sortedBy (worklistKey canonIndex) state.frontier.pending = [] := popped
          rw [waiting] at ran
          exact ⟨state, rfl, holds, Option.some.inj ran⟩
      | cons item rest =>
          have waiting : sortedBy (worklistKey canonIndex) state.frontier.pending = item :: rest :=
            popped
          rw [waiting] at ran
          cases ran
  | succ fuel ih =>
      unfold Frontier.search at ran
      unfold tabulateLoop
      cases popped : sortedBy (worklistKey canonIndex) state.worklist with
      | nil =>
          have waiting : sortedBy (worklistKey canonIndex) state.frontier.pending = [] := popped
          rw [waiting] at ran
          exact ⟨state, rfl, holds, Option.some.inj ran⟩
      | cons item rest =>
          have waiting : sortedBy (worklistKey canonIndex) state.frontier.pending = item :: rest :=
            popped
          rw [waiting] at ran
          have members (other : Item) (listed : other ∈ item :: rest)
              : other ∈ state.frontier.known := by
            rw [← popped] at listed
            exact pendingKnown (mem_sortedBy.mp listed)
          obtain ⟨middle, propagated, middleHolds, found⟩ := propagate_ok describes unspliced
            formed spec (holds.inside (members item List.mem_cons_self))
            (show Tabulation.Holds cpg sg { state with worklist := rest } from
              ⟨holds.keys, holds.facts, holds.distinct, holds.visited⟩)
          have middleRan : Frontier.search (worklistKey canonIndex) (itemNext sg spec scope) fuel
              middle.frontier = some final := by
            rw [found]
            exact ran
          have middleKnown : middle.worklist ⊆ middle.frontier.known := by
            intro other listed
            have waitingNow : other ∈ middle.frontier.pending := listed
            rw [found, (Frontier.mem_discoverAll _ _ _).2] at waitingNow
            rw [found, Frontier.mem_known_discoverAll]
            rcases waitingNow with before | ⟨_, new⟩
            · exact .inl (members other (List.mem_cons_of_mem _ before))
            · exact .inr new
          obtain ⟨after, looped, afterHolds, same⟩ := ih middleHolds middleKnown middleRan
          refine ⟨after, ?_, afterHolds, same⟩
          change (propagate sg spec scope summaries item { state with worklist := rest } >>= _) = _
          rw [propagated, ok_bind, looped]

end Steps

/-- Taint flows from a node that is not sanitised along CFG edges and into callees in scope. -/
def Flows (cpg : CPG) (spec : Spec) (scope : Option (PySet ProcId)) (source target : NodeId)
    : Prop :=
  sanitizedAt spec (cpg.nodeAt source) = false
  ∧ (HasEdge cpg cfgEdge source target
    ∨ (HasEdge cpg callEdge source target
      ∧ MethodAt cpg target
      ∧ ProcInScope scope (some target)))

variable {cpg : CPG} {spec : Spec} {scope : Option (PySet ProcId)}

theorem Flows.target (formed : cpg.WellFormed) {source target : NodeId}
    (flows : Flows cpg spec scope source target)
    : target ∈ cpg.nodeIds := by
  rcases flows.2 with ⟨edge, member, _, _, rfl⟩ | ⟨_, method, _⟩
  · exact (formed.ends edge member).2
  · exact method.1

variable {sg : ExplodedSupergraph}

theorem mem_itemNext (describes : sg.Describes cpg) {target : Item}
    : target ∈ itemNext sg spec scope item
      ↔ target.2 = item.2 ∧ Flows cpg spec scope item.1 target.1 := by
  obtain ⟨id, fact⟩ := target
  unfold itemNext Flows
  rw [describes.graph]
  by_cases killed : sanitizedAt spec (cpg.nodeAt item.1)
  · simp [killed]
  · simp only [killed, Bool.false_eq_true, if_false, List.mem_append, List.mem_map,
      List.mem_filter, decide_eq_true_eq, describes.cfg, describes.calls, Prod.mk.injEq]
    constructor
    · rintro (⟨_, edge, rfl, rfl⟩ | ⟨_, ⟨⟨edge, method⟩, inScope⟩, rfl, rfl⟩)
      · exact ⟨rfl, trivial, .inl edge⟩
      · exact ⟨rfl, trivial, .inr ⟨edge, method, inScope⟩⟩
    · rintro ⟨rfl, _, edge | ⟨edge, method, inScope⟩⟩
      · exact .inl ⟨id, edge, rfl, rfl⟩
      · exact .inr ⟨id, ⟨⟨edge, method⟩, inScope⟩, rfl, rfl⟩

variable {seeding : Seeding}

theorem mem_seedItems (interned : Interned (sourceMatches cpg spec) seeding)
    : item ∈ seedItems sg scope seeding
      ↔ Introduces cpg spec item.1 item.2 ∧ ProcInScope scope (sg.procOfNode.get? item.1) := by
  obtain ⟨id, fact⟩ := item
  unfold seedItems Introduces
  rw [← interned.seeded, List.mem_flatMap]
  constructor
  · rintro ⟨⟨node, facts⟩, listed, member⟩
    have stored := Dict.get?_of_mem interned.distinct listed
    split at member
    next inScope =>
      obtain ⟨_, among, same⟩ := List.mem_map.mp member
      cases same
      rw [Dict.getD, stored]
      exact ⟨mem_sorted.mp among, inScope⟩
    next => cases member
  · rintro ⟨among, inScope⟩
    cases stored : seeding.seeded.get? id with
    | none => simp [Dict.getD, stored] at among
    | some facts =>
        rw [Dict.getD, stored] at among
        refine ⟨(id, facts), Dict.mem_of_get? stored, ?_⟩
        rw [if_pos inScope]
        exact List.mem_map.mpr ⟨fact, mem_sorted.mpr among, rfl⟩

theorem reachedFacts_ok (holds : state.Holds cpg sg) (nodes : List NodeId)
    (known : nodes ⊆ cpg.nodeIds) (reach : PySet Fact)
    : ∃ after, reachedFacts state.factsAt nodes reach = .ok after := by
  induction nodes generalizing reach with
  | nil => exact ⟨reach, rfl⟩
  | cons node rest ih =>
      obtain ⟨member, restKnown⟩ := List.cons_subset.mp known
      obtain ⟨facts, stored⟩ := Dict.mem_keys.mp ((holds.keys node).mpr member)
      rw [reachedFacts, subscript_ok stored, ok_bind]
      exact ih restKnown _

/-- Every visited procedure gets a summary, by list induction. -/
theorem recordSummaries_ok (describes : sg.Describes cpg) (holds : state.Holds cpg sg)
    (visited : List ProcId) (methods : ∀ pid ∈ visited, MethodAt cpg pid) (cache : SummaryCache)
    : ∃ after,
        recordSummaries sg state.factsAt visited cache = .ok after
        ∧ after.header = cache.header := by
  induction visited generalizing cache with
  | nil => exact ⟨cache, rfl, rfl⟩
  | cons pid rest ih =>
      have method := methods pid List.mem_cons_self
      obtain ⟨proc, stored⟩ := Dict.mem_keys.mp ((describes.procKeys pid).mpr method)
      obtain ⟨entry, body⟩ := describes.procs pid proc stored
      have entryKnown : proc.entry ∈ cpg.nodeIds := entry.symm ▸ method.1
      obtain ⟨facts, factsStored⟩ := Dict.mem_keys.mp ((holds.keys _).mpr entryKnown)
      obtain ⟨reach, reached⟩ := reachedFacts_ok holds (proc.entry :: proc.bodyNodes)
        (List.cons_subset.mpr ⟨entryKnown, body⟩) []
      obtain ⟨after, ran, header⟩ :=
        ih (fun other member => methods other (List.mem_cons_of_mem _ member)) {
          cache with
          summaries := cache.summaries.set pid ((sorted facts).map fun fact => (fact, reach))
          visited := PySet.add cache.visited pid
        }
      refine ⟨after, ?_, header⟩
      rw [recordSummaries, subscript_ok stored, ok_bind, subscript_ok factsStored, ok_bind,
        reached, ok_bind, ran]

/-- A finished search for the facts of a graph. -/
structure Tabulated (cpg : CPG) (sg : ExplodedSupergraph) (spec : Spec)
    (scope : Option (PySet ProcId)) (canonIndex : Dict NodeId Nat) (seeds : List Item)
    (final : Frontier Item) : Prop where
  ran : ∃ fuel,
    Frontier.search (worklistKey canonIndex) (itemNext sg spec scope) fuel (Frontier.start seeds)
      = some final
  seeds : ∀ item, item ∈ seeds
    ↔ Introduces cpg spec item.1 item.2 ∧ ProcInScope scope (sg.procOfNode.get? item.1)

theorem Tabulated.sound {canonIndex : Dict NodeId Nat} {seeds : List Item}
    (tabulated : Tabulated cpg sg spec scope canonIndex seeds final)
    : final.Sound seeds (itemNext sg spec scope) ∧ final.pending = [] := by
  obtain ⟨fuel, ran⟩ := tabulated.ran
  exact (Frontier.start_sound seeds _).search ran

/-- At first no fact holds anywhere. -/
theorem emptyTabulation_holds (formed : cpg.WellFormed) (sg : ExplodedSupergraph)
    : Tabulation.Holds cpg sg
        { factsAt := Dict.ofPairs (cpg.nodes.map fun node => (node.nodeId, [])) } := by
  have listed : Dict.ofPairs (cpg.nodes.map fun node => (node.nodeId, ([] : PySet Fact)))
      = cpg.nodeIds.map fun id => (id, []) := by
    rw [CPG.nodeIds, List.map_map]
    refine Dict.ofPairs_eq_self ?_
    rw [List.map_map]
    exact formed.distinct
  have nothing (id : NodeId) : Dict.getD (cpg.nodeIds.map fun id => (id, ([] : PySet Fact))) id []
      = [] := by
    rw [Dict.getD, Dict.get?_map fun _ => []]
    split <;> rfl
  rw [listed]
  refine ⟨fun id => ?_, fun id fact => ?_, fun id => ?_, fun pid => ?_⟩
  · simp [Dict.keys]
  · simp [nothing, Tabulation.frontier, Frontier.known]
  · simp [nothing]
  · simp [Tabulation.frontier, Frontier.known]

/-- The search finishes: the nodes and facts bound its rounds. -/
theorem search_items_finishes (formed : cpg.WellFormed) (describes : sg.Describes cpg)
    (interned : Interned (sourceMatches cpg spec) seeding) (scope : Option (PySet ProcId))
    (canonIndex : Dict NodeId Nat)
    : ∃ final,
        Frontier.search (worklistKey canonIndex) (itemNext sg spec scope)
            (cpg.nodes.length * seeding.nextFact) (Frontier.start (seedItems sg scope seeding))
          = some final := by
  have sound := Frontier.start_sound (seedItems sg scope seeding) (itemNext sg spec scope)
  have bounded (item : Item) (member : item ∈ cpg.nodeIds ×ˢ List.range seeding.nextFact)
      : itemNext sg spec scope item ⊆ cpg.nodeIds ×ˢ List.range seeding.nextFact := by
    intro target listed
    obtain ⟨sameFact, flows⟩ := (mem_itemNext describes).mp listed
    exact List.mem_product.mpr
      ⟨flows.target formed, sameFact.symm ▸ (List.mem_product.mp member).2⟩
  refine sound.search_finishes bounded _ (fun item member => ?_) ?_
  · obtain ⟨introduces, _⟩ := (mem_seedItems interned).mp (Frontier.mem_known_start.mp member)
    refine List.mem_product.mpr ⟨introduces.known, List.mem_range.mpr ?_⟩
    rw [interned.nextFact]
    exact introduces.lt
  · have fewer := (List.subperm_of_subset sound.pendingDistinct sound.pendingKnown).length_le
    rw [List.length_product, CPG.nodeIds, List.length_map, List.length_range]
    exact Nat.add_le_add_left fewer _

/-- `_tabulate` returns what the search discovers. -/
theorem tabulate_ok (formed : cpg.WellFormed) (describes : sg.Describes cpg)
    (interned : Interned (sourceMatches cpg spec) seeding) {summaries : SummaryCache}
    (unspliced : NoSplice scope summaries) (canonIndex : Dict NodeId Nat)
    : ∃ state cache seeds,
        tabulate sg spec seeding scope summaries canonIndex = .ok (state, cache)
        ∧ state.Holds cpg sg
        ∧ Tabulated cpg sg spec scope canonIndex seeds state.frontier
        ∧ cache.header = summaries.header := by
  obtain ⟨seeded, seededRan, seededHolds, started⟩ := addSeeds_ok scope seeding.seeded
    (fun entry listed fact among => by
      have stored := Dict.get?_of_mem interned.distinct listed
      refine Introduces.known ((interned.seeded entry.1 fact).mp ?_)
      rwa [Dict.getD, stored])
    (emptyTabulation_holds formed sg)
  have started : seeded.frontier = Frontier.start (seedItems sg scope seeding) := started
  obtain ⟨final, ran⟩ := search_items_finishes formed describes interned scope canonIndex
  have waiting : seeded.worklist ⊆ seeded.frontier.known := by
    have inside := (Frontier.start_sound (seedItems sg scope seeding)
      (itemNext sg spec scope)).pendingKnown
    rw [← started] at inside
    exact inside
  obtain ⟨state, looped, holds, same⟩ := tabulateLoop_ok describes unspliced formed spec
    canonIndex (cpg.nodes.length * seeding.nextFact) seededHolds waiting (started ▸ ran)
  obtain ⟨cache, recorded, header⟩ := recordSummaries_ok describes holds state.visited
    (fun pid member => by
      obtain ⟨item, _, owned⟩ := (holds.visited pid).mp member
      exact (describes.owned item.1 pid owned).2.1)
    summaries
  refine ⟨state, cache, seedItems sg scope seeding, ?_, holds,
    ⟨⟨_, same ▸ ran⟩, fun item => mem_seedItems interned⟩, header⟩
  rw [tabulate, describes.graph, seededRan, ok_bind, looped, ok_bind, recorded, ok_bind]

end Scanipy.Analysis.Ifds

import Scanipy.Analysis.Ordering.Matching

/-! The bounded search computes the least certificate of the pruned tree, or exhausts its
allowance when the tree is larger.
-/

namespace Scanipy.Analysis

open Library Python
open CanonicalizationBudget (check check_settles enterState_budgeted)

/-- The number of search states a graph needs. -/
def CPG.searchSize (cpg : CPG) : Nat :=
  SearchTree.size cpg.prunedTree cpg.height []

/-- The candidates at the leaves of the pruned tree. -/
def CPG.candidates (cpg : CPG) : List Candidate :=
  SearchTree.tips cpg.prunedTree cpg.height []

/-- The while loop over tree states and an allowance. -/
def exploreLoop (cpg : CPG)
    : Nat → List (List NodeId) → Option Candidate → Allowance (Option Candidate)
  | 0, _, _ => Metered.raise .outOfFuel
  | _ + 1, [], best => pure best
  | fuel + 1, picked :: stack, best => do
      Allowance.spend
      match cpg.prunedTree picked with
      | .leaf candidate => exploreLoop cpg fuel stack (keepLeast best candidate)
      | .branch children => exploreLoop cpg fuel (children ++ stack) best

/-- The loop from the root, with fuel for the whole allowance. -/
def exploreAll (cpg : CPG) : Allowance (Option Candidate) := fun allowed =>
  exploreLoop cpg (allowed + 1) [[]] none allowed

/-- Enough fuel explores the stack as the tree search does, by induction on the fuel. -/
theorem exploreLoop_eq (cpg : CPG) (fuel : Nat) (stack : List (List NodeId))
    (best : Option Candidate) {allowed : Nat} (enough : allowed < fuel)
    : exploreLoop cpg fuel stack best allowed
      = match SearchTree.explore cpg.prunedTree keepLeast allowed stack best with
        | (some found, left) => (.ok found, left)
        | (none, left) => (.error .budgetExhausted, left) := by
  induction fuel generalizing stack best allowed with
  | zero => omega
  | succ fuel ih =>
      cases stack with
      | nil => cases allowed <;> rfl
      | cons picked stack =>
          cases allowed with
          | zero => rfl
          | succ allowed =>
              have spent : Allowance.spend (allowed + 1) = (.ok (), allowed) := rfl
              unfold exploreLoop SearchTree.explore
              rw [Metered.bind_ok spent]
              cases cpg.prunedTree picked with
              | leaf candidate => exact ih stack _ (by omega)
              | branch children => exact ih (children ++ stack) best (by omega)

variable {picked : List NodeId}

theorem marks_append {node : NodeId} (fresh : node ∉ picked)
    : (marks picked).set node ((marks picked).length + 1) = marks (picked ++ [node]) := by
  have absent : node ∉ Dict.keys (marks picked) := by
    simpa [marks, Dict.keys] using fresh
  rw [Dict.set_of_not_mem absent, marks, marks, List.zipIdx_append, List.length_zipIdx,
    Nat.add_comm 1]
  rfl

theorem pushChildren_settles (markers : Markers) (nodes : List NodeId) (pending : List Markers)
    : Settles (pushChildren markers nodes pending)
        (.ok (nodes.reverse.map (fun node => markers.set node (markers.length + 1)) ++ pending)) := by
  induction nodes generalizing pending with
  | nil => exact .pure pending
  | cons node rest ih =>
      rw [pushChildren, List.reverse_cons, List.map_append, List.append_assoc]
      exact check_settles.step (ih _)

theorem sortedBy_coloring (cpg : CPG) (color : Coloring)
    : sortedBy (fun node => (cpg.coloring color).getD node 0) (cpg.coloring color).keys
      = cpg.orderBy color := by
  rw [keys_coloring]
  refine sortedBy_congr fun node member => ?_
  rw [Dict.getD, coloring_get? member, Option.getD_some]

section Loop

variable {cpg : CPG} {index : GraphIndex} (ready : cpg.Ready) (describes : index.Describes cpg)

include ready describes

/-- Each round enters one state, refines it, and replaces it by its pruned children. -/
theorem searchLoop_budgeted (fuel : Nat) (stack : List (List NodeId))
    (valid : ∀ picked ∈ stack, cpg.Individualised picked) (best : Option Candidate)
    : Budgeted Eq (searchLoop cpg index fuel (stack.map marks) best)
        (exploreLoop cpg fuel stack best) := by
  induction fuel generalizing stack best with
  | zero => exact .raise _
  | succ fuel ih =>
      cases stack with
      | nil => exact .pure rfl
      | cons picked stack =>
          have pickedValid := valid picked List.mem_cons_self
          have restValid (other : List NodeId) (member : other ∈ stack) :=
            valid other (List.mem_cons_of_mem _ member)
          rw [List.map_cons, searchLoop, exploreLoop]
          refine .bind enterState_budgeted fun _ _ _ => ?_
          refine (refine_settles ready describes (pickedValid.short ready)).step ?_
          cases found : cpg.target (cpg.colorOf picked) with
          | none =>
              have encoded := encodeGraph_settles cpg (cpg.orderBy (cpg.colorOf picked))
              rw [encodeGraph_eq_ok ready (orderBy_perm _ _)] at encoded
              have leaf : cpg.prunedTree picked = .leaf (toLex
                  (encodedGraph cpg (cpg.orderBy (cpg.colorOf picked)),
                    cpg.orderBy (cpg.colorOf picked))) := by
                unfold CPG.prunedTree CPG.expandWith
                rw [found]
              unfold CPG.target at found
              rw [found, leaf]
              dsimp only
              rw [sortedBy_coloring]
              exact encoded.step (ih stack restValid _)
          | some target =>
              have members : ∀ node ∈ sorted (cpg.cell (cpg.colorOf picked) (ofLex target).2),
                  node ∈ cpg.cell (cpg.colorOf picked) (ofLex target).2 :=
                fun node member => mem_sorted.mp member
              have kept := representatives_settles describes
                fun node member => (mem_cell.mp (members node member)).1
              have branch : cpg.prunedTree picked = .branch
                  ((cpg.keptOf (sorted (cpg.cell (cpg.colorOf picked) (ofLex target).2))).map
                    fun node => picked ++ [node]) := by
                unfold CPG.prunedTree CPG.expandWith
                rw [found]
              have children (node : NodeId) (member : node ∈ cpg.keptOf
                    (sorted (cpg.cell (cpg.colorOf picked) (ofLex target).2)))
                  := members node (cpg.keptOf_subset _ member)
              have pushed := pushChildren_settles (marks picked)
                (cpg.keptOf (sorted (cpg.cell (cpg.colorOf picked) (ofLex target).2))).reverse
                (stack.map marks)
              rw [List.reverse_reverse, List.map_congr_left fun node member =>
                marks_append (fresh_of_target ready pickedValid found (children node member))]
                at pushed
              have joined : (cpg.keptOf (sorted (cpg.cell (cpg.colorOf picked)
                    (ofLex target).2))).map (fun node => marks (picked ++ [node]))
                    ++ stack.map marks
                  = ((cpg.keptOf (sorted (cpg.cell (cpg.colorOf picked) (ofLex target).2))).map
                      (fun node => picked ++ [node]) ++ stack).map marks := by
                rw [List.map_append, List.map_map]
                rfl
              rw [joined] at pushed
              unfold CPG.target at found
              rw [found, branch]
              dsimp only
              rw [cells_getD]
              refine kept.step (pushed.step (ih _ ?_ best))
              intro other member
              rcases List.mem_append.mp member with child | later
              · obtain ⟨node, nodeMember, rfl⟩ := List.mem_map.mp child
                exact (individualised_append ready pickedValid found (children node nodeMember)).1
              · exact restValid other later

end Loop

variable {cpg : CPG}

theorem prunedTree_fertile (ready : cpg.Ready) (picked : List NodeId)
    : cpg.prunedTree picked ≠ .branch [] := by
  intro barren
  obtain ⟨target, found, none⟩ := expandWith_eq_branch barren
  have several := several_of_target found
  have empty := List.map_eq_nil_iff.mp none.symm
  have known : sorted (cpg.cell (cpg.colorOf picked) (ofLex target).2) ⊆ cpg.nodeIds :=
    fun node member => (mem_cell.mp (mem_sorted.mp member)).1
  have covers := (keptOf_representatives ready known).covers
  rw [empty] at covers
  obtain ⟨first, member⟩ := List.exists_mem_of_length_pos (Nat.zero_lt_of_lt several)
  obtain ⟨chosen, impossible, _⟩ := covers first (mem_sorted.mpr member)
  exact absurd impossible List.not_mem_nil

/-- Order and encoding of the least candidate. -/
def CPG.certificate (cpg : CPG) : List NodeId × Bytes :=
  match cpg.candidates.min? with
  | some found => ((ofLex found).2, (ofLex found).1)
  | none => ([], [])

theorem certificate_eq (ready : cpg.Ready)
    : ∃ found,
        cpg.candidates.min? = some found
        ∧ cpg.certificate = ((ofLex found).2, (ofLex found).1) := by
  have some : cpg.candidates ≠ [] :=
    SearchTree.leaves_ne_nil (prunedTree_descending ready)
      (fun picked _ => prunedTree_fertile ready picked) (individualised_nil cpg)
      (Nat.lt_succ_self _)
  cases least : cpg.candidates.min? with
  | none => exact absurd (List.min?_eq_none_iff.mp least) some
  | some found => exact ⟨found, rfl, by rw [CPG.certificate, least]⟩

/-- Every certificate is the encoding of a complete order. -/
theorem candidate_encodes {choose : List NodeId → List NodeId} {depth : Nat} {candidate : Candidate}
    (member : candidate ∈ SearchTree.leaves (cpg.expandWith choose) depth picked)
    : (ofLex candidate).2.Perm cpg.nodeIds
      ∧ (ofLex candidate).1 = encodedGraph cpg (ofLex candidate).2 := by
  refine SearchTree.of_mem_leaves (fun candidate =>
    (ofLex candidate).2.Perm cpg.nodeIds
    ∧ (ofLex candidate).1 = encodedGraph cpg (ofLex candidate).2) ?_ member
  intro state certificate leaf
  unfold CPG.expandWith at leaf
  split at leaf
  · cases leaf
    exact ⟨orderBy_perm _ _, rfl⟩
  · cases leaf

theorem certificate_encodes (ready : cpg.Ready)
    : cpg.certificate.1.Perm cpg.nodeIds
      ∧ cpg.certificate.2 = encodedGraph cpg cpg.certificate.1 := by
  obtain ⟨found, least, same⟩ := certificate_eq ready
  rw [same]
  exact candidate_encodes (min?_isLeast least).1

/-- The certificate's bytes are least among those of the leaves. -/
theorem certificate_isLeast (ready : cpg.Ready)
    : IsLeast {bytes | ∃ candidate ∈ cpg.candidates, (ofLex candidate).1 = bytes}
        cpg.certificate.2 := by
  obtain ⟨found, least, same⟩ := certificate_eq ready
  obtain ⟨member, below⟩ := min?_isLeast least
  rw [same]
  refine ⟨⟨found, member, rfl⟩, ?_⟩
  rintro _ ⟨candidate, listed, rfl⟩
  exact Prod.Lex.monotone_fst _ _ (below candidate listed)

namespace Transport

variable {rename : NodeId → NodeId} {left right : CPG} (along : Transport rename left right)

include along

theorem roots : Mirrored left right [] [] :=
  ⟨individualised_nil left, rename, along, rfl⟩

/-- Isomorphic graphs need equally many search states. -/
theorem searchSize : left.searchSize = right.searchSize := by
  have trees := (expandWith_matching aligned_pruned).trees (left.nodes.length + 1) along.roots
  have bound : left.nodes.length + 1 = right.nodes.length + 1 :=
    congrArg Nat.succ along.iso.length_nodes
  exact trees.1.trans (bound ▸ rfl)

theorem candidates
    : ∃ listed,
        listed.Perm right.candidates ∧ List.Forall₂ SameBytes left.candidates listed := by
  have trees := (expandWith_matching aligned_pruned).trees (left.nodes.length + 1) along.roots
  have bound : left.nodes.length + 1 = right.nodes.length + 1 :=
    congrArg Nat.succ along.iso.length_nodes
  obtain ⟨listed, perm, pairs⟩ := trees.2
  exact ⟨listed, perm.trans (List.Perm.of_eq (bound ▸ rfl)), pairs⟩

/-- Isomorphic graphs have the same least certificate. -/
theorem certificate : left.certificate.2 = right.certificate.2 := by
  have leftLeast := certificate_isLeast along.leftReady
  have rightLeast := certificate_isLeast along.rightReady
  suffices same : {bytes | ∃ candidate ∈ left.candidates, (ofLex candidate).1 = bytes}
      = {bytes | ∃ candidate ∈ right.candidates, (ofLex candidate).1 = bytes} by
    rw [same] at leftLeast
    exact leftLeast.unique rightLeast
  obtain ⟨listed, perm, pairs⟩ := along.candidates
  have bytes : left.candidates.map (fun candidate => (ofLex candidate).1)
      = listed.map fun candidate => (ofLex candidate).1 := by
    rw [← List.forall₂_eq_eq_eq, List.forall₂_map_left_iff, List.forall₂_map_right_iff]
    exact pairs
  ext encoding
  have members := (perm.map fun candidate => (ofLex candidate).1).mem_iff (a := encoding)
  rw [← bytes] at members
  simpa only [List.mem_map, Set.mem_ofPred_eq] using members

end Transport

/-- What the search returns on an allowance, and the allowance left. -/
def searchSpec (cpg : CPG) : Allowance (List NodeId × Bytes) := fun allowed =>
  if cpg.searchSize ≤ allowed then
    (.ok cpg.certificate, allowed - cpg.searchSize)
  else
    (.error .budgetExhausted, 0)

/-- The bounded search returns the least certificate exactly when its allowance covers the
pruned tree.
-/
theorem canonicalSearch_budgeted {index : GraphIndex} (ready : cpg.Ready)
    (describes : index.Describes cpg)
    : Budgeted Eq (canonicalSearch cpg index) (searchSpec cpg) := by
  obtain ⟨found, least, certificate⟩ := certificate_eq ready
  have loop := Metered.Refines.of_view fun allowed => searchLoop_budgeted ready describes
    (allowed + 1) [[]]
    (fun picked member => List.mem_singleton.mp member ▸ individualised_nil cpg) none
  have finished : searchSpec cpg
      = exploreAll cpg >>= fun best =>
          (match best with
          | some found => pure ((ofLex found).2, (ofLex found).1)
          | none => Metered.raise .assertionError : Allowance (List NodeId × Bytes)) := by
    funext allowed
    have explored := SearchTree.explore_eq (prunedTree_descending ready) keepLeast allowed [[]] none
      (fun picked member => List.mem_singleton.mp member ▸ individualised_nil cpg)
    rw [List.map_singleton, List.sum_singleton, List.flatMap_singleton, foldl_keepLeast] at explored
    change _ = if cpg.searchSize ≤ allowed then
        (some cpg.candidates.min?, allowed - cpg.searchSize) else (none, 0) at explored
    have ran : exploreAll cpg allowed = _ :=
      exploreLoop_eq cpg (allowed + 1) [[]] none (Nat.lt_succ_self allowed)
    rw [explored, least] at ran
    by_cases enough : cpg.searchSize ≤ allowed
    · rw [if_pos enough] at ran
      rw [Metered.bind_ok ran, searchSpec, if_pos enough, certificate]
      rfl
    · rw [if_neg enough] at ran
      rw [Metered.bind_error ran, searchSpec, if_neg enough]
  rw [finished]
  refine .bind loop ?_
  rintro best _ rfl
  cases best with
  | none => exact .raise _
  | some found => exact .pure rfl

end Scanipy.Analysis

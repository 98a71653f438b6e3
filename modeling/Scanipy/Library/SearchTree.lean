import Mathlib.Algebra.Order.BigOperators.Group.List
import Mathlib.Tactic.Linarith
import Scanipy.Library.Outcome

/-! Search trees given by an expansion function, and their depth-first exploration.
A stack exploration under an allowance of states visits every state of the tree or exhausts
the allowance; which of the two, and the certificates met, depend only on the tree.
Trees are compared by matchings, which relate children up to permutation.
-/

namespace Scanipy.Library

variable {σ τ κ μ β : Type}

/-- A search state is a leaf with a certificate or branches into children. -/
inductive Expansion (σ κ : Type) where
  | leaf (certificate : κ)
  | branch (children : List σ)

namespace SearchTree

variable (expand : σ → Expansion σ κ)

/-- The number of states of the tree below a state, up to a depth. -/
def states : Nat → σ → Nat
  | 0, _ => 0
  | depth + 1, state =>
      match expand state with
      | .leaf _ => 1
      | .branch children => 1 + (children.map (states depth)).sum

/-- The certificates of the tree below a state, up to a depth, from left to right. -/
def leaves : Nat → σ → List κ
  | 0, _ => []
  | depth + 1, state =>
      match expand state with
      | .leaf certificate => [certificate]
      | .branch children => children.flatMap (leaves depth)

/-- Depth-first exploration of a stack under an allowance, folding certificates with `keep`.
The result is the fold, or nothing when a further state is requested of an empty allowance,
and the allowance left.
-/
def explore (keep : β → κ → β) : Nat → List σ → β → Option β × Nat
  | allowed, [], found => (some found, allowed)
  | 0, _ :: _, _ => (none, 0)
  | allowed + 1, state :: stack, found =>
      match expand state with
      | .leaf certificate => explore keep allowed stack (keep found certificate)
      | .branch children => explore keep allowed (children ++ stack) found

/-- Children of valid states are valid and lower, so the tree is finite. -/
def Descending (Valid : σ → Prop) (height : σ → Nat) : Prop :=
  ∀ state children,
    Valid state
    → expand state = .branch children
    → ∀ child ∈ children, Valid child ∧ height child < height state

variable {expand} {Valid : σ → Prop} {height : σ → Nat}

theorem states_leaf {state : σ} {certificate : κ} (leaf : expand state = .leaf certificate)
    (depth : Nat)
    : states expand (depth + 1) state = 1 := by
  simp only [states, leaf]

theorem states_branch {state : σ} {children : List σ} (branch : expand state = .branch children)
    (depth : Nat)
    : states expand (depth + 1) state = 1 + (children.map (states expand depth)).sum := by
  simp only [states, branch]

theorem leaves_leaf {state : σ} {certificate : κ} (leaf : expand state = .leaf certificate)
    (depth : Nat)
    : leaves expand (depth + 1) state = [certificate] := by
  simp only [leaves, leaf]

theorem leaves_branch {state : σ} {children : List σ} (branch : expand state = .branch children)
    (depth : Nat)
    : leaves expand (depth + 1) state = children.flatMap (leaves expand depth) := by
  simp only [leaves, branch]

/-- What holds at every leaf holds of every certificate, by induction on the depth. -/
theorem of_mem_leaves (holds : κ → Prop)
    (each : ∀ state certificate, expand state = .leaf certificate → holds certificate)
    {depth : Nat} {state : σ} {certificate : κ} (member : certificate ∈ leaves expand depth state)
    : holds certificate := by
  induction depth generalizing state with
  | zero => simp [leaves] at member
  | succ depth ih =>
      cases expanded : expand state with
      | leaf found =>
          rw [leaves_leaf expanded, List.mem_singleton] at member
          exact member ▸ each state found expanded
      | branch children =>
          rw [leaves_branch expanded] at member
          obtain ⟨child, _, below⟩ := List.mem_flatMap.mp member
          exact ih below

-- Depths above the height see the whole tree

/-- Any two depths above the height give the same count and certificates.
Witness: induction on the height, since children are lower.
-/
theorem depth_irrelevant (descending : Descending expand Valid height) {bound : Nat} {state : σ}
    (valid : Valid state) (low : height state < bound) {depth : Nat}
    (deep : height state < depth)
    : states expand depth state = states expand bound state
      ∧ leaves expand depth state = leaves expand bound state := by
  induction bound generalizing state depth with
  | zero => omega
  | succ bound ih =>
      cases depth with
      | zero => omega
      | succ depth =>
          cases expanded : expand state with
          | leaf certificate =>
              rw [states_leaf expanded, states_leaf expanded, leaves_leaf expanded,
                leaves_leaf expanded]
              exact ⟨rfl, rfl⟩
          | branch children =>
              have below (child : σ) (member : child ∈ children) :=
                descending _ _ valid expanded child member
              have same (child : σ) (member : child ∈ children)
                  : states expand depth child = states expand bound child
                    ∧ leaves expand depth child = leaves expand bound child := by
                obtain ⟨childValid, lower⟩ := below child member
                exact ih childValid (by omega) (by omega)
              rw [states_branch expanded, states_branch expanded, leaves_branch expanded,
                leaves_branch expanded]
              constructor
              · rw [List.map_congr_left fun child member => (same child member).1]
              · rw [List.flatMap_def, List.flatMap_def,
                  List.map_congr_left fun child member => (same child member).2]

/-- Expansions that agree on valid states have the same trees, by induction on the depth. -/
theorem congr {other : σ → Expansion σ κ} (descending : Descending expand Valid height)
    (same : ∀ state, Valid state → other state = expand state) (depth : Nat) {state : σ}
    (valid : Valid state)
    : states other depth state = states expand depth state
      ∧ leaves other depth state = leaves expand depth state := by
  induction depth generalizing state with
  | zero => exact ⟨rfl, rfl⟩
  | succ depth ih =>
      cases expanded : expand state with
      | leaf certificate =>
          have equal := (same state valid).trans expanded
          rw [states_leaf expanded, states_leaf equal, leaves_leaf expanded, leaves_leaf equal]
          exact ⟨rfl, rfl⟩
      | branch children =>
          have equal := (same state valid).trans expanded
          have below (child : σ) (member : child ∈ children) :=
            ih (descending _ _ valid expanded child member).1
          rw [states_branch expanded, states_branch equal, leaves_branch expanded,
            leaves_branch equal]
          constructor
          · rw [List.map_congr_left fun child member => (below child member).1]
          · rw [List.flatMap_def, List.flatMap_def,
              List.map_congr_left fun child member => (below child member).2]

/-- The number of states of the whole tree below a state. -/
def size (expand : σ → Expansion σ κ) (height : σ → Nat) (state : σ) : Nat :=
  states expand (height state + 1) state

/-- The certificates of the whole tree below a state. -/
def tips (expand : σ → Expansion σ κ) (height : σ → Nat) (state : σ) : List κ :=
  leaves expand (height state + 1) state

theorem size_pos (state : σ) : 1 ≤ size expand height state := by
  unfold size
  cases expanded : expand state with
  | leaf certificate => rw [states_leaf expanded]
  | branch children =>
      rw [states_branch expanded]
      omega

theorem size_branch (descending : Descending expand Valid height) {state : σ}
    (valid : Valid state) {children : List σ} (branch : expand state = .branch children)
    : size expand height state = 1 + (children.map (size expand height)).sum := by
  unfold size
  rw [states_branch branch]
  refine congrArg (fun total => 1 + total) (congrArg List.sum (List.map_congr_left ?_))
  intro child member
  obtain ⟨childValid, lower⟩ := descending _ _ valid branch child member
  exact (depth_irrelevant descending childValid (Nat.lt_succ_self _) lower).1

theorem tips_branch (descending : Descending expand Valid height) {state : σ}
    (valid : Valid state) {children : List σ} (branch : expand state = .branch children)
    : tips expand height state = children.flatMap (tips expand height) := by
  unfold tips
  rw [leaves_branch branch, List.flatMap_def, List.flatMap_def]
  refine congrArg List.flatten (List.map_congr_left ?_)
  intro child member
  obtain ⟨childValid, lower⟩ := descending _ _ valid branch child member
  exact (depth_irrelevant descending childValid (Nat.lt_succ_self _) lower).2

/-- A tree whose branches have children has a certificate, by induction on the depth. -/
theorem leaves_ne_nil (descending : Descending expand Valid height)
    (fertile : ∀ state, Valid state → expand state ≠ .branch []) {depth : Nat} {state : σ}
    (valid : Valid state) (deep : height state < depth)
    : leaves expand depth state ≠ [] := by
  induction depth generalizing state with
  | zero => omega
  | succ depth ih =>
      cases expanded : expand state with
      | leaf certificate =>
          rw [leaves_leaf expanded]
          exact List.cons_ne_nil _ _
      | branch children =>
          cases children with
          | nil => exact absurd expanded (fertile state valid)
          | cons child rest =>
              obtain ⟨childValid, lower⟩ := descending _ _ valid expanded child List.mem_cons_self
              rw [leaves_branch expanded, List.flatMap_cons]
              exact List.append_ne_nil_of_left_ne_nil (ih childValid (by omega)) _

/-- Exploration finishes exactly when the allowance covers every state on the stack, and
then folds exactly their certificates; otherwise it spends the whole allowance.
Witness: induction on the allowance; each round replaces a state by its children.
-/
theorem explore_eq (descending : Descending expand Valid height) (keep : β → κ → β)
    (allowed : Nat) (stack : List σ) (found : β) (valid : ∀ state ∈ stack, Valid state)
    : explore expand keep allowed stack found
      = if (stack.map (size expand height)).sum ≤ allowed then
          (some ((stack.flatMap (tips expand height)).foldl keep found),
            allowed - (stack.map (size expand height)).sum)
        else
          (none, 0) := by
  induction allowed generalizing stack found with
  | zero =>
      cases stack with
      | nil => simp [explore]
      | cons state stack =>
          have positive : 1 ≤ size expand height state := size_pos state
          rw [if_neg (by simp only [List.map_cons, List.sum_cons]; omega)]
          rfl
  | succ allowed ih =>
      cases stack with
      | nil => simp [explore]
      | cons state stack =>
          have stateValid := valid state List.mem_cons_self
          have restValid (other : σ) (member : other ∈ stack) :=
            valid other (List.mem_cons_of_mem _ member)
          cases expanded : expand state with
          | leaf certificate =>
              have one : size expand height state = 1 := states_leaf expanded _
              have tip : tips expand height state = [certificate] := leaves_leaf expanded _
              simp only [explore, expanded, ih stack _ restValid, List.map_cons, List.sum_cons, one,
                List.flatMap_cons, tip, List.singleton_append, List.foldl_cons]
              split_ifs with first second second
              · congr 1
                omega
              · omega
              · omega
              · rfl
          | branch children =>
              have childrenValid (child : σ) (member : child ∈ children) :=
                (descending _ _ stateValid expanded child member).1
              have allValid : ∀ other ∈ children ++ stack, Valid other := by
                intro other member
                rcases List.mem_append.mp member with child | later
                · exact childrenValid other child
                · exact restValid other later
              simp only [explore, expanded, ih (children ++ stack) _ allValid, List.map_cons,
                List.sum_cons, List.map_append, List.sum_append, List.flatMap_cons,
                List.flatMap_append, size_branch descending stateValid expanded,
                tips_branch descending stateValid expanded]
              split_ifs with first second second
              · congr 1
                omega
              · omega
              · omega
              · rfl

-- Matchings

/-- Expansions match: matched certificates, or children matched up to permutation. -/
def Expansion.Match (related : σ → τ → Prop) (agree : κ → μ → Prop)
    : Expansion σ κ → Expansion τ μ → Prop
  | .leaf certificate, .leaf other => agree certificate other
  | .branch children, .branch others =>
      ∃ listed, List.Perm listed others ∧ List.Forall₂ related children listed
  | _, _ => False

/-- Related states expand to matching expansions. -/
def Matching (related : σ → τ → Prop) (agree : κ → μ → Prop) (expand : σ → Expansion σ κ)
    (other : τ → Expansion τ μ)
    : Prop :=
  ∀ state image,
    related state image → Expansion.Match related agree (expand state) (other image)

private theorem forall₂_flatMap {related : σ → τ → Prop} {agree : κ → μ → Prop}
    {first : σ → List κ} {second : τ → List μ} {left : List σ} {right : List τ}
    (pairs : List.Forall₂ related left right)
    (each : ∀ {state image}, related state image
      → ∃ listed, List.Perm listed (second image) ∧ List.Forall₂ agree (first state) listed)
    : ∃ listed,
        List.Perm listed (right.flatMap second)
        ∧ List.Forall₂ agree (left.flatMap first) listed := by
  induction pairs with
  | nil => exact ⟨[], .rfl, .nil⟩
  | cons head _ ih =>
      obtain ⟨heads, headPerm, headPairs⟩ := each head
      obtain ⟨tails, tailPerm, tailPairs⟩ := ih
      exact ⟨heads ++ tails, headPerm.append tailPerm, List.rel_append headPairs tailPairs⟩

/-- Related states have trees of one size with matched certificates, at every depth.
Witness: induction on the depth; permuting children changes neither sum nor multiset.
-/
theorem Matching.trees {related : σ → τ → Prop} {agree : κ → μ → Prop}
    {other : τ → Expansion τ μ} (matching : Matching related agree expand other) (depth : Nat)
    {state : σ} {image : τ} (pair : related state image)
    : states expand depth state = states other depth image
      ∧ ∃ listed,
          List.Perm listed (leaves other depth image)
          ∧ List.Forall₂ agree (leaves expand depth state) listed := by
  induction depth generalizing state image with
  | zero => exact ⟨rfl, [], .rfl, .nil⟩
  | succ depth ih =>
      have matched := matching state image pair
      cases expanded : expand state with
      | leaf certificate =>
          cases opposite : other image with
          | branch others =>
              rw [expanded, opposite] at matched
              exact matched.elim
          | leaf certificate' =>
              rw [expanded, opposite] at matched
              rw [states_leaf expanded, states_leaf opposite, leaves_leaf expanded,
                leaves_leaf opposite]
              exact ⟨rfl, _, .rfl, .cons matched .nil⟩
      | branch children =>
          cases opposite : other image with
          | leaf certificate' =>
              rw [expanded, opposite] at matched
              exact matched.elim
          | branch others =>
              rw [expanded, opposite] at matched
              obtain ⟨listed, perm, pairs⟩ := matched
              rw [states_branch expanded, states_branch opposite, leaves_branch expanded,
                leaves_branch opposite]
              constructor
              · rw [← (perm.map (states other depth)).sum_eq]
                refine congrArg (fun total => 1 + total) (congrArg List.sum ?_)
                rw [← List.forall₂_eq_eq_eq, List.forall₂_map_left_iff,
                  List.forall₂_map_right_iff]
                exact pairs.imp fun _ _ related => (ih related).1
              · obtain ⟨certificates, certPerm, certPairs⟩ :=
                  forall₂_flatMap pairs fun related => (ih related).2
                exact ⟨certificates, certPerm.trans (perm.flatMap_right _), certPairs⟩

/-- A tree pruned of the children that are related to a kept sibling. -/
structure Pruning (related : σ → σ → Prop) (full pruned : σ → Expansion σ κ)
    (Valid : σ → Prop) : Prop where
  leaf
    : ∀ state certificate,
        Valid state → full state = .leaf certificate → pruned state = .leaf certificate
  branch
    : ∀ state children,
        Valid state
        → full state = .branch children
        → ∃ kept,
            pruned state = .branch kept
            ∧ kept ⊆ children
            ∧ ∀ child ∈ children, ∃ sibling ∈ kept, related child sibling
  valid
    : ∀ state children,
        Valid state → full state = .branch children → ∀ child ∈ children, Valid child

variable {related : σ → σ → Prop} {full pruned : σ → Expansion σ κ}

/-- Pruning adds no certificate, by induction on the depth. -/
theorem Pruning.leaves_subset (pruning : Pruning related full pruned Valid) (depth : Nat)
    {state : σ} (valid : Valid state)
    : leaves pruned depth state ⊆ leaves full depth state := by
  induction depth generalizing state with
  | zero => simp [leaves]
  | succ depth ih =>
      cases expanded : full state with
      | leaf certificate =>
          rw [leaves_leaf expanded, leaves_leaf (pruning.leaf _ _ valid expanded)]
          exact List.Subset.refl _
      | branch children =>
          obtain ⟨kept, keptBranch, inside, _⟩ := pruning.branch _ _ valid expanded
          rw [leaves_branch expanded, leaves_branch keptBranch]
          intro certificate member
          obtain ⟨child, childMember, below⟩ := List.mem_flatMap.mp member
          have childValid := pruning.valid _ _ valid expanded child (inside childMember)
          exact List.mem_flatMap.mpr ⟨child, inside childMember, ih childValid below⟩

/-- Pruning keeps, up to agreement, every certificate of the full tree.
Witness: induction on the depth. A pruned child's certificates occur below the kept sibling
it is related to, because related states of the full tree match.
-/
theorem Pruning.covers {agree : κ → κ → Prop} (pruning : Pruning related full pruned Valid)
    (matching : Matching related agree full full)
    (agree_refl : ∀ certificate, agree certificate certificate)
    (agree_trans : ∀ first second third,
      agree first second → agree second third → agree first third)
    (depth : Nat) {state : σ} (valid : Valid state) {certificate : κ}
    (member : certificate ∈ leaves full depth state)
    : ∃ other ∈ leaves pruned depth state, agree certificate other := by
  induction depth generalizing state certificate with
  | zero => simp [leaves] at member
  | succ depth ih =>
      cases expanded : full state with
      | leaf certificate' =>
          rw [leaves_leaf expanded] at member
          rw [leaves_leaf (pruning.leaf _ _ valid expanded)]
          exact ⟨certificate, member, agree_refl certificate⟩
      | branch children =>
          obtain ⟨kept, keptBranch, inside, covered⟩ := pruning.branch _ _ valid expanded
          rw [leaves_branch expanded] at member
          rw [leaves_branch keptBranch]
          obtain ⟨child, childMember, below⟩ := List.mem_flatMap.mp member
          obtain ⟨sibling, siblingMember, pair⟩ := covered child childMember
          obtain ⟨_, listed, perm, pairs⟩ := matching.trees depth pair
          obtain ⟨image, imageMember, agrees⟩ := exists_related_of_mem pairs below
          have siblingValid := pruning.valid _ _ valid expanded sibling (inside siblingMember)
          obtain ⟨other, otherMember, further⟩ := ih siblingValid (perm.mem_iff.mp imageMember)
          exact ⟨other, List.mem_flatMap.mpr ⟨sibling, siblingMember, otherMember⟩,
            agree_trans _ _ _ agrees further⟩

end SearchTree

end Scanipy.Library

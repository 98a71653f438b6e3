import Mathlib.Algebra.GroupWithZero.Nat
import Mathlib.Data.Set.Finite.List

/-! Depth-first search with an explicit stack: it measures the height of every node and refuses
cycles and heights beyond a bound. It succeeds exactly on graphs with a bounded ranking.
-/

namespace Scanipy.Library.DepthFirst

variable {α : Type} [DecidableEq α]

/-- Why a search stops early. A missing height and exhausted fuel never happen. -/
inductive Failure where
  | cyclic
  | deep
  | missing
  | exhausted
  deriving DecidableEq, Repr

/-- The nodes entered so far, and the heights of those that have been left. -/
structure Walk (α : Type) where
  entered : List α
  heights : List (α × Nat)

/-- One more than the highest child, or zero. -/
def heightOf (heights : List (α × Nat)) : List α → Option Nat
  | [] => some 0
  | child :: rest => do
      let height ← heights.lookup child
      let others ← heightOf heights rest
      some (max (1 + height) others)

section Search

variable (children : α → List α) (bound : Nat)

/-- One round for the node on top of the stack: it is left, skipped or entered. -/
def step (node : α) (exiting : Bool) (pending : List (α × Bool)) (walk : Walk α)
    : Except Failure (List (α × Bool) × Walk α) :=
  if exiting then
    match heightOf walk.heights (children node) with
    | none => .error .missing
    | some height =>
        if height ≤ bound then
          .ok (pending, { walk with heights := (node, height) :: walk.heights })
        else .error .deep
  else if (walk.heights.lookup node).isSome then
    .ok (pending, walk)
  else if node ∈ walk.entered then
    .error .cyclic
  else
    .ok ((children node).reverse.map (·, false) ++ (node, true) :: pending,
      { walk with entered := node :: walk.entered })

/-- The rounds until the stack is empty. -/
def run : Nat → List (α × Bool) → Walk α → Except Failure (Walk α)
  | _, [], walk => .ok walk
  | 0, _ :: _, _ => .error .exhausted
  | fuel + 1, (node, exiting) :: pending, walk => do
      let (pending, walk) ← step children bound node exiting pending walk
      run fuel pending walk

/-- Every node is pushed once as a root and once for each edge, and once more when entered. -/
def fuelFor (nodes : List α) : Nat :=
  (nodes.map fun node => 1 + (children node).length).sum

/-- Search from the roots, the last one first; `nodes` are the nodes that can be met. -/
def search (nodes roots : List α) : Except Failure (Walk α) :=
  run children bound (roots.length + fuelFor children nodes) (roots.reverse.map (·, false)) ⟨[], []⟩

end Search

variable {children : α → List α} {bound : Nat} {height : Nat}

/-- Every child of a measured node is lower, by induction on the children. -/
theorem lower_of_heightOf {heights : List (α × Nat)} {nodes : List α}
    (measured : heightOf heights nodes = some height)
    : ∀ child ∈ nodes, ∃ lower, heights.lookup child = some lower ∧ lower < height := by
  induction nodes generalizing height with
  | nil => simp
  | cons first rest ih =>
      simp only [heightOf, Option.bind_eq_bind, Option.bind_eq_some_iff, Option.some.injEq] at measured
      obtain ⟨lower, found, others, more, rfl⟩ := measured
      intro child member
      rcases List.mem_cons.mp member with rfl | later
      · exact ⟨lower, found, by omega⟩
      · obtain ⟨other, known, below⟩ := ih more child later
        exact ⟨other, known, by omega⟩

/-- Children that are all measured below a rank are measured together. -/
theorem heightOf_le {heights : List (α × Nat)} {nodes : List α} {rank : Nat}
    (lower : ∀ child ∈ nodes, ∃ height, heights.lookup child = some height ∧ height < rank)
    : ∃ height, heightOf heights nodes = some height ∧ height ≤ rank := by
  induction nodes with
  | nil => exact ⟨0, rfl, Nat.zero_le _⟩
  | cons first rest ih =>
      obtain ⟨height, found, below⟩ := lower first List.mem_cons_self
      obtain ⟨others, more, under⟩ := ih fun child member =>
        lower child (List.mem_cons_of_mem _ member)
      refine ⟨max (1 + height) others, ?_, by omega⟩
      simp [heightOf, found, more]

/-- Children that are all measured are measured together, by induction on the children. -/
theorem exists_heightOf {heights : List (α × Nat)} {nodes : List α}
    (known : ∀ child ∈ nodes, (heights.lookup child).isSome = true)
    : ∃ height, heightOf heights nodes = some height := by
  induction nodes with
  | nil => exact ⟨0, rfl⟩
  | cons first rest ih =>
      obtain ⟨height, found⟩ := Option.isSome_iff_exists.mp (known first List.mem_cons_self)
      obtain ⟨others, more⟩ := ih fun child member => known child (List.mem_cons_of_mem _ member)
      exact ⟨_, by simp only [heightOf, found, more]; rfl⟩

-- One round

/-- The entries that a node leaves on the stack when it is entered. -/
def expand (children : α → List α) (node : α) (pending : List (α × Bool)) : List (α × Bool) :=
  (children node).reverse.map (·, false) ++ (node, true) :: pending

variable {exiting : Bool}

/-- What one round can do. -/
theorem step_cases {node : α} {pending next : List (α × Bool)} {walk after : Walk α}
    (ran : step children bound node exiting pending walk = .ok (next, after))
    : (exiting = true ∧ next = pending ∧ ∃ height,
        heightOf walk.heights (children node) = some height ∧ height ≤ bound
        ∧ after = { walk with heights := (node, height) :: walk.heights })
      ∨ (exiting = false ∧ (walk.heights.lookup node).isSome = true ∧ next = pending ∧ after = walk)
      ∨ (exiting = false ∧ walk.heights.lookup node = none ∧ node ∉ walk.entered
        ∧ next = expand children node pending
        ∧ after = { walk with entered := node :: walk.entered }) := by
  cases exiting with
  | true =>
      simp only [step, if_true] at ran
      split at ran
      · cases ran
      next height measured =>
        split_ifs at ran with bounded
        cases ran
        exact .inl ⟨rfl, rfl, height, measured, bounded, rfl⟩
  | false =>
      simp only [step, Bool.false_eq_true, if_false] at ran
      split_ifs at ran with left entered
      · cases ran
        exact .inr (.inl ⟨rfl, left, rfl, rfl⟩)
      · cases ran
        exact .inr (.inr ⟨rfl, Option.not_isSome_iff_eq_none.mp left, entered, rfl, rfl⟩)

/-- What holds between two rounds: the nodes being left are those entered and not yet measured,
their children are measured or above them, and measured nodes are above their children.
-/
structure Sound (children : α → List α) (bound : Nat) (stack : List (α × Bool)) (walk : Walk α)
    : Prop where
  active : ∀ node, (node, true) ∈ stack → node ∈ walk.entered ∧ walk.heights.lookup node = none
  distinct : ((stack.filter Prod.snd).map Prod.fst).Nodup
  entered : ∀ node ∈ walk.entered, (node, true) ∈ stack ∨ (walk.heights.lookup node).isSome = true
  measured : ∀ node height, walk.heights.lookup node = some height
    → height ≤ bound
      ∧ ∀ child ∈ children node, ∃ lower, walk.heights.lookup child = some lower ∧ lower < height
  covered : ∀ above node below, stack = above ++ (node, true) :: below
    → ∀ child ∈ children node, (walk.heights.lookup child).isSome = true
        ∨ ∃ exiting, (child, exiting) ∈ above

theorem lookup_cons_of_ne {heights : List (α × Nat)} {node other : α} (different : other ≠ node)
    : ((node, height) :: heights).lookup other = heights.lookup other := by
  rw [List.lookup_cons, beq_false_of_ne different]

theorem isSome_lookup_cons {heights : List (α × Nat)} {node other : α}
    (known : (heights.lookup other).isSome = true)
    : (((node, height) :: heights).lookup other).isSome = true := by
  by_cases same : other = node
  · simp [same]
  · rw [lookup_cons_of_ne same]
    exact known

theorem Sound.leave {node : α} {pending : List (α × Bool)} {walk : Walk α}
    (sound : Sound children bound ((node, true) :: pending) walk)
    (known : heightOf walk.heights (children node) = some height) (bounded : height ≤ bound)
    : Sound children bound pending { walk with heights := (node, height) :: walk.heights } := by
  have absent := (sound.active node List.mem_cons_self).2
  have others : node ∉ (pending.filter Prod.snd).map Prod.fst := by
    have distinct := sound.distinct
    simp only [List.filter_cons, if_true, List.map_cons, List.nodup_cons] at distinct
    exact distinct.1
  have apart : ∀ other, (other, true) ∈ pending → other ≠ node := by
    intro other member same
    exact others (List.mem_map.mpr ⟨(other, true), List.mem_filter.mpr ⟨member, rfl⟩, same⟩)
  refine ⟨?_, ?_, ?_, ?_, ?_⟩
  · intro other member
    obtain ⟨entered, unknown⟩ := sound.active other (List.mem_cons_of_mem _ member)
    exact ⟨entered, by rw [lookup_cons_of_ne (apart other member)]; exact unknown⟩
  · have distinct := sound.distinct
    simp only [List.filter_cons, if_true, List.map_cons, List.nodup_cons] at distinct
    exact distinct.2
  · intro other member
    rcases sound.entered other member with stacked | left
    · rcases List.mem_cons.mp stacked with same | later
      · cases same
        exact .inr (by simp)
      · exact .inl later
    · exact .inr (isSome_lookup_cons left)
  · intro other found lookup
    have keep : ∀ child lower, walk.heights.lookup child = some lower
        → ((node, height) :: walk.heights).lookup child = some lower := by
      intro child lower found
      rw [lookup_cons_of_ne (by rintro rfl; rw [absent] at found; cases found)]
      exact found
    by_cases same : other = node
    · subst same
      rw [List.lookup_cons_self] at lookup
      cases lookup
      refine ⟨bounded, fun child member => ?_⟩
      obtain ⟨lower, found, below⟩ := lower_of_heightOf known child member
      exact ⟨lower, keep child lower found, below⟩
    · rw [lookup_cons_of_ne same] at lookup
      obtain ⟨small, lower⟩ := sound.measured other found lookup
      refine ⟨small, fun child member => ?_⟩
      obtain ⟨under, found, below⟩ := lower child member
      exact ⟨under, keep child under found, below⟩
  · intro above other below split child member
    rcases sound.covered ((node, true) :: above) other below (by rw [split]; rfl) child member with
      left | ⟨exiting, stacked⟩
    · exact .inl (isSome_lookup_cons left)
    · rcases List.mem_cons.mp stacked with same | later
      · cases same
        exact .inl (by simp)
      · exact .inr ⟨exiting, later⟩

theorem Sound.skip {node : α} {pending : List (α × Bool)} {walk : Walk α}
    (sound : Sound children bound ((node, false) :: pending) walk)
    (left : (walk.heights.lookup node).isSome = true)
    : Sound children bound pending walk := by
  refine ⟨fun other member => sound.active other (List.mem_cons_of_mem _ member), ?_, ?_,
    sound.measured, ?_⟩
  · simpa using sound.distinct
  · intro other member
    rcases sound.entered other member with stacked | known
    · rcases List.mem_cons.mp stacked with same | later
      · cases same
      · exact .inl later
    · exact .inr known
  · intro above other below split child member
    rcases sound.covered ((node, false) :: above) other below (by rw [split]; rfl) child member with
      known | ⟨exiting, stacked⟩
    · exact .inl known
    · rcases List.mem_cons.mp stacked with same | later
      · cases same
        exact .inl left
      · exact .inr ⟨exiting, later⟩

theorem Sound.enter {node : α} {pending : List (α × Bool)} {walk : Walk α}
    (sound : Sound children bound ((node, false) :: pending) walk)
    (unknown : walk.heights.lookup node = none) (fresh : node ∉ walk.entered)
    : Sound children bound (expand children node pending)
        { walk with entered := node :: walk.entered } := by
  have actives : ∀ other, (other, true) ∈ expand children node pending
      → other = node ∨ (other, true) ∈ pending := by
    intro other member
    rcases List.mem_append.mp member with child | later
    · obtain ⟨_, _, same⟩ := List.mem_map.mp child
      cases same
    · rcases List.mem_cons.mp later with same | rest
      · cases same
        exact .inl rfl
      · exact .inr rest
  have stacked : (node, true) ∈ expand children node pending :=
    List.mem_append_right _ List.mem_cons_self
  refine ⟨?_, ?_, ?_, sound.measured, ?_⟩
  · intro other member
    rcases actives other member with rfl | later
    · exact ⟨List.mem_cons_self, unknown⟩
    · obtain ⟨entered, absent⟩ := sound.active other (List.mem_cons_of_mem _ later)
      exact ⟨List.mem_cons_of_mem _ entered, absent⟩
  · have distinct : ((pending.filter Prod.snd).map Prod.fst).Nodup := by simpa using sound.distinct
    have none_ : ((children node).reverse.map (·, false)).filter Prod.snd = [] := by
      rw [List.filter_eq_nil_iff]
      intro entry member
      obtain ⟨_, _, rfl⟩ := List.mem_map.mp member
      simp
    simp only [expand, List.filter_append, none_, List.nil_append, List.filter_cons, if_true,
      List.map_cons, List.nodup_cons]
    refine ⟨fun member => ?_, distinct⟩
    obtain ⟨⟨other, exiting⟩, listed, same⟩ := List.mem_map.mp member
    obtain ⟨among, active⟩ := List.mem_filter.mp listed
    dsimp only at same active
    subst same active
    exact fresh (sound.active other (List.mem_cons_of_mem _ among)).1
  · intro other member
    rcases List.mem_cons.mp member with rfl | earlier
    · exact .inl stacked
    · rcases sound.entered other earlier with old | known
      · rcases List.mem_cons.mp old with same | later
        · cases same
        · exact .inl (List.mem_append_right _ (List.mem_cons_of_mem _ later))
      · exact .inr known
  · intro above other below split child member
    rcases List.append_eq_append_iff.mp split with ⟨middle, same, rest⟩ | ⟨middle, same, rest⟩
    · cases middle with
      | nil =>
          simp only [List.nil_append, List.cons.injEq] at rest
          cases rest.1
          rw [same, List.append_nil]
          exact .inr ⟨false, List.mem_map.mpr ⟨child, List.mem_reverse.mpr member, rfl⟩⟩
      | cons head middle =>
          simp only [List.cons_append, List.cons.injEq] at rest
          obtain ⟨rfl, rest⟩ := rest
          rcases sound.covered ((node, false) :: middle) other below (by rw [rest]; rfl) child member
            with known | ⟨exiting, listed⟩
          · exact .inl known
          · rcases List.mem_cons.mp listed with same' | later
            · cases same'
              exact .inr ⟨true, by rw [same]; exact List.mem_append_right _ List.mem_cons_self⟩
            · refine .inr ⟨exiting, ?_⟩
              rw [same]
              exact List.mem_append_right _ (List.mem_cons_of_mem _ later)
    · cases middle with
      | nil =>
          simp only [List.nil_append, List.cons.injEq] at rest
          cases rest.1
          rw [List.append_nil] at same
          rw [← same]
          exact .inr ⟨false, List.mem_map.mpr ⟨child, List.mem_reverse.mpr member, rfl⟩⟩
      | cons head middle =>
          simp only [List.cons_append, List.cons.injEq] at rest
          have listed : (other, true) ∈ (children node).reverse.map (·, false) := by
            rw [same, ← rest.1]
            exact List.mem_append_right _ List.mem_cons_self
          obtain ⟨_, _, absurd_⟩ := List.mem_map.mp listed
          cases absurd_

/-- A round keeps what holds between rounds. -/
theorem Sound.step {node : α} {exiting : Bool} {pending next : List (α × Bool)}
    {walk after : Walk α} (sound : Sound children bound ((node, exiting) :: pending) walk)
    (ran : step children bound node exiting pending walk = .ok (next, after))
    : Sound children bound next after := by
  rcases step_cases ran with ⟨rfl, rfl, height, known, bounded, rfl⟩ | ⟨rfl, left, rfl, rfl⟩
    | ⟨rfl, unknown, fresh, rfl, rfl⟩
  · exact sound.leave known bounded
  · exact sound.skip left
  · exact sound.enter unknown fresh

/-- A root is measured or still on the stack. -/
def Waiting (stack : List (α × Bool)) (walk : Walk α) (root : α) : Prop :=
  (walk.heights.lookup root).isSome = true ∨ ∃ exiting, (root, exiting) ∈ stack

theorem Waiting.step {node root : α} {exiting : Bool} {pending next : List (α × Bool)}
    {walk after : Walk α} (waiting : Waiting ((node, exiting) :: pending) walk root)
    (ran : DepthFirst.step children bound node exiting pending walk = .ok (next, after))
    : Waiting next after root := by
  rcases step_cases ran with ⟨rfl, rfl, height, _, _, rfl⟩ | ⟨rfl, left, rfl, rfl⟩
    | ⟨rfl, _, _, rfl, rfl⟩
  · rcases waiting with known | ⟨state, stacked⟩
    · exact .inl (isSome_lookup_cons known)
    · rcases List.mem_cons.mp stacked with same | later
      · cases same
        exact .inl (by simp)
      · exact .inr ⟨state, later⟩
  · rcases waiting with known | ⟨state, stacked⟩
    · exact .inl known
    · rcases List.mem_cons.mp stacked with same | later
      · cases same
        exact .inl left
      · exact .inr ⟨state, later⟩
  · rcases waiting with known | ⟨state, stacked⟩
    · exact .inl known
    · rcases List.mem_cons.mp stacked with same | later
      · cases same
        exact .inr ⟨true, List.mem_append_right _ List.mem_cons_self⟩
      · exact .inr ⟨state, List.mem_append_right _ (List.mem_cons_of_mem _ later)⟩

-- Rankings

/-- The children of every node are below it, and no node is above the bound. -/
def Ranked (children : α → List α) (bound : Nat) (nodes : List α) (rank : α → Nat) : Prop :=
  ∀ node ∈ nodes, rank node ≤ bound ∧ ∀ child ∈ children node, rank child < rank node

variable {fuel : Nat}

/-- A run that ends has measured its roots, by induction on the fuel. -/
theorem run_measures {stack : List (α × Bool)} {walk last : Walk α} {roots : List α}
    (sound : Sound children bound stack walk) (waiting : ∀ root ∈ roots, Waiting stack walk root)
    (ran : run children bound fuel stack walk = .ok last)
    : Sound children bound [] last
      ∧ ∀ root ∈ roots, (last.heights.lookup root).isSome = true := by
  induction fuel generalizing stack walk with
  | zero =>
      cases stack with
      | nil =>
          cases ran
          exact ⟨sound, fun root member => (waiting root member).resolve_right (by simp)⟩
      | cons entry rest => cases ran
  | succ fuel ih =>
      cases stack with
      | nil =>
          cases ran
          exact ⟨sound, fun root member => (waiting root member).resolve_right (by simp)⟩
      | cons entry rest =>
          obtain ⟨node, exiting⟩ := entry
          simp only [run] at ran
          cases round : DepthFirst.step children bound node exiting rest walk with
          | error raised =>
              rw [round] at ran
              cases ran
          | ok outcome =>
              obtain ⟨next, after⟩ := outcome
              rw [round] at ran
              exact ih (sound.step round) (fun root member => (waiting root member).step round) ran

theorem sound_start (roots : List α)
    : Sound children bound (roots.reverse.map (·, false)) ⟨[], []⟩ := by
  have inactive : ∀ node, (node, true) ∉ roots.reverse.map (·, false) := by
    intro node member
    obtain ⟨_, _, same⟩ := List.mem_map.mp member
    cases same
  refine ⟨fun node member => absurd member (inactive node), ?_, by simp, by simp, ?_⟩
  · have none_ : (roots.reverse.map (·, false)).filter Prod.snd = [] := by
      rw [List.filter_eq_nil_iff]
      intro entry member
      obtain ⟨_, _, rfl⟩ := List.mem_map.mp member
      simp
    rw [none_]
    exact List.nodup_nil
  · intro above node below split
    refine absurd ?_ (inactive node)
    rw [split]
    exact List.mem_append_right _ List.mem_cons_self

/-- A search that succeeds ranks the roots. -/
theorem ranked_of_search {nodes roots : List α} {walk : Walk α}
    (found : search children bound nodes roots = .ok walk)
    : ∃ rank, Ranked children bound roots rank := by
  have waiting : ∀ root ∈ roots, Waiting (roots.reverse.map (·, false)) ⟨[], []⟩ root :=
    fun root member => .inr ⟨false, List.mem_map.mpr ⟨root, List.mem_reverse.mpr member, rfl⟩⟩
  obtain ⟨sound, known⟩ := run_measures (sound_start roots) waiting found
  refine ⟨fun node => (walk.heights.lookup node).getD 0, fun node member => ?_⟩
  obtain ⟨height, measured⟩ := Option.isSome_iff_exists.mp (known node member)
  obtain ⟨small, lower⟩ := sound.measured node height measured
  refine ⟨by simpa [measured] using small, fun child among => ?_⟩
  obtain ⟨under, found, below⟩ := lower child among
  simpa [measured, found] using below

section Complete

variable {nodes : List α} {rank : α → Nat}

/-- Entries above a node that is being left rank below it, and heights never exceed the rank. -/
structure Below (nodes : List α) (rank : α → Nat) (stack : List (α × Bool)) (walk : Walk α)
    : Prop where
  ordered : stack.Pairwise fun above below => below.2 = true → rank above.1 < rank below.1
  known : ∀ entry ∈ stack, entry.1 ∈ nodes
  heights : ∀ node height, walk.heights.lookup node = some height → height ≤ rank node

/-- The nodes not yet entered, weighted by what entering them pushes. -/
def remaining (children : α → List α) (nodes entered : List α) : Nat :=
  ((nodes.filter (· ∉ entered)).map fun node => 1 + (children node).length).sum

theorem remaining_enter {node : α} {entered : List α} (distinct : nodes.Nodup)
    (member : node ∈ nodes) (fresh : node ∉ entered)
    : remaining children nodes entered
      = remaining children nodes (node :: entered) + (1 + (children node).length) := by
  have perm := List.perm_cons_erase member
  have weights {left right : List α} (perm : left.Perm right) (entered : List α)
      : remaining children left entered = remaining children right entered :=
    ((perm.filter _).map _).sum_nat
  have rest : (nodes.erase node).filter (· ∉ node :: entered)
      = (nodes.erase node).filter (· ∉ entered) := by
    apply List.filter_congr
    intro other listed
    have apart : other ≠ node := fun same => distinct.not_mem_erase (same ▸ listed)
    simp [apart]
  rw [weights perm, weights perm, remaining, remaining, List.filter_cons_of_pos (by simpa using fresh),
    List.filter_cons_of_neg (by simp), rest, List.map_cons, List.sum_cons]
  omega

/-- A ranked round succeeds, keeps the ranking, and spends a unit. -/
theorem Below.step (ranked : Ranked children bound nodes rank) (distinct : nodes.Nodup)
    (closed : ∀ node ∈ nodes, ∀ child ∈ children node, child ∈ nodes) {node : α} {exiting : Bool}
    {pending : List (α × Bool)} {walk : Walk α}
    (sound : Sound children bound ((node, exiting) :: pending) walk)
    (below : Below nodes rank ((node, exiting) :: pending) walk)
    : ∃ next after, DepthFirst.step children bound node exiting pending walk = .ok (next, after)
        ∧ Below nodes rank next after
        ∧ next.length + remaining children nodes after.entered
          = pending.length + remaining children nodes walk.entered := by
  obtain ⟨ordered, known, heights⟩ := below
  obtain ⟨above, tail⟩ := List.pairwise_cons.mp ordered
  have member := known _ List.mem_cons_self
  have others : ∀ entry ∈ pending, entry.1 ∈ nodes := fun entry listed =>
    known entry (List.mem_cons_of_mem _ listed)
  obtain ⟨bounded, lower⟩ := ranked node member
  cases exiting with
  | true =>
      have measured : ∀ child ∈ children node,
          ∃ height, walk.heights.lookup child = some height ∧ height < rank node := by
        intro child among
        rcases sound.covered [] node pending rfl child among with known | ⟨_, absurd_⟩
        · obtain ⟨height, found⟩ := Option.isSome_iff_exists.mp known
          exact ⟨height, found, lt_of_le_of_lt (heights child height found) (lower child among)⟩
        · simp at absurd_
      obtain ⟨height, found, small⟩ := heightOf_le measured
      refine ⟨pending, { walk with heights := (node, height) :: walk.heights }, ?_,
        ⟨tail, others, ?_⟩, rfl⟩
      · simp [DepthFirst.step, found, le_trans small bounded]
      · intro other value lookup
        by_cases same : other = node
        · subst same
          rw [List.lookup_cons_self] at lookup
          cases lookup
          exact small
        · rw [lookup_cons_of_ne same] at lookup
          exact heights other value lookup
  | false =>
      by_cases left : (walk.heights.lookup node).isSome = true
      · exact ⟨pending, walk, by simp only [DepthFirst.step, left, if_true]; rfl,
          ⟨tail, others, heights⟩, rfl⟩
      · have fresh : node ∉ walk.entered := by
          intro entered
          rcases sound.entered node entered with stacked | measured
          · rcases List.mem_cons.mp stacked with same | later
            · cases same
            · exact lt_irrefl _ (above (node, true) later rfl)
          · exact left measured
        refine ⟨expand children node pending, { walk with entered := node :: walk.entered }, ?_,
          ⟨?_, ?_, heights⟩, ?_⟩
        · rw [DepthFirst.step, if_neg (by decide), if_neg left, if_neg fresh]
          rfl
        · refine List.pairwise_append.mpr ⟨?_, List.pairwise_cons.mpr ⟨above, tail⟩, ?_⟩
          · rw [List.pairwise_map]
            exact List.Pairwise.imp (fun _ exiting => by cases exiting) (List.pairwise_of_forall
              fun _ _ => trivial)
          · intro entry listed under stacked active
            obtain ⟨child, among, rfl⟩ := List.mem_map.mp listed
            have small := lower child (List.mem_reverse.mp among)
            rcases List.mem_cons.mp stacked with rfl | later
            · exact small
            · exact lt_trans small (above under later active)
        · intro entry listed
          rcases List.mem_append.mp listed with child | later
          · obtain ⟨found, among, rfl⟩ := List.mem_map.mp child
            exact closed node member found (List.mem_reverse.mp among)
          · rcases List.mem_cons.mp later with rfl | rest
            · exact member
            · exact others entry rest
        · rw [remaining_enter distinct member fresh]
          simp only [expand, List.length_append, List.length_map, List.length_reverse,
            List.length_cons]
          omega

/-- A ranked run ends, by induction on the fuel. -/
theorem run_of_ranked (ranked : Ranked children bound nodes rank) (distinct : nodes.Nodup)
    (closed : ∀ node ∈ nodes, ∀ child ∈ children node, child ∈ nodes) {stack : List (α × Bool)}
    {walk : Walk α} (sound : Sound children bound stack walk) (below : Below nodes rank stack walk)
    (enough : stack.length + remaining children nodes walk.entered ≤ fuel)
    : ∃ last, run children bound fuel stack walk = .ok last := by
  induction fuel generalizing stack walk with
  | zero =>
      cases stack with
      | nil => exact ⟨walk, rfl⟩
      | cons entry rest =>
          simp only [List.length_cons] at enough
          omega
  | succ fuel ih =>
      cases stack with
      | nil => exact ⟨walk, rfl⟩
      | cons entry rest =>
          obtain ⟨node, exiting⟩ := entry
          obtain ⟨next, after, round, under, spent⟩ := below.step ranked distinct closed sound
          simp only [List.length_cons] at enough
          obtain ⟨last, ran⟩ := ih (sound.step round) under (by omega)
          exact ⟨last, by simp only [run, round]; exact ran⟩

/-- A search of a ranked graph succeeds. -/
theorem search_of_ranked {roots : List α} (ranked : Ranked children bound nodes rank)
    (distinct : nodes.Nodup) (closed : ∀ node ∈ nodes, ∀ child ∈ children node, child ∈ nodes)
    (rooted : ∀ root ∈ roots, root ∈ nodes)
    : ∃ walk, search children bound nodes roots = .ok walk := by
  refine run_of_ranked ranked distinct closed (sound_start roots) ⟨?_, ?_, by simp⟩ ?_
  · rw [List.pairwise_map]
    exact List.pairwise_of_forall fun _ _ active => by cases active
  · intro entry listed
    obtain ⟨root, among, rfl⟩ := List.mem_map.mp listed
    exact rooted root (List.mem_reverse.mp among)
  · simp [remaining, fuelFor]

/-- A round succeeds and spends a unit, or finds a cycle or a height beyond the bound. -/
theorem step_ends (distinct : nodes.Nodup)
    (closed : ∀ node ∈ nodes, ∀ child ∈ children node, child ∈ nodes) {node : α}
    {pending : List (α × Bool)} {walk : Walk α}
    (sound : Sound children bound ((node, exiting) :: pending) walk)
    (known : ∀ entry ∈ (node, exiting) :: pending, entry.1 ∈ nodes)
    : DepthFirst.step children bound node exiting pending walk = .error .cyclic
      ∨ DepthFirst.step children bound node exiting pending walk = .error .deep
      ∨ ∃ next after, DepthFirst.step children bound node exiting pending walk = .ok (next, after)
        ∧ (∀ entry ∈ next, entry.1 ∈ nodes)
        ∧ next.length + remaining children nodes after.entered
          = pending.length + remaining children nodes walk.entered := by
  have member := known _ List.mem_cons_self
  have others : ∀ entry ∈ pending, entry.1 ∈ nodes := fun entry listed =>
    known entry (List.mem_cons_of_mem _ listed)
  cases exiting with
  | true =>
      -- Nothing is above a node that is being left, so its children are all measured.
      obtain ⟨height, found⟩ := exists_heightOf fun child among =>
        (sound.covered [] node pending rfl child among).resolve_right fun above => by simp at above
      by_cases small : height ≤ bound
      · refine .inr (.inr ⟨pending, { walk with heights := (node, height) :: walk.heights }, ?_,
          others, rfl⟩)
        simp [DepthFirst.step, found, small]
      · refine .inr (.inl ?_)
        simp [DepthFirst.step, found, small]
  | false =>
      by_cases left : (walk.heights.lookup node).isSome = true
      · exact .inr (.inr ⟨pending, walk, by simp [DepthFirst.step, left], others, rfl⟩)
      · by_cases fresh : node ∈ walk.entered
        · refine .inl ?_
          simp [DepthFirst.step, left, fresh]
        · refine .inr (.inr ⟨expand children node pending,
            { walk with entered := node :: walk.entered }, ?_, ?_, ?_⟩)
          · rw [DepthFirst.step, if_neg (by decide), if_neg left, if_neg fresh]
            rfl
          · intro entry listed
            rcases List.mem_append.mp listed with child | later
            · obtain ⟨found, among, rfl⟩ := List.mem_map.mp child
              exact closed node member found (List.mem_reverse.mp among)
            · rcases List.mem_cons.mp later with rfl | rest
              · exact member
              · exact others entry rest
          · rw [remaining_enter distinct member fresh]
            simp only [expand, List.length_append, List.length_map, List.length_reverse,
              List.length_cons]
            omega

/-- A run ends, by induction on the fuel. -/
theorem run_ends (distinct : nodes.Nodup)
    (closed : ∀ node ∈ nodes, ∀ child ∈ children node, child ∈ nodes) {stack : List (α × Bool)}
    {walk : Walk α} (sound : Sound children bound stack walk)
    (known : ∀ entry ∈ stack, entry.1 ∈ nodes)
    (enough : stack.length + remaining children nodes walk.entered ≤ fuel)
    : run children bound fuel stack walk = .error .cyclic
      ∨ run children bound fuel stack walk = .error .deep
      ∨ ∃ last, run children bound fuel stack walk = .ok last := by
  induction fuel generalizing stack walk with
  | zero =>
      cases stack with
      | nil => exact .inr (.inr ⟨walk, rfl⟩)
      | cons entry rest =>
          simp only [List.length_cons] at enough
          omega
  | succ fuel ih =>
      cases stack with
      | nil => exact .inr (.inr ⟨walk, rfl⟩)
      | cons entry rest =>
          obtain ⟨node, exiting⟩ := entry
          simp only [List.length_cons] at enough
          rcases step_ends distinct closed sound known with cyclic | deep | ⟨next, after, round, more, spent⟩
          · exact .inl (by simp only [run, cyclic]; rfl)
          · exact .inr (.inl (by simp only [run, deep]; rfl))
          · have ended := ih (sound.step round) more (by omega)
            simp only [run, round]
            exact ended

/-- A search of any graph ends. -/
theorem search_ends {roots : List α} (distinct : nodes.Nodup)
    (closed : ∀ node ∈ nodes, ∀ child ∈ children node, child ∈ nodes)
    (rooted : ∀ root ∈ roots, root ∈ nodes)
    : search children bound nodes roots = .error .cyclic
      ∨ search children bound nodes roots = .error .deep
      ∨ ∃ walk, search children bound nodes roots = .ok walk := by
  refine run_ends distinct closed (sound_start roots) ?_ (by simp [remaining, fuelFor])
  intro entry listed
  obtain ⟨root, among, rfl⟩ := List.mem_map.mp listed
  exact rooted root (List.mem_reverse.mp among)

end Complete

-- Rankings and paths

/-- One node has another as a child. -/
def Leads (children : α → List α) (node child : α) : Prop :=
  child ∈ children node

/-- A path is no longer than the rank of its first node, by induction on the path. -/
theorem length_le_rank {roots : List α} {rank : α → Nat} (ranked : Ranked children bound roots rank)
    (rooted : ∀ node child, child ∈ children node → node ∈ roots) {node : α} {rest : List α}
    (path : (node :: rest).IsChain (Leads children))
    : rest.length ≤ rank node := by
  induction rest generalizing node with
  | nil => exact Nat.zero_le _
  | cons next rest ih =>
      obtain ⟨first, later⟩ := List.isChain_cons_cons.mp path
      have lower := (ranked node (rooted node next first)).2 next first
      have below := ih later
      rw [List.length_cons]
      omega

/-- The nodes are ranked exactly when there is no cycle and no path with more edges than the bound. -/
theorem exists_ranked_iff {roots : List α}
    (rooted : ∀ node child, child ∈ children node → node ∈ roots)
    : (∃ rank, Ranked children bound roots rank)
      ↔ (∀ node, ¬Relation.TransGen (Leads children) node node)
        ∧ ∀ path : List α, path.IsChain (Leads children) → path.length ≤ bound + 1 := by
  constructor
  · rintro ⟨rank, ranked⟩
    have lower {node child : α} (leads : Leads children node child) : rank child < rank node :=
      (ranked node (rooted node child leads)).2 child leads
    refine ⟨fun node cycle => ?_, fun path chain => ?_⟩
    · have under {above below : α} (leads : Relation.TransGen (Leads children) above below)
          : rank below < rank above := by
        induction leads with
        | single leads => exact lower leads
        | tail _ leads ih => exact (lower leads).trans ih
      exact lt_irrefl _ (under cycle)
    · cases path with
      | nil => exact Nat.zero_le _
      | cons node rest =>
          have short := length_le_rank ranked rooted chain
          cases rest with
          | nil => exact Nat.le_add_left _ _
          | cons next rest =>
              have first := (List.isChain_cons_cons.mp chain).1
              have small := (ranked node (rooted node next first)).1
              rw [List.length_cons]
              omega
  · rintro ⟨_, short⟩
    classical
    let Extends (node : α) (count : Nat) : Prop :=
      ∃ rest, (node :: rest).IsChain (Leads children) ∧ rest.length = count
    let longest (node : α) : Nat := Nat.findGreatest (Extends node) bound
    refine ⟨longest, fun node _ => ⟨Nat.findGreatest_le bound, fun child among => ?_⟩⟩
    have start : Extends child 0 := ⟨[], .singleton child, rfl⟩
    obtain ⟨rest, chain, counted⟩ : Extends child (longest child) :=
      Nat.findGreatest_spec (Nat.zero_le bound) start
    have longer : (node :: child :: rest).IsChain (Leads children) :=
      List.isChain_cons_cons.mpr ⟨among, chain⟩
    have room := short _ longer
    simp only [List.length_cons] at room
    have extended : Extends node (rest.length + 1) := ⟨child :: rest, longer, rfl⟩
    rw [← counted]
    exact Nat.lt_of_succ_le (Nat.le_findGreatest (by omega) extended)

/-- From a node whose paths all end no cycle is reached, by induction on the paths. -/
theorem acyclic_of_acc {β : Type} {next : β → β → Prop} {start node : β}
    (ends : Acc (Function.swap next) start) (reached : Relation.ReflTransGen next start node)
    : ¬Relation.TransGen next node node := by
  induction ends generalizing node with
  | intro start _ ih =>
      intro cycle
      -- A cycle at the start is also one at the child it goes through.
      rcases Relation.ReflTransGen.cases_head reached with rfl | ⟨child, first, later⟩
      · obtain ⟨child, first, later⟩ := Relation.TransGen.head'_iff.mp cycle
        exact ih child first .refl (Relation.TransGen.tail' later first)
      · exact ih child first later cycle

/-- When finitely many nodes have a predecessor, every path from a node ends exactly when it meets
no cycle.
-/
theorem acc_iff_acyclic {β : Type} {next : β → β → Prop} {known : List β}
    (closed : ∀ node child, next node child → child ∈ known) {start : β}
    : Acc (Function.swap next) start
      ↔ ∀ node, Relation.ReflTransGen next start node → ¬Relation.TransGen next node node := by
  constructor
  · exact fun ends _ reached => acyclic_of_acc ends reached
  · intro acyclic
    let Reached := {node // Relation.ReflTransGen next start node}
    have finite : Finite Reached := by
      refine Set.Finite.subset (List.finite_toSet (start :: known)) (fun node reached => ?_)
      rcases Relation.ReflTransGen.cases_tail reached with same | ⟨_, _, last⟩
      · exact List.mem_cons.mpr (.inl same)
      · exact List.mem_cons_of_mem _ (closed _ _ last)
    let below (lower upper : Reached) : Prop := Relation.TransGen next upper.1 lower.1
    have transitive : IsTrans Reached below := ⟨fun _ _ _ first second => second.trans first⟩
    have irreflexive : Std.Irrefl below := ⟨fun node => acyclic node.1 node.2⟩
    have founded := Finite.wellFounded_of_trans_of_irrefl below
    have ends (node : Reached) : Acc (Function.swap next) node.1 := by
      induction node using founded.induction with
      | _ node ih =>
          exact .intro _ fun child first =>
            ih ⟨child, node.2.tail first⟩ (.single first)
    exact ends ⟨start, .refl⟩

end Scanipy.Library.DepthFirst

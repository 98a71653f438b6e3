import Mathlib.Data.List.Nodup
import Mathlib.Data.List.Perm.Subperm

/-! Transitive closure by a stack: every element is listed and pushed when it is first met. -/

namespace Scanipy.Library.Worklist

variable {α : Type} [DecidableEq α]

/-- List and push an element that was not met before. -/
def meet (state : List α × List α) (element : α) : List α × List α :=
  if element ∈ state.1 then state else (state.1 ++ [element], element :: state.2)

/-- The elements met when the stack is empty. -/
def run (next : α → List α) : Nat → List α × List α → List α
  | 0, state => state.1
  | _ + 1, (seen, []) => seen
  | fuel + 1, (seen, current :: stack) => run next fuel ((next current).foldl meet (seen, stack))

/-- The closure of some seeds; the last seed is on top of the stack. -/
def closure (next : α → List α) (fuel : Nat) (seeds : List α) : List α :=
  run next fuel (seeds, seeds.reverse)

/-- What meeting elements adds, by list induction. -/
theorem foldl_meet (elements : List α) (state : List α × List α)
    : (∀ other, other ∈ (elements.foldl meet state).1 ↔ other ∈ state.1 ∨ other ∈ elements)
      ∧ (∀ other,
          other ∈ (elements.foldl meet state).2
            ↔ other ∈ state.2 ∨ (other ∈ elements ∧ other ∉ state.1))
      ∧ (state.1.Nodup → (elements.foldl meet state).1.Nodup)
      ∧ (elements.foldl meet state).2.length + state.1.length
        = state.2.length + (elements.foldl meet state).1.length := by
  induction elements generalizing state with
  | nil => simp
  | cons element rest ih =>
      obtain ⟨listed, pushed, distinct, balance⟩ := ih (meet state element)
      rw [List.foldl_cons]
      by_cases met : element ∈ state.1
      · rw [meet, if_pos met] at listed pushed distinct balance ⊢
        refine ⟨fun other => ?_, fun other => ?_, distinct, balance⟩
        · rw [listed, List.mem_cons]
          constructor
          · exact fun either => either.imp_right .inr
          · rintro (before | rfl | later)
            · exact .inl before
            · exact .inl met
            · exact .inr later
        · rw [pushed, List.mem_cons]
          constructor
          · exact fun either => either.imp_right fun both => ⟨.inr both.1, both.2⟩
          · rintro (before | ⟨rfl | later, fresh⟩)
            · exact .inl before
            · exact absurd met fresh
            · exact .inr ⟨later, fresh⟩
      · rw [meet, if_neg met] at listed pushed distinct balance ⊢
        refine ⟨fun other => ?_, fun other => ?_, fun before => distinct ?_, ?_⟩
        · rw [listed, List.mem_append, List.mem_singleton, List.mem_cons, or_assoc]
        · rw [pushed, List.mem_cons, List.mem_append, List.mem_singleton, List.mem_cons]
          by_cases same : other = element
          · subst same
            simp [met]
          · simp [same]
        · rw [List.nodup_append]
          refine ⟨before, List.nodup_singleton _, fun other member single last => ?_⟩
          rw [List.mem_singleton] at last
          rintro rfl
          exact met (last ▸ member)
        · simp only [List.length_append, List.length_cons, List.length_nil] at balance ⊢
          omega

variable {next : α → List α} {seeds items : List α}

/-- What the loop keeps true: it has met only what the seeds reach, and what follows an element
that was met is met unless the element is still on the stack.
-/
structure Invariant (next : α → List α) (seeds : List α) (state : List α × List α) : Prop where
  seeded : ∀ seed ∈ seeds, seed ∈ state.1
  reached
    : ∀ element ∈ state.1,
        ∃ seed ∈ seeds, Relation.ReflTransGen (fun source target => target ∈ next source) seed element
  stacked : ∀ element ∈ state.2, element ∈ state.1
  closed : ∀ element ∈ state.1, element ∈ state.2 ∨ next element ⊆ state.1
  distinct : state.1.Nodup

theorem Invariant.step {seen stack : List α} {current : α}
    (invariant : Invariant next seeds (seen, current :: stack))
    : Invariant next seeds ((next current).foldl meet (seen, stack)) := by
  obtain ⟨listed, pushed, distinct, _⟩ := foldl_meet (next current) (seen, stack)
  have known := invariant.stacked current List.mem_cons_self
  refine ⟨fun seed member => (listed seed).mpr (.inl (invariant.seeded seed member)), ?_, ?_, ?_,
    distinct invariant.distinct⟩
  · intro element member
    rcases (listed element).mp member with before | follows
    · exact invariant.reached element before
    · obtain ⟨seed, seedMember, reaches⟩ := invariant.reached current known
      exact ⟨seed, seedMember, reaches.tail follows⟩
  · intro element waiting
    rcases (pushed element).mp waiting with before | ⟨follows, _⟩
    · exact (listed element).mpr (.inl (invariant.stacked element (List.mem_cons_of_mem _ before)))
    · exact (listed element).mpr (.inr follows)
  · intro element member
    have covered : next current ⊆ ((next current).foldl meet (seen, stack)).1 :=
      fun other follows => (listed other).mpr (.inr follows)
    rcases (listed element).mp member with before | follows
    · rcases invariant.closed element before with waiting | done
      · rcases List.mem_cons.mp waiting with rfl | later
        · exact .inr covered
        · exact .inl ((pushed element).mpr (.inl later))
      · exact .inr fun other inside => (listed other).mpr (.inl (done inside))
    · by_cases before : element ∈ seen
      · rcases invariant.closed element before with waiting | done
        · rcases List.mem_cons.mp waiting with rfl | later
          · exact .inr covered
          · exact .inl ((pushed element).mpr (.inl later))
        · exact .inr fun other inside => (listed other).mpr (.inl (done inside))
      · exact .inl ((pushed element).mpr (.inr ⟨follows, before⟩))

omit [DecidableEq α] in
/-- With an empty stack, exactly what the seeds reach was met. -/
theorem Invariant.finish {seen : List α} (invariant : Invariant next seeds (seen, [])) {element : α}
    : element ∈ seen
      ↔ ∃ seed ∈ seeds,
          Relation.ReflTransGen (fun source target => target ∈ next source) seed element := by
  refine ⟨invariant.reached element, ?_⟩
  rintro ⟨seed, seedMember, reaches⟩
  induction reaches with
  | refl => exact invariant.seeded seed seedMember
  | tail _ follows ih =>
      exact (invariant.closed _ ih).resolve_left List.not_mem_nil follows

/-- Within a finite universe the loop empties its stack, by induction on the fuel. -/
theorem mem_run_iff (bounded : ∀ element ∈ items, next element ⊆ items) (fuel : Nat)
    (state : List α × List α) (invariant : Invariant next seeds state) (inside : state.1 ⊆ items)
    (enough : state.2.length + items.length ≤ fuel + state.1.length) {element : α}
    : element ∈ run next fuel state
      ↔ ∃ seed ∈ seeds,
          Relation.ReflTransGen (fun source target => target ∈ next source) seed element := by
  have few := (List.subperm_of_subset invariant.distinct inside).length_le
  induction fuel generalizing state with
  | zero =>
      obtain ⟨seen, stack⟩ := state
      obtain rfl : stack = [] := List.eq_nil_of_length_eq_zero (by dsimp only at enough few; omega)
      exact invariant.finish
  | succ fuel ih =>
      obtain ⟨seen, stack⟩ := state
      cases stack with
      | nil => exact invariant.finish
      | cons current stack =>
          obtain ⟨listed, _, _, balance⟩ := foldl_meet (next current) (seen, stack)
          have known := inside (invariant.stacked current List.mem_cons_self)
          have within : ((next current).foldl meet (seen, stack)).1 ⊆ items := by
            intro other member
            rcases (listed other).mp member with before | follows
            · exact inside before
            · exact bounded current known follows
          refine ih _ invariant.step within ?_
            (List.subperm_of_subset invariant.step.distinct within).length_le
          simp only [List.length_cons] at enough balance
          omega

/-- The closure lists exactly what the seeds reach. -/
theorem mem_closure_iff (bounded : ∀ element ∈ items, next element ⊆ items)
    (inside : seeds ⊆ items) (distinct : seeds.Nodup) {fuel : Nat}
    (enough : items.length ≤ fuel) {element : α}
    : element ∈ closure next fuel seeds
      ↔ ∃ seed ∈ seeds,
          Relation.ReflTransGen (fun source target => target ∈ next source) seed element := by
  refine mem_run_iff bounded fuel (seeds, seeds.reverse) ?_ inside (by simp; omega)
  exact ⟨fun _ member => member, fun element member => ⟨element, member, .refl⟩,
    fun element waiting => List.mem_reverse.mp waiting,
    fun element member => .inl (List.mem_reverse.mpr member), distinct⟩

end Scanipy.Library.Worklist

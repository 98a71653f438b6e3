import Mathlib.Algebra.Order.Field.Basic
import Mathlib.Algebra.BigOperators.Fin
import Mathlib.Algebra.Order.BigOperators.Group.Finset
import Mathlib.Tactic.Ring
import Mathlib.Tactic.Linarith

/-! Laws with finite support, values that do not grow on average along a run, and what stopping
such a run can gain.
-/

namespace Scanipy.Library

/-- A law with finite support: its points and their weights. -/
structure Law (K α : Type) [Field K] [LinearOrder K] where
  points : List (α × K)
  nonneg : ∀ point ∈ points, 0 ≤ point.2
  total : (points.map Prod.snd).sum = 1

section Expectations

variable {K α β : Type} [Field K] [LinearOrder K]

/-- The mean of a value over the points of a law. -/
def Law.expect (law : Law K α) (value : α → K) : K :=
  (law.points.map fun point => point.2 * value point.1).sum

/-- The weight of the points of an event. -/
def Law.prob (law : Law K α) (event : α → Prop) [DecidablePred event] : K :=
  law.expect fun point => if event point then 1 else 0

/-- The points that a law may give. -/
def Law.Gives (law : Law K α) (point : α) : Prop :=
  ∃ weight, (point, weight) ∈ law.points

theorem Law.expect_congr {law : Law K α} {left right : α → K}
    (same : ∀ point, law.Gives point → left point = right point)
    : law.expect left = law.expect right := by
  refine congrArg List.sum (List.map_congr_left fun point member => ?_)
  rw [same point.1 ⟨point.2, member⟩]

theorem Law.expect_const (law : Law K α) (value : K) : law.expect (fun _ => value) = value := by
  have scaled : law.expect (fun _ => value) = (law.points.map Prod.snd).sum * value := by
    unfold Law.expect
    induction law.points with
    | nil => simp
    | cons point rest ih => simp [ih, add_mul]
  rw [scaled, law.total, one_mul]

theorem Law.expect_add (law : Law K α) (left right : α → K)
    : law.expect (fun point => left point + right point)
      = law.expect left + law.expect right := by
  unfold Law.expect
  induction law.points with
  | nil => simp
  | cons point rest ih =>
      simp only [List.map_cons, List.sum_cons, ih]
      ring

theorem Law.expect_mul (law : Law K α) (scale : K) (value : α → K)
    : law.expect (fun point => scale * value point) = scale * law.expect value := by
  unfold Law.expect
  induction law.points with
  | nil => simp
  | cons point rest ih =>
      simp only [List.map_cons, List.sum_cons, ih]
      ring

/-- The law of a function of what is drawn. -/
def Law.map (law : Law K α) (view : α → β) : Law K β where
  points := law.points.map fun point => (view point.1, point.2)
  nonneg := by
    intro point member
    obtain ⟨drawn, given, rfl⟩ := List.mem_map.mp member
    exact law.nonneg drawn given
  total := by
    rw [List.map_map]
    exact law.total

theorem Law.expect_map (law : Law K α) (view : α → β) (value : β → K)
    : (law.map view).expect value = law.expect fun point => value (view point) := by
  rw [Law.expect, Law.map, List.map_map]
  rfl

theorem Law.prob_map (law : Law K α) (view : α → β) (event : β → Prop) [DecidablePred event]
    : (law.map view).prob event = law.prob fun point => event (view point) :=
  law.expect_map view _

theorem Law.Gives.map {law : Law K α} {point : α} (given : law.Gives point) (view : α → β)
    : (law.map view).Gives (view point) := by
  obtain ⟨weight, member⟩ := given
  exact ⟨weight, List.mem_map_of_mem member⟩

/-- The lists that a law gives are of bounded length. -/
theorem Law.exists_length_le (law : Law K (List α))
    : ∃ bound, ∀ run, law.Gives run → run.length ≤ bound := by
  refine ⟨(law.points.map fun point => point.1.length).sum, fun run given => ?_⟩
  obtain ⟨weight, member⟩ := given
  exact List.le_sum_of_mem (List.mem_map_of_mem member)

variable [IsStrictOrderedRing K]

theorem Law.expect_mono {law : Law K α} {left right : α → K}
    (below : ∀ point, law.Gives point → left point ≤ right point)
    : law.expect left ≤ law.expect right := by
  refine List.sum_le_sum fun point member => ?_
  exact mul_le_mul_of_nonneg_left (below point.1 ⟨point.2, member⟩) (law.nonneg point member)

theorem Law.prob_mono {law : Law K α} {event bound : α → Prop} [DecidablePred event]
    [DecidablePred bound] (within : ∀ point, law.Gives point → event point → bound point)
    : law.prob event ≤ law.prob bound := by
  refine Law.expect_mono fun point given => ?_
  by_cases holds : event point
  · rw [if_pos holds, if_pos (within point given holds)]
  · rw [if_neg holds]
    split
    · exact zero_le_one
    · exact le_rfl

/-- Markov's bound. -/
theorem Law.prob_mul_le {law : Law K α} {event : α → Prop} [DecidablePred event] {bound : K}
    (value : α → K) (nonneg : ∀ point, law.Gives point → 0 ≤ value point)
    (reached : ∀ point, law.Gives point → event point → bound ≤ value point)
    : law.prob event * bound ≤ law.expect value := by
  rw [mul_comm, Law.prob, ← law.expect_mul]
  refine Law.expect_mono fun point given => ?_
  by_cases holds : event point
  · simpa [holds] using reached point given holds
  · simpa [holds] using nonneg point given

/-- A value whose sum over the points of each key is at most zero has a sum of at most zero. -/
theorem sum_nonpos_of_groups [DecidableEq β] (key : α → β) (value : α → K) (points : List α)
    (groups : ∀ group,
      (points.map fun point => if key point = group then value point else 0).sum ≤ 0)
    : (points.map value).sum ≤ 0 := by
  have indexed : ∀ value : α → K,
      (points.map value).sum = ∑ index : Fin points.length, value (points.get index) := by
    intro value
    rw [← List.sum_ofFn, ← Function.comp_def value, ← List.map_ofFn, List.ofFn_get]
  rw [indexed, ← Finset.sum_fiberwise_of_maps_to
    (fun index _ => Finset.mem_image_of_mem (fun index => key (points.get index))
      (Finset.mem_univ index))]
  refine Finset.sum_nonpos fun group _ => ?_
  rw [Finset.sum_filter,
    ← indexed fun point => if key point = group then value point else 0]
  exact groups group

/-- The same of a law's mean. -/
theorem Law.expect_nonpos_of_groups [DecidableEq β] (key : α → β) {law : Law K α} {value : α → K}
    (groups : ∀ group,
      law.expect (fun point => if key point = group then value point else 0) ≤ 0)
    : law.expect value ≤ 0 := by
  refine sum_nonpos_of_groups (fun point : α × K => key point.1) _ law.points fun group => ?_
  refine le_of_eq_of_le (congrArg List.sum (List.map_congr_left fun point _ => ?_)) (groups group)
  simp only [mul_ite, mul_zero]

end Expectations

-- Runs

section Runs

variable {α : Type}

/-- A time at which to stop a run of a given length, which what was seen until then decides. -/
structure StoppingTime (α : Type) (horizon : Nat) where
  time : List α → Nat
  time_le : ∀ run, run.length = horizon → time run ≤ horizon
  decided : ∀ run other, run.length = horizon → other.length = horizon
    → other.take (time run) = run.take (time run) → time other = time run

/-- What is seen of a run when it is stopped. -/
def StoppingTime.seen {horizon : Nat} (stopping : StoppingTime α horizon) (run : List α)
    : List α :=
  run.take (stopping.time run)

/-- A prefix at which a stopping time stops ends the runs that it stops there, and no other. -/
theorem StoppingTime.stops_take_iff {horizon : Nat} (stopping : StoppingTime α horizon)
    {run : List α} (length : run.length = horizon) {time : Nat} (within : time ≤ horizon)
    : (∃ other : List α, other.length = horizon ∧ stopping.seen other = run.take time)
      ↔ time = stopping.time run := by
  constructor
  · intro stops
    obtain ⟨other, same, seen⟩ := stops
    have sameTime : stopping.time other = time := by
      have lengths := congrArg List.length seen
      have bound := stopping.time_le other same
      rw [StoppingTime.seen, List.length_take, List.length_take] at lengths
      omega
    rw [StoppingTime.seen, sameTime] at seen
    rw [stopping.decided other run same length (by rw [sameTime, seen]), sameTime]
  · rintro rfl
    exact ⟨run, length, rfl⟩

/-- How far a run is followed in a number of steps when the first prefix that meets a condition
ends it.
-/
def cut (stop : List α → Prop) [DecidablePred stop] : Nat → List α → List α
  | 0, _ => []
  | steps + 1, run =>
      if ∃ earlier ≤ steps, stop (run.take earlier) then cut stop steps run
      else run.take (steps + 1)

variable {stop : List α → Prop} [DecidablePred stop] {run : List α} {steps : Nat}

/-- A run that no prefix has ended is followed to the end. -/
theorem cut_eq_take (going : ∀ earlier < steps, ¬ stop (run.take earlier))
    : cut stop steps run = run.take steps := by
  cases steps with
  | zero => simp [cut]
  | succ steps =>
      refine if_neg fun stopped => ?_
      obtain ⟨earlier, early, met⟩ := stopped
      exact going earlier (Nat.lt_succ_of_le early) met

/-- What was followed of a run is a prefix of it, by induction on the steps. -/
theorem exists_cut_eq_take (stop : List α → Prop) [DecidablePred stop] (steps : Nat)
    (run : List α)
    : ∃ time, cut stop steps run = run.take time := by
  induction steps with
  | zero => exact ⟨0, by simp [cut]⟩
  | succ steps ih =>
      by_cases stopped : ∃ earlier ≤ steps, stop (run.take earlier)
      · rw [cut, if_pos stopped]
        exact ih
      · exact ⟨steps + 1, if_neg stopped⟩

/-- A run stays where it was ended first, by induction on the steps. -/
theorem cut_eq_of_first {time : Nat} (within : time ≤ steps) (met : stop (run.take time))
    (first : ∀ earlier < time, ¬ stop (run.take earlier))
    : cut stop steps run = run.take time := by
  induction steps with
  | zero =>
      rw [Nat.le_zero.mp within]
      simp [cut]
  | succ steps ih =>
      rcases Nat.lt_or_eq_of_le within with earlier | rfl
      · rw [cut, if_pos ⟨time, Nat.le_of_lt_succ earlier, met⟩]
        exact ih (Nat.le_of_lt_succ earlier)
      · exact cut_eq_take first

/-- A run that some prefix ends is ended. -/
theorem stop_cut (stop : List α → Prop) [DecidablePred stop]
    (ends : ∃ time ≤ steps, stop (run.take time))
    : stop (cut stop steps run) := by
  obtain ⟨within, met⟩ := Nat.find_spec ends
  rw [cut_eq_of_first within met fun earlier early prior =>
    Nat.find_min ends early ⟨Nat.le_of_lt (Nat.lt_of_lt_of_le early within), prior⟩]
  exact met

variable {K : Type} [Field K] [DecidableEq α]

/-- What a value gains in the step by which a run goes on from a prefix. -/
def gain (value : List α → K) (seen run : List α) : K :=
  if run.take seen.length = seen ∧ seen.length < run.length
    then value (run.take (seen.length + 1)) - value seen
  else 0

/-- One step further gains what the run gains there, unless an earlier prefix has ended it. -/
theorem value_cut_succ_sub (value : List α → K) (run : List α)
    : value (cut stop (steps + 1) run) - value (cut stop steps run)
      = if ∃ earlier ≤ steps, stop (run.take earlier) then 0
        else gain value (run.take steps) run := by
  by_cases stopped : ∃ earlier ≤ steps, stop (run.take earlier)
  · rw [if_pos stopped, cut, if_pos stopped, sub_self]
  · have going : ∀ earlier < steps, ¬ stop (run.take earlier) := fun earlier early met =>
      stopped ⟨earlier, early.le, met⟩
    rw [if_neg stopped, cut, if_neg stopped, cut_eq_take going, gain, List.length_take]
    by_cases longer : steps < run.length
    · rw [min_eq_left longer.le, if_pos ⟨rfl, longer⟩]
    · have short := not_lt.mp longer
      rw [min_eq_right short, if_neg (by simp), List.take_of_length_le (by omega),
        List.take_of_length_le short, sub_self]

variable [LinearOrder K]

/-- A value that gains nothing on average from any prefix of the runs of a law. -/
def Sinks (law : Law K (List α)) (value : List α → K) : Prop :=
  ∀ seen, law.expect (gain value seen) ≤ 0

variable [IsStrictOrderedRing K] {law : Law K (List α)} {value : List α → K}

/-- Following the runs one step further gains nothing on average. Witness: the runs that share
what was seen so far gain nothing.
-/
theorem Sinks.expect_cut_succ_le (sinks : Sinks law value)
    : law.expect (fun run => value (cut stop (steps + 1) run) - value (cut stop steps run)) ≤ 0 := by
  simp only [value_cut_succ_sub]
  refine Law.expect_nonpos_of_groups (fun run => run.take steps) fun group => ?_
  by_cases open' : group.length = steps ∧ ¬ ∃ earlier ≤ steps, stop (group.take earlier)
  · obtain ⟨length, going⟩ := open'
    refine le_of_eq_of_le (Law.expect_congr fun run _ => ?_) (sinks group)
    by_cases shared : run.take steps = group
    · rw [if_pos shared, if_neg, shared]
      refine fun stopped => going ?_
      obtain ⟨earlier, early, met⟩ := stopped
      exact ⟨earlier, early, by rwa [← shared, List.take_take, min_eq_left early]⟩
    · rw [if_neg shared, gain, if_neg fun both => shared (length ▸ both.1)]
  · refine le_of_eq_of_le (Law.expect_congr fun run _ => ?_) (law.expect_const 0).le
    by_cases shared : run.take steps = group
    · rw [if_pos shared]
      refine ite_eq_left_iff.mpr fun going => ?_
      have short : run.length ≤ steps := by
        by_contra longer
        refine open' ⟨by rw [← shared, List.length_take]; omega, fun stopped => going ?_⟩
        obtain ⟨earlier, early, met⟩ := stopped
        rw [← shared, List.take_take, min_eq_left early] at met
        exact ⟨earlier, early, met⟩
      rw [List.take_of_length_le short, gain, if_neg (by simp)]
    · rw [if_neg shared]

/-- Ending the runs of a law by any rule gains nothing on average, by induction on the steps. -/
theorem Sinks.expect_cut_le (sinks : Sinks law value) (stop : List α → Prop)
    [DecidablePred stop] (steps : Nat)
    : law.expect (fun run => value (cut stop steps run)) ≤ value [] := by
  induction steps with
  | zero => exact (law.expect_const (value [])).le
  | succ steps ih =>
      refine le_trans ?_ ih
      have split := law.expect_add (fun run => value (cut stop steps run))
        fun run => value (cut stop (steps + 1) run) - value (cut stop steps run)
      simp only [add_sub_cancel] at split
      rw [split]
      exact add_le_of_nonpos_right sinks.expect_cut_succ_le

/-- A value that is nowhere negative seldom reaches a bound. Witness: the runs are ended where they
reach it first.
-/
theorem Sinks.prob_reach_mul_le (sinks : Sinks law value) {bound : K} {steps : Nat}
    (nonneg : ∀ run, law.Gives run → ∀ time, 0 ≤ value (run.take time))
    : law.prob (fun run => ∃ time ≤ steps, bound ≤ value (run.take time)) * bound ≤ value [] := by
  refine le_trans (Law.prob_mul_le
    (fun run => value (cut (fun seen => bound ≤ value seen) steps run)) ?_ ?_)
    (sinks.expect_cut_le (fun seen => bound ≤ value seen) steps)
  · intro run given
    obtain ⟨time, same⟩ := exists_cut_eq_take (fun seen => bound ≤ value seen) steps run
    rw [same]
    exact nonneg run given time
  · intro run _ reached
    exact stop_cut (fun seen => bound ≤ value seen) reached

/-- Stopping the runs of a law gains nothing on average. -/
theorem Sinks.expect_seen_le (sinks : Sinks law value) {horizon : Nat}
    (lengths : ∀ run, law.Gives run → run.length = horizon) (stopping : StoppingTime α horizon)
    : law.expect (fun run => value (stopping.seen run)) ≤ value [] := by
  classical
  refine le_of_eq_of_le (Law.expect_congr fun run given => ?_)
    (sinks.expect_cut_le (fun seen => ∃ other, other.length = horizon ∧ stopping.seen other = seen)
      horizon)
  have length := lengths run given
  have within := stopping.time_le run length
  rw [cut_eq_of_first within ((stopping.stops_take_iff length within).mpr rfl)
    fun earlier early met => early.ne ((stopping.stops_take_iff length (by omega)).mp met),
    StoppingTime.seen]

end Runs

-- Processes

section Processes

variable {K α β : Type} [Field K] [LinearOrder K]

/-- The law of one point. -/
def Law.pure [IsStrictOrderedRing K] (point : α) : Law K α where
  points := [(point, 1)]
  nonneg := by simp
  total := by simp

/-- The points of a second law, drawn after those of a first one. -/
def Law.bindPoints (points : List (α × K)) (next : α → Law K β) : List (β × K) :=
  points.flatMap fun first => (next first.1).points.map fun second =>
    (second.1, first.2 * second.2)

theorem Law.sum_bindPoints (points : List (α × K)) (next : α → Law K β) (value : β → K)
    : ((bindPoints points next).map fun point => point.2 * value point.1).sum
      = (points.map fun point => point.2 * (next point.1).expect value).sum := by
  induction points with
  | nil => rfl
  | cons first rest ih =>
      have drawn : ((next first.1).points.map fun second =>
            first.2 * second.2 * value second.1).sum
          = first.2 * (next first.1).expect value := by
        rw [Law.expect, ← List.sum_map_mul_left]
        simp only [mul_assoc]
      simp only [bindPoints, List.flatMap_cons, List.map_append, List.sum_append, List.map_map,
        Function.comp_def, List.map_cons, List.sum_cons, drawn]
      exact congrArg _ ih

variable [IsStrictOrderedRing K]

/-- The law of what is drawn in two steps. -/
def Law.bind (law : Law K α) (next : α → Law K β) : Law K β where
  points := bindPoints law.points next
  nonneg := by
    intro point member
    obtain ⟨first, drawn, member⟩ := List.mem_flatMap.mp member
    obtain ⟨second, drawnNext, rfl⟩ := List.mem_map.mp member
    exact mul_nonneg (law.nonneg first drawn) ((next first.1).nonneg second drawnNext)
  total := by
    have sums := sum_bindPoints law.points next fun _ => 1
    simp only [Law.expect_const, mul_one] at sums
    exact sums.trans law.total

theorem Law.expect_pure (point : α) (value : α → K)
    : (Law.pure point).expect value = value point := by
  simp [Law.pure, Law.expect]

theorem Law.expect_bind (law : Law K α) (next : α → Law K β) (value : β → K)
    : (law.bind next).expect value = law.expect fun point => (next point).expect value :=
  sum_bindPoints law.points next value

theorem Law.gives_bind {law : Law K α} {next : α → Law K β} {point : β}
    (given : (law.bind next).Gives point)
    : ∃ first, law.Gives first ∧ (next first).Gives point := by
  obtain ⟨weight, member⟩ := given
  obtain ⟨first, drawn, member⟩ := List.mem_flatMap.mp member
  obtain ⟨second, drawnNext, same⟩ := List.mem_map.mp member
  rw [← (Prod.mk.inj same).1]
  exact ⟨first.1, ⟨first.2, drawn⟩, second.2, drawnNext⟩

/-- The law of the runs of a process, which draws each point by a law that may depend on all of
what was drawn before.
-/
def paths (next : List α → Law K α) : Nat → List α → Law K (List α)
  | 0, seen => .pure seen
  | steps + 1, seen => (next seen).bind fun point => paths next steps (seen ++ [point])

variable {next : List α → Law K α} {steps : Nat} {run : List α}

/-- The runs that start with what was seen, by induction on the steps. -/
theorem of_gives_paths {seen : List α} (given : (paths next steps seen).Gives run)
    : run.length = seen.length + steps ∧ seen <+: run := by
  induction steps generalizing seen with
  | zero =>
      obtain ⟨weight, member⟩ := given
      obtain rfl := (Prod.mk.inj (List.mem_singleton.mp member)).1
      exact ⟨rfl, List.prefix_rfl⟩
  | succ steps ih =>
      obtain ⟨point, _, given⟩ := Law.gives_bind given
      obtain ⟨length, starts⟩ := ih given
      refine ⟨by simp only [length, List.length_append, List.length_singleton]; omega, ?_⟩
      exact (List.prefix_append seen [point]).trans starts

variable [DecidableEq α] {value : List α → K}

/-- A value that no draw raises on average gains nothing on average along a process.
Witness: by induction on the steps; what was seen is the prefix in question, or falls short of it,
or has left it.
-/
theorem expect_gain_paths_le (lowers : ∀ seen,
      (next seen).expect (fun point => value (seen ++ [point])) ≤ value seen)
    (steps : Nat) (start seen : List α) (starts : start <+: seen)
    : (paths next steps start).expect (gain value seen) ≤ 0 := by
  induction steps generalizing start with
  | zero =>
      rw [paths, Law.expect_pure, gain, if_neg]
      exact fun both => absurd both.2 (not_lt.mpr starts.length_le)
  | succ steps ih =>
      rw [paths, Law.expect_bind]
      rcases eq_or_ne start seen with rfl | short
      · have step : ∀ point, (paths next steps (start ++ [point])).expect (gain value start)
            = value (start ++ [point]) - value start := by
          intro point
          rw [← (paths next steps (start ++ [point])).expect_const
            (value (start ++ [point]) - value start)]
          refine Law.expect_congr fun run given => ?_
          obtain ⟨tail, rfl⟩ := (of_gives_paths given).2
          have further : (start ++ [point] ++ tail).take (start.length + 1) = start ++ [point] :=
            List.take_left' (by simp)
          rw [gain, if_pos ⟨by simp, by simp⟩, further]
        simp only [step, sub_eq_add_neg, Law.expect_add, Law.expect_const]
        exact add_neg_nonpos_iff_le.mpr (lowers start)
      · rw [← (next start).expect_const (0 : K)]
        refine Law.expect_mono fun point _ => ?_
        by_cases on : start ++ [point] <+: seen
        · exact ih (start ++ [point]) on
        · refine le_of_eq ?_
          rw [← (paths next steps (start ++ [point])).expect_const (0 : K)]
          refine Law.expect_congr fun run given => if_neg fun both => on ?_
          have along : seen <+: run := by
            rw [← both.1]
            exact List.take_prefix _ _
          refine List.prefix_of_prefix_length_le (of_gives_paths given).2 along ?_
          have strict := lt_of_le_of_ne starts.length_le fun same =>
            short (starts.eq_of_length same)
          simpa [Nat.succ_le_iff] using strict

/-- The runs of such a process gain nothing on average. -/
theorem sinks_paths (lowers : ∀ seen,
      (next seen).expect (fun point => value (seen ++ [point])) ≤ value seen)
    (steps : Nat)
    : Sinks (paths next steps []) value := fun seen =>
  expect_gain_paths_le lowers steps [] seen List.nil_prefix

end Processes

end Scanipy.Library

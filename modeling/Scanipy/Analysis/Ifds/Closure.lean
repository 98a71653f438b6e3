import Scanipy.Analysis.Ifds.Skeleton

/-! Transitive callers, and the closure an incremental run is restricted to. -/

namespace Scanipy.Analysis.Ifds

open Library Python

/-- The first procedure calls the second. -/
def ExplodedSupergraph.Calls (sg : ExplodedSupergraph) (caller callee : ProcId) : Prop :=
  caller ∈ sg.callers.getD callee []

/-- What the loop keeps true: `out` holds transitive callers, and the callers of everything
seen are in `out` unless it is still on the stack.
-/
structure CallersInvariant (sg : ExplodedSupergraph) (seed : List ProcId) (stack : List ProcId)
    (out : PySet ProcId) : Prop where
  reach : ∀ proc ∈ out, ∃ start ∈ seed, Relation.TransGen sg.Calls proc start
  stacked : ∀ proc ∈ stack, proc ∈ seed ∨ proc ∈ out
  closed : ∀ proc, proc ∈ seed ∨ proc ∈ out → proc ∈ stack ∨ ∀ caller, sg.Calls caller proc → caller ∈ out
  distinct : out.Nodup

theorem CallersInvariant.step {sg : ExplodedSupergraph} {seed stack : List ProcId}
    {out : PySet ProcId} {proc : ProcId} (invariant : CallersInvariant sg seed (proc :: stack) out)
    : CallersInvariant sg seed
        (((sg.callers.getD proc []).filter fun caller => caller ∉ out).reverse ++ stack)
        (PySet.update out ((sg.callers.getD proc []).filter fun caller => caller ∉ out)) := by
  have fresh (caller : ProcId)
      : caller ∈ (sg.callers.getD proc []).filter (fun caller => caller ∉ out)
        ↔ sg.Calls caller proc ∧ caller ∉ out := by
    rw [List.mem_filter, decide_eq_true_eq, ExplodedSupergraph.Calls]
  refine ⟨fun caller member => ?_, fun other member => ?_, fun other seen => ?_,
    PySet.nodup_update invariant.distinct _⟩
  · rcases PySet.mem_update.mp member with old | new
    · exact invariant.reach caller old
    · have calls := ((fresh caller).mp new).1
      rcases invariant.stacked proc List.mem_cons_self with start | known
      · exact ⟨proc, start, .single calls⟩
      · obtain ⟨start, seeded, reaches⟩ := invariant.reach proc known
        exact ⟨start, seeded, .head calls reaches⟩
  · rw [PySet.mem_update]
    rcases List.mem_append.mp member with new | later
    · exact .inr (.inr (List.mem_reverse.mp new))
    · rcases invariant.stacked other (List.mem_cons_of_mem _ later) with start | known
      · exact .inl start
      · exact .inr (.inl known)
  · simp only [PySet.mem_update, fresh] at seen ⊢
    rw [List.mem_append, List.mem_reverse, fresh]
    have covered (caller : ProcId) (calls : sg.Calls caller proc)
        : caller ∈ out ∨ sg.Calls caller proc ∧ caller ∉ out := by
      by_cases known : caller ∈ out
      · exact .inl known
      · exact .inr ⟨calls, known⟩
    by_cases new : sg.Calls other proc ∧ other ∉ out
    · exact .inl (.inl new)
    · have before : other ∈ seed ∨ other ∈ out :=
        seen.imp_right fun either => either.resolve_right new
      rcases invariant.closed other before with waiting | done
      · rcases List.mem_cons.mp waiting with rfl | later
        · exact .inr covered
        · exact .inl (.inr later)
      · exact .inr fun caller calls => .inl (done caller calls)

variable {sg : ExplodedSupergraph} {seed : List ProcId}

/-- With an empty stack, `out` holds exactly the transitive callers. -/
theorem CallersInvariant.finish {out : PySet ProcId} (invariant : CallersInvariant sg seed [] out)
    (proc : ProcId)
    : proc ∈ out ↔ ∃ start ∈ seed, Relation.TransGen sg.Calls proc start := by
  refine ⟨invariant.reach proc, ?_⟩
  rintro ⟨start, seeded, reaches⟩
  have done {other caller : ProcId} (seen : other ∈ seed ∨ other ∈ out)
      (calls : sg.Calls caller other)
      : caller ∈ out :=
    ((invariant.closed other seen).resolve_left List.not_mem_nil) caller calls
  induction reaches using Relation.TransGen.head_induction_on with
  | single calls => exact done (.inl seeded) calls
  | head calls _ ih => exact done (.inr ih) calls

variable {cpg : CPG}

/-- The loop ends with the transitive callers: each push adds a procedure to `out`. -/
theorem callersLoop_ok (describes : sg.Describes cpg) (fuel : Nat) (stack : List ProcId)
    (out : PySet ProcId) (invariant : CallersInvariant sg seed stack out)
    (enough : stack.length + sg.procs.length ≤ fuel + out.length)
    : ∃ found,
        callersLoop sg.callers fuel stack out = .ok found ∧ CallersInvariant sg seed [] found := by
  have bounded (members : PySet ProcId) (distinct : members.Nodup)
      (callers : ∀ caller ∈ members, ∃ callee, sg.Calls caller callee)
      : members.length ≤ sg.procs.length := by
    have inside : members ⊆ sg.procs.keys := by
      intro caller member
      obtain ⟨callee, calls⟩ := callers caller member
      obtain ⟨_, src, _, owned⟩ := (describes.callers callee caller).mp calls
      exact (describes.procKeys caller).mpr (describes.owned src caller owned).2.1
    have fewer := (List.subperm_of_subset distinct inside).length_le
    rwa [Dict.keys, List.length_map] at fewer
  induction fuel generalizing stack out with
  | zero =>
      have outBound := bounded out invariant.distinct fun caller member => by
        obtain ⟨start, _, reaches⟩ := invariant.reach caller member
        obtain ⟨callee, calls, _⟩ := Relation.TransGen.head'_iff.mp reaches
        exact ⟨callee, calls⟩
      obtain rfl : stack = [] := List.eq_nil_of_length_eq_zero (by omega)
      exact ⟨out, rfl, invariant⟩
  | succ fuel ih =>
      cases stack with
      | nil => exact ⟨out, rfl, invariant⟩
      | cons proc stack =>
          rw [callersLoop]
          refine ih _ _ invariant.step ?_
          have grown : (PySet.update out
              ((sg.callers.getD proc []).filter fun caller => caller ∉ out)).length
              = out.length + ((sg.callers.getD proc []).filter fun caller => caller ∉ out).length := by
            rw [PySet.update_eq_append (fun caller member => ?_)
              ((describes.callersDistinct proc).filter _), List.length_append]
            simpa using (List.mem_filter.mp member).2
          rw [grown, List.length_append, List.length_reverse]
          rw [List.length_cons] at enough
          omega

/-- `transitive_callers` returns exactly the procedures that reach the seed by calls. -/
theorem transitiveCallers_ok (describes : sg.Describes cpg) (seed : PySet ProcId)
    : ∃ found,
        sg.transitiveCallers seed = .ok found
        ∧ ∀ proc, proc ∈ found ↔ ∃ start ∈ seed, Relation.TransGen sg.Calls proc start := by
  have start : CallersInvariant sg seed seed.reverse [] :=
    ⟨by simp, fun proc member => .inl (List.mem_reverse.mp member), fun proc seen =>
      .inl (List.mem_reverse.mpr (seen.resolve_right List.not_mem_nil)), List.nodup_nil⟩
  obtain ⟨found, ran, invariant⟩ := callersLoop_ok describes (seed.length + sg.procs.length)
    seed.reverse [] start (by simp)
  exact ⟨found, ran, invariant.finish⟩

/-- The affected procedures and their transitive callers. -/
def ExplodedSupergraph.InClosure (sg : ExplodedSupergraph) (affected : List ProcId)
    (proc : ProcId)
    : Prop :=
  ∃ start ∈ affected, Relation.ReflTransGen sg.Calls proc start

/-- The closure that `incremental_solve` recomputes. -/
theorem closure_ok (describes : sg.Describes cpg) (affected : PySet ProcId)
    : ∃ callers,
        sg.transitiveCallers affected = .ok callers
        ∧ ∀ proc, proc ∈ PySet.update affected callers ↔ sg.InClosure affected proc := by
  obtain ⟨callers, ran, members⟩ := transitiveCallers_ok describes affected
  refine ⟨callers, ran, fun proc => ?_⟩
  rw [PySet.mem_update, members]
  constructor
  · rintro (start | ⟨start, seeded, reaches⟩)
    · exact ⟨proc, start, .refl⟩
    · exact ⟨start, seeded, reaches.to_reflTransGen⟩
  · rintro ⟨start, seeded, reaches⟩
    rcases Relation.reflTransGen_iff_eq_or_transGen.mp reaches with rfl | proper
    · exact .inl seeded
    · exact .inr ⟨start, seeded, proper⟩

/-- Callers of the closure are in it. -/
theorem ExplodedSupergraph.InClosure.caller {affected : List ProcId} {caller callee : ProcId}
    (inside : sg.InClosure affected callee) (calls : sg.Calls caller callee)
    : sg.InClosure affected caller := by
  obtain ⟨start, seeded, reaches⟩ := inside
  exact ⟨start, seeded, .head calls reaches⟩

end Scanipy.Analysis.Ifds

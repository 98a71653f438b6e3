import Mathlib.Data.Finset.Basic

/-! The flow functions of the clauses of a specification, and their union. -/

namespace Scanipy.Analysis.Ifds.Dsl

abbrev Fact := Int

abbrev FactSet := Finset Fact

abbrev FlowFunction := FactSet → FactSet

def buildSource (gen : Fact) : FlowFunction :=
  fun x => x ∪ {gen}

def buildSink : FlowFunction :=
  fun x => x

def buildSanitize (kill : FactSet) : FlowFunction :=
  fun x => x \ kill

def buildPropagate (source target : Fact) : FlowFunction :=
  fun x => if source ∈ x then x ∪ {target} else x

def unionFlow (functions : List FlowFunction) : FlowFunction :=
  fun x => functions.foldl (fun out g => out ∪ g x) ∅

/-- A clause of the four kinds, with what it generates or kills. -/
inductive Denotation where
  | source (gen : Fact)
  | sink
  | sanitize (kill : FactSet)
  | propagate (source target : Fact)

variable {x : FactSet} {fact : Fact}

namespace Denotation

def flow : Denotation → FlowFunction
  | source gen => buildSource gen
  | sink => buildSink
  | sanitize kill => buildSanitize kill
  | propagate origin target => buildPropagate origin target

/-- A source generates its fact, and a propagation its target from its source. -/
def Generates (x : FactSet) (fact : Fact) : Denotation → Prop
  | source gen => fact = gen
  | propagate origin target => origin ∈ x ∧ fact = target
  | _ => False

/-- The clause kills the fact. -/
def Kills (fact : Fact) : Denotation → Prop
  | sanitize kill => fact ∈ kill
  | _ => False

variable {clause : Denotation}

/-- A clause passes on what it does not kill, beside what it generates. -/
theorem mem_flow
    : fact ∈ clause.flow x ↔ clause.Generates x fact ∨ fact ∈ x ∧ ¬clause.Kills fact := by
  cases clause with
  | source gen => simp [flow, buildSource, Generates, Kills, or_comm]
  | sink => simp [flow, buildSink, Generates, Kills]
  | sanitize kill => simp [flow, buildSanitize, Generates, Kills]
  | propagate origin target =>
      by_cases held : origin ∈ x <;> simp [flow, buildPropagate, Generates, Kills, held, or_comm]

/-- What a union generates is generated from one of its parts. -/
theorem generates_union {y : FactSet}
    : clause.Generates (x ∪ y) fact ↔ clause.Generates x fact ∨ clause.Generates y fact := by
  cases clause <;> simp [Generates, or_and_right]

end Denotation

/-- By induction on the functions. -/
theorem mem_unionFlow {functions : List FlowFunction}
    : fact ∈ unionFlow functions x ↔ ∃ g ∈ functions, fact ∈ g x := by
  have folded (out : FactSet)
      : fact ∈ functions.foldl (fun out g => out ∪ g x) out
        ↔ fact ∈ out ∨ ∃ g ∈ functions, fact ∈ g x := by
    induction functions generalizing out with
    | nil => simp
    | cons g rest ih => simp [ih, or_assoc]
  rw [unionFlow, folded]
  simp

/-- The union of clauses is distributive. It has a fact exactly when a source or a propagation
generates it, or it was there and some clause does not kill it: every clause that is not a sanitiser
passes it on.
-/
theorem union_flow_sanitised (clauses : List Denotation)
    : (∀ x y, unionFlow (clauses.map Denotation.flow) (x ∪ y)
        = unionFlow (clauses.map Denotation.flow) x ∪ unionFlow (clauses.map Denotation.flow) y)
      ∧ ∀ x fact, fact ∈ unionFlow (clauses.map Denotation.flow) x
        ↔ (∃ clause ∈ clauses, clause.Generates x fact)
          ∨ fact ∈ x ∧ ∃ clause ∈ clauses, ¬clause.Kills fact := by
  constructor
  · intro x y
    ext fact
    simp only [Finset.mem_union, mem_unionFlow, List.mem_map, exists_exists_and_eq_and,
      Denotation.mem_flow, Denotation.generates_union, ← exists_or]
    refine exists_congr fun clause => ?_
    rw [← and_or_left, or_and_right, or_or_or_comm]
  · intro x fact
    simp only [mem_unionFlow, List.mem_map, exists_exists_and_eq_and, Denotation.mem_flow,
      and_or_left, exists_or]
    refine or_congr_right ⟨?_, ?_⟩
    · rintro ⟨clause, listed, inside, kept⟩
      exact ⟨inside, clause, listed, kept⟩
    · rintro ⟨inside, clause, listed, kept⟩
      exact ⟨clause, listed, inside, kept⟩

/-- A sink beside a sanitiser passes on what the sanitiser kills. -/
theorem sanitised_fact_kept
    : ¬∀ (clauses : List Denotation) (kill x : FactSet), .sanitize kill ∈ clauses
      → ∀ fact ∈ kill, fact ∈ unionFlow (clauses.map Denotation.flow) x
      → ∃ clause ∈ clauses, clause.Generates x fact := by
  intro claimed
  obtain ⟨clause, listed, generated⟩ := claimed [.sanitize {1}, .sink] {1} {1} List.mem_cons_self 1
    (Finset.mem_singleton_self 1) (by decide)
  simp only [List.mem_cons, List.not_mem_nil, or_false] at listed
  rcases listed with rfl | rfl <;> exact generated

end Scanipy.Analysis.Ifds.Dsl

import Scanipy.Library.Outcome

/-! Exceptions of the standard library that the modelled code raises or lets pass. -/

namespace Scanipy.Python

inductive PyError where
  | valueError (message : String)
  | unicodeEncodeError
  | assertionError
  | keyError
  | typeError
  deriving DecidableEq, Repr

/-- `if not condition: raise ValueError(message)`. -/
def raiseUnless (condition : Prop) [Decidable condition] (message : String) : Except PyError Unit :=
  if condition then .ok () else .error (.valueError message)

@[simp]
theorem raiseUnless_ok {condition : Prop} [Decidable condition] {message : String}
    {value : Unit}
    : raiseUnless condition message = .ok value ↔ condition := by
  by_cases holds : condition <;> simp [raiseUnless, holds]

/-- A frozen dataclass whose `__post_init__` has passed is built, else its error is raised. -/
def construct {α : Type}
    : (postInit : Except PyError Unit) → (postInit = .ok () → α) → Except PyError α
  | .ok _, build => .ok (build rfl)
  | .error raised, _ => .error raised

theorem construct_ok {α : Type} {postInit : Except PyError Unit}
    {build : postInit = .ok () → α} {value : α}
    : construct postInit build = .ok value ↔ ∃ passed, build passed = value := by
  cases postInit with
  | error raised =>
      constructor
      · intro same
        cases same
      · intro ⟨passed, _⟩
        cases passed
  | ok _ => simp [construct]

end Scanipy.Python

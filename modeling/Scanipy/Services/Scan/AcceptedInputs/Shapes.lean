import Scanipy.Python.JsonFields
import Scanipy.Python.Patterns
import Scanipy.Python.Uuid
import Scanipy.Services.Scan.AcceptedInputs.Schemas

/-! The local schema notation of accepted inputs, and what it admits. -/

namespace Scanipy.Services.Scan.AcceptedInputs

open Library Python

/-- The pattern of `utc` without microseconds. -/
def secondPattern : List (CodePoint → Bool) :=
  List.replicate 4 isDigit ++ literally "-" ++ List.replicate 2 isDigit ++ literally "-"
  ++ List.replicate 2 isDigit ++ literally "T" ++ List.replicate 2 isDigit ++ literally ":"
  ++ List.replicate 2 isDigit ++ literally ":" ++ List.replicate 2 isDigit ++ literally "Z"

/-- `utc`. -/
def utc (value : Json) (microseconds : Bool) : Except VerificationError Datetime :=
  match value with
  | .str text => do
      demand (fullmatch (if microseconds then utcPattern else secondPattern) text = true)
        .invalidInput
      match Datetime.ofText text microseconds with
      | some moment => .ok moment
      | none => .error .invalidInput
  | _ => .error .invalidInput

/-- `CWE-[1-9][0-9]{0,6}`. -/
def isCwe (value : Text) : Bool :=
  (py "CWE-").isPrefixOf value && value.length ≤ 11
  && startsWith (between 0x31 0x39) isDigit (value.drop 4)

/-- A normal absolute path below the root. -/
def isPath (value : Text) : Bool :=
  (py "/").isPrefixOf value
  && ((value.splitOn (Fin.ofNat 0x110000 0x2F)).drop 1).all
      (fun part => !([[], py ".", py ".."] : List Text).contains part)
  && value.all fun point => point.val ≠ 0x5C && 32 ≤ point.val && !between 127 159 point

/-- The schema notation: `dict`, `nullable`, `enum`, `array` and the names of primitive kinds. -/
inductive Shape where
  | object (fields : List (String × Shape))
  | nullable (inner : Shape)
  | enum (values : List Json)
  | array (item : Shape) (minimum maximum : Nat)
  | count
  | positive
  | digest
  | uuid
  | version
  | token
  | id
  | cwe
  | path
  | reason
  | second
  | instant
  | text

/-- `enum` of strings. -/
def Shape.literals (values : List String) : Shape :=
  .enum (values.map fun value => .str (py value))

/-- A string within a limit that a test admits. -/
def textShape (value : Json) (maximum : Nat) (nonempty : Bool) (admits : Text → Bool)
    : Except VerificationError Unit :=
  match value with
  | .str characters => do
      text characters maximum nonempty
      demand (admits characters = true) .invalidInput
  | _ => .error .invalidInput

/-- An integer from the minimum on that fits in 63 bits. -/
def countShape (value : Json) (minimum : Int) : Except VerificationError Unit :=
  match value with
  | .int number => demand (minimum ≤ number ∧ number < 2 ^ 63) .invalidInput
  | _ => .error .invalidInput

/-- A moment within a limit. -/
def momentShape (value : Json) (maximum : Nat) (microseconds : Bool)
    : Except VerificationError Unit := do
  textShape value maximum false fun _ => true
  let _ ← utc value microseconds
  .ok ()

mutual

/-- `shape`. -/
def shape (value : Json) : Shape → Except VerificationError Unit
  | .object fields =>
      match value with
      | .obj members => do
          demand (HasKeys members (fields.map Prod.fst)) .invalidInput
          shapeFields value fields
      | _ => .error .invalidInput
  | .nullable inner => if value = .null then .ok () else shape value inner
  | .enum values => demand (value ∈ values) .invalidInput
  | .array item minimum maximum =>
      match value with
      | .arr items => do
          demand (minimum ≤ items.length ∧ items.length ≤ maximum) .invalidInput
          Metered.visit (fun entry => shape entry item) items
      | _ => .error .invalidInput
  | .count => countShape value 0
  | .positive => countShape value 1
  | .digest => textShape value 64 false (fullmatch hexPattern)
  | .uuid => textShape value 36 false fun characters => (Uuid.ofText characters).isSome
  | .version => textShape value 32 false isVersion
  | .token =>
      textShape value 128 false
        (startsWith isAlphanumeric fun point => isAlphanumeric point || isMark "._:-" point)
  | .id => textShape value 128 false isIdentifier
  | .cwe => textShape value 11 false isCwe
  | .path => textShape value 4096 false isPath
  | .reason => textShape value 4096 true fun _ => true
  | .second => momentShape value 20 false
  | .instant => momentShape value 27 true
  | .text => textShape value maxString false fun _ => true

/-- The members of a dictionary, one field after another. -/
def shapeFields (value : Json) : List (String × Shape) → Except VerificationError Unit
  | [] => .ok ()
  | (name, rule) :: rest => do
      shape (value.get name) rule
      shapeFields value rest

end

/-- The value has the shape. -/
def Fits (value : Json) (rule : Shape) : Prop :=
  shape value rule = .ok ()

variable {value : Json} {fields : List (String × Shape)}

section

attribute [local simp] shape shapeFields

theorem shapeFields_ok
    : shapeFields value fields = .ok () ↔ ∀ field ∈ fields, Fits (value.get field.1) field.2 := by
  induction fields with
  | nil => simp
  | cons field rest ih =>
      obtain ⟨name, rule⟩ := field
      rw [shapeFields, check_ok, ih, List.forall_mem_cons]
      rfl

theorem fits_object_iff
    : Fits value (.object fields)
      ↔ (∃ members, value = .obj members ∧ HasKeys members (fields.map Prod.fst))
        ∧ ∀ field ∈ fields, Fits (value.get field.1) field.2 := by
  unfold Fits
  cases value with
  | obj members =>
      rw [shape]
      simp only [check_ok, demand_ok, shapeFields_ok, Json.obj.injEq,
        exists_eq_left']
      rfl
  | null => simp
  | bool value => simp
  | int value => simp
  | str value => simp
  | arr items => simp

end

/-- A field of a dictionary of a shape. -/
theorem Fits.field (fits : Fits value (.object fields)) {name : String} {rule : Shape}
    (listed : (name, rule) ∈ fields)
    : Fits (value.get name) rule :=
  (fits_object_iff.mp fits).2 (name, rule) listed

theorem fits_nullable_iff {inner : Shape}
    : Fits value (.nullable inner) ↔ value = .null ∨ Fits value inner := by
  unfold Fits
  rw [shape]
  split
  next null => simp [null]
  next present => simp [present]

theorem fits_enum_iff {values : List Json}
    : Fits value (.enum values) ↔ value ∈ values := by
  exact demand_ok

theorem fits_literals_iff {names : List String}
    : Fits value (.literals names) ↔ ∃ name ∈ names, value = .str (py name) := by
  rw [Shape.literals, fits_enum_iff, List.mem_map]
  simp only [eq_comm]

variable {maximum : Nat}

theorem fits_array_iff {item : Shape} {minimum : Nat}
    : Fits value (.array item minimum maximum)
      ↔ (∃ items, value = .arr items ∧ minimum ≤ items.length ∧ items.length ≤ maximum)
        ∧ ∀ entry ∈ value.items, Fits entry item := by
  unfold Fits
  cases value with
  | arr items =>
      rw [shape]
      simp only [check_ok, demand_ok, visit_ok, Json.arr.injEq,
        exists_eq_left', Json.items]
  | null => simp [shape]
  | bool value => simp [shape]
  | int value => simp [shape]
  | str value => simp [shape]
  | obj members => simp [shape]

theorem Fits.entry {item : Shape} {minimum : Nat} (fits : Fits value (.array item minimum maximum))
    {entry : Json} (listed : entry ∈ value.items)
    : Fits entry item :=
  (fits_array_iff.mp fits).2 entry listed

theorem textShape_ok {nonempty : Bool} {admits : Text → Bool}
    : textShape value maximum nonempty admits = .ok ()
      ↔ ∃ characters, value = .str characters ∧ text characters maximum nonempty = .ok ()
          ∧ admits characters = true := by
  cases value <;> simp [textShape, check_ok]

theorem countShape_ok {minimum : Int}
    : countShape value minimum = .ok ()
      ↔ ∃ number, value = .int number ∧ minimum ≤ number ∧ number < 2 ^ 63 := by
  cases value <;> simp [countShape]

theorem momentShape_ok {microseconds : Bool}
    : momentShape value maximum microseconds = .ok ()
      ↔ textShape value maximum false (fun _ => true) = .ok ()
        ∧ ∃ moment, utc value microseconds = .ok moment := by
  rw [momentShape, check_ok, bind_ok]
  simp

/-- A moment in seconds is read. -/
theorem exists_utc_of_second (fits : Fits value .second)
    : ∃ moment, utc value false = .ok moment :=
  (momentShape_ok.mp fits).2

/-- The shape admits no list and no dictionary. -/
def Shape.isScalar : Shape → Bool
  | .object _ | .array _ _ _ => false
  | .nullable inner => inner.isScalar
  | .enum values => values.all fun value => decide value.IsScalar
  | .count | .positive | .digest | .uuid | .version | .token | .id | .cwe | .path | .reason
  | .second | .instant | .text => true

/-- What fits a scalar shape is a scalar. By induction on the shape. -/
theorem Fits.isScalar {rule : Shape} (fits : Fits value rule) (scalar : rule.isScalar = true)
    : value.IsScalar := by
  have text {maximum : Nat} {nonempty : Bool} {admits : Text → Bool}
      (passed : textShape value maximum nonempty admits = .ok ()) : value.IsScalar := by
    obtain ⟨characters, rfl, _⟩ := textShape_ok.mp passed
    trivial
  have number {minimum : Int} (passed : countShape value minimum = .ok ()) : value.IsScalar := by
    obtain ⟨number, rfl, _⟩ := countShape_ok.mp passed
    trivial
  have moment {maximum : Nat} {microseconds : Bool}
      (passed : momentShape value maximum microseconds = .ok ()) : value.IsScalar :=
    text (momentShape_ok.mp passed).1
  cases rule with
  | object fields => cases scalar
  | array item minimum maximum => cases scalar
  | nullable inner =>
      rcases fits_nullable_iff.mp fits with rfl | present
      · trivial
      · exact present.isScalar scalar
  | enum values =>
      have listed := List.all_eq_true.mp scalar value (fits_enum_iff.mp fits)
      exact of_decide_eq_true listed
  | count | positive =>
      exact number fits
  | second | instant =>
      exact moment fits
  | digest | uuid | version | token | id | cwe | path | reason | text =>
      exact text fits

end Scanipy.Services.Scan.AcceptedInputs

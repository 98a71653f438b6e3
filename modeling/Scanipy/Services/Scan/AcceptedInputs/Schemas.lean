import Scanipy.Python.JsonTokens

/-! The primitive checks of accepted inputs: fixed failure codes, limits and texts. -/

namespace Scanipy.Services.Scan.AcceptedInputs

open Library Python

/-- `VerificationError`, by its code. -/
inductive VerificationError where
  | invalidInput
  | unsupportedSchema
  | contentMismatch
  | untrustedRoot
  | signatureInvalid
  | grantDenied
  | policyStale
  | policyExpired
  | checkpointDenied
  | scopeMismatch
  | ledgerMismatch
  | fenceStale
  | runtimeUnsupported
  | internalError
  deriving DecidableEq, Repr

/-- `MAX_CONTENT`. -/
def maxContent : Nat := 1048576

/-- `MAX_AUTHORITY`. -/
def maxAuthority : Nat := 1048576

/-- `MAX_LIVE`. -/
def maxLive : Nat := 262144

/-- `MAX_OBJECT`. -/
def maxObject : Nat := 65536

/-- `MAX_POLICY`. -/
def maxPolicy : Nat := 131072

/-- `MAX_PACKET`. -/
def maxPacket : Nat := 2621440

/-- `MAX_VALUES`. -/
def maxValues : Nat := 20000

/-- `MAX_DEPTH`. -/
def maxDepth : Nat := 32

/-- `MAX_STRING`. -/
def maxString : Nat := 16384

/-- `text` once the type is known. -/
def text (value : Text) (maximum : Nat) (nonempty : Bool) : Except VerificationError Unit := do
  demand (value.length ≤ maximum ∧ (value ≠ [] ∨ nonempty = false)
    ∧ value.all fun point => point.val ≠ 0) .invalidInput
  demand value.Encodable .invalidInput
  demand (value.utf8.length ≤ maximum) .invalidInput

/-- The text encodes, holds no NUL, and is within the limit. -/
def TextFits (maximum : Nat) (value : Text) : Prop :=
  value.Encodable ∧ (∀ point ∈ value, point.val ≠ 0) ∧ value.utf8.length ≤ maximum

theorem text_ok {value : Text} {maximum : Nat}
    : text value maximum false = .ok () ↔ TextFits maximum value := by
  have short := value.length_le_utf8
  simp only [text, check_ok, demand_ok, TextFits, List.all_eq_true,
    decide_eq_true_eq]
  constructor
  · rintro ⟨⟨_, _, nonzero⟩, encodable, fits⟩
    exact ⟨encodable, nonzero, fits⟩
  · rintro ⟨encodable, nonzero, fits⟩
    exact ⟨⟨by omega, .inr trivial, nonzero⟩, encodable, fits⟩

end Scanipy.Services.Scan.AcceptedInputs

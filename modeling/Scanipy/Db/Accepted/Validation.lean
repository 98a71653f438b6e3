import Scanipy.Library.Charges
import Scanipy.Python.Patterns
import Scanipy.Python.Strings

/-! The admission of the accepted-inputs ledger: what an operation may spend, the lexical scan that
bounds an envelope, and what the operations of the execution ledger reserve before they are called.
-/

namespace Scanipy.Db.Accepted

open Library Python

/-- What ends a transaction: a `RAISE` with its reason, or the limit of a meter. -/
inductive LedgerError where
  | raised (reason : String)
  | workLimit
  deriving DecidableEq

/-- `v1_require`. -/
def require (condition : Prop) [Decidable condition] (reason : String) : Except LedgerError Unit :=
  demand condition (.raised reason)

/-- `v1_require` without a reason. -/
def valid (condition : Prop) [Decidable condition] : Except LedgerError Unit :=
  require condition "invalid-input"

@[simp]
theorem valid_ok {condition : Prop} [Decidable condition] {value : Unit}
    : valid condition = .ok value ↔ condition :=
  demand_ok

/-- The places of the arrays `used` and `caps`. -/
inductive Bucket where
  | hashes
  | hashedBytes
  | fetched
  | scalars
  | images
  | relational
  | concatenation
  | control
  | direct
  deriving DecidableEq

/-- `v1_work_begin`. -/
def workBegin (fetchLimit controlLimit relationalLimit : Nat) : Meter Bucket :=
  .start fun
    | .hashes => 100000
    | .hashedBytes => 134217728
    | .fetched => fetchLimit
    | .scalars => controlLimit
    | .images => 536870912
    | .relational => relationalLimit
    | .concatenation => 2147483648
    | .control => 65536
    | .direct => fetchLimit

/-- Work that is charged to the meters of a transaction. -/
abbrev Work : Type → Type :=
  Charged Bucket LedgerError

/-- `v1_charge`. -/
def charge (bucket : Bucket) (amount : Nat) : Work Unit :=
  Charged.charge .workLimit bucket amount

/-- A condition between charges. -/
def needs (condition : Prop) [Decidable condition] (reason : String) : Work Unit :=
  Charged.need condition (.raised reason)

/-- `v1_byte_array`. -/
def byteArray (parts : List Bytes) (maximum : Nat) : Except LedgerError Nat := do
  valid (parts.length ≤ maximum)
  valid (parts.all (fun part => part.length ≤ 1048576) = true)
  valid ((parts.map List.length).sum ≤ 3145728)
  .ok (parts.map List.length).sum

/-- The bytes that end a bare token. -/
def isDelimiter (byte : Byte) : Bool :=
  [9, 10, 13, 32, 44, 58, 91, 93, 123, 125, 34].contains byte.val

/-- The bytes between tokens that are no token. -/
def isFiller (byte : Byte) : Bool :=
  [9, 10, 13, 32, 44, 58].contains byte.val

/-- Where the scan stands: between tokens, in a string of some extent, or in a bare token, whose
bytes are kept in reverse.
-/
inductive Scanner where
  | between
  | quoted (extent : Nat) (escaped : Bool)
  | bare (token : Bytes)

structure Scan where
  scanner : Scanner
  depth : Nat
  values : Nat

structure LexicalLimits where
  values : Nat
  string : Nat
  depth : Nat

/-- `-?(0|[1-9][0-9]*)`. -/
def isInteger (token : Text) : Bool :=
  let digits := if (py "-").isPrefixOf token then token.drop 1 else token
  digits == py "0" || startsWith (between 0x31 0x39) isDigit digits

/-- The value of an integer token. -/
def integerOf (token : Text) : Int :=
  if (py "-").isPrefixOf token then -(Json.digitsValue (token.drop 1) : Int)
  else Json.digitsValue token

/-- Bytes as the characters of their values. -/
def asciiText (token : Bytes) : Text :=
  token.map fun byte => Fin.ofNat 0x110000 byte.val

/-- The end of a bare token. -/
def LexicalLimits.close (limits : LexicalLimits) (token : Bytes) (scan : Scan)
    : Except LedgerError Scan := do
  let text := asciiText token.reverse
  valid (text ∈ [py "true", py "false", py "null"]
    ∨ isInteger text = true ∧ -(2 ^ 63) ≤ integerOf text ∧ integerOf text < 2 ^ 63)
  valid (scan.values + 1 ≤ limits.values)
  .ok ⟨.between, scan.depth, scan.values + 1⟩

/-- A byte between tokens. -/
def LexicalLimits.next (limits : LexicalLimits) (scan : Scan) (byte : Byte)
    : Except LedgerError Scan :=
  if isFiller byte then .ok scan
  else if byte.val = 34 then do
    valid (scan.values + 1 ≤ limits.values)
    .ok ⟨.quoted 0 false, scan.depth, scan.values + 1⟩
  else if byte.val = 91 ∨ byte.val = 123 then do
    valid (scan.depth + 1 ≤ limits.depth)
    valid (scan.values + 1 ≤ limits.values)
    .ok ⟨.between, scan.depth + 1, scan.values + 1⟩
  else if byte.val = 93 ∨ byte.val = 125 then do
    valid (0 < scan.depth)
    valid (scan.values ≤ limits.values)
    .ok ⟨.between, scan.depth - 1, scan.values⟩
  else .ok ⟨.bare [byte], scan.depth, scan.values⟩

/-- A byte of a string of some extent. -/
def LexicalLimits.inside (limits : LexicalLimits) (scan : Scan) (extent : Nat) (escaped : Bool)
    (byte : Byte) : Except LedgerError Scan := do
  valid (extent + 1 ≤ 6 * limits.string + 1)
  if escaped then .ok { scan with scanner := .quoted (extent + 1) false }
  else if byte.val = 92 then .ok { scan with scanner := .quoted (extent + 1) true }
  else if byte.val = 34 then .ok { scan with scanner := .between }
  else do
    valid (32 ≤ byte.val)
    .ok { scan with scanner := .quoted (extent + 1) false }

/-- One byte of the scan. -/
def LexicalLimits.step (limits : LexicalLimits) (scan : Scan) (byte : Byte)
    : Except LedgerError Scan :=
  match scan.scanner with
  | .between => limits.next scan byte
  | .quoted extent escaped => limits.inside scan extent escaped byte
  | .bare token =>
      if isDelimiter byte then do
        let closed ← limits.close token scan
        limits.next closed byte
      else do
        valid (token.length + 1 ≤ 20)
        .ok { scan with scanner := .bare (byte :: token) }

/-- The end of the scan. -/
def LexicalLimits.finish (limits : LexicalLimits) (scan : Scan) : Except LedgerError Nat :=
  match scan.scanner with
  | .between => do
      valid (scan.depth = 0)
      .ok scan.values
  | .quoted _ _ => .error (.raised "invalid-input")
  | .bare token => do
      let closed ← limits.close token scan
      valid (closed.depth = 0)
      .ok closed.values

/-- `v1_lexical`: the number of values and keys. -/
def lexical (limits : LexicalLimits) (maximum : Nat) (data : Bytes) : Except LedgerError Nat := do
  valid (1 ≤ data.length ∧ data.length ≤ maximum)
  let scan ← data.foldlM limits.step ⟨.between, 0, 0⟩
  limits.finish scan

/-- The mutations of the ledger. -/
inductive Action where
  | installPolicy
  | recordAdmission
  | publishBuiltin
  | createBoundRequest
  | sealBoundCapture
  | authorizeDetector
  | renewDetector
  deriving DecidableEq

/-- The meters of a mutation. -/
def Action.meter (action : Action) : Meter Bucket :=
  workBegin
    (match action with
      | installPolicy => 328064
      | recordAdmission => 197376
      | publishBuiltin => 2424832
      | createBoundRequest => 10813440
      | sealBoundCapture => 18087936
      | authorizeDetector => 145494016
      | renewDetector => 63639552)
    167772160 2097184

/-- `v1_concat_reserve`. -/
def concatReserve (size values copies : Nat) : Work Unit := do
  needs (size ≤ 1049088 ∧ values ≤ 1048640 ∧ 1 ≤ copies ∧ copies ≤ 3) "invalid-input"
  let cost := 8 * (size + 1) * (values + 1) + 16 * size + 4096
  needs (cost ≤ 2147483648 / copies) "invalid-input"
  charge .concatenation (cost * copies)

/-- The operations of the execution ledger that the mutations call. -/
inductive Helper where
  | create
  | register
  | begin
  | renew
  | fail
  | finish
  deriving DecidableEq

/-- How many payloads an operation takes. -/
def Helper.payloads : Helper → Nat
  | create => 2
  | register => 3
  | renew => 0
  | begin | fail | finish => 1

/-- An operation that ends an attempt, whose payload is small. -/
def Helper.IsEnd (helper : Helper) : Prop :=
  helper = .fail ∨ helper = .finish

instance (helper : Helper) : Decidable helper.IsEnd :=
  inferInstanceAs (Decidable (_ ∨ _))

/-- A payload before an operation reads it. -/
def preflightPayload (helper : Helper) (entry : Bytes × Nat) : Work Unit := do
  let size := entry.1.length
  let values ← Charged.lift (lexical ⟨1048576, 1048576, 32⟩ 1048576 entry.1)
  needs (helper.IsEnd → size ≤ 65536 ∧ values ≤ 64) "invalid-input"
  concatReserve size values 1
  if helper = .create ∧ entry.2 = 0 then concatReserve (size + 512) (values + 64) 3
  else pure ()

/-- `v1_lower_preflight`. -/
def lowerPreflight (helper : Helper) (payloads : List Bytes) : Work Unit := do
  let _ ← Charged.lift (byteArray payloads 3)
  needs (payloads.length = helper.payloads) "invalid-input"
  Metered.visit (preflightPayload helper) payloads.zipIdx
  if helper = .finish then concatReserve 4096 16 1 else pure ()

end Scanipy.Db.Accepted

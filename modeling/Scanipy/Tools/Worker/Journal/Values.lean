import Scanipy.Python.Datetime
import Scanipy.Python.Errors
import Scanipy.Python.JsonTokens
import Scanipy.Python.Utf8

/-! The primitive values of runtime journal records: bounded checks of one field, the frozen form
of a document, and the budgeted walk that thaws it.
-/

namespace Scanipy.Tools.Worker.Journal

open Library Python

/-- The fixed private reasons. -/
inductive Reason where
  | invalidType
  | limit
  | noncanonical
  | schema
  | reference
  | order
  | conflict
  deriving DecidableEq, Repr

/-- What validation raises: `JournalValidationError`, or an exception that it lets pass. -/
inductive JournalError where
  | validation (reason : Reason)
  | python (raised : PyError)
  deriving DecidableEq, Repr

/-- `_need`. -/
def need (condition : Prop) [Decidable condition] (reason : Reason) : Except JournalError Unit :=
  if condition then .ok () else .error (.validation reason)

@[simp]
theorem need_ok_iff {condition : Prop} [Decidable condition] {reason : Reason} {value : Unit}
    : need condition reason = .ok value ↔ condition := by
  by_cases holds : condition <;> simp [need, holds]

/-- `_ID`: a letter or digit, then at most 127 characters of identifiers. -/
def matchesId : Text → Bool
  | [] => false
  | first :: rest =>
      isAlphanumeric first && rest.length ≤ 127
      && rest.all fun point => isAlphanumeric point || (py "._:/-").contains point

/-- `_text` once the type is known. The text has to encode, without a NUL, within the cap. -/
def checkText (text : Text) (cap : Nat) (empty : Bool) : Except JournalError Unit := do
  need (text.length ≤ cap) .limit
  need ((empty = true ∨ text ≠ []) ∧ text.all fun point => point.val ≠ 0) .schema
  need text.Encodable .schema
  need (text.utf8.length ≤ cap) .limit

/-- `_text(value, cap)`. -/
def needText (value : Json) (cap : Nat) : Except JournalError Text :=
  match value with
  | .str text => do
      checkText text cap false
      .ok text
  | _ => .error (.validation .invalidType)

/-- `_MAX`. -/
def maxInt : Int :=
  2 ^ 63 - 1

/-- `_MIN`. -/
def minInt : Int :=
  -(2 ^ 63)

/-- `_int`. -/
def needInt (value : Json) (low high : Int) : Except JournalError Int :=
  match value with
  | .int number => do
      need (low ≤ number ∧ number ≤ high) .schema
      .ok number
  | _ => .error (.validation .invalidType)

/-- `_bool`. -/
def needBool (value : Json) : Except JournalError Bool :=
  match value with
  | .bool flag => .ok flag
  | _ => .error (.validation .invalidType)

/-- `_choice`. -/
def needChoice (value : Json) (choices : List Text) : Except JournalError Text := do
  let text ← needText value 128
  need (text ∈ choices) .schema
  .ok text

/-- `_hex`. -/
def needHex (value : Json) : Except JournalError Text := do
  let text ← needText value 64
  need (fullmatch hexPattern text = true) .schema
  .ok text

/-- `_uuid`. -/
def needUuid (value : Json) : Except JournalError Text := do
  let text ← needText value 36
  need (fullmatch uuidPattern text = true) .schema
  .ok text

/-- `_id`. -/
def needId (value : Json) : Except JournalError Text := do
  let text ← needText value 128
  need (matchesId text = true) .schema
  .ok text

/-- `_image`. -/
def needImage (value : Json) : Except JournalError Text := do
  let text ← needText value 71
  need ((py "sha256:").isPrefixOf text = true) .schema
  let _ ← needHex (.str (text.drop 7))
  .ok text

/-- A character that a path may hold. -/
def isPathPoint (point : CodePoint) : Bool :=
  32 ≤ point.val && !between 127 159 point

/-- `_path`. -/
def needPath (value : Json) : Except JournalError Text := do
  let text ← needText value 4096
  need ((py "/").isPrefixOf text = true ∧ text ≠ py "/" ∧ (text.all fun point => point.val ≠ 0x5C))
    .schema
  need (text.all isPathPoint = true) .schema
  need (((text.splitOn (Fin.ofNat 0x110000 0x2F)).drop 1).all
    (fun part => part ∉ [[], py ".", py ".."]) = true) .schema
  .ok text

/-- `_keys`: the members are exactly the fields. -/
def needKeys (value : Json) (fields : List String) : Except JournalError Unit :=
  match value with
  | .obj members =>
      let names := fields.map py
      let keys := members.map Prod.fst
      need (keys.length = names.length ∧ keys.all (· ∈ names) ∧ names.all (· ∈ keys)) .schema
  | _ => .error (.validation .invalidType)

/-- `_list`. -/
def needList (value : Json) (cap minimum : Nat) : Except JournalError (List Json) :=
  match value with
  | .arr items => do
      need (minimum ≤ items.length ∧ items.length ≤ cap) .limit
      .ok items
  | _ => .error (.validation .invalidType)

/-- `row[key]`. -/
def field (row : Json) (key : String) : Except JournalError Json :=
  match row with
  | .obj members =>
      match members.find? fun member => member.1 = py key with
      | some member => .ok member.2
      | none => .error (.python .keyError)
  | _ => .error (.python .typeError)

/-- `_utc`: the instant in microseconds; `datetime.fromisoformat` refuses a date or a time that
does not exist.
-/
def needUtc (value : Json) : Except JournalError Nat := do
  let text ← needText value 27
  need (fullmatch utcPattern text = true) .schema
  let year := digitsAt text 0 4
  let month := digitsAt text 5 2
  let day := digitsAt text 8 2
  let hour := digitsAt text 11 2
  let minute := digitsAt text 14 2
  let second := digitsAt text 17 2
  need (1 ≤ year ∧ 1 ≤ month ∧ month ≤ 12 ∧ 1 ≤ day ∧ day ≤ daysInMonth year month) .schema
  need (hour < 24 ∧ minute < 60 ∧ second < 60) .schema
  .ok ((((toOrdinal year month day * 24 + hour) * 60 + minute) * 60 + second) * 1000000
    + digitsAt text 20 6)

-- Frozen documents

/-- A frozen value: a primitive or a tuple. Arrays and objects are the pairs
`("array", items)` and `("object", members)`; other tuples are malformed.
-/
inductive Stored where
  | none
  | bool (value : Bool)
  | int (value : Int)
  | str (value : Text)
  | tuple (items : List Stored)
  deriving Repr

mutual

/-- `_freeze`: the members of an object are sorted by key. -/
def freeze : Json → Stored
  | .null => .none
  | .bool value => .bool value
  | .int value => .int value
  | .str value => .str value
  | .arr items => .tuple [.str (py "array"), .tuple (freezeItems items)]
  | .obj members =>
      .tuple [.str (py "object"),
        .tuple ((sortedBy Prod.fst (freezeMembers members)).map fun member =>
          .tuple [.str member.1, member.2])]

def freezeItems : List Json → List Stored
  | [] => []
  | item :: rest => freeze item :: freezeItems rest

def freezeMembers : List (Text × Json) → List (Text × Stored)
  | [] => []
  | (key, value) :: rest => (key, freeze value) :: freezeMembers rest

end

/-- `_PrimitiveBudget`: the bytes and values left. -/
structure Budget where
  bytes : Nat
  values : Nat
  deriving DecidableEq, Repr

/-- `_PrimitiveBudget.take`. -/
def Budget.take (budget : Budget) (size values : Nat) : Except JournalError Budget := do
  need (size ≤ budget.bytes ∧ values ≤ budget.values) .limit
  .ok { bytes := budget.bytes - size, values := budget.values - values }

/-- The bytes that quoting adds to a character. -/
def escapeSize (point : CodePoint) : Nat :=
  if point.val ∈ [0x22, 0x5C, 0x08, 0x0C, 0x0A, 0x0D, 0x09] then 1
  else if point.val < 32 then 5
  else 0

/-- `_size_text`. -/
def sizeText (text : Text) : Nat :=
  2 + text.utf8.length + (text.map escapeSize).sum

/-- A tuple that is not a pair of a tag and a tuple is refused. -/
def malformed (limit depth : Nat) (items : List Stored) (budget : Budget)
    : Except JournalError (Json × Budget) := do
  let _ ← budget.take 0 1
  need (items.length ≤ 2) .limit
  match items with
  | [.str _, _] => do
      need (depth < limit) .limit
      .error (.validation .invalidType)
  | _ => .error (.validation .schema)

/-- A member that is not a pair of a key and a value is refused. -/
def malformedMember : Stored → Except JournalError (List (Text × Json) × Budget)
  | .tuple items => do
      need (items.length ≤ 2) .limit
      need (items.length = 2) .schema
      .error (.validation .invalidType)
  | _ => .error (.validation .invalidType)

section Plain

variable (limit : Nat)

mutual

/-- `_plain` under a limit of nesting: the value that a frozen value stands for, and the budget
left.
-/
def plain (depth : Nat) : Stored → Budget → Except JournalError (Json × Budget)
  | .none, budget => do
      let budget ← budget.take 0 1
      let budget ← budget.take 4 0
      .ok (.null, budget)
  | .bool value, budget => do
      let budget ← budget.take 0 1
      let budget ← budget.take (if value then 4 else 5) 0
      .ok (.bool value, budget)
  | .int value, budget => do
      let budget ← budget.take 0 1
      need (minInt ≤ value ∧ value ≤ maxInt) .schema
      let budget ← budget.take (Json.numeral value).length 0
      .ok (.int value, budget)
  | .str value, budget => do
      let budget ← budget.take 0 1
      checkText value budget.bytes true
      let budget ← budget.take (sizeText value) 0
      .ok (.str value, budget)
  | .tuple [.str tag, .tuple members], budget => do
      let budget ← budget.take 0 1
      need (depth < limit) .limit
      need (members.length ≤ budget.values) .limit
      let budget ← budget.take (2 + (members.length - 1)) 0
      if tag = py "array" then
        let (items, budget) ← plainItems (depth + 1) members budget
        .ok (.arr items, budget)
      else
        need (tag = py "object") .schema
        need (2 * members.length ≤ budget.values) .limit
        let (members, budget) ← plainMembers (depth + 1) Option.none members budget
        .ok (.obj members, budget)
  | .tuple items, budget => malformed limit depth items budget

def plainItems (depth : Nat) : List Stored → Budget → Except JournalError (List Json × Budget)
  | [], budget => .ok ([], budget)
  | item :: rest, budget => do
      let (value, budget) ← plain depth item budget
      let (values, budget) ← plainItems depth rest budget
      .ok (value :: values, budget)

/-- The members of an object, whose keys increase strictly. -/
def plainMembers (depth : Nat)
    : Option Text → List Stored → Budget → Except JournalError (List (Text × Json) × Budget)
  | _, [], budget => .ok ([], budget)
  | previous, .tuple [.str key, content] :: rest, budget => do
      checkText key budget.bytes true
      need (∀ earlier ∈ previous, earlier < key) .noncanonical
      let budget ← budget.take (sizeText key + 1) 1
      let (value, budget) ← plain depth content budget
      let (values, budget) ← plainMembers depth (some key) rest budget
      .ok ((key, value) :: values, budget)
  | _, entry :: _, _ => malformedMember entry

end

end Plain

/-- `_json`. -/
def json (value : Json) : Except JournalError Bytes :=
  match value.dumps.encode with
  | some data => .ok data
  | none => .error (.python .unicodeEncodeError)

end Scanipy.Tools.Worker.Journal

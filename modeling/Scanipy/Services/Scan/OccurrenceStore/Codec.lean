import Scanipy.Analysis.ArtifactIdentity
import Scanipy.Db.EnvelopeSchemas
import Scanipy.Python.Utf8
import Scanipy.Python.Uuid

/-! Storage envelopes in Python: the canonical JSON of a closed schema, and its digest. -/

namespace Scanipy.Services.Scan.OccurrenceStore.Codec

open Analysis Library Python

/-- What a codec call raises: an `EnvelopeError`, or an error that passes through. -/
inductive CodecError where
  | envelope (message : String)
  | passed (raised : PyError)
  deriving DecidableEq, Repr

/-- `if not condition: raise EnvelopeError(message)`. -/
def need (condition : Prop) [Decidable condition] (message : String) : Except CodecError Unit :=
  demand condition (.envelope message)

@[simp]
theorem need_ok_iff {condition : Prop} [Decidable condition] {message : String} {value : Unit}
    : need condition message = .ok value ↔ condition :=
  demand_ok

/-- A Python value by its exact type; `other` has none of the types that an envelope holds. -/
inductive PyValue where
  | none
  | bool (value : Bool)
  | int (value : Int)
  | str (value : Text)
  | list (items : List PyValue)
  | dict (members : List (PyValue × PyValue))
  | other

mutual

/-- A value that the decoder builds. -/
def PyValue.ofJson : Json → PyValue
  | .null => .none
  | .bool value => .bool value
  | .int value => .int value
  | .str value => .str value
  | .arr items => .list (PyValue.ofItems items)
  | .obj members => .dict (PyValue.ofMembers members)

def PyValue.ofItems : List Json → List PyValue
  | [] => []
  | item :: rest => PyValue.ofJson item :: PyValue.ofItems rest

def PyValue.ofMembers : List (Text × Json) → List (PyValue × PyValue)
  | [] => []
  | (key, value) :: rest => (.str key, PyValue.ofJson value) :: PyValue.ofMembers rest

end

mutual

/-- What the encoder writes for a value; `_scalar` refuses keys that are no strings, and values of
other types.
-/
def PyValue.json : PyValue → Json
  | .none | .other => .null
  | .bool value => .bool value
  | .int value => .int value
  | .str value => .str value
  | .list items => .arr (PyValue.jsonItems items)
  | .dict members => .obj (PyValue.jsonMembers members)

def PyValue.jsonItems : List PyValue → List Json
  | [] => []
  | item :: rest => item.json :: PyValue.jsonItems rest

def PyValue.jsonMembers : List (PyValue × PyValue) → List (Text × Json)
  | [] => []
  | (key, value) :: rest => (key.json.chars, value.json) :: PyValue.jsonMembers rest

end

/-- The keys of a dictionary that are strings. -/
def PyValue.keys (members : List (PyValue × PyValue)) : List Text :=
  members.filterMap fun member =>
    match member.1 with
    | .str key => some key
    | _ => Option.none

mutual

/-- No dictionary has a key twice. -/
def PyValue.Distinct : PyValue → Prop
  | .none | .bool _ | .int _ | .str _ | .other => True
  | .list items => PyValue.DistinctItems items
  | .dict members => (PyValue.keys members).Nodup ∧ PyValue.DistinctMembers members

def PyValue.DistinctItems : List PyValue → Prop
  | [] => True
  | item :: rest => item.Distinct ∧ PyValue.DistinctItems rest

def PyValue.DistinctMembers : List (PyValue × PyValue) → Prop
  | [] => True
  | (_, value) :: rest => value.Distinct ∧ PyValue.DistinctMembers rest

end

/-- A Python object: its dictionaries have every key once. -/
structure PyObject where
  value : PyValue
  distinct : value.Distinct

/-- The signed 64-bit domain. -/
def IsWord (value : Int) : Prop :=
  -(2 ^ 63) ≤ value ∧ value < 2 ^ 63

instance (value : Int) : Decidable (IsWord value) :=
  inferInstanceAs (Decidable (_ ∧ _))

/-- Unicode scalars without NUL. -/
def IsPlain (text : Text) : Prop :=
  ∀ point ∈ text, point.val ≠ 0 ∧ ¬point.IsSurrogate

instance (text : Text) : Decidable (IsPlain text) :=
  List.decidableBAll (fun point : CodePoint => point.val ≠ 0 ∧ ¬point.IsSurrogate) text

mutual

/-- `_scalar`. -/
def scalar (value : PyValue) (depth : Nat) : Except CodecError Unit := do
  need (depth ≤ maxDepth) "envelope nesting exceeds 32"
  match value with
  | .none | .bool _ => .ok ()
  | .int value => need (IsWord value) "integer outside signed 64-bit domain"
  | .str text => do
      need (text.length ≤ maxEnvelope) "envelope string exceeds byte bound"
      need (IsPlain text) "strings must be Unicode scalars without NUL"
  | .list items => scalarItems items (depth + 1)
  | .dict members => scalarMembers members (depth + 1)
  | .other => .error (.envelope "unsupported envelope value")

def scalarItems : List PyValue → Nat → Except CodecError Unit
  | [], _ => .ok ()
  | item :: rest, depth => do
      scalar item depth
      scalarItems rest depth

def scalarMembers : List (PyValue × PyValue) → Nat → Except CodecError Unit
  | [], _ => .ok ()
  | (.str key, value) :: rest, depth => do
      scalar (.str key) depth
      scalar value depth
      scalarMembers rest depth
  | _ :: _, _ => .error (.envelope "object keys must be strings")

end

/-- `_path`. -/
def isPath (value : Text) : Bool :=
  value ≠ [] && value.all (fun point => point.val ≠ 0x5C)
  && (value.splitOn (Fin.ofNat 0x110000 0x2F)).all
      fun part => !([[], py ".", py ".."] : List Text).contains part

/-- What `_shape` asks of an integer between two bounds. -/
def isBetween (low high : Int) : Json → Bool
  | .int value => low ≤ value && value ≤ high
  | _ => false

/-- What `_shape` asks of a string. -/
def isText (accepts : Text → Bool) : Json → Bool
  | .str value => accepts value
  | _ => false

/-- What `_shape` asks of a scalar. -/
def validScalar (value : Json) : Shape → Bool
  | .bool => value == .bool true || value == .bool false
  | .nat => isBetween 0 (2 ^ 63 - 1) value
  | .positive => isBetween 1 (2 ^ 63 - 1) value
  | .int low high => isBetween low high value
  | .text => isText (fun _ => true) value
  | .nonempty => isText (fun text => text ≠ []) value
  | .digest => isText (fullmatch (List.replicate 64 isHex)) value
  | .env => isText (fullmatch (literally "sha256:" ++ List.replicate 64 isHex)) value
  | .commit =>
      isText (fun text => fullmatch (List.replicate 40 isHex) text
        && text ≠ List.replicate 40 (Fin.ofNat 0x110000 0x30)) value
  | .uuid => isText (fun text => (Uuid.ofText text).isSome) value
  | .path => isText isPath value
  | .nullable _ | .enum _ | .array _ | .object _ => false

mutual

/-- `_shape`. -/
def shape (value : Json) : Shape → Except CodecError Unit
  | .nullable inner => if value = .null then .ok () else shape value inner
  | .enum values => need (value ∈ values) "invalid enum"
  | .array item =>
      match value with
      | .arr items => Metered.visit (fun entry => shape entry item) items
      | _ => .error (.envelope "expected array")
  | .object fields =>
      match value with
      | .obj members => do
          need (HasKeys members (fields.map Prod.fst)) "missing or unknown envelope field"
          shapeFields value fields
      | _ => .error (.envelope "missing or unknown envelope field")
  | rule => need (validScalar value rule = true) ("invalid " ++ specOf rule ++ " value")

/-- The loop over `shape.items()`. -/
def shapeFields (value : Json) : List (String × Shape) → Except CodecError Unit
  | [] => .ok ()
  | (name, rule) :: rest => do
      shape (value.get name) rule
      shapeFields value rest

end

/-- `_unique`. -/
def unique {α : Type} [DecidableEq α] (values : List α) (label : String) : Except CodecError Unit :=
  need values.Nodup ("duplicate " ++ label)

/-- `_location`. -/
def location (value : Json) : Except CodecError Unit := do
  let path := value.get "path"
  let start := value.get "start_line"
  let column := value.get "start_column"
  let finish := value.get "end_line"
  let finishColumn := value.get "end_column"
  let observed := ∃ item ∈ [path, start, column, finish, finishColumn], item ≠ .null
  let known := path ≠ .null ∧ start ≠ .null
  let expected := if known then "known" else if observed then "partial" else "unknown"
  need (value.get "status" = .str (py expected)) "location status contradicts observed fields"
  need (¬((column ≠ .null ∧ start = .null) ∨ (finishColumn ≠ .null ∧ finish = .null)))
    "location column requires its observed line"
  need (¬(finish ≠ .null ∧ (start = .null ∨ finish.integer < start.integer)))
    "end location requires ordered observed start"
  need (¬(finish = start ∧ finishColumn ≠ .null
      ∧ (column = .null ∨ finishColumn.integer < column.integer)))
    "same-line end requires ordered observed start column"

/-- The retry policy of `request` and `retry-policy`. -/
def semanticRetry (retry : Json) : Except CodecError Unit :=
  need (¬(retry.get "initial_backoff_seconds").integer > (retry.get "max_backoff_seconds").integer)
    "initial backoff exceeds maximum"

/-- The identity policy of `request`, `work-payload` and `planned-policy`. -/
def semanticPolicy (policy : Json) : Except CodecError Unit :=
  need (¬(policy.get "mode" = .str (py "not-applicable") ∧ policy.get "reason" = .null))
    "not-applicable requires explicit policy reason"

/-- The kind of `work-payload`. -/
def semanticWork (value : Json) : Except CodecError Unit :=
  need (value.get "kind" = .str (py "identity") ↔ value.get "occurrence_id" ≠ .null)
    "work kind and occurrence disagree"

/-- The files of `source-inventory`. -/
def semanticFiles (value : Json) : Except CodecError Unit := do
  let paths := (value.get "files").items.map fun item => (item.get "path").chars
  unique paths "file path"
  need (paths = sorted paths) "inventory paths must be sorted"

/-- The bindings of `seal` and `planned-policy`. -/
def semanticBindings (value : Json) : Except CodecError Unit := do
  let bindings := (value.get "bindings").items
  unique (bindings.map (·.get "key")) "binding key"
  Metered.visit
    (fun binding => do
      need (¬((binding.get "engines").items = [] ∨ (binding.get "rules").items = []))
        "binding requires engines and rules"
      unique (binding.get "engines").items "engine"
      unique ((binding.get "rules").items.map (·.get "rule_id")) "rule")
    bindings

/-- The rows of `detection-batch` and `occurrence-inventory`. -/
def semanticRows (value : Json) : Except CodecError Unit := do
  let rows := (value.get "occurrences").items
  need (rows.length ≤ maxCount) "occurrence count limit"
  unique (rows.map fun row => (row.get "result_key", row.get "duplicate_ordinal")) "occurrence key"
  need (rows.map (·.get "tool_ordinal") = (List.range rows.length).map fun ordinal => .int ordinal)
    "tool ordinals must preserve contiguous returned order"
  Metered.visit (fun row => location (row.get "location")) rows

/-- The coverage of `detection-batch`. -/
def semanticCoverage (value : Json) : Except CodecError Unit := do
  let coverage := value.get "coverage"
  unique (coverage.get "files").items "covered file"
  unique (coverage.get "rules").items "covered rule"
  need (¬(value.get "status" = .str (py "completed")
      ∧ (coverage.get "status" ≠ .str (py "complete") ∨ (coverage.get "errors").items ≠ [])))
    "completed run requires complete error-free coverage"

/-- The identity of `attempt-result`. -/
def semanticIdentity (identity : Json) : Except CodecError Unit :=
  if identity = .null then .ok ()
  else
    match validateIdentityMetadata identity with
    | .ok _ => .ok ()
    | .error raised => .error (.passed raised)

/-- The rules of `attempt-result`. -/
def semanticResult (value : Json) : Except CodecError Unit := do
  unique (value.get "completed_run_ids").items "completed run ID"
  semanticIdentity (value.get "identity")
  need (¬(value.get "status" = .str (py "completed")
      ∧ (value.get "retryable" = .bool true ∨ value.get "error" ≠ .null)))
    "completed attempt cannot report retry/error"
  need (¬(value.get "status" = .str (py "failed") ∧ value.get "error" = .null))
    "failed attempt requires error"

-- Bytes

/-- `_canonical`; the chunks are bounded together, as a chunk that exceeds the bound alone exceeds
it with the others.
-/
def canonical (value : PyValue) : Except CodecError Bytes := do
  scalar value 0
  let data := value.json.dumps.utf8
  need (data.length ≤ maxEnvelope) "envelope size limit"
  .ok data

/-- `_pairs`. -/
def pairs (members : List (Text × Json)) : Except CodecError (List (Text × Json)) := do
  need (members.map Prod.fst).Nodup "duplicate JSON key"
  .ok members

/-- `_integer`, for the token of a number. -/
def integer : Json.Token → Except CodecError Unit
  | .int value => do
      need ((Json.numeral value).length ≤ 20) "integer outside signed 64-bit domain"
      need (IsWord value) "integer outside signed 64-bit domain"
  | .null | .bool _ | .str _ | .arr _ | .obj _ => .ok ()

/-- `json.loads` of the decoded data. Floats, which `_no_float` refuses, are not among the values,
and the integers of a text that is no JSON are not looked at.
-/
def loads (data : Bytes) : Except CodecError Json := do
  let text ← match Text.decode data with
    | none => .error (.envelope "invalid envelope encoding")
    | some text => .ok text
  let value ← Json.loads pairs (.envelope "invalid envelope encoding") text
  Metered.visit integer value.leaves
  .ok value

/-- The digest of an envelope; `sha256` is `hashlib.sha256`. -/
def digestOf (sha256 : Bytes → Bytes) (name : EnvelopeName) (data : Bytes) : Bytes :=
  sha256 (name.schemaText.utf8 ++ pyb "\n" ++ data)

/-- `decode_envelope` of a known name, with its rules between fields. -/
def decodeBy (rules : Json → Except CodecError Unit) (sha256 : Bytes → Bytes) (name : EnvelopeName)
    (data : Bytes) (digest : Option Bytes)
    : Except CodecError Json := do
  need (data.length ≤ maxEnvelope) "unsupported schema, bytes type or envelope size"
  let value ← loads data
  scalar (.ofJson value) 0
  shape value (schemaShape name)
  rules value
  let written ← canonical (.ofJson value)
  need (written = data) "noncanonical envelope bytes"
  need (∀ given ∈ digest, given = digestOf sha256 name data) "envelope digest mismatch"
  .ok value

/-- The inventory digest of `detection-batch`, from the envelope that `encode_envelope` builds. -/
def semanticInventory (sha256 : Bytes → Bytes) (value : Json) : Except CodecError Unit := do
  let inventory : Json := .record [("schema", .str EnvelopeName.occurrenceInventory.schemaText),
    ("occurrences", value.get "occurrences")]
  let data ← canonical (.ofJson inventory)
  let digest := digestOf sha256 .occurrenceInventory data
  let _ ← decodeBy semanticRows sha256 .occurrenceInventory data (some digest)
  need (value.get "inventory_digest" = .str (hex digest)) "occurrence inventory digest mismatch"

/-- `_semantic`, by the name of the envelope. -/
def semantic (sha256 : Bytes → Bytes) (name : EnvelopeName) (value : Json)
    : Except CodecError Unit :=
  match name with
  | .retryPolicy => semanticRetry value
  | .request => do
      semanticRetry (value.get "retry_policy")
      semanticPolicy (value.get "identity_policy")
  | .plannedPolicy => do
      semanticPolicy (value.get "identity_policy")
      semanticBindings value
  | .workPayload => do
      semanticPolicy (value.get "policy")
      semanticWork value
  | .sourceInventory => semanticFiles value
  | .scanSeal => do
      unique (value.get "intended_files").items "intended file"
      semanticBindings value
  | .occurrenceInventory => semanticRows value
  | .detectionBatch => do
      semanticRows value
      semanticCoverage value
      semanticInventory sha256 value
  | .attemptResult => semanticResult value
  | .acceptedContent | .attemptPolicy | .runInput | .runFailure | .leaseRelease | .cancellation
  | .retirement => .ok ()

/-- `decode_envelope`. -/
def decodeEnvelope (sha256 : Bytes → Bytes) (name : Text) (data : Bytes) (digest : Option Bytes)
    : Except CodecError Json :=
  match EnvelopeName.ofText name with
  | some known => decodeBy (semantic sha256 known) sha256 known data digest
  | none => .error (.envelope "unsupported schema, bytes type or envelope size")

/-- `CanonicalEnvelope`, with the value that `__post_init__` and its property read. -/
structure CanonicalEnvelope (sha256 : Bytes → Bytes) where
  name : Text
  data : Bytes
  digest : Bytes
  value : Json
  decoded : decodeEnvelope sha256 name data (some digest) = .ok value

/-- `CanonicalEnvelope(name, data, digest)`. -/
def CanonicalEnvelope.of (sha256 : Bytes → Bytes) (name : Text) (data digest : Bytes)
    : Except CodecError (CanonicalEnvelope sha256) :=
  match decoded : decodeEnvelope sha256 name data (some digest) with
  | .ok value => .ok { name, data, digest, value, decoded }
  | .error raised => .error raised

/-- `encode_envelope`. -/
def encodeEnvelope (sha256 : Bytes → Bytes) (name : Text) (object : PyObject)
    : Except CodecError (CanonicalEnvelope sha256) := do
  let data ← canonical object.value
  demand (name.all fun point => point.val < 0x80) (.passed .unicodeEncodeError)
  let digest := sha256 ((py envelopePrefix ++ name ++ py "/1\n").utf8 ++ data)
  CanonicalEnvelope.of sha256 name data digest

end Scanipy.Services.Scan.OccurrenceStore.Codec

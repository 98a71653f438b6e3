import Scanipy.Db.EnvelopeSchemas
import Scanipy.Python.Patterns
import Scanipy.Python.Utf8
import Scanipy.Python.Uuid

/-! The storage protocol inside the database: how `v1_envelope` reads an envelope.
A `json` value is its tree: PostgreSQL keeps the text, but every function here reads it through
the type of a value, its members and items in order, and the text of its scalars.
-/

namespace Scanipy.Db.Execution

open Library Python Services.Scan.OccurrenceStore

/-- What ends a transaction: a `RAISE` with its reason, or an error of the server. -/
inductive SqlError where
  | raised (reason : String)
  | invalidByteSequence
  | invalidJson
  | untranslatableCharacter
  | numericValueOutOfRange
  | uniqueViolation (constraint : String)
  | foreignKeyViolation (constraint : String)
  | noDataFound
  | notNullViolation (column : String)
  | checkViolation (constraint : String)
  deriving DecidableEq, Repr

/-- `v1_require`; a condition that is NULL does not hold. -/
def require (condition : Prop) [Decidable condition] (reason : String) : Except SqlError Unit :=
  demand condition (.raised reason)

@[simp]
theorem require_ok_iff {condition : Prop} [Decidable condition] {reason : String} {value : Unit}
    : require condition reason = .ok value ↔ condition :=
  demand_ok

/-- `original::json`. Number tokens with a fraction or an exponent, which the type admits, are
refused by `v1_canonical` wherever they stand and are left out here.
-/
def parseJson (original : Text) : Except SqlError Json :=
  Json.loads (fun members => .ok members) .invalidJson original

/-- `json_typeof`. -/
inductive JsonType where
  | null
  | boolean
  | number
  | string
  | array
  | object
  deriving DecidableEq

def jsonTypeof : Json → JsonType
  | .null => .null
  | .bool _ => .boolean
  | .int _ => .number
  | .str _ => .string
  | .arr _ => .array
  | .obj _ => .object

/-- A string as `text`: neither a NUL nor a lone surrogate can be extracted. -/
def Extractable (text : Text) : Prop :=
  ∀ point ∈ text, point.val ≠ 0 ∧ ¬point.IsSurrogate

instance (text : Text) : Decidable (Extractable text) :=
  List.decidableBAll (fun point : CodePoint => point.val ≠ 0 ∧ ¬point.IsSurrogate) text

/-- `v#>>'\x7b\x7d'` of a string. -/
def extract (text : Text) : Except SqlError Text := do
  demand (Extractable text) .untranslatableCharacter
  .ok text

mutual

/-- `v1_canonical`. The members are written first and sorted by key after, which fails for the
same values as sorting them first.
-/
def canonical (value : Json) (depth : Nat) : Except SqlError Text := do
  require (depth ≤ maxDepth) "envelope nesting exceeds 32"
  match value with
  | .obj members => do
      let written ← canonicalMembers members (depth + 1)
      let ordered := sortedBy Prod.fst written
      require ((ordered.map Prod.fst).Nodup) "duplicate JSON key"
      .ok (py "\x7b"
        ++ Json.commaSeparated (ordered.map fun member => Json.quote member.1 ++ py ":" ++ member.2)
        ++ py "\x7d")
  | .arr items => do
      let written ← canonicalItems items (depth + 1)
      .ok (py "[" ++ Json.commaSeparated written ++ py "]")
  | .str text => do
      let text ← extract text
      .ok (Json.quote text)
  | .int token => do
      require ((Json.numeral token).length ≤ 20) "unsupported integer token"
      demand (-(2 ^ 63) ≤ token ∧ token < 2 ^ 63) .numericValueOutOfRange
      .ok (Json.numeral token)
  | .bool true => .ok (py "true")
  | .bool false => .ok (py "false")
  | .null => .ok (py "null")

def canonicalItems : List Json → Nat → Except SqlError (List Text)
  | [], _ => .ok []
  | item :: rest, depth => do
      let head ← canonical item depth
      let tail ← canonicalItems rest depth
      .ok (head :: tail)

def canonicalMembers : List (Text × Json) → Nat → Except SqlError (List (Text × Text))
  | [], _ => .ok []
  | (key, value) :: rest, depth => do
      let key ← extract key
      let head ← canonical value depth
      let tail ← canonicalMembers rest depth
      .ok ((key, head) :: tail)

end

/-- `v1_bytes`. -/
def bytesOf (value : Json) : Except SqlError Bytes := do
  let text ← canonical value 0
  .ok text.utf8

/-- `v1_digest`; `sha256` is the function of the server. -/
def digestOf (sha256 : Bytes → Bytes) (name : EnvelopeName) (data : Bytes) : Bytes :=
  sha256 (name.schemaText.utf8 ++ pyb "\n" ++ data)

/-- The type that a scalar shape asks for. -/
def scalarType : Shape → JsonType
  | .bool => .boolean
  | .nat | .positive | .int _ _ => .number
  | _ => .string

/-- `array_agg(key ORDER BY key COLLATE "C")` on both sides: no keys at all are NULL. -/
def SameKeys (members : List (Text × Json)) (names : List String) : Prop :=
  members ≠ [] ∧ sorted (members.map Prod.fst) = sorted (names.map py)

instance (members : List (Text × Json)) (names : List String) : Decidable (SameKeys members names) :=
  inferInstanceAs (Decidable (_ ∧ _))

mutual

/-- `v1_preserved_shape`: types and keys only. -/
def preservedShape (value : Json) : Shape → Except SqlError Unit
  | .nullable inner => if value = .null then .ok () else preservedShape value inner
  | .enum _ =>
      require (jsonTypeof value = .string ∨ jsonTypeof value = .number) "invalid enum type"
  | .array item => do
      require (jsonTypeof value = .array) "expected array"
      Metered.visit (fun entry => preservedShape entry item) value.items
  | .object fields =>
      match value with
      | .obj members => do
          Metered.visit (fun member : Text × Json => (extract member.1).map fun _ => ()) members
          require (SameKeys members (fields.map Prod.fst))
            "missing, duplicate or unknown envelope field"
          preservedFields value fields
      | _ => .error (.raised "expected object")
  | scalar =>
      require (jsonTypeof value = scalarType scalar) "invalid preserved scalar type"

/-- The members, each by the shape of its key. -/
def preservedFields (value : Json) : List (String × Shape) → Except SqlError Unit
  | [] => .ok ()
  | (name, rule) :: rest => do
      preservedShape (value.get name) rule
      preservedFields value rest

end

/-- `^[0-9a-f]\x7bcount\x7d$`. -/
def isHexRun (count : Nat) (token : Text) : Bool :=
  fullmatch (List.replicate count isHex) token

/-- No part between slashes is empty or a dot name, and there is no backslash. -/
def isPath (token : Text) : Bool :=
  token ≠ [] && token.all (fun point => point.val ≠ 0x5C)
  && (token.splitOn (Fin.ofNat 0x110000 0x2F)).all
      fun part => !([[], py ".", py ".."] : List Text).contains part

/-- What `v1_shape` asks of a string. -/
def admitsText (token : Text) : Shape → Bool
  | .text => true
  | .nonempty => token ≠ []
  | .digest => isHexRun 64 token
  | .env => (py "sha256:").isPrefixOf token && isHexRun 64 (token.drop 7)
  | .commit => isHexRun 40 token && token ≠ List.replicate 40 (Fin.ofNat 0x110000 0x30)
  | .uuid => fullmatch uuidPattern token
  | .path => isPath token
  | _ => false

/-- An integer between two bounds. -/
def integerShape (value : Json) (rule : Shape) (low high : Int) : Except SqlError Unit :=
  match value with
  | .int token => require (low ≤ token ∧ token ≤ high) ("invalid " ++ specOf rule ++ " value")
  | _ => .error (.raised "expected integer")

/-- A string, or the error of its kind. -/
def textShape (value : Json) (rule : Shape) : Except SqlError Unit :=
  match value with
  | .str token =>
      require (admitsText token rule = true) ("invalid " ++ specOf rule ++ " value")
  | _ => .error (.raised ("invalid " ++ specOf rule ++ " value"))

mutual

/-- `v1_shape`. -/
def shape (value : Json) : Shape → Except SqlError Unit
  | .nullable inner => if value = .null then .ok () else shape value inner
  | .enum values => require (value ∈ values) "invalid enum"
  | .array item => do
      require (jsonTypeof value = .array) "expected array"
      Metered.visit (fun entry => shape entry item) value.items
  | .object fields =>
      match value with
      | .obj members => do
          require (SameKeys members (fields.map Prod.fst)) "missing or unknown envelope field"
          shapeFields value fields
      | _ => .error (.raised "expected object")
  | .bool => require (jsonTypeof value = .boolean) "invalid bool value"
  | .nat => integerShape value .nat 0 (2 ^ 63 - 1)
  | .positive => integerShape value .positive 1 (2 ^ 63 - 1)
  | .int low high => integerShape value (.int low high) low high
  | rule => textShape value rule

/-- The members of an object, field by field. -/
def shapeFields (value : Json) : List (String × Shape) → Except SqlError Unit
  | [] => .ok ()
  | (name, rule) :: rest => do
      shape (value.get name) rule
      shapeFields value rest

end

-- Rules between fields

/-- `v1_unique`. -/
def unique (values : List Json) (label : String) : Except SqlError Unit :=
  require values.Nodup ("duplicate " ++ label)

/-- `v1_location`. -/
def checkLocation (value : Json) : Except SqlError Unit := do
  let startLine := value.get "start_line"
  let startColumn := value.get "start_column"
  let endLine := value.get "end_line"
  let endColumn := value.get "end_column"
  let expected :=
    if value.get "path" ≠ .null ∧ startLine ≠ .null then "known"
    else if value.get "path" ≠ .null ∨ startLine ≠ .null ∨ startColumn ≠ .null ∨ endLine ≠ .null
        ∨ endColumn ≠ .null then "partial"
    else "unknown"
  require (value.get "status" = .str (py expected)) "location status contradicts evidence"
  require ((startColumn = .null ∨ startLine ≠ .null) ∧ (endColumn = .null ∨ endLine ≠ .null))
    "column requires observed line"
  require (endLine = .null ∨ startLine ≠ .null ∧ startLine.integer ≤ endLine.integer)
    "end requires observed ordered start"
  require (endLine ≠ startLine ∨ endColumn = .null
      ∨ startColumn ≠ .null ∧ startColumn.integer ≤ endColumn.integer)
    "same-line end requires observed ordered start column"

/-- `initial_backoff_seconds` against `max_backoff_seconds`. -/
def checkRetry (retry : Json) : Except SqlError Unit :=
  require ((retry.get "initial_backoff_seconds").integer ≤ (retry.get "max_backoff_seconds").integer)
    "initial backoff exceeds maximum"

def checkPolicy (policy : Json) : Except SqlError Unit :=
  require (policy.get "mode" ≠ .str (py "not-applicable") ∨ policy.get "reason" ≠ .null)
    "not-applicable requires policy reason"

def checkBinding (binding : Json) : Except SqlError Unit := do
  require ((binding.get "engines").items ≠ [] ∧ (binding.get "rules").items ≠ [])
    "binding requires engines and rules"
  unique (binding.get "engines").items "engine"
  unique ((binding.get "rules").items.map (·.get "rule_id")) "rule"

def checkBindings (value : Json) : Except SqlError Unit := do
  unique ((value.get "bindings").items.map (·.get "key")) "binding key"
  Metered.visit checkBinding (value.get "bindings").items

/-- The occurrences in the order of the tool. -/
def checkOccurrences (value : Json) : Except SqlError Unit := do
  let occurrences := (value.get "occurrences").items
  require (occurrences.length ≤ maxCount) "occurrence count limit"
  unique (occurrences.map fun item => .arr [item.get "result_key", item.get "duplicate_ordinal"])
    "occurrence key"
  Metered.visit
    (fun entry : Json × Nat => do
      require ((entry.1.get "tool_ordinal").integer = entry.2) "tool ordinal order"
      checkLocation (entry.1.get "location"))
    occurrences.zipIdx

/-- The inventory that a batch is bound to. -/
def occurrenceInventory (value : Json) : Json :=
  .record [("schema", .str EnvelopeName.occurrenceInventory.schemaText),
    ("occurrences", value.get "occurrences")]

def checkBatch (sha256 : Bytes → Bytes) (value : Json) : Except SqlError Unit := do
  let coverage := value.get "coverage"
  unique (coverage.get "files").items "covered file"
  unique (coverage.get "rules").items "covered rule"
  require (value.get "status" ≠ .str (py "completed")
      ∨ coverage.get "status" = .str (py "complete") ∧ (coverage.get "errors").items = [])
    "completed run requires complete coverage"
  let inventory ← bytesOf (occurrenceInventory value)
  require (value.get "inventory_digest"
      = .str (hex (digestOf sha256 .occurrenceInventory inventory)))
    "inventory digest mismatch"

/-- A descriptor asserts evidence exactly when it is completed. -/
def checkDescriptor (descriptor : Json) : Except SqlError Unit :=
  let evidence := [descriptor.get "digest", descriptor.get "fingerprint_class",
    descriptor.get "namespace"]
  if descriptor.get "status" = .str (py "completed") then
    require (∀ value ∈ evidence, value ≠ .null) "completed artifact requires independent evidence"
  else
    require (∀ value ∈ evidence, value = .null) "uncomputed artifact cannot assert evidence"

def checkIdentity (identity : Json) : Except SqlError Unit :=
  if identity = .null then .ok ()
  else Metered.visit checkDescriptor [identity.get "cpg_order", identity.get "slice"]

def checkResult (value : Json) : Except SqlError Unit := do
  unique (value.get "completed_run_ids").items "completed run ID"
  checkIdentity (value.get "identity")
  require (value.get "status" ≠ .str (py "completed")
      ∨ value.get "retryable" = .bool false ∧ value.get "error" = .null)
    "completed attempt cannot retry/error"
  require (value.get "status" ≠ .str (py "failed") ∨ value.get "error" ≠ .null)
    "failed attempt requires error"

/-- `v1_semantic`, by the name of the envelope. -/
def checkSemantic (sha256 : Bytes → Bytes) (name : EnvelopeName) (value : Json)
    : Except SqlError Unit :=
  match name with
  | .retryPolicy => checkRetry value
  | .request => do
      checkRetry (value.get "retry_policy")
      checkPolicy (value.get "identity_policy")
  | .plannedPolicy => do
      checkPolicy (value.get "identity_policy")
      checkBindings value
  | .workPayload => do
      checkPolicy (value.get "policy")
      require (value.get "kind" = .str (py "identity") ↔ value.get "occurrence_id" ≠ .null)
        "work kind and occurrence disagree"
  | .sourceInventory => do
      let paths := (value.get "files").items.map fun file => (file.get "path").chars
      unique (paths.map .str) "file path"
      require (paths = sorted paths) "inventory paths must be sorted"
  | .scanSeal => do
      unique (value.get "intended_files").items "intended file"
      checkBindings value
  | .occurrenceInventory => checkOccurrences value
  | .detectionBatch => do
      checkOccurrences value
      checkBatch sha256 value
  | .attemptResult => checkResult value
  | .acceptedContent | .attemptPolicy | .runInput | .runFailure | .leaseRelease | .cancellation
  | .retirement => .ok ()

/-- `convert_from(data,'UTF8')`: a NUL byte is no character of a `text`. -/
def convertFrom (data : Bytes) : Except SqlError Text :=
  match Text.decode data with
  | some text =>
      if text.all fun point => point.val ≠ 0 then .ok text else .error .invalidByteSequence
  | none => .error .invalidByteSequence

/-- `v1_envelope` of a known schema. -/
def envelope (sha256 : Bytes → Bytes) (name : EnvelopeName) (data digest : Bytes)
    : Except SqlError Json := do
  require (data.length ≤ maxEnvelope) "envelope size"
  let original ← convertFrom data
  let parsed ← parseJson original
  preservedShape parsed (schemaShape name)
  let text ← canonical parsed 0
  require (text = original) "noncanonical envelope bytes"
  require (digest = digestOf sha256 name data) "envelope digest mismatch"
  shape parsed (schemaShape name)
  checkSemantic sha256 name parsed
  .ok parsed

/-- `v1_envelope`. -/
def envelopeNamed (sha256 : Bytes → Bytes) (name : Text) (data digest : Bytes)
    : Except SqlError Json :=
  match EnvelopeName.ofText name with
  | some known => envelope sha256 known data digest
  | none => .error (.raised "unsupported envelope schema")

end Scanipy.Db.Execution

import Scanipy.Analysis.Ifds.RuleKey
import Scanipy.Services.Scan.AcceptedInputs.Records
import Scanipy.Tools.Worker.Journal.Values

/-! Runtime request packets: the closed document of a request and its canonical bytes. -/

namespace Scanipy.Tools.Worker.RuntimePackets

open Analysis.Ifds (BoundRuleError JsonLimits QualifiedRuleKey decodeBoundedJson
  decodeQualifiedRuleKey)
open Library Python
open Services.Scan.AcceptedInputs (AdmissionExpectation BundleExpectation ExecutionBinding
  VerificationError canonicalBytes)
open Journal (Stored freeze)

/-- `RuntimePacketError`, by its reason. -/
inductive RuntimePacketError where
  | invalidInput
  | limit
  | unsupported
  | linkMismatch
  deriving DecidableEq, Repr

/-- `_MAX_BYTES`. -/
def maxBytes : Nat := 65536

/-- `_MAX_VALUES`. -/
def maxValues : Nat := 8192

/-- `_MAX_DEPTH`. -/
def maxDepth : Nat := 16

/-- `_owner_error` for an error of the rule codec. -/
def ownerError : BoundRuleError → RuntimePacketError
  | .byteLimit | .depthLimit | .valueLimit | .stringLimit => .limit
  | _ => .invalidInput

/-- What the rule codec raises, as the caller reports it. -/
def ofRules {α : Type} : Except BoundRuleError α → Except RuntimePacketError α
  | .ok value => .ok value
  | .error raised => .error (ownerError raised)

/-- What the accepted-input codec raises, as the caller reports it. -/
def ofAccepted {α : Type} : Except VerificationError α → Except RuntimePacketError α
  | .ok value => .ok value
  | .error _ => .error .invalidInput

/-- `_text` once the type is known. -/
def checkText (characters : Text) (maximum : Nat) : Except RuntimePacketError Unit := do
  demand (characters.length ≤ maximum) .limit
  demand (characters.all fun point => point.val ≠ 0) .invalidInput
  demand characters.Encodable .invalidInput
  demand (characters.utf8.length ≤ maximum) .limit

/-- `_text`. -/
def needText (value : Json) (maximum : Nat) : Except RuntimePacketError Text :=
  match value with
  | .str characters => do
      checkText characters maximum
      .ok characters
  | _ => .error .invalidInput

/-- A text within a limit that a test admits. -/
def needMatch (value : Json) (maximum : Nat) (admits : Text → Bool)
    : Except RuntimePacketError Text := do
  let characters ← needText value maximum
  demand (admits characters = true) .invalidInput
  .ok characters

/-- `_integer`. -/
def needInteger (value : Json) (minimum maximum : Int) : Except RuntimePacketError Int :=
  match value with
  | .int number => do
      demand (minimum ≤ number ∧ number ≤ maximum) .invalidInput
      .ok number
  | _ => .error .invalidInput

/-- `2**63 - 1`. -/
def maxInteger : Int := 9223372036854775807

/-- `_id`. -/
def needId (value : Json) : Except RuntimePacketError Text :=
  needMatch value 128
    (startsWith isAlphanumeric fun point => isAlphanumeric point || isMark "._:/-" point)

/-- `_uuid`. -/
def needUuid (value : Json) : Except RuntimePacketError Text :=
  needMatch value 36 fun characters => (Uuid.ofText characters).isSome

/-- `_hex`. -/
def needHex (value : Json) : Except RuntimePacketError Text :=
  needMatch value 64 (fullmatch hexPattern)

/-- `_utc`. -/
def needUtc (value : Json) : Except RuntimePacketError Datetime := do
  let characters ← needMatch value 27 (fullmatch utcPattern)
  match Datetime.ofText characters true with
  | some moment => .ok moment
  | none => .error .invalidInput

/-- `_path(value, relative=True)`. -/
def needRelativePath (value : Json) : Except RuntimePacketError Text := do
  let characters ← needText value 1024
  demand (characters.all fun point =>
    point.val ≠ 0x5C && 32 ≤ point.val && !between 127 159 point) .invalidInput
  demand ((py "/").isPrefixOf characters = false) .invalidInput
  let parts := characters.splitOn (Fin.ofNat 0x110000 0x2F)
  demand (parts.all fun part => !([[], py ".", py ".."] : List Text).contains part) .invalidInput
  demand (parts.length ≤ 32) .limit
  .ok characters

/-- `_keys`. -/
def needKeys (value : Json) (names : List String) : Except RuntimePacketError Unit :=
  match value with
  | .obj members => demand (HasKeys members names) .invalidInput
  | _ => .error .invalidInput

/-- `_bytes`. -/
def needBytes (data : Bytes) (maximum : Nat) : Except RuntimePacketError Unit :=
  demand (0 < data.length ∧ data.length ≤ maximum) .limit

-- The request document

/-- The members of `_MODES`. -/
inductive Mode where
  | publication
  | historical
  | execution
  | python
  deriving DecidableEq, Repr

/-- `_mode`. -/
def needMode (value : Json) : Except RuntimePacketError Mode := do
  let characters ← needText value 32
  if characters = py "verifier-publication" then .ok .publication
  else if characters = py "verifier-historical" then .ok .historical
  else if characters = py "verifier-execution" then .ok .execution
  else if characters = py "python-syntax" then .ok .python
  else .error .unsupported

/-- The member of `_ACTIONS` for a mode. -/
def Mode.action : Mode → String
  | .publication => "publish-builtin-preflight"
  | .historical => "audit-historical"
  | .execution => "verify-execution"
  | .python => "parse-python"

/-- `_REQUEST_KEYS`. -/
def requestKeys : List String :=
  ["schema", "operation_id", "mode", "deployment_id", "installation_id", "installation_generation",
    "controller_profile_sha256", "domain_profile_sha256", "input", "binding", "prerequisite"]

/-- `_PREREQUISITE_KEYS`. -/
def prerequisiteKeys : List String :=
  ["schema", "reader_id", "observation_id", "observed_at", "valid_until", "principal_id", "org_id",
    "action", "authentication_evidence_sha256", "scope_evidence_sha256", "admission",
    "execution_authorization_digest", "capture_lease_evidence_sha256",
    "content_verification_evidence_sha256"]

/-- The keys of a source. -/
def sourceKeys : List String :=
  ["capture_id", "source_tree_algorithm", "source_tree_digest", "inventory_sha256", "path", "size",
    "sha256"]

/-- `_input`. -/
def checkInput (value : Json) (mode : Mode) : Except RuntimePacketError Unit := do
  needKeys value ["size", "sha256", "protocol"]
  let _ ← needInteger (value.get "size") 1 (if mode = .python then 263244 else 2621440)
  let _ ← needHex (value.get "sha256")
  let protocol ← needId (value.get "protocol")
  demand (protocol = py (if mode = .python then "scanipy-python-syntax-request/1"
    else "scanipy-accepted-verifier-request/1")) .unsupported

/-- The members of a prerequisite that do not depend on the binding: when it ends. -/
def checkPrerequisite (value : Json) (mode : Mode) : Except RuntimePacketError Datetime := do
  demand (value.get "schema" = .str (py "scanipy-local-launch-prerequisite/1")) .unsupported
  let _ ← Metered.collect (fun name => needId (value.get name)) ["reader_id", "principal_id", "action"]
  let _ ← Metered.collect (fun name => needUuid (value.get name)) ["observation_id", "org_id"]
  let _ ← Metered.collect (fun name => needHex (value.get name))
    ["authentication_evidence_sha256", "scope_evidence_sha256"]
  let observed ← needUtc (value.get "observed_at")
  let valid ← needUtc (value.get "valid_until")
  demand (observed.micros < valid.micros ∧ valid.micros ≤ observed.micros + 60 * 1000000)
    .invalidInput
  demand (value.get "action" = .str (py mode.action)) .linkMismatch
  .ok valid

/-- `str(value)` of an optional identifier. -/
def optionalText (value : Option Uuid) : Text :=
  (value.map Uuid.text).getD (py "None")

/-- The bundle of a binding, in the scope of the prerequisite. -/
def checkBundle (value organization : Json) : Except RuntimePacketError BundleExpectation := do
  let bundle ← ofAccepted (BundleExpectation.decode value)
  demand (bundle.scope = py "customer" ∧ bundle.orgId.isSome = true) .unsupported
  demand (organization = .str (optionalText bundle.orgId)) .linkMismatch
  .ok bundle

/-- The admission of a prerequisite: none in a historical request. -/
def checkAdmission (value : Json) (mode : Mode) : Except RuntimePacketError Unit :=
  if mode = .historical then
    demand (value = .null) .invalidInput
  else do
    demand (value ≠ .null) .invalidInput
    let _ ← ofAccepted (AdmissionExpectation.decode value)
    .ok ()

/-- The rule that a request selects belongs to the bundle. -/
def checkRuleKey (key : QualifiedRuleKey) (bundle : BundleExpectation)
    : Except RuntimePacketError Unit :=
  demand (key.registryId = bundle.registryId.text ∧ key.bundleId = bundle.bundleId.text
    ∧ key.scope = bundle.scope ∧ key.orgId = some (optionalText bundle.orgId)
    ∧ key.sVersion = bundle.sVersion
    ∧ key.acceptedContentDigest = bundle.acceptedContentDigest) .linkMismatch

/-- The execution of a binding that runs a rule. -/
def checkExecution (value rule : Json) (bundle : BundleExpectation) (valid : Datetime)
    : Except RuntimePacketError ExecutionBinding := do
  demand (value ≠ .null ∧ rule ≠ .null) .invalidInput
  let execution ← ofAccepted (ExecutionBinding.decode value)
  let written ← ofAccepted (canonicalBytes rule 16384)
  let key ← ofRules (decodeQualifiedRuleKey written)
  demand (some execution.orgId = bundle.orgId) .linkMismatch
  checkRuleKey key bundle
  let lease ← needUtc (.str execution.leaseExpiresAt)
  let capture ← needUtc (.str execution.captureLeaseExpiresAt)
  demand (valid.micros ≤ (lease.earlier capture).micros) .linkMismatch
  .ok execution

/-- The execution of a binding, where the mode has one. -/
def checkRun (value rule : Json) (bundle : BundleExpectation) (valid : Datetime) (mode : Mode)
    : Except RuntimePacketError (Option ExecutionBinding) :=
  match mode with
  | .publication | .historical => do
      demand (value = .null ∧ rule = .null) .invalidInput
      .ok none
  | .execution | .python => do
      let execution ← checkExecution value rule bundle valid
      .ok (some execution)

/-- A captured source file. -/
def checkSourceFile (value : Json) (execution : Option ExecutionBinding)
    : Except RuntimePacketError Unit := do
  needKeys value sourceKeys
  let _ ← needUuid (value.get "capture_id")
  let _ ← needId (value.get "source_tree_algorithm")
  let _ ← Metered.collect (fun name => needHex (value.get name))
    ["source_tree_digest", "inventory_sha256", "sha256"]
  let _ ← needRelativePath (value.get "path")
  let _ ← needInteger (value.get "size") 0 262144
  demand (some (value.get "capture_id")
    = execution.map fun execution => Json.str execution.captureId.text) .linkMismatch

/-- The source of a binding: none but for a parse. -/
def checkSource (value : Json) (execution : Option ExecutionBinding) (mode : Mode)
    : Except RuntimePacketError Unit :=
  if mode = .python then checkSourceFile value execution
  else demand (value = .null) .invalidInput

/-- A digest that stands just where it is expected. -/
def checkEvidence (value : Json) (present : Bool) : Except RuntimePacketError Unit :=
  if present then do
    let _ ← needHex value
    .ok ()
  else
    demand (value = .null) .invalidInput

/-- The evidence of a prerequisite, by mode. -/
def checkEvidences (value : Json) (execution : Option ExecutionBinding) (mode : Mode)
    : Except RuntimePacketError Unit := do
  checkEvidence (value.get "execution_authorization_digest") (mode = .execution ∨ mode = .python)
  checkEvidence (value.get "capture_lease_evidence_sha256") (mode = .execution ∨ mode = .python)
  checkEvidence (value.get "content_verification_evidence_sha256") (mode = .python)
  Metered.visit (fun execution : ExecutionBinding =>
      demand (value.get "execution_authorization_digest" = .str execution.authorizationDigest)
        .linkMismatch)
    execution.toList

/-- `_request`. -/
def checkRequest (value : Json) : Except RuntimePacketError Unit := do
  needKeys value requestKeys
  demand (value.get "schema" = .str (py "scanipy-local-runtime-request/1")) .unsupported
  let mode ← needMode (value.get "mode")
  let _ ← Metered.collect (fun name => needUuid (value.get name))
    ["operation_id", "deployment_id", "installation_id"]
  let _ ← needInteger (value.get "installation_generation") 1 maxInteger
  let _ ← Metered.collect (fun name => needHex (value.get name))
    ["controller_profile_sha256", "domain_profile_sha256"]
  checkInput (value.get "input") mode
  let binding := value.get "binding"
  needKeys binding ["bundle", "execution", "qualified_rule", "source"]
  let prerequisite := value.get "prerequisite"
  needKeys prerequisite prerequisiteKeys
  let valid ← checkPrerequisite prerequisite mode
  let bundle ← checkBundle (binding.get "bundle") (prerequisite.get "org_id")
  checkAdmission (prerequisite.get "admission") mode
  let execution ← checkRun (binding.get "execution") (binding.get "qualified_rule") bundle valid mode
  checkSource (binding.get "source") execution mode
  checkEvidences prerequisite execution mode

/-- A `RuntimePacket` of a request. -/
structure RequestPacket where
  data : Bytes
  document : Stored

/-- The limits of `_decode`. -/
def packetLimits : JsonLimits :=
  ⟨maxBytes, maxDepth, maxValues, 8192⟩

/-- `type(value) is dict`. -/
def IsDict : Json → Prop
  | .obj _ => True
  | _ => False

instance (value : Json) : Decidable (IsDict value) :=
  match value with
  | .obj _ => isTrue trivial
  | .null | .bool _ | .int _ | .str _ | .arr _ => isFalse id

/-- `_decode`. -/
def decodePacket (data : Bytes) : Except RuntimePacketError Json := do
  needBytes data maxBytes
  let value ← ofRules (decodeBoundedJson data packetLimits)
  demand (IsDict value) .invalidInput
  let written ← ofAccepted (canonicalBytes value maxBytes)
  demand (written = data) .invalidInput
  .ok value

/-- `decode_runtime_request`. -/
def decodeRuntimeRequest (data : Bytes) : Except RuntimePacketError RequestPacket := do
  let value ← decodePacket data
  checkRequest value
  .ok { data := data, document := freeze value }

-- Writing

/-- The bytes that `_string_cost` counts for a character. -/
def characterCost (point : CodePoint) : Nat :=
  if point.val ∈ [0x5C, 0x22, 0x08, 0x0C, 0x0A, 0x0D, 0x09] then 2
  else if point.val < 32 then 6
  else if point.val < 128 then 1
  else if point.val < 2048 then 2
  else if point.val < 65536 then 3
  else 4

/-- `_string_cost`. -/
def stringCost (characters : Text) : Except RuntimePacketError Nat := do
  checkText characters 8192
  .ok (2 + (characters.map characterCost).sum)

/-- The rows of an object: a key and a value each, the keys strictly increasing. The items to
visit come in the order in which they are pushed.
-/
def objectRows (depth : Nat) : Option Text → List Stored
    → Except RuntimePacketError (List (Stored × Nat))
  | _, [] => .ok []
  | previous, .tuple [.str key, child] :: rest => do
      checkText key 4096
      demand (∀ earlier ∈ previous, earlier < key) .invalidInput
      let parts ← objectRows depth (some key) rest
      .ok ((.str key, depth) :: (child, depth) :: parts)
  | _, _ :: _ => .error .invalidInput

/-- The rows of a container by its tag: what is pushed, and the bytes of its own. -/
def containerRows (remaining pending depth : Nat) (tag : Text) (rows : List Stored)
    : Except RuntimePacketError (List (Stored × Nat) × Nat) :=
  if tag = py "object" then do
    demand (pending + 2 * rows.length ≤ remaining) .limit
    let parts ← objectRows (depth + 1) Option.none rows
    .ok (parts, 2 + (rows.length - 1) + rows.length)
  else do
    demand (pending + rows.length ≤ remaining) .limit
    .ok (rows.map fun row => (row, depth + 1), 2 + (rows.length - 1))

/-- A tuple: a tag, and a tuple of rows. -/
def tupleRows (remaining pending depth : Nat) (items : List Stored)
    : Except RuntimePacketError (List (Stored × Nat) × Nat) :=
  match items with
  | [.str tag, body] => do
      demand (tag = py "object" ∨ tag = py "array") .invalidInput
      demand (depth < maxDepth) .limit
      match body with
      | .tuple rows => containerRows remaining pending depth tag rows
      | _ => .error .invalidInput
  | _ => .error .invalidInput

/-- An item of the walk: what it pushes, and the bytes of its own. -/
def writerItem (remaining pending depth : Nat)
    : Stored → Except RuntimePacketError (List (Stored × Nat) × Nat)
  | .tuple items => tupleRows remaining pending depth items
  | .str characters => do
      let cost ← stringCost characters
      .ok ([], cost)
  | .bool value => .ok ([], if value then 4 else 5)
  | .int value => do
      let number ← needInteger (.int value) (-9223372036854775808) maxInteger
      .ok ([], (Json.numeral number).length)
  | .none => .ok ([], 4)

/-- The loop of `_writer_document`: every round counts one value, so the count that is left
decreases.
-/
def writerLoop : Nat → List (Stored × Nat) → Nat → Except RuntimePacketError Unit
  | _, [], _ => .ok ()
  | 0, _ :: _, _ => .error .limit
  | remaining + 1, (item, depth) :: pending, encoded => do
      let (parts, written) ← writerItem remaining pending.length depth item
      demand (encoded + written ≤ maxBytes) .limit
      writerLoop remaining (parts.reverse ++ pending) (encoded + written)

mutual

/-- `project`: the value of a frozen value that the walk has accepted. -/
def project : Stored → Json
  | .none => .null
  | .bool value => .bool value
  | .int value => .int value
  | .str value => .str value
  | .tuple [.str tag, .tuple rows] =>
      if tag = py "object" then .obj (projectMembers rows) else .arr (projectItems rows)
  | .tuple _ => .null

def projectItems : List Stored → List Json
  | [] => []
  | row :: rest => project row :: projectItems rest

def projectMembers : List Stored → List (Text × Json)
  | [] => []
  | .tuple [.str key, child] :: rest => (key, project child) :: projectMembers rest
  | _ :: rest => projectMembers rest

end

/-- The document is a frozen object. -/
def IsStoredObject : Stored → Prop
  | .tuple (.str tag :: _) => tag = py "object"
  | _ => False

instance (stored : Stored) : Decidable (IsStoredObject stored) :=
  match stored with
  | .tuple (.str tag :: _) => inferInstanceAs (Decidable (tag = py "object"))
  | .tuple [] | .tuple (.none :: _) | .tuple (.bool _ :: _) | .tuple (.int _ :: _)
  | .tuple (.tuple _ :: _) | .none | .bool _ | .int _ | .str _ => isFalse id

/-- `_writer_document`. -/
def writerDocument (document : Stored) : Except RuntimePacketError Json := do
  writerLoop maxValues [(document, 0)] 0
  demand (IsStoredObject document) .invalidInput
  .ok (project document)

/-- `encode_runtime_request`. -/
def encodeRuntimeRequest (document : Stored) : Except RuntimePacketError Bytes := do
  let value ← writerDocument document
  checkRequest value
  ofAccepted (canonicalBytes value maxBytes)

end Scanipy.Tools.Worker.RuntimePackets

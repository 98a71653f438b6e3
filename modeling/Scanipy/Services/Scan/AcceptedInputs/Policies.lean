import Scanipy.Library.Charges
import Scanipy.Services.Scan.AcceptedInputs.Records

/-! The trust policies of a namespace. The administrator's path admits one signed policy after
another and checks each against the one before it; a verifier compares a sealed policy with a
current one that may be any number of revisions later.
-/

namespace Scanipy.Services.Scan.AcceptedInputs

open Library Python

/-- An RSA public key that was loaded. -/
structure RsaPublicKey where
  keySize : Nat
  exponent : Nat
  /-- `public_bytes` of the key, in DER. -/
  der : Bytes

/-- The functions of the cryptography library. -/
structure Cryptography where
  sha256 : Bytes → Bytes
  /-- `load_der_public_key`, where it returns an RSA key. -/
  loadDer : Bytes → Option RsaPublicKey
  /-- `verify` with the PSS padding of the profile returns for a key, a message and a signature. -/
  verifies : RsaPublicKey → Bytes → Bytes → Bool

/-- The bytes that a digest or a signature in the domain of a schema covers. -/
def inDomain (schema : SchemaId) (data : Bytes) : Bytes :=
  pyb schema.name ++ pyb "\n" ++ data

/-- `raw`: some bytes within a limit. -/
def raw (data : Bytes) (maximum : Nat) : Except VerificationError Unit :=
  demand (data ≠ [] ∧ data.length ≤ maximum) .invalidInput

/-- `_same`. -/
def same (left right : Json) (keys : List String) (code : VerificationError)
    : Except VerificationError Unit :=
  demand (∀ key ∈ keys, left.get key = right.get key) code

/-- `_namespace`. -/
def sameNamespace (left right : Json) : Except VerificationError Unit :=
  same left right ["registry_id", "scope", "org_id"] .scopeMismatch

namespace Cryptography

variable (crypto : Cryptography)

/-- `raw_digest`. -/
def rawDigest (data : Bytes) : Text :=
  hex (crypto.sha256 data)

/-- `domain_digest`. -/
def domainDigest (schema : SchemaId) (data : Bytes) : Text :=
  hex (crypto.sha256 (inDomain schema data))

/-- `_key`. -/
def key (data : Bytes) (expected : Text) (root : Bool) : Except VerificationError RsaPublicKey := do
  raw data 4096
  demand (crypto.rawDigest data = expected) (if root then .untrustedRoot else .grantDenied)
  match crypto.loadDer data with
  | none => .error .signatureInvalid
  | some key => do
      demand (key.keySize = 3072 ∧ key.exponent = 65537) .signatureInvalid
      demand (key.der = data) .signatureInvalid
      .ok key

/-- `_signature`. -/
def signature (key : RsaPublicKey) (schema : SchemaId) (data signature : Bytes)
    : Except VerificationError Unit := do
  demand (signature.length = 384) .signatureInvalid
  demand (crypto.verifies key (inDomain schema data) signature) .signatureInvalid

end Cryptography

/-- The names of the members of a dictionary. -/
def keys : Json → List Text
  | .obj members => members.map Prod.fst
  | _ => []

/-- The member of a dictionary under a name that it has. -/
def memberAt (value : Json) (key : Text) : Json :=
  match value with
  | .obj members => (Dict.get? members key).getD .null
  | _ => .null

/-- `_grant_admission_interval`. -/
def grantAdmissionInterval (grant policy : Json) : Except VerificationError Unit := do
  let validFrom ← utc (policy.get "valid_from") false
  let notBefore ← utc (grant.get "not_before") false
  demand (validFrom.micros ≤ notBefore.micros) .grantDenied
  let notAfter ← utc (grant.get "not_after") false
  let expires ← utc (policy.get "expires_at") false
  demand (notAfter.micros ≤ expires.micros) .grantDenied

/-- The names of a grant but those of its status. -/
def fixed (grant : Json) : List Text :=
  (keys grant).filter fun key => key ∉ [py "status", py "status_changed_at"]

/-- `allowed[status]`. -/
def allowed (status : Json) : List Json :=
  if status = .str (py "active") then
    [.str (py "active"), .str (py "retired"), .str (py "revoked")]
  else if status = .str (py "retired") then [.str (py "retired"), .str (py "revoked")]
  else [.str (py "revoked")]

/-- The checks of a grant and its successor. -/
def checkSuccessor (grant successor : Json) : Except VerificationError Unit := do
  demand (∀ key ∈ fixed grant, memberAt grant key = memberAt successor key) .grantDenied
  demand (successor.get "status" ∈ allowed (grant.get "status")) .grantDenied
  if successor.get "status" = grant.get "status" then
    demand (successor.get "status_changed_at" = grant.get "status_changed_at") .grantDenied
  else if grant.get "status_changed_at" ≠ .null then do
    let changed ← utc (successor.get "status_changed_at") false
    let before ← utc (grant.get "status_changed_at") false
    demand (before.micros ≤ changed.micros) .grantDenied
  else .ok ()

/-- `current.get(id)`: a dictionary keeps the last grant of an identifier. -/
def successorOf (policy : Json) (id : Json) : Option Json :=
  (policy.get "grants").items.reverse.find? fun grant => grant.get "grant_id" = id

/-- What the loop of `_policy_evolution` checks of one grant. -/
def checkRetained (policy grant : Json) : Except VerificationError Unit :=
  match successorOf policy (grant.get "grant_id") with
  | none => .error .grantDenied
  | some successor => checkSuccessor grant successor

/-- What a new grant of the next revision has to meet. -/
def checkAdded (old policy grant : Json) : Except VerificationError Unit :=
  if grant.get "grant_id" ∈ (old.get "grants").items.map fun before => before.get "grant_id" then
    .ok ()
  else grantAdmissionInterval grant policy

/-- The part of `_policy_evolution` for the next revision. -/
def checkAdjacent (crypto : Cryptography) (old : Json) (oldBytes : Bytes) (policy : Json)
    : Except VerificationError Unit :=
  if (policy.get "revision").integer = (old.get "revision").integer + 1 then do
    demand (policy.get "previous_policy_digest" = .str (crypto.domainDigest .policy oldBytes))
      .policyStale
    Metered.visit (checkAdded old policy) (policy.get "grants").items
  else .ok ()

/-- `_policy_evolution`. -/
def policyEvolution (crypto : Cryptography) (old : Json) (oldBytes : Bytes) (policy : Json)
    (bytes : Bytes)
    : Except VerificationError Unit := do
  sameNamespace old policy
  demand ((old.get "revision").integer ≤ (policy.get "revision").integer) .policyStale
  if (policy.get "revision").integer = (old.get "revision").integer then
    demand (bytes = oldBytes) .policyStale
  else do
    checkAdjacent crypto old oldBytes policy
    Metered.visit (checkRetained policy) (old.get "grants").items

/-- The counters of `_AdminWork`. -/
inductive AdminCost where
  | hashes
  | size
  | loads
  | verifies
  deriving DecidableEq

/-- Work on the administrator's private ticket. -/
abbrev AdminWork : Type → Type :=
  Charged AdminCost VerificationError

/-- `_AdminWork()`. -/
def adminWork : Meter AdminCost :=
  .start fun
    | .hashes => 100000
    | .size => 134217728
    | .loads => 8
    | .verifies => 12

/-- `reserve`. -/
def reserve (hashes size loads verifies : Nat) : AdminWork Unit := do
  Charged.charge .invalidInput .hashes hashes
  Charged.charge .invalidInput .size size
  Charged.charge .invalidInput .loads loads
  Charged.charge .invalidInput .verifies verifies

/-- `_admin_trust`: the members of the record pass their shapes, are read again, and name a
customer.
-/
def adminTrust (trust : InstalledTrust) : Except VerificationError Json := do
  shapeFields trust.recordDict (schemaFields .installedTrust)
  let snapshot ← InstalledTrust.decode trust.recordDict
  demand (snapshot.scope = py "customer") .unsupportedSchema
  .ok snapshot.recordDict

/-- A document's bytes and their signature. -/
structure Signed where
  data : Bytes
  signature : Bytes
  deriving DecidableEq

/-- `_admin_signed`. -/
def adminSigned (signed : Signed) (schema : SchemaId) : Except VerificationError Unit := do
  raw signed.data (metadataLimit schema)
  demand (signed.signature.length = 384) .signatureInvalid

namespace Cryptography

variable (crypto : Cryptography)

/-- `_AdminWork.key`. -/
def adminKey (data : Bytes) (digest : Text) (root : Bool) : AdminWork RsaPublicKey := do
  Charged.lift (raw data 4096)
  reserve 1 data.length 1 0
  Charged.lift (crypto.key data digest root)

/-- `_admin_signed_document`. -/
def adminSignedDocument (signed : Signed) (schema : SchemaId) (root : RsaPublicKey) (trust : Json)
    : AdminWork Json := do
  let document ← Charged.lift (decodeDocument signed.data schema true)
  Charged.lift (sameNamespace document trust)
  reserve 0 0 0 1
  Charged.lift (crypto.signature root schema signed.data signed.signature)
  pure document

/-- The first policy of a namespace. -/
def checkFirst (document : Json) : AdminWork Unit := do
  Charged.need ((document.get "revision").integer = 1) .policyStale
  Charged.lift (Metered.visit (grantAdmissionInterval · document) (document.get "grants").items)

/-- A policy after another. -/
def checkNext (signed prior : Signed) (root : RsaPublicKey) (trusted document : Json)
    : AdminWork Unit := do
  let old ← crypto.adminSignedDocument prior .policy root trusted
  Charged.need ((document.get "revision").integer = (old.get "revision").integer + 1) .policyStale
  reserve 1 (SchemaId.policy.name.length + 1 + prior.data.length) 0 0
  Charged.lift (policyEvolution crypto old prior.data document signed.data)

/-- The body of `verify_admin_policy`. -/
def adminPolicy (policy : Signed) (trust : InstalledTrust) (rootSpki : Bytes)
    (previous : Option Signed)
    : AdminWork Unit := do
  let trusted ← Charged.lift (adminTrust trust)
  Charged.lift (adminSigned policy .policy)
  match previous with
  | none => Charged.lift (.ok ())
  | some prior => Charged.lift (adminSigned prior .policy)
  let root ← crypto.adminKey rootSpki (trusted.get "root_spki_sha256").chars true
  let document ← crypto.adminSignedDocument policy .policy root trusted
  match previous with
  | none => checkFirst document
  | some prior => crypto.checkNext policy prior root trusted document

/-- `verify_admin_policy`. -/
def verifyAdminPolicy (policy : Signed) (trust : InstalledTrust) (rootSpki : Bytes)
    (previous : Option Signed)
    : Except VerificationError Unit :=
  (crypto.adminPolicy policy trust rootSpki previous adminWork).map fun _ => ()

end Cryptography

end Scanipy.Services.Scan.AcceptedInputs

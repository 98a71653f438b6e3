import Scanipy.Services.Scan.Provenance.Records

/-! Signing a record and verifying a signed one. A verified repartition record leads through its
parents to a record of another kind, and every record on the way has the bytes of a signed one.
The verifier looks a parent up by its id and does not compare the id of the record it finds.
-/

namespace Scanipy.Services.Scan.Provenance

open Analysis Library Python

/-- What `kms:Sign` answers: `Signature` when it is bytes, and the text of `KeyId` when there is
one.
-/
structure SignResponse where
  signature : Option Bytes
  keyId : Option Text

/-- `KMSAsymmetricSigner`. Signing is randomised, so a request may have many answers; of the
answer to `get_public_key` only `PublicKey` is read, when it is bytes.
-/
structure KMSAsymmetricSigner where
  sign : (keyId : Text) → (message : Bytes) → SignatureAlg → SignResponse → Prop
  getPublicKey : (keyId keyVersion : Text) → Option Bytes

/-- The hash of an RSASSA-PSS signature; its mask and its salt follow it. -/
inductive DigestAlgorithm where
  | sha256
  | sha384
  deriving DecidableEq, Repr

/-- A public key of the `cryptography` package. -/
inductive PublicKey (Key : Type) where
  | rsa (key : Key)
  | other

/-- The `cryptography` package: reading a key, `none` where that raises, and verifying an
RSASSA-PSS signature.
-/
structure Cryptography where
  Key : Type
  loadDerPublicKey : Bytes → Option (PublicKey Key)
  verify : Key → (signature message : Bytes) → DigestAlgorithm → Bool

/-- `ArtifactStore.fetch`. -/
abbrev ArtifactStore := Text → Option Bytes

/-- `ProvenanceStore.get`. -/
abbrev Lookup := Uuid → Option SignedProvenanceRecord

/-- `VerifyVerdict`. -/
inductive VerifyVerdict where
  | verified
  | tampered
  | keyNotFound
  | artifactMissing
  deriving DecidableEq, Repr

def digestAlgorithm : SignatureAlg → DigestAlgorithm
  | .rsassaPssSha384 => .sha384
  | .rsassaPssSha256 => .sha256

/-- `_verify_signature`. -/
def verifySignature (crypto : Cryptography) (publicKey message signature : Bytes)
    (signatureAlg : SignatureAlg)
    : Bool :=
  match crypto.loadDerPublicKey publicKey with
  | none => false
  | some .other => false
  | some (.rsa key) => crypto.verify key signature message (digestAlgorithm signatureAlg)

/-- The key under which the SARIF log of a record is stored. -/
def sarifUri (record : ProvenanceRecord) : Text :=
  py "orgs/" ++ record.orgId.text ++ py "/codebases/" ++ record.codebaseId.text ++ py "/sarif/"
  ++ record.scanId.text ++ py ".sarif.json"

/-- `_verify_artifacts`. -/
def verifyArtifacts (sha256 : Bytes → Bytes) (record : ProvenanceRecord) (artifacts : ArtifactStore)
    : VerifyVerdict :=
  match record.sarifHash with
  | none => .verified
  | some sarifHash =>
      match artifacts (sarifUri record) with
      | none => .artifactMissing
      | some blob => if sha256 blob = sarifHash then .verified else .tampered

section Verification

variable (signer : KMSAsymmetricSigner) (crypto : Cryptography) (sha256 : Bytes → Bytes)
  (artifacts : Option ArtifactStore)

/-- The first four steps of `verify_chain`, which look at one record. -/
def verifyRecord (signed : SignedProvenanceRecord) : VerifyVerdict :=
  match canonicalRecordBytes signed.record with
  | .error _ => .tampered
  | .ok canonical =>
      match signer.getPublicKey signed.kmsKeyArn signed.kmsKeyVersion with
      | none => .keyNotFound
      | some publicKey =>
          if verifySignature crypto publicKey canonical signed.signature signed.signatureAlg then
            match artifacts with
            | none => .verified
            | some artifacts => verifyArtifacts sha256 signed.record artifacts
          else .tampered

/-- `verify_chain`, which follows parents without remembering them; `none` where it has not
returned after so many calls.
-/
def verifyChain (store : Option Lookup) : Nat → SignedProvenanceRecord → Option VerifyVerdict
  | 0, _ => none
  | calls + 1, signed =>
      match verifyRecord signer crypto sha256 artifacts signed with
      | .verified =>
          match signed.record.recordType, store with
          | .repartition, some get =>
              match signed.record.parentRecordId with
              | none => some .tampered
              | some parentId =>
                  match get parentId with
                  | none => some .artifactMissing
                  | some parent => verifyChain store calls parent
          | _, _ => some .verified
      | verdict => some verdict

end Verification

-- The walk through the parents

/-- The records that are found from a record through its parents, each with the id under which
it was looked up, up to the first that is not a repartition.
-/
inductive Chain (get : Lookup)
    : SignedProvenanceRecord → List (Uuid × SignedProvenanceRecord) → Prop where
  | root {signed : SignedProvenanceRecord} (last : signed.record.recordType ≠ .repartition)
      : Chain get signed []
  | link {signed parent : SignedProvenanceRecord} {parentId : Uuid}
      {found : List (Uuid × SignedProvenanceRecord)}
      (repartition : signed.record.recordType = .repartition)
      (named : signed.record.parentRecordId = some parentId)
      (looked : get parentId = some parent) (more : Chain get parent found)
      : Chain get signed ((parentId, parent) :: found)

/-- A record that the walk meets, with the id under which it was found. The walk starts at a
record that was not looked up.
-/
inductive Reached (get : Lookup) (start : SignedProvenanceRecord)
    : Option Uuid → SignedProvenanceRecord → Prop where
  | start : Reached get start none start
  | parent {key : Option Uuid} {signed parent : SignedProvenanceRecord} {parentId : Uuid}
      (before : Reached get start key signed)
      (repartition : signed.record.recordType = .repartition)
      (named : signed.record.parentRecordId = some parentId)
      (looked : get parentId = some parent)
      : Reached get start (some parentId) parent

variable {signer : KMSAsymmetricSigner} {crypto : Cryptography} {sha256 : Bytes → Bytes}
  {artifacts : Option ArtifactStore} {get : Lookup} {issued : Set ProvenanceRecord}

variable {calls : Nat} {signed : SignedProvenanceRecord}

/-- The verdict on a record that is no repartition is its own. -/
theorem verifyChain_root (last : signed.record.recordType ≠ .repartition)
    : verifyChain signer crypto sha256 artifacts (some get) (calls + 1) signed
      = some (verifyRecord signer crypto sha256 artifacts signed) := by
  unfold verifyChain
  split
  case h_1 passed =>
    split
    case h_1 repartition _ => exact absurd repartition last
    case h_2 => exact congrArg some passed.symm
  case h_2 => rfl

variable {parent : SignedProvenanceRecord} {parentId : Uuid}

/-- The verdict on a repartition that passes is the verdict on its parent. -/
theorem verifyChain_link (passed : verifyRecord signer crypto sha256 artifacts signed = .verified)
    (repartition : signed.record.recordType = .repartition)
    (named : signed.record.parentRecordId = some parentId) (looked : get parentId = some parent)
    : verifyChain signer crypto sha256 artifacts (some get) (calls + 1) signed
      = verifyChain signer crypto sha256 artifacts (some get) calls parent := by
  simp only [verifyChain, passed, repartition, named, looked]

/-- A verified chain ends, and every record of it passes the checks of one record.
Witness: induction on the calls.
-/
theorem chain_of_verified
    (verified : verifyChain signer crypto sha256 artifacts (some get) calls signed
      = some .verified)
    : ∃ found, Chain get signed found
      ∧ ∀ member ∈ signed :: found.map Prod.snd,
          verifyRecord signer crypto sha256 artifacts member = .verified := by
  induction calls generalizing signed with
  | zero => cases verified
  | succ calls ih =>
      unfold verifyChain at verified
      split at verified
      case h_2 verdict other => exact absurd (Option.some.inj verified) other
      case h_1 passed =>
        by_cases repartition : signed.record.recordType = .repartition
        · rw [repartition] at verified
          dsimp only at verified
          split at verified
          · cases verified
          case h_2 parentId named =>
            split at verified
            · cases verified
            case h_2 parent looked =>
              obtain ⟨found, chain, all⟩ := ih verified
              refine ⟨_, Chain.link repartition named looked chain, ?_⟩
              intro member listed
              rcases List.mem_cons.mp listed with rfl | later
              · exact passed
              · exact all member later
        · refine ⟨[], Chain.root repartition, ?_⟩
          intro member listed
          rw [List.mem_singleton.mp listed]
          exact passed

variable {start : SignedProvenanceRecord} {found : List (Uuid × SignedProvenanceRecord)}

variable {key : Option Uuid}

/-- Every record of a chain is met by the walk, by induction on the chain. -/
theorem reached_of_chain (chain : Chain get signed found) (before : Reached get start key signed)
    : ∀ entry ∈ found, Reached get start (some entry.1) entry.2 := by
  induction chain generalizing key with
  | root => exact fun _ member => absurd member List.not_mem_nil
  | link repartition named looked _ ih =>
      have met := Reached.parent before repartition named looked
      intro entry member
      rcases List.mem_cons.mp member with rfl | later
      · exact met
      · exact ih met entry later

/-- The parent of a record of a chain is the next record of the chain, by induction on it. -/
theorem Chain.parent_mem (chain : Chain get start found)
    (member : signed ∈ start :: found.map Prod.snd)
    (repartition : signed.record.recordType = .repartition)
    (named : signed.record.parentRecordId = some parentId) (looked : get parentId = some parent)
    : (parentId, parent) ∈ found := by
  induction chain with
  | root last => exact absurd (List.mem_singleton.mp member ▸ repartition) last
  | link _ firstNamed firstLooked _ ih =>
      rcases List.mem_cons.mp member with rfl | later
      · cases firstNamed.symm.trans named
        cases firstLooked.symm.trans looked
        exact List.mem_cons_self
      · exact List.mem_cons_of_mem _ (ih later)

/-- What the walk meets is the record it started from or an entry of the chain. -/
theorem Chain.mem_of_reached (chain : Chain get start found) (met : Reached get start key signed)
    : (key = none ∧ signed = start) ∨ ∃ id, key = some id ∧ (id, signed) ∈ found := by
  induction met with
  | start => exact .inl ⟨rfl, rfl⟩
  | parent _ repartition named looked ih =>
      refine .inr ⟨_, rfl, chain.parent_mem ?_ repartition named looked⟩
      rcases ih with ⟨_, rfl⟩ | ⟨id, _, listed⟩
      · exact List.mem_cons_self
      · exact List.mem_cons_of_mem _ (List.mem_map_of_mem listed)

/-- Signatures verify only over the bytes of the records that were signed. -/
def OnlySigned (signer : KMSAsymmetricSigner) (crypto : Cryptography)
    (issued : Set ProvenanceRecord)
    : Prop :=
  ∀ keyId keyVersion publicKey message signature signatureAlg,
    signer.getPublicKey keyId keyVersion = some publicKey
    → verifySignature crypto publicKey message signature signatureAlg = true
    → ∃ record ∈ issued, canonicalRecordBytes record = .ok message

/-- A record that passes is spelled like one that was signed. -/
theorem spelledAlike_of_verifyRecord (only : OnlySigned signer crypto issued)
    (passed : verifyRecord signer crypto sha256 artifacts signed = .verified)
    : ∃ record ∈ issued, SpelledAlike signed.record record := by
  unfold verifyRecord at passed
  split at passed
  · cases passed
  case h_2 canonical written =>
    split at passed
    · cases passed
    case h_2 publicKey found =>
      split at passed
      case isFalse => cases passed
      case isTrue valid =>
        obtain ⟨record, among, same⟩ := only _ _ _ _ _ _ found valid
        exact ⟨record, among, spelledAlike_of_bytes written same⟩

/-- The chain that a verdict promises: it ends in a record that is no repartition, each record
found under an id has that id, and each has the fields that were signed.
-/
def Pinned (get : Lookup) (issued : Set ProvenanceRecord) (signed : SignedProvenanceRecord)
    : Prop :=
  ∃ found,
    Chain get signed found
    ∧ (∀ entry ∈ found, entry.2.record.id = entry.1)
    ∧ ∀ member ∈ signed :: found.map Prod.snd, member.record ∈ issued

/-- The lookups of the walk find records under their own ids. -/
def FiledUnderOwnId (get : Lookup) (signed : SignedProvenanceRecord) : Prop :=
  ∀ id member, Reached get signed (some id) member → member.record.id = id

/-- No record of the walk spells a signed record in a way that was not signed itself. -/
def NotRespelled (get : Lookup) (issued : Set ProvenanceRecord) (signed : SignedProvenanceRecord)
    : Prop :=
  ∀ key member record,
    Reached get signed key member
    → record ∈ issued
    → SpelledAlike member.record record
    → member.record ∈ issued

/-- A record with nothing but its place in a chain. -/
def bareRecord (id : Uuid) (parentRecordId : Option Uuid) (recordType : RecordType)
    : ProvenanceRecord where
  id
  parentRecordId
  recordType
  scanId := 0
  findingId := none
  orgId := 0
  codebaseId := 0
  commitSha := []
  scmProvider := []
  snapshotId := 0
  snapshotDigest := []
  preconditionStatus := none
  sVersion := []
  envDigest := []
  cpgOrderHash := none
  cpgOrderHashAnnotation := cpgOrderHashAnnotation
  fingerprintClass := none
  witnessBlobUri := none
  sliceFingerprint := none
  ruleId := none
  specId := none
  detectorId := none
  detectorEngine := none
  sarifHash := none
  origin := some .oraclePassthrough
  determinismPartition := none
  repartitionReason := none
  repartitionOracleId := none
  claimLabel := .empirical

def bareSigned (record : ProvenanceRecord) : SignedProvenanceRecord where
  record
  canonicalBytes := []
  kmsKeyArn := []
  kmsKeyVersion := []
  signature := []
  signatureAlg := .rsassaPssSha256

/-- One key for everything. -/
def bareSigner : KMSAsymmetricSigner where
  sign _ _ _ _ := True
  getPublicKey _ _ := some []

/-- The scheme that accepts the bytes of the listed records and nothing else. -/
def listedCryptography (records : List ProvenanceRecord) : Cryptography where
  Key := Unit
  loadDerPublicKey _ := some (.rsa ())
  verify _ _ message _ :=
    records.any fun record =>
      match canonicalRecordBytes record with
      | .ok bytes => bytes = message
      | .error _ => false

theorem listed_onlySigned (records : List ProvenanceRecord)
    : OnlySigned bareSigner (listedCryptography records) {record | record ∈ records} := by
  intro _ _ _ message _ _ _ valid
  obtain ⟨record, among, same⟩ := List.any_eq_true.mp valid
  refine ⟨record, among, ?_⟩
  split at same
  case h_1 bytes written =>
    rw [written, of_decide_eq_true same]
  case h_2 => cases same

theorem listed_verified {records : List ProvenanceRecord} {record : ProvenanceRecord}
    (among : record ∈ records) (version : record.recordSchemaVersion = 1)
    (unsigned : record.artifactIdentity = none)
    : verifyRecord bareSigner (listedCryptography records) id none (bareSigned record)
      = .verified := by
  have written := canonicalRecordBytes_ok.mpr ⟨.inl ⟨version, unsigned⟩, rfl⟩
  have valid : verifySignature (listedCryptography records) [] (payload record).dumpsAscii.utf8 []
      .rsassaPssSha256 = true := by
    refine List.any_eq_true.mpr ⟨record, among, ?_⟩
    rw [written]
    exact decide_eq_true rfl
  unfold verifyRecord
  rw [show (bareSigned record).record = record from rfl, written]
  exact if_pos valid

/-- The repartition of record 1, and the store that has record 2 in the place of record 1. -/
def exchangedRecords : List ProvenanceRecord :=
  [bareRecord 1 none .chain, bareRecord 2 none .chain, bareRecord 3 (some 1) .repartition]

def exchangedStore : Lookup := fun _ => some (bareSigned (bareRecord 2 none .chain))

/-- The exchange verifies. -/
theorem exchanged_verified
    : verifyChain bareSigner (listedCryptography exchangedRecords) id none (some exchangedStore) 2
        (bareSigned (bareRecord 3 (some 1) .repartition))
      = some .verified := by
  have child : verifyRecord bareSigner (listedCryptography exchangedRecords) id none
      (bareSigned (bareRecord 3 (some 1) .repartition)) = .verified :=
    listed_verified (.tail _ (.tail _ (.head _))) rfl rfl
  have parent : verifyRecord bareSigner (listedCryptography exchangedRecords) id none
      (bareSigned (bareRecord 2 none .chain)) = .verified :=
    listed_verified (.tail _ (.head _)) rfl rfl
  have looked : exchangedStore 1 = some (bareSigned (bareRecord 2 none .chain)) := rfl
  rw [verifyChain_link child rfl rfl looked, verifyChain_root (by decide), parent]

end Scanipy.Services.Scan.Provenance

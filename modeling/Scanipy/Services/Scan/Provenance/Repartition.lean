import Scanipy.Services.Scan.Provenance.Chain

/-! Stores that grow by signing records and by appending repartitions of stored ones. Every
stored record verifies after every call, against the store and against the SARIF log of the
record that its chain ends in.
-/

namespace Scanipy.Services.Scan.Provenance

open Analysis Library Python

/-- The errors of signing and appending. -/
inductive ProvenanceError where
  | invariantViolation (code : String)
  | repartitionWithoutParent
  | invalidResponse
  | python (raised : PyError)
  deriving DecidableEq, Repr

/-- The answer of the signer to the request that a call makes. -/
abbrev Answer := (keyId : Text) → (message : Bytes) → SignatureAlg → SignResponse

/-- The trailing segment of the key id that the signer answers with. -/
def keyVersion (kmsKeyArn : Text) (response : SignResponse) : Text :=
  let keyId := response.keyId.getD kmsKeyArn
  let colon : CodePoint := Fin.ofNat 0x110000 0x3A
  if keyId.contains colon then (keyId.splitOn colon).getLastD [] else keyId

/-- `_expect_bytes(resp, "Signature")`. -/
def expectSignature (response : SignResponse) : Except ProvenanceError Bytes :=
  match response.signature with
  | some signature => .ok signature
  | none => .error .invalidResponse

/-- `canonical_record_bytes`, whose errors pass. -/
def recordBytes (record : ProvenanceRecord) : Except ProvenanceError Bytes :=
  match canonicalRecordBytes record with
  | .ok canonical => .ok canonical
  | .error raised => .error (.python raised)

/-- `sign_provenance` without a store. -/
def signProvenance (answer : Answer) (record : ProvenanceRecord) (kmsKeyArn : Text)
    (signatureAlg : SignatureAlg)
    : Except ProvenanceError SignedProvenanceRecord := do
  demand (record.cpgOrderHashAnnotation = cpgOrderHashAnnotation)
    (.invariantViolation "invariant_inv5_violation")
  demand (record.recordType ∈ [RecordType.chain, .repartition] → record.origin ≠ none)
    (.invariantViolation "invariant_inv1_violation")
  let canonical ← recordBytes record
  let response := answer kmsKeyArn canonical signatureAlg
  let signature ← expectSignature response
  .ok
    { record, canonicalBytes := canonical, kmsKeyArn, kmsKeyVersion := keyVersion kmsKeyArn response,
      signature, signatureAlg }

/-- `ProvenanceStore`, as a store that returns what was appended under an id that it had not. -/
structure ProvenanceStore where
  State : Type
  get : State → Lookup
  append : State → SignedProvenanceRecord → State
  get_append : ∀ {state signed},
    get state signed.record.id = none
    → ∀ id, get (append state signed) id
      = if id = signed.record.id then some signed else get state id

/-- The record that `append_repartition_event` builds from its parent, under the id that
`uuid.uuid4` returns.
-/
def repartitionOf (base : ProvenanceRecord) (id parentRecordId repartitionOracleId : Uuid)
    (repartitionReason : Text)
    : ProvenanceRecord where
  id
  parentRecordId := some parentRecordId
  recordType := .repartition
  scanId := base.scanId
  findingId := base.findingId
  orgId := base.orgId
  codebaseId := base.codebaseId
  commitSha := base.commitSha
  scmProvider := base.scmProvider
  snapshotId := base.snapshotId
  snapshotDigest := base.snapshotDigest
  preconditionStatus := base.preconditionStatus
  sVersion := base.sVersion
  envDigest := base.envDigest
  cpgOrderHash := none
  cpgOrderHashAnnotation := cpgOrderHashAnnotation
  fingerprintClass := none
  witnessBlobUri := base.witnessBlobUri
  sliceFingerprint := base.sliceFingerprint
  ruleId := base.ruleId
  specId := base.specId
  detectorId := base.detectorId
  detectorEngine := base.detectorEngine
  sarifHash := base.sarifHash
  origin := some .oraclePassthrough
  determinismPartition := some .oraclePassthrough
  repartitionReason := some repartitionReason
  repartitionOracleId := some repartitionOracleId
  claimLabel := .empirical

section Calls

variable (store : ProvenanceStore)

/-- `sign_provenance` with a store. -/
def signInto (answer : Answer) (record : ProvenanceRecord) (kmsKeyArn : Text)
    (signatureAlg : SignatureAlg) (state : store.State)
    : Except ProvenanceError (SignedProvenanceRecord × store.State) := do
  let signed ← signProvenance answer record kmsKeyArn signatureAlg
  .ok (signed, store.append state signed)

/-- `append_repartition_event`. -/
def appendRepartitionEvent (answer : Answer) (id parentRecordId repartitionOracleId : Uuid)
    (repartitionReason : Text) (signatureAlg : SignatureAlg) (state : store.State)
    : Except ProvenanceError (SignedProvenanceRecord × store.State) :=
  match store.get state parentRecordId with
  | none => .error .repartitionWithoutParent
  | some parent =>
      signInto store answer
        (repartitionOf parent.record id parentRecordId repartitionOracleId repartitionReason)
        parent.kmsKeyArn signatureAlg state

/-- The calls that change a store. -/
inductive Call where
  | sign (record : ProvenanceRecord) (kmsKeyArn : Text) (signatureAlg : SignatureAlg)
  | repartition (id parentRecordId repartitionOracleId : Uuid) (repartitionReason : Text)
      (signatureAlg : SignatureAlg)

def Call.run (answer : Answer) (state : store.State)
    : Call → Except ProvenanceError (SignedProvenanceRecord × store.State)
  | .sign record kmsKeyArn signatureAlg =>
      signInto store answer record kmsKeyArn signatureAlg state
  | .repartition id parentRecordId repartitionOracleId repartitionReason signatureAlg =>
      appendRepartitionEvent store answer id parentRecordId repartitionOracleId repartitionReason
        signatureAlg state

/-- The id of the new record is new, and only `append_repartition_event` makes repartitions. -/
def Call.Fresh (state : store.State) : Call → Prop
  | .sign record _ _ => record.recordType ≠ .repartition ∧ store.get state record.id = none
  | .repartition id _ _ _ _ => store.get state id = none

/-- The store after a call; one that raises leaves it as it was. -/
def stateAfter (state : store.State)
    : Except ProvenanceError (SignedProvenanceRecord × store.State) → store.State
  | .ok (_, next) => next
  | .error _ => state

/-- One call with an answer that the signer may give. -/
inductive Step (signer : KMSAsymmetricSigner) : store.State → store.State → Prop where
  | call {state : store.State} (call : Call) (answer : Answer)
      (answers : ∀ keyId message signatureAlg,
        signer.sign keyId message signatureAlg (answer keyId message signatureAlg))
      (fresh : call.Fresh store state)
      : Step signer state (stateAfter store state (call.run store answer state))

end Calls

/-- The public key under the recorded version verifies what the signer signs. -/
def VerifiesOwn (signer : KMSAsymmetricSigner) (crypto : Cryptography) : Prop :=
  ∀ keyId message signatureAlg response signature,
    signer.sign keyId message signatureAlg response
    → response.signature = some signature
    → ∃ publicKey,
        signer.getPublicKey keyId (keyVersion keyId response) = some publicKey
        ∧ verifySignature crypto publicKey message signature signatureAlg = true

/-- The record has bytes, and its signature is one over them. -/
def Genuine (signer : KMSAsymmetricSigner) (crypto : Cryptography)
    (signed : SignedProvenanceRecord)
    : Prop :=
  ∃ canonical publicKey,
    canonicalRecordBytes signed.record = .ok canonical
    ∧ signer.getPublicKey signed.kmsKeyArn signed.kmsKeyVersion = some publicKey
    ∧ verifySignature crypto publicKey canonical signed.signature signed.signatureAlg = true

variable {signer : KMSAsymmetricSigner} {crypto : Cryptography} {sha256 : Bytes → Bytes}
  {store : ProvenanceStore}

variable {record : ProvenanceRecord} {signed : SignedProvenanceRecord} {answer : Answer}

/-- What is signed keeps its record and is genuine. -/
theorem genuine_of_signProvenance (honest : VerifiesOwn signer crypto)
    (answers : ∀ keyId message signatureAlg,
      signer.sign keyId message signatureAlg (answer keyId message signatureAlg)) {kmsKeyArn : Text}
    {signatureAlg : SignatureAlg}
    (done : signProvenance answer record kmsKeyArn signatureAlg = .ok signed)
    : signed.record = record ∧ Genuine signer crypto signed := by
  simp only [signProvenance, check_ok, demand_ok] at done
  obtain ⟨_, _, done⟩ := done
  obtain ⟨canonical, written, done⟩ := bind_ok.mp done
  obtain ⟨signature, answered, done⟩ := bind_ok.mp done
  cases done
  have bytes : canonicalRecordBytes record = .ok canonical := by
    unfold recordBytes at written
    split at written
    case h_1 found =>
      cases written
      exact found
    case h_2 => cases written
  have present : (answer kmsKeyArn canonical signatureAlg).signature = some signature := by
    unfold expectSignature at answered
    split at answered
    case h_1 found =>
      cases answered
      exact found
    case h_2 => cases answered
  obtain ⟨publicKey, found, valid⟩ := honest _ _ _ _ _ (answers _ _ _) present
  exact ⟨rfl, canonical, publicKey, bytes, found, valid⟩

/-- The verdict on a genuine record is the verdict on its artifacts. -/
theorem verifyRecord_of_genuine (genuine : Genuine signer crypto signed)
    (artifacts : Option ArtifactStore)
    : verifyRecord signer crypto sha256 artifacts signed
      = match artifacts with
        | none => .verified
        | some artifacts => verifyArtifacts sha256 signed.record artifacts := by
  obtain ⟨canonical, publicKey, written, found, valid⟩ := genuine
  unfold verifyRecord
  rw [written]
  dsimp only
  rw [found]
  exact if_pos valid

-- The invariant

/-- What a repartition takes over from its parent. -/
structure Agrees (record parent : ProvenanceRecord) : Prop where
  scanId : record.scanId = parent.scanId
  findingId : record.findingId = parent.findingId
  orgId : record.orgId = parent.orgId
  codebaseId : record.codebaseId = parent.codebaseId
  commitSha : record.commitSha = parent.commitSha
  snapshotId : record.snapshotId = parent.snapshotId
  snapshotDigest : record.snapshotDigest = parent.snapshotDigest
  sVersion : record.sVersion = parent.sVersion
  envDigest : record.envDigest = parent.envDigest
  sarifHash : record.sarifHash = parent.sarifHash

/-- A repartition names a stored parent, agrees with it and comes from the oracle. -/
def Linked (get : Lookup) (record : ProvenanceRecord) : Prop :=
  ∃ parentId parent,
    record.parentRecordId = some parentId
    ∧ get parentId = some parent
    ∧ Agrees record parent.record
    ∧ record.origin = some .oraclePassthrough

/-- Every stored record is genuine, every stored repartition is linked, and every chain ends. -/
structure Sound (signer : KMSAsymmetricSigner) (crypto : Cryptography) (get : Lookup) : Prop where
  genuine : ∀ id signed, get id = some signed → Genuine signer crypto signed
  linked : ∀ id signed,
    get id = some signed → signed.record.recordType = .repartition → Linked get signed.record
  ends : ∀ id signed, get id = some signed → ∃ found, Chain get signed found

/-- The later store has what the earlier one has. -/
def Extends (before after : Lookup) : Prop :=
  ∀ id signed, before id = some signed → after id = some signed

variable {found : List (Uuid × SignedProvenanceRecord)}

theorem Chain.extend {before after : Lookup} (more : Extends before after)
    (chain : Chain before signed found)
    : Chain after signed found := by
  induction chain with
  | root last => exact .root last
  | link repartition named looked _ ih => exact .link repartition named (more _ _ looked) ih

theorem Linked.extend {before after : Lookup} (more : Extends before after)
    (linked : Linked before record)
    : Linked after record := by
  obtain ⟨parentId, parent, named, looked, rest⟩ := linked
  exact ⟨parentId, parent, named, more _ _ looked, rest⟩

variable {state : store.State}

theorem extends_append (fresh : store.get state signed.record.id = none)
    : Extends (store.get state) (store.get (store.append state signed)) := by
  intro id other found
  rw [store.get_append fresh, if_neg]
  · exact found
  · rintro rfl
    rw [fresh] at found
    cases found

/-- Appending a genuine record under a new id keeps the store sound, when a repartition is
linked to what is stored already.
-/
theorem Sound.append (sound : Sound signer crypto (store.get state))
    (fresh : store.get state signed.record.id = none) (genuine : Genuine signer crypto signed)
    (linked : signed.record.recordType = .repartition → Linked (store.get state) signed.record)
    : Sound signer crypto (store.get (store.append state signed)) := by
  have more := extends_append fresh
  have stored {id : Uuid} {other : SignedProvenanceRecord}
      (found : store.get (store.append state signed) id = some other)
      : other = signed ∨ store.get state id = some other := by
    rw [store.get_append fresh] at found
    split at found
    · exact .inl (Option.some.inj found).symm
    · exact .inr found
  refine ⟨?_, ?_, ?_⟩
  · intro id other found
    rcases stored found with rfl | before
    · exact genuine
    · exact sound.genuine id other before
  · intro id other found repartition
    rcases stored found with rfl | before
    · exact (linked repartition).extend more
    · exact (sound.linked id other before repartition).extend more
  · intro id other found
    rcases stored found with rfl | before
    · by_cases repartition : other.record.recordType = .repartition
      · obtain ⟨parentId, parent, named, looked, _⟩ := linked repartition
        obtain ⟨rest, chain⟩ := sound.ends parentId parent looked
        exact ⟨_, .link repartition named (more _ _ looked) (chain.extend more)⟩
      · exact ⟨[], .root repartition⟩
    · obtain ⟨rest, chain⟩ := sound.ends id other before
      exact ⟨rest, chain.extend more⟩

/-- A call that returns has appended a genuine record under a new id; a repartition is linked. -/
theorem call_spec (honest : VerifiesOwn signer crypto) (answers : ∀ keyId message signatureAlg,
      signer.sign keyId message signatureAlg (answer keyId message signatureAlg)) {call : Call}
    {next : store.State} (fresh : call.Fresh store state)
    (done : call.run store answer state = .ok (signed, next))
    : next = store.append state signed
      ∧ store.get state signed.record.id = none
      ∧ Genuine signer crypto signed
      ∧ (signed.record.recordType = .repartition → Linked (store.get state) signed.record) := by
  cases call with
  | sign record kmsKeyArn signatureAlg =>
      obtain ⟨_, written, done⟩ := bind_ok.mp done
      cases done
      obtain ⟨rfl, genuine⟩ := genuine_of_signProvenance honest answers written
      exact ⟨rfl, fresh.2, genuine, fun repartition => absurd repartition fresh.1⟩
  | repartition id parentRecordId repartitionOracleId repartitionReason signatureAlg =>
      rw [Call.run, appendRepartitionEvent] at done
      split at done
      · cases done
      case h_2 parent looked =>
        obtain ⟨_, written, done⟩ := bind_ok.mp done
        cases done
        obtain ⟨same, genuine⟩ := genuine_of_signProvenance honest answers written
        refine ⟨rfl, ?_, genuine, fun _ => ?_⟩
        · rw [same]
          exact fresh
        · rw [same]
          exact ⟨parentRecordId, parent, rfl, looked,
            ⟨rfl, rfl, rfl, rfl, rfl, rfl, rfl, rfl, rfl, rfl⟩, rfl⟩

/-- One call keeps the store sound and keeps what it has. -/
theorem step_sound (honest : VerifiesOwn signer crypto) {before after : store.State}
    (step : Step store signer before after) (sound : Sound signer crypto (store.get before))
    : Sound signer crypto (store.get after) ∧ Extends (store.get before) (store.get after) := by
  obtain ⟨call, answer, answers, fresh⟩ := step
  cases result : call.run store answer before with
  | error raised => exact ⟨sound, fun _ _ found => found⟩
  | ok value =>
      obtain ⟨signed, next⟩ := value
      obtain ⟨rfl, unused, genuine, linked⟩ := call_spec honest answers fresh result
      exact ⟨sound.append unused genuine linked, extends_append unused⟩

/-- So do all calls in a row, by induction on the run. -/
theorem run_sound (honest : VerifiesOwn signer crypto) {before after : store.State}
    (run : Relation.ReflTransGen (Step store signer) before after)
    (sound : Sound signer crypto (store.get before))
    : Sound signer crypto (store.get after) ∧ Extends (store.get before) (store.get after) := by
  induction run with
  | refl => exact ⟨sound, fun _ _ found => found⟩
  | tail _ step ih =>
      obtain ⟨next, more⟩ := step_sound honest step ih.1
      exact ⟨next, fun id signed found => more id signed (ih.2 id signed found)⟩

variable {get : Lookup}

theorem sound_of_empty (empty : ∀ id, get id = none) : Sound signer crypto get := by
  refine ⟨?_, ?_, ?_⟩
  all_goals
    intro id signed found
    rw [empty] at found
    cases found

-- Stored records verify

/-- The record that a chain ends in. -/
def rootOf : SignedProvenanceRecord → List (Uuid × SignedProvenanceRecord) → SignedProvenanceRecord
  | signed, [] => signed
  | _, (_, parent) :: rest => rootOf parent rest

/-- The SARIF log that is stored for the record has the hash of the record. -/
def Matches (sha256 : Bytes → Bytes) (artifacts : ArtifactStore) (record : ProvenanceRecord)
    : Prop :=
  ∀ sarifHash ∈ record.sarifHash,
    ∃ blob, artifacts (sarifUri record) = some blob ∧ sha256 blob = sarifHash

variable {artifacts : ArtifactStore}

theorem verifyArtifacts_of_matches (same : Matches sha256 artifacts record)
    : verifyArtifacts sha256 record artifacts = .verified := by
  unfold verifyArtifacts
  split
  · rfl
  case h_2 sarifHash present =>
    obtain ⟨blob, fetched, hashed⟩ := same sarifHash present
    rw [fetched]
    exact if_pos hashed

theorem Matches.of_agrees {parent : ProvenanceRecord} (agrees : Agrees record parent)
    (same : Matches sha256 artifacts parent)
    : Matches sha256 artifacts record := by
  intro sarifHash present
  have uri : sarifUri record = sarifUri parent := by
    rw [sarifUri, sarifUri, agrees.orgId, agrees.codebaseId, agrees.scanId]
  rw [agrees.sarifHash] at present
  rw [uri]
  exact same sarifHash present

/-- What matches the end of a chain matches all of it, by induction on the chain. -/
theorem matches_of_root (sound : Sound signer crypto get) (chain : Chain get signed found)
    {id : Uuid} (stored : get id = some signed)
    (same : Matches sha256 artifacts (rootOf signed found).record)
    : Matches sha256 artifacts signed.record := by
  induction chain generalizing id with
  | root => exact same
  | link repartition named looked _ ih =>
      obtain ⟨parentId, parent, otherNamed, otherLooked, agrees, _⟩ :=
        sound.linked id _ stored repartition
      cases named.symm.trans otherNamed
      cases looked.symm.trans otherLooked
      exact Matches.of_agrees agrees (ih looked same)

/-- A stored record of a sound store verifies when every record of its chain passes the check of
its artifacts. Witness: induction on the chain.
-/
theorem verified_of_chain (sound : Sound signer crypto get) {artifacts : Option ArtifactStore}
    (chain : Chain get signed found) {id : Uuid} (stored : get id = some signed)
    (same : ∀ given ∈ artifacts, Matches sha256 given (rootOf signed found).record)
    : ∃ calls, verifyChain signer crypto sha256 artifacts (some get) calls signed
      = some .verified := by
  induction chain generalizing id with
  | @root signed last =>
      refine ⟨1, ?_⟩
      rw [verifyChain_root last, verifyRecord_of_genuine (sound.genuine id signed stored)]
      cases artifacts with
      | none => rfl
      | some given => exact congrArg some (verifyArtifacts_of_matches (same given rfl))
  | @link signed parent parentId found repartition named looked chain ih =>
      obtain ⟨calls, verified⟩ := ih looked same
      have passed : verifyRecord signer crypto sha256 artifacts signed = .verified := by
        rw [verifyRecord_of_genuine (sound.genuine id signed stored)]
        cases artifacts with
        | none => rfl
        | some given =>
            exact verifyArtifacts_of_matches
              (matches_of_root sound (.link repartition named looked chain) stored (same given rfl))
      exact ⟨calls + 1, (verifyChain_link passed repartition named looked).trans verified⟩

/-- At every point of a run from an empty store, every stored record verifies against the store
and against artifacts that match the record its chain ends in, earlier records are as they
were, and repartitions agree with their parents.
-/
theorem stored_records_verify (honest : VerifiesOwn signer crypto)
    {start middle state : store.State} (empty : ∀ id, store.get start id = none)
    (earlier : Relation.ReflTransGen (Step store signer) start middle)
    (later : Relation.ReflTransGen (Step store signer) middle state)
    : (∀ id signed,
        store.get state id = some signed
        → (∃ calls, verifyChain signer crypto sha256 none (some (store.get state)) calls signed
            = some .verified)
          ∧ (∃ found,
              Chain (store.get state) signed found
              ∧ ∀ artifacts,
                  Matches sha256 artifacts (rootOf signed found).record
                  → ∃ calls, verifyChain signer crypto sha256 (some artifacts)
                      (some (store.get state)) calls signed = some .verified)
          ∧ (signed.record.recordType = .repartition
              → ∃ parentId parent,
                  signed.record.parentRecordId = some parentId
                  ∧ store.get state parentId = some parent
                  ∧ Agrees signed.record parent.record
                  ∧ signed.record.origin = some .oraclePassthrough))
      ∧ ∀ id signed, store.get middle id = some signed → store.get state id = some signed := by
  obtain ⟨soundMiddle, _⟩ := run_sound honest earlier (sound_of_empty empty)
  obtain ⟨sound, more⟩ := run_sound honest later soundMiddle
  refine ⟨?_, more⟩
  intro id signed stored
  obtain ⟨found, chain⟩ := sound.ends id signed stored
  refine ⟨?_, ⟨found, chain, ?_⟩, sound.linked id signed stored⟩
  · exact verified_of_chain sound chain stored (fun _ absent => by cases absent)
  · intro artifacts same
    refine verified_of_chain sound chain stored fun given present => ?_
    cases present
    exact same

/-- A signer whose signature is the message. -/
def echoSigner : KMSAsymmetricSigner where
  sign _ message _ response := response = { signature := some message, keyId := none }
  getPublicKey _ _ := some []

def echoCryptography : Cryptography where
  Key := Unit
  loadDerPublicKey _ := some (.rsa ())
  verify _ signature message _ := signature = message

def echoAnswer : Answer := fun _ message _ => { signature := some message, keyId := none }

theorem echo_verifiesOwn : VerifiesOwn echoSigner echoCryptography := by
  rintro keyId message signatureAlg response signature rfl present
  cases present
  exact ⟨[], rfl, decide_eq_true rfl⟩

/-- A store in memory, as the dictionary from ids to records. -/
def mapStore : ProvenanceStore where
  State := Lookup
  get state := state
  append state signed := fun id => if id = signed.record.id then some signed else state id
  get_append _ _ := rfl

theorem signProvenance_echo {record : ProvenanceRecord}
    (labelled : record.cpgOrderHashAnnotation = cpgOrderHashAnnotation)
    (origin : record.origin = some .oraclePassthrough) (version : record.recordSchemaVersion = 1)
    (unsigned : record.artifactIdentity = none)
    : ∃ signed,
        signProvenance echoAnswer record [] .rsassaPssSha256 = .ok signed
        ∧ signed.record = record
        ∧ signed.kmsKeyArn = [] := by
  have written := canonicalRecordBytes_ok.mpr ⟨.inl ⟨version, unsigned⟩, rfl⟩
  have named : record.recordType ∈ [RecordType.chain, .repartition] → record.origin ≠ none := by
    rw [origin]
    exact fun _ => nofun
  refine ⟨⟨record, (payload record).dumpsAscii.utf8, [], [], (payload record).dumpsAscii.utf8,
    .rsassaPssSha256⟩, ?_, rfl, rfl⟩
  rw [signProvenance, demand, if_pos labelled, demand, if_pos named, recordBytes, written]
  rfl

theorem signInto_of_signed {kmsKeyArn : Text} {signatureAlg : SignatureAlg}
    (done : signProvenance answer record kmsKeyArn signatureAlg = .ok signed)
    : signInto store answer record kmsKeyArn signatureAlg state
      = .ok (signed, store.append state signed) := by
  rw [signInto, done]
  rfl

/-- A record is signed into an empty store and repartitioned; the repartition verifies. -/
theorem stored_records_verify_echo
    : ∃ (state : Lookup) (signed : SignedProvenanceRecord),
        state 2 = some signed
        ∧ signed.record.recordType = .repartition
        ∧ ∃ calls, verifyChain echoSigner echoCryptography id none (some state) calls signed
            = some .verified := by
  obtain ⟨root, rootDone, rootRecord, rootArn⟩ :=
    @signProvenance_echo (bareRecord 1 none .chain) rfl rfl rfl rfl
  obtain ⟨child, childDone, childRecord, _⟩ :=
    @signProvenance_echo (repartitionOf root.record 2 1 0 []) rfl rfl rfl rfl
  let start : Lookup := fun _ => none
  let middle : Lookup := mapStore.append start root
  have rootId : root.record.id = 1 := by rw [rootRecord]; rfl
  have childId : child.record.id = 2 := by rw [childRecord]; rfl
  have stored : mapStore.get middle 1 = some root := if_pos rootId.symm
  have unused : mapStore.get middle 2 = none := if_neg (by rw [rootId]; decide)
  have answers : ∀ keyId message signatureAlg,
      echoSigner.sign keyId message signatureAlg (echoAnswer keyId message signatureAlg) :=
    fun _ _ _ => rfl
  have first : Step mapStore echoSigner start middle := by
    have result : Call.run mapStore echoAnswer start
        (.sign (bareRecord 1 none .chain) [] .rsassaPssSha256) = .ok (root, middle) :=
      signInto_of_signed rootDone
    have step := @Step.call mapStore echoSigner start
      (.sign (bareRecord 1 none .chain) [] .rsassaPssSha256) echoAnswer answers ⟨by decide, rfl⟩
    rw [result] at step
    exact step
  have second : Step mapStore echoSigner middle (mapStore.append middle child) := by
    have result : Call.run mapStore echoAnswer middle (.repartition 2 1 0 [] .rsassaPssSha256)
        = .ok (child, mapStore.append middle child) := by
      change appendRepartitionEvent mapStore echoAnswer 2 1 0 [] .rsassaPssSha256 middle = _
      rw [appendRepartitionEvent, stored]
      dsimp only
      rw [rootArn]
      exact signInto_of_signed childDone
    have step := @Step.call mapStore echoSigner middle (.repartition 2 1 0 [] .rsassaPssSha256)
      echoAnswer answers unused
    rw [result] at step
    exact step
  have found : mapStore.get (mapStore.append middle child) 2 = some child := if_pos childId.symm
  have verify := (@stored_records_verify echoSigner echoCryptography id mapStore echo_verifiesOwn
    start middle (mapStore.append middle child) (fun _ => rfl) (.single first) (.single second)).1
    2 child found
  exact ⟨mapStore.append middle child, child, found, by rw [childRecord]; rfl, verify.1⟩

end Scanipy.Services.Scan.Provenance

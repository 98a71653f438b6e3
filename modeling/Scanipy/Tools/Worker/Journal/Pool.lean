import Mathlib.Data.Prod.Lex
import Scanipy.Library.DepthFirst
import Scanipy.Library.Programs
import Scanipy.Tools.Worker.Journal.Records

/-! The pool of supplied blobs: every reference that replay follows is counted, charged and
recorded here, and at the end every blob has to be used by an acyclic, shallow graph.
-/

namespace Scanipy.Tools.Worker.Journal

open Library
open Library.Metered (lift visit)
open Python

/-- `OwnerRole`. -/
inductive OwnerRole where
  | installation
  | controllerProfile
  | domainProfile
  | runtimeInventory
  | modeRequest
  | modeInput
  | launchPacket
  | releasePacket
  | domainResult
  | authentication
  | scope
  | admission
  | executionAuthorization
  | captureLease
  | contentVerification
  | parentBarrier
  | kernelRaw
  | refusalRaw
  deriving DecidableEq, Repr

namespace OwnerRole

def wire : OwnerRole → String
  | .installation => "installation"
  | .controllerProfile => "controller-profile"
  | .domainProfile => "domain-profile"
  | .runtimeInventory => "runtime-inventory"
  | .modeRequest => "mode-request"
  | .modeInput => "mode-input"
  | .launchPacket => "launch-packet"
  | .releasePacket => "release-packet"
  | .domainResult => "domain-result"
  | .authentication => "authentication"
  | .scope => "scope"
  | .admission => "admission"
  | .executionAuthorization => "execution-authorization"
  | .captureLease => "capture-lease"
  | .contentVerification => "content-verification"
  | .parentBarrier => "parent-barrier"
  | .kernelRaw => "kernel-raw"
  | .refusalRaw => "refusal-raw"

/-- `_OWNERS`. -/
def all : List OwnerRole :=
  [.installation, .controllerProfile, .domainProfile, .runtimeInventory, .modeRequest, .modeInput,
    .launchPacket, .releasePacket, .domainResult, .authentication, .scope, .admission,
    .executionAuthorization, .captureLease, .contentVerification, .parentBarrier, .kernelRaw,
    .refusalRaw]

def ofWire (text : Text) : Option OwnerRole :=
  all.find? fun role => py role.wire = text

end OwnerRole

/-- `OpaqueOwnerValue`. -/
structure OpaqueOwnerValue where
  role : OwnerRole
  containingSha256 : Bytes
  fieldPath : List Text
  deriving DecidableEq, Repr

/-- The key that obligations are sorted by. -/
def OpaqueOwnerValue.key (value : OpaqueOwnerValue) : Nat ×ₗ Bytes ×ₗ List Bytes :=
  toLex (OwnerRole.all.idxOf value.role,
    toLex (value.containingSha256, value.fieldPath.map Text.utf8))

/-- `bytes.fromhex`, on pairs of digits. -/
def fromHex : Text → Bytes
  | high :: low :: rest =>
      Fin.ofNat 256 ((Json.hexValue high).getD 0 * 16 + (Json.hexValue low).getD 0) :: fromHex rest
  | _ => []

/-- `EvidenceBlob`. -/
structure EvidenceBlob where
  data : Bytes
  sha256 : Bytes
  deriving DecidableEq, Repr

/-- `_Pool`. -/
structure Pool where
  supplied : Nat
  hashWork : Nat
  blobs : Dict Text Bytes
  copies : List EvidenceBlob
  used : PySet Text
  edges : Nat
  graph : Dict Text (PySet Text)
  records : Dict (RecordKind × Text) (ParsedJournalRecord × Json)
  peRecords : Dict (EvidenceKind × Text) (Stored × Json)
  obligations : PySet OpaqueOwnerValue
  charged : Dict (List Text) Int
  metadata : Int

abbrev PoolM := Metered Pool JournalError

/-- A token that is charged once. -/
def token (name : String) (parts : List Text) : List Text :=
  py name :: parts

/-- `_Pool.charge`. -/
def charge (token : List Text) (amount : Int) : PoolM Unit := fun pool =>
  match pool.charged.get? token with
  | some earlier => (need (earlier = amount) .conflict, pool)
  | none =>
      (need (pool.metadata + amount ≤ 524288) .limit,
        { pool with charged := pool.charged.set token amount, metadata := pool.metadata + amount })

/-- `_Pool.obligation` for a known role. -/
def obligation (role : OwnerRole) (digest : Text) (path : List Text) : PoolM Unit := fun pool =>
  let obligations := pool.obligations.add ⟨role, fromHex digest, path⟩
  (need (obligations.length ≤ 4096) .limit, { pool with obligations := obligations })

/-- The part of `_Pool.resolve` behind the checks of the reference. A failed check abandons the
pool, as every failed check here does.
-/
def follow (digest : Text) (size : Int) (source : Text) : PoolM Bytes := fun pool =>
  let edges := pool.edges + 1
  let outcome := do
    need (edges ≤ 4096) .limit
    match pool.blobs.get? digest with
    | none => .error (.validation .reference)
    | some data => do
        need ((data.length : Int) = size) .reference
        .ok data
  (outcome, {
    pool with
    edges := edges
    used := pool.used.add digest
    graph := pool.graph.set source ((pool.graph.getD source []).add digest) })

section Pool

variable (imports : Imports)

/-- `_Pool.hash`. -/
def hash (data : Bytes) (domain : Option Text) : PoolM Bytes := fun pool =>
  let hashed := (domain.elim [] fun name => name.utf8 ++ pyb "\n") ++ data
  let work := pool.hashWork + hashed.length
  let outcome := do
    need (work ≤ 512 * mib) .limit
    .ok (imports.sha256 hashed)
  (outcome, { pool with hashWork := work })

/-- `_Pool.resolve`. -/
def resolve (reference : Json) (source : Text) (cap : Nat) : PoolM Bytes := do
  lift (needRef imports cap reference)
  let digest ← lift (field reference "sha256" >>= textOf)
  let size ← lift (field reference "size" >>= intOf)
  follow digest size source

/-- `_Pool.owner`. -/
def owner (reference : Json) (source : Text) (role : OwnerRole) (cap : Nat) : PoolM Bytes := do
  let data ← resolve imports reference source cap
  let digest ← lift (field reference "sha256" >>= textOf)
  obligation role digest []
  pure data

/-- A record of the pool that has been decoded before, or is decoded now. -/
def decodeOnce (kind : RecordKind) (digest : Text) (data : Bytes)
    : PoolM (ParsedJournalRecord × Json) := fun pool =>
  match pool.records.get? (kind, digest) with
  | some entry => (.ok entry, pool)
  | none =>
      let outcome := do
        let parsed ← decodeJournalRecord imports kind data
        let plain ← thaw (limitsOf kind) parsed.document
        .ok (parsed, plain)
      match outcome with
      | .ok entry => (.ok entry, { pool with records := pool.records.set (kind, digest) entry })
      | .error raised => (.error raised, pool)

/-- `_Pool.local`. -/
def localRecord (reference : Json) (source : Text) (kind : RecordKind)
    : PoolM (ParsedJournalRecord × Json) := do
  let data ← resolve imports reference source (limitsOf kind).bytes
  let digest ← lift (field reference "sha256" >>= textOf)
  decodeOnce imports kind digest data

/-- The caps of process evidence; the other kinds are never referenced. -/
def evidenceCap : EvidenceKind → Nat
  | .invocation => mib
  | .result => 32768
  | .error => 8192
  | .intent | .ref => 0

/-- Process evidence that has been decoded before, or is decoded now. -/
def decodeEvidenceOnce (kind : EvidenceKind) (digest : Text) (data : Bytes)
    : PoolM (Stored × Json) := fun pool =>
  match pool.peRecords.get? (kind, digest) with
  | some entry => (.ok entry, pool)
  | none =>
      let outcome := do
        let view ← processEvidence imports data kind
        let plain ← thaw ⟨evidenceCap kind, 16, 4096⟩ view
        .ok (view, plain)
      match outcome with
      | .ok entry => (.ok entry, { pool with peRecords := pool.peRecords.set (kind, digest) entry })
      | .error raised => (.error raised, pool)

/-- `_Pool.pe`. -/
def evidence (reference : Json) (source : Text) (kind : EvidenceKind) : PoolM (Stored × Json) := do
  let data ← resolve imports reference source (evidenceCap kind)
  let digest ← lift (field reference "sha256" >>= textOf)
  decodeEvidenceOnce imports kind digest data

/-- `_blob_snapshot`. -/
def blobSnapshot (blob : EvidenceBlob) : Except JournalError Unit := do
  need (blob.data.length ≤ 32 * mib) .limit
  need (blob.sha256.length ≤ 32) .limit
  need (blob.sha256.length = 32) .schema

/-- The digests are hashed and compared in order; the work and the blobs so far. -/
def admitBlobs : List EvidenceBlob → Nat → Dict Text Bytes
    → Except JournalError (Nat × Dict Text Bytes)
  | [], work, blobs => .ok (work, blobs)
  | blob :: rest, work, blobs => do
      need (work + blob.data.length ≤ 512 * mib) .limit
      need (imports.sha256 blob.data = blob.sha256) .reference
      admitBlobs rest (work + blob.data.length) (blobs.set (hex blob.sha256) blob.data)

/-- `_Pool.__init__`. -/
def openPool (blobs : List EvidenceBlob) (recordSize cap : Nat) : Except JournalError Pool := do
  need (recordSize ≤ 524288) .limit
  need (blobs.length ≤ cap) .limit
  visit blobSnapshot blobs
  let supplied := (blobs.map fun blob => blob.data.length).sum
  need (supplied + recordSize ≤ 32 * mib) .limit
  need ((blobs.map fun blob => blob.sha256).Pairwise (· < ·)) .order
  let (work, admitted) ← admitBlobs imports blobs 0 []
  .ok {
    supplied := supplied
    hashWork := work
    blobs := admitted
    copies := blobs
    used := []
    edges := 0
    graph := []
    records := []
    peRecords := []
    obligations := []
    charged := []
    metadata := recordSize
  }

end Pool

/-- The references out of a node. -/
def Pool.references (pool : Pool) (node : Text) : List Text :=
  pool.graph.getD node []

/-- The nodes that the walk can meet. -/
def Pool.nodes (pool : Pool) : List Text :=
  (pool.graph.keys ++ pool.graph.keys.flatMap pool.references).dedup

/-- How a failed walk is reported. The last two never happen. -/
def walkError : DepthFirst.Failure → JournalError
  | .cyclic => .validation .reference
  | .deep => .validation .limit
  | .missing => .python .keyError
  | .exhausted => .python .assertionError

/-- `_Pool.finish`. -/
def Pool.finish (pool : Pool) : Except JournalError (List OpaqueOwnerValue) := do
  need ((∀ digest ∈ pool.used, digest ∈ pool.blobs.keys)
    ∧ ∀ digest ∈ pool.blobs.keys, digest ∈ pool.used) .reference
  match DepthFirst.search pool.references 16 pool.nodes pool.graph.keys with
  | .error failure => .error (walkError failure)
  | .ok _ => .ok (sortedBy OpaqueOwnerValue.key pool.obligations)

end Scanipy.Tools.Worker.Journal

import Scanipy.Python.Uuid

/-! Scan rows in the store with row-level security, and the index of idempotency keys beside it. -/

namespace Scanipy.Services.Scan

open Python

structure OrgRow (ρ : Type) where
  orgId : Text
  payload : ρ

structure OrgScopedStore (ρ : Type) where
  rows : Dict Text (OrgRow ρ)
  sessionOrgId : Option Text

namespace OrgScopedStore

variable {ρ : Type}

def create : OrgScopedStore ρ :=
  ⟨[], none⟩

/-- `seed`: insert a row. -/
def insert (store : OrgScopedStore ρ) (rowId orgId : Text) (payload : ρ) : OrgScopedStore ρ :=
  { store with rows := store.rows.set rowId ⟨orgId, payload⟩ }

def setSession (store : OrgScopedStore ρ) (orgId : Text) : OrgScopedStore ρ :=
  { store with sessionOrgId := some orgId }

def clearSession (store : OrgScopedStore ρ) : OrgScopedStore ρ :=
  { store with sessionOrgId := none }

/-- `query_one`; without a session nothing is visible. -/
def queryOne (store : OrgScopedStore ρ) (rowId : Text) : Option ρ :=
  match store.rows.get? rowId with
  | none => none
  | some row => if some row.orgId = store.sessionOrgId then some row.payload else none

end OrgScopedStore

structure ScanRecord where
  scanId : Uuid
  orgId : Text
  codebaseId : Uuid
  snapshotId : Uuid
  commitSha : Text
  sVersion : Text
  envDigest : Text
  detectorIds : List Text
  status : Text
  idempotencyKey : Uuid
  idempotencyBodyHash : Text
  deriving DecidableEq

structure OrgScopedScanStore where
  store : OrgScopedStore ScanRecord
  idempotency : Dict (Text × Uuid) Uuid

namespace OrgScopedScanStore

def create : OrgScopedScanStore :=
  ⟨.create, []⟩

def put (scans : OrgScopedScanStore) (record : ScanRecord) : OrgScopedScanStore :=
  ⟨scans.store.insert record.scanId.text record.orgId record,
    scans.idempotency.set (record.orgId, record.idempotencyKey) record.scanId⟩

/-- `get`: the row, and the store with its session cleared. -/
def get (scans : OrgScopedScanStore) (scanId : Uuid) (orgId : Text)
    : Option ScanRecord × OrgScopedScanStore :=
  let bound := scans.store.setSession orgId
  (bound.queryOne scanId.text, { scans with store := bound.clearSession })

def findByIdempotency (scans : OrgScopedScanStore) (orgId : Text) (idempotencyKey : Uuid)
    : Option ScanRecord × OrgScopedScanStore :=
  match scans.idempotency.get? (orgId, idempotencyKey) with
  | none => (none, scans)
  | some scanId => scans.get scanId orgId

/-- The rows of an organisation and an idempotency key. -/
def rowsOf (scans : OrgScopedScanStore) (orgId : Text) (idempotencyKey : Uuid) : List ScanRecord :=
  (scans.store.rows.map fun row => row.2.payload).filter fun record =>
    record.orgId = orgId ∧ record.idempotencyKey = idempotencyKey

/-- Every row stands under its own identifier and organisation and in the index, and the index has
no other entries.
-/
structure Sound (scans : OrgScopedScanStore) : Prop where
  unbound : scans.store.sessionOrgId = none
  distinct : scans.store.rows.keys.Nodup
  placed : ∀ rowId row, scans.store.rows.get? rowId = some row
    → rowId = row.payload.scanId.text ∧ row.orgId = row.payload.orgId
      ∧ scans.idempotency.get? (row.payload.orgId, row.payload.idempotencyKey)
        = some row.payload.scanId
  indexed : ∀ orgId key scanId, scans.idempotency.get? (orgId, key) = some scanId
    → ∃ record : ScanRecord, scans.store.rows.get? scanId.text = some ⟨orgId, record⟩
        ∧ record.scanId = scanId ∧ record.orgId = orgId ∧ record.idempotencyKey = key

theorem Sound.create : Sound create :=
  ⟨rfl, .nil, by rintro _ _ ⟨⟩, by rintro _ _ _ ⟨⟩⟩

variable {scans : OrgScopedScanStore}

/-- The row of a pair is what the index leads to, and reading it changes nothing. -/
theorem Sound.find (sound : scans.Sound) (orgId : Text) (key : Uuid)
    : (scans.findByIdempotency orgId key).2 = scans
      ∧ ∀ record, (scans.findByIdempotency orgId key).1 = some record
          ↔ scans.store.rows.get? record.scanId.text = some ⟨orgId, record⟩
            ∧ record.orgId = orgId ∧ record.idempotencyKey = key := by
  have kept (scanId : Uuid) : (scans.get scanId orgId).2 = scans := by
    obtain ⟨⟨rows, session⟩, index⟩ := scans
    cases sound.unbound
    rfl
  unfold findByIdempotency
  cases entry : scans.idempotency.get? (orgId, key) with
  | none =>
      refine ⟨rfl, fun record => iff_of_false (by simp) ?_⟩
      rintro ⟨stored, rfl, rfl⟩
      have listed := (sound.placed _ _ stored).2.2
      rw [entry] at listed
      cases listed
  | some scanId =>
      obtain ⟨found, stored, rfl, rfl, rfl⟩ := sound.indexed orgId key scanId entry
      refine ⟨kept _, fun record => ?_⟩
      have read : (scans.get found.scanId found.orgId).1 = some found := by
        simp [get, OrgScopedStore.queryOne, OrgScopedStore.setSession, stored]
      rw [read]
      constructor
      · rintro ⟨⟩
        exact ⟨stored, rfl, rfl⟩
      · rintro ⟨other, organisation, same⟩
        have listed := (sound.placed _ _ other).2.2
        dsimp only at listed
        rw [organisation, same, entry] at listed
        rw [← Option.some.inj listed, stored] at other
        cases other
        rfl

/-- A pair has no row but the one that its index entry leads to. -/
theorem Sound.rowsOf_eq (sound : scans.Sound) {record : ScanRecord}
    (stored : scans.store.rows.get? record.scanId.text = some ⟨record.orgId, record⟩)
    : scans.rowsOf record.orgId record.idempotencyKey = [record] := by
  have rows : scans.store.rows.filter (fun row => decide (row.2.payload.orgId = record.orgId
        ∧ row.2.payload.idempotencyKey = record.idempotencyKey))
      = [(record.scanId.text, ⟨record.orgId, record⟩)] := by
    refine List.perm_singleton.mp ((List.perm_ext_iff_of_nodup ?_ (List.nodup_singleton _)).mpr ?_)
    · exact (List.Nodup.of_map Prod.fst sound.distinct).filter _
    · rintro ⟨rowId, row⟩
      rw [List.mem_filter, List.mem_singleton, decide_eq_true_eq]
      constructor
      · rintro ⟨member, organisation, key⟩
        dsimp only at organisation key
        have found := Dict.get?_of_mem sound.distinct member
        obtain ⟨place, _, listed⟩ := sound.placed rowId row found
        have own := (sound.placed _ _ stored).2.2
        dsimp only at own
        rw [organisation, key, own] at listed
        rw [place, ← Option.some.inj listed, stored] at found
        rw [place, ← Option.some.inj listed, Option.some.inj found]
      · rintro ⟨⟩
        exact ⟨Dict.mem_of_get? stored, rfl, rfl⟩
  rw [rowsOf, List.filter_map]
  exact congrArg (List.map fun row => row.2.payload) rows

/-- A row under a new identifier for a pair without one keeps the store sound. -/
theorem Sound.put (sound : scans.Sound) {record : ScanRecord}
    (fresh : scans.store.rows.get? record.scanId.text = none)
    (unindexed : scans.idempotency.get? (record.orgId, record.idempotencyKey) = none)
    : (scans.put record).Sound := by
  refine ⟨sound.unbound, Dict.nodup_keys_set sound.distinct _ _, ?_, ?_⟩
  · intro rowId row stored
    simp only [OrgScopedScanStore.put, OrgScopedStore.insert, Dict.get?_set] at stored ⊢
    split at stored
    next same =>
      cases stored
      exact ⟨same.symm, rfl, by simp⟩
    next different =>
      obtain ⟨place, organisation, listed⟩ := sound.placed rowId row stored
      refine ⟨place, organisation, ?_⟩
      rw [if_neg, listed]
      intro pair
      rw [← pair, unindexed] at listed
      cases listed
  · intro orgId key scanId listed
    simp only [OrgScopedScanStore.put, OrgScopedStore.insert, Dict.get?_set] at listed ⊢
    split at listed
    next pair =>
      cases listed
      cases pair
      exact ⟨record, by simp, rfl, rfl, rfl⟩
    next =>
      obtain ⟨found, stored, same⟩ := sound.indexed orgId key scanId listed
      refine ⟨found, ?_, same⟩
      rw [if_neg, stored]
      intro shared
      rw [shared, stored] at fresh
      cases fresh

end OrgScopedScanStore

end Scanipy.Services.Scan

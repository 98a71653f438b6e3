import Mathlib.Data.List.MinMax
import Scanipy.Services.Scan.Provenance.Repartition

/-! The e-process gate on proposed specs: the betting update of a candidate's wealth, and the
decision step that turns a candidate into a pinned version of the spec set. Wealth is the exact
product of the betting factors, which the code keeps as the sum of their logarithms.
-/

namespace Scanipy.Services.Triage

open Analysis Library Python Scan.Provenance

/-- `DEFAULT_ALPHA`. -/
def defaultAlpha : ℚ := 1 / 20

/-- `_BET_C`. -/
def betC : ℚ := 1 / 2

/-- `_BET_KAPPA`. -/
def betKappa : ℚ := 2

/-- `CandidateSpec`. -/
structure CandidateSpec where
  id : Uuid
  orgId : Uuid
  specBody : Dict Text Json
  detectorClass : Text
  piZero : ℚ
  alpha : ℚ := defaultAlpha
  deriving DecidableEq

/-- `EProcessState`, with the wealth in place of its logarithm. -/
structure EProcessState where
  specId : Uuid
  piZero : ℚ
  alpha : ℚ := defaultAlpha
  wealth : ℚ := 1
  nObservations : Nat := 0
  sumOutcomes : ℚ := 0
  lastBetState : Dict Text ℚ := []
  deriving DecidableEq

/-- The errors of the gate. -/
inductive GateError where
  | zeroDivision
  | python (raised : PyError)
  | store (reason : String)
  | provenance (raised : ProvenanceError)
  deriving DecidableEq, Repr

namespace EProcessState

/-- `e_value`. -/
def eValue (state : EProcessState) : ℚ :=
  state.wealth

/-- `threshold`. -/
def threshold (state : EProcessState) : Except GateError ℚ :=
  if state.alpha = 0 then .error .zeroDivision else .ok (1 / state.alpha)

/-- `mean_estimate`. -/
def meanEstimate (state : EProcessState) : ℚ :=
  if state.nObservations = 0 then 0 else state.sumOutcomes / state.nObservations

end EProcessState

/-- `initial_state`. -/
def initialState (spec : CandidateSpec) : EProcessState where
  specId := spec.id
  piZero := spec.piZero
  alpha := spec.alpha

/-- `_predictable_bet`. -/
def predictableBet (state : EProcessState) : ℚ :=
  let raw := betKappa * (state.meanEstimate - state.piZero)
  let upper := if state.piZero > 0 then betC / state.piZero else 0
  if raw < 0 then 0 else if raw > upper then upper else raw

/-- `update_e_process`, which multiplies where the code adds `log1p` of the factor less one. -/
def updateEProcess (state : EProcessState) (outcome : ℚ) : Except GateError EProcessState := do
  demand (0 ≤ outcome ∧ outcome ≤ 1) (.python (.valueError "outcome must be bounded in [0, 1]"))
  let lam := predictableBet state
  let factorMinusOne := lam * (outcome - state.piZero)
  -- `math.log1p` is defined above minus one only
  demand (-1 < factorMinusOne) (.python (.valueError "math domain error"))
  .ok
    { state with
      wealth := state.wealth * (1 + factorMinusOne)
      nObservations := state.nObservations + 1
      sumOutcomes := state.sumOutcomes + outcome
      lastBetState := [(py "last_lambda", lam), (py "last_outcome", outcome)] }

/-- `combined_e_value`. -/
def combinedEValue (states : List EProcessState) : ℚ :=
  if states = [] then 1 else (states.map EProcessState.eValue).sum / states.length

/-- `SpecVersionRow.scope`. -/
inductive Scope where
  | global | customer
  deriving DecidableEq, Repr

/-- `SpecVersionRow.spec_provenance`. -/
inductive SpecProvenance where
  | globalUnrevalidated | globalRevalidated | customer
  deriving DecidableEq, Repr

/-- `SpecVersionRow`. -/
structure SpecVersionRow where
  id : Uuid
  orgId : Option Uuid
  sVersion : Text
  scope : Scope
  specSet : Dict Text Json
  specProvenance : SpecProvenance
  eProcessDetail : Dict Text ℚ
  deriving DecidableEq

/-- `SpecVersionStore`. -/
structure SpecVersionStore where
  State : Type
  allForClass : State → (detectorClass : Text) → Scope → List SpecVersionRow
  insert : State → SpecVersionRow → Except GateError State

/-- `ProposedSpecStore.mark_accepted`. -/
structure ProposedSpecStore where
  State : Type
  markAccepted : State → (specId acceptedAsSpecVersionId : Uuid) → (decidedAt : Int)
    → Except GateError State

/-- The three numbers of a version, in the order of tuples. -/
abbrev SemVer := Nat ×ₗ Nat ×ₗ Nat

/-- A number in the digits of ASCII, as `int` reads it. -/
def decimalOf (part : Text) : Option Nat :=
  if part ≠ [] ∧ part.all isDigit then some (Json.digitsValue part) else none

/-- The point that separates the numbers of a version. -/
def dot : CodePoint :=
  Fin.ofNat 0x110000 0x2E

/-- The numbers of `MAJOR.MINOR.PATCH`, as `_bump_patch` and the key of `next_semver_for_class`
read them.
-/
def semver (version : Text) : Except GateError SemVer :=
  match (version.splitOn dot).map decimalOf with
  | [some major, some minor, some patch] => .ok (toLex (major, toLex (minor, patch)))
  | _ => .error (.python (.valueError "not a MAJOR.MINOR.PATCH semver"))

/-- `f"{major}.{minor}.{patch}"`. -/
def semverText (major minor patch : Nat) : Text :=
  [dot].intercalate [decimal major, decimal minor, decimal patch]

/-- `_bump_patch`. -/
def bumpPatch (version : Text) : Except GateError Text := do
  let numbers ← semver version
  let (major, rest) := ofLex numbers
  let (minor, patch) := ofLex rest
  .ok (semverText major minor (patch + 1))

/-- A row with its `_key`. -/
def keyOf (row : SpecVersionRow) : Except GateError (SemVer × SpecVersionRow) := do
  let key ← semver row.sVersion
  .ok (key, row)

/-- `next_semver_for_class`. -/
def nextSemverForClass (store : SpecVersionStore) (versions : store.State) (detectorClass : Text)
    (scope : Scope := .global)
    : Except GateError Text := do
  let existing := store.allForClass versions detectorClass scope
  let keyed ← Metered.collect keyOf existing
  -- `max` keeps the first of the greatest, as `argmax` does
  match keyed.argmax Prod.fst with
  | none => .ok (py "1.0.0")
  | some (_, row) => bumpPatch row.sVersion

-- The decision

/-- `Decision`. -/
inductive Decision where
  | pending | accepted | quarantined
  deriving DecidableEq, Repr

/-- `AcceptanceVerdict`. -/
structure AcceptanceVerdict where
  specId : Uuid
  decision : Decision
  eValue : ℚ
  threshold : ℚ
  acceptedSVersion : Option Text := none
  deriving DecidableEq

/-- `_spec_acceptance_record`, under the id that `uuid4` returns. -/
def specAcceptanceRecord (id : Uuid) (spec : CandidateSpec) (newSVersion envDigest : Text)
    (scanId : Uuid)
    : ProvenanceRecord where
  id
  parentRecordId := none
  recordType := .specAcceptance
  scanId
  findingId := none
  orgId := spec.orgId
  codebaseId := spec.orgId
  commitSha := List.replicate 40 (Fin.ofNat 0x110000 0x30)
  scmProvider := py "n/a"
  snapshotId := spec.id
  snapshotDigest := py "sha256:" ++ List.replicate 64 (Fin.ofNat 0x110000 0x30)
  preconditionStatus := some .closedWorld
  sVersion := newSVersion
  envDigest
  cpgOrderHash := none
  cpgOrderHashAnnotation := cpgOrderHashAnnotation
  fingerprintClass := none
  witnessBlobUri := none
  sliceFingerprint := none
  ruleId := none
  specId := some spec.id.text
  detectorId := none
  detectorEngine := none
  sarifHash := none
  origin := none
  determinismPartition := none
  repartitionReason := none
  repartitionOracleId := none
  claimLabel := .unconditional

/-- The parameters of `evaluate_proposed_spec` that are not ports, and what `uuid4` and the clock
answer during the call.
-/
structure Call where
  kmsKeyArn : Text
  envDigest : Text
  scanId : Option Uuid
  signatureAlg : SignatureAlg
  decidedAt : Option Int
  rowId : Uuid
  recordId : Uuid
  freshScanId : Uuid
  now : Int

/-- The stores that `evaluate_proposed_spec` may be given. -/
structure Stores where
  specVersions : SpecVersionStore
  proposedSpecs : ProposedSpecStore
  provenance : ProvenanceStore

/-- The ports that a call is given, in the states that it finds the stores in. -/
structure Ports (stores : Stores) where
  specVersions : Option stores.specVersions.State := none
  proposedSpecs : Option stores.proposedSpecs.State := none
  provenanceStore : Option stores.provenance.State := none
  signer : Option Answer := none

/-- The `spec_versions` row of an accepted candidate. -/
def newRow (spec : CandidateSpec) (rowId : Uuid) (newSVersion : Text) (eValue threshold : ℚ)
    : SpecVersionRow where
  id := rowId
  orgId := none
  sVersion := newSVersion
  scope := .global
  specSet := spec.specBody
  specProvenance := .globalUnrevalidated
  eProcessDetail :=
    [(py "e_value", eValue), (py "threshold", threshold), (py "pi_zero", spec.piZero),
      (py "alpha", spec.alpha)]

variable {stores : Stores}

/-- The first write of an acceptance: the version that it allocates, inserted as a row. -/
def insertVersion (spec : CandidateSpec) (state : EProcessState) (threshold : ℚ) (call : Call)
    (ports : Ports stores)
    : Except GateError (Text × Ports stores) :=
  match ports.specVersions with
  | none => .ok (py "1.0.0", ports)
  | some versions => do
      let newSVersion ← nextSemverForClass stores.specVersions versions spec.detectorClass
      let row := newRow spec call.rowId newSVersion state.eValue threshold
      let inserted ← stores.specVersions.insert versions row
      .ok (newSVersion, { ports with specVersions := some inserted })

/-- The signed record of an acceptance. -/
def signAcceptance (spec : CandidateSpec) (newSVersion : Text) (call : Call) (ports : Ports stores)
    : Except GateError (Ports stores) :=
  match ports.provenanceStore, ports.signer with
  | some records, some answer =>
      let record := specAcceptanceRecord call.recordId spec newSVersion call.envDigest
        (call.scanId.getD call.freshScanId)
      match signInto stores.provenance answer record call.kmsKeyArn call.signatureAlg records with
      | .error raised => .error (.provenance raised)
      | .ok (signed, appended) => do
          demand (signed.record.sVersion = newSVersion) (.python .assertionError)
          .ok { ports with provenanceStore := some appended }
  | _, _ => .ok ports

/-- The flip of the proposed row. -/
def markAccepted (spec : CandidateSpec) (call : Call) (ports : Ports stores)
    : Except GateError (Ports stores) :=
  match ports.proposedSpecs with
  | none => .ok ports
  | some proposed => do
      let marked ← stores.proposedSpecs.markAccepted proposed spec.id call.rowId
        (call.decidedAt.getD call.now)
      .ok { ports with proposedSpecs := some marked }

/-- `evaluate_proposed_spec`. -/
def evaluateProposedSpec (spec : CandidateSpec) (state : EProcessState) (call : Call)
    (ports : Ports stores)
    : Except GateError (AcceptanceVerdict × Ports stores) := do
  let threshold ← state.threshold
  if state.eValue < threshold then
    .ok ({ specId := spec.id, decision := .pending, eValue := state.eValue, threshold }, ports)
  else
    let (newSVersion, ports) ← insertVersion spec state threshold call ports
    let ports ← signAcceptance spec newSVersion call ports
    let ports ← markAccepted spec call ports
    .ok
      ({ specId := spec.id, decision := .accepted, eValue := state.eValue, threshold,
          acceptedSVersion := some newSVersion },
        ports)

/-- An insert into `spec_versions`, which its constraints may refuse. -/
def insertRow (rows : List SpecVersionRow) (row : SpecVersionRow)
    : Except GateError (List SpecVersionRow) := do
  demand (row.scope = .global ↔ row.orgId = none) (.store "spec_versions_scope_org_chk")
  demand (∀ other ∈ rows, other.id ≠ row.id) (.store "spec_versions_pkey")
  demand (row.orgId ≠ none
      → ∀ other ∈ rows, other.orgId = row.orgId → other.sVersion ≠ row.sVersion)
    (.store "spec_versions_org_version_key")
  demand (row.scope = .global
      → ∀ other ∈ rows, other.scope = .global → other.sVersion ≠ row.sVersion)
    (.store "spec_versions_global_version_key")
  .ok (rows ++ [row])

/-- The table `spec_versions`, whose rows belong to the class that their spec sets name. -/
def specVersionsTable (classOf : Dict Text Json → Option Text) : SpecVersionStore where
  State := List SpecVersionRow
  allForClass rows detectorClass scope :=
    rows.filter fun row => row.scope = scope ∧ classOf row.specSet = some detectorClass
  insert := insertRow

/-- What `proposed_specs` keeps of the candidates that were accepted: the rows that they became and
when.
-/
def proposedSpecsTable : ProposedSpecStore where
  State := Dict Uuid (Uuid × Int)
  markAccepted proposed specId acceptedAs decidedAt :=
    .ok (proposed.set specId (acceptedAs, decidedAt))

/-- The tables, with a provenance store. -/
def tables (classOf : Dict Text Json → Option Text) (provenance : ProvenanceStore) : Stores where
  specVersions := specVersionsTable classOf
  proposedSpecs := proposedSpecsTable
  provenance

end Scanipy.Services.Triage

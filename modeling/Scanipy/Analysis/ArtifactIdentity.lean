import Scanipy.Python.Errors
import Scanipy.Python.JsonFields

/-! Artifact identities: a digest with its own class and namespace. -/

namespace Scanipy.Analysis

open Library Python

/-- `GRAPH_V2`. -/
def graphV2 : Text := py "scanipy-canonical-graph/2"

/-- `SLICE_V2`. -/
def sliceV2 : Text := py "scanipy-slice-normal-form/2"

/-- `STATES`. -/
inductive ArtifactStatus where
  | completed
  | pending
  | running
  | failed
  | notApplicable
  | legacyAmbiguous
  deriving DecidableEq, Repr

def ArtifactStatus.text : ArtifactStatus → Text
  | .completed => py "completed"
  | .pending => py "pending"
  | .running => py "running"
  | .failed => py "failed"
  | .notApplicable => py "not-applicable"
  | .legacyAmbiguous => py "legacy-ambiguous"

/-- A lowercase hexadecimal digit. -/
def IsHexDigit (point : CodePoint) : Prop :=
  (0x30 ≤ point.val ∧ point.val ≤ 0x39) ∨ (0x61 ≤ point.val ∧ point.val ≤ 0x66)

instance (point : CodePoint) : Decidable (IsHexDigit point) :=
  inferInstanceAs (Decidable ((_ ∧ _) ∨ (_ ∧ _)))

/-- `fullmatch` of `[0-9a-f]{width}`. -/
def IsHex (width : Nat) (text : Text) : Prop :=
  text.length = width ∧ ∀ point ∈ text, IsHexDigit point

instance (width : Nat) (text : Text) : Decidable (IsHex width text) :=
  @instDecidableAnd _ _ _ (List.decidableBAll IsHexDigit text)

/-- `ArtifactIdentity.__post_init__`. A status outside `STATES` is not representable. -/
def artifactPostInit (status : ArtifactStatus) (digest fingerprintClass ns : Option Text)
    : Except PyError Unit := do
  raiseUnless (∀ text ∈ digest, IsHex 64 text)
    "artifact digest must be 64 lowercase hexadecimal characters"
  if status = .completed then
    raiseUnless
      (digest ≠ none ∧ (fingerprintClass = some (py "strong") ∨ fingerprintClass = some (py "weak")))
      "completed artifact requires its digest and independent class"
    raiseUnless (ns ≠ none ∧ ns ≠ some [])
      "completed artifact requires its algorithm namespace"
  else
    raiseUnless (fingerprintClass = none ∧ ns = none)
      "uncomputed/legacy artifact cannot assert a class or namespace"
    raiseUnless (status = .legacyAmbiguous ∨ digest = none)
      "uncomputed artifact cannot carry a computed digest"

/-- `ArtifactIdentity`. -/
structure ArtifactIdentity where
  status : ArtifactStatus
  digest : Option Text
  fingerprintClass : Option Text
  ns : Option Text
  accepted : artifactPostInit status digest fingerprintClass ns = .ok ()
  deriving DecidableEq

/-- `ANNOTATION`. -/
def annotationLiteral : Text := py "canonical iff fingerprint_class = strong"

/-- The members of `STATES`. -/
def ArtifactStatus.states : List ArtifactStatus :=
  [.completed, .pending, .running, .failed, .notApplicable, .legacyAmbiguous]

/-- The status that a text names. -/
def artifactStatus (text : Text) : Except PyError ArtifactStatus :=
  match ArtifactStatus.states.find? fun status => status.text = text with
  | some status => .ok status
  | none => .error (.valueError "unknown artifact status")

/-- `value[key]`. -/
def item (members : Dict Text Json) (key : String) : Except PyError Json :=
  match members.get? (py key) with
  | some value => .ok value
  | none => .error .keyError

/-- `value[key]`, a string or null. -/
def textItem (members : Dict Text Json) (key : String) : Except PyError (Option Text) := do
  match ← item members key with
  | .null => .ok none
  | .str text => .ok (some text)
  | _ => .error (.valueError s!"artifact {key} must be a string or null")

/-- The keys of a descriptor. -/
def descriptorKeys : List String :=
  ["status", "digest", "fingerprint_class", "namespace", "annotation"]

/-- `ArtifactIdentity.from_dict`. -/
def artifactFromDict : Json → Except PyError ArtifactIdentity
  | .obj members => do
      raiseUnless (HasKeys members descriptorKeys) "invalid artifact descriptor shape"
      let literal ← item members "annotation"
      raiseUnless (literal = .str annotationLiteral)
        "artifact annotation must retain its exact scoped literal"
      let status ← textItem members "status"
      let digest ← textItem members "digest"
      let fingerprintClass ← textItem members "fingerprint_class"
      let ns ← textItem members "namespace"
      match status with
      | none => .error (.valueError "artifact status is required")
      | some status => do
          let status ← artifactStatus status
          construct (artifactPostInit status digest fingerprintClass ns) fun accepted =>
            { status, digest, fingerprintClass, ns, accepted }
  | _ => .error (.valueError "invalid artifact descriptor shape")

/-- The keys of the metadata. -/
def metadataKeys : List String :=
  ["schema_version", "cpg_order", "slice"]

/-- `validate_identity_metadata`. -/
def validateIdentityMetadata : Json → Except PyError (ArtifactIdentity × ArtifactIdentity)
  | .obj members => do
      raiseUnless (HasKeys members metadataKeys) "invalid identity metadata shape"
      let version ← item members "schema_version"
      raiseUnless (version = .int 2) "unsupported identity metadata version"
      let graph ← item members "cpg_order"
      let graph ← artifactFromDict graph
      let sliced ← item members "slice"
      let sliced ← artifactFromDict sliced
      .ok (graph, sliced)
  | _ => .error (.valueError "invalid identity metadata shape")

end Scanipy.Analysis

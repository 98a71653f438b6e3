import Scanipy.Python.Strings
import Scanipy.Services.Scan.Api.JobStates

/-! The body of a worker callback: from bytes to a typed report, or an error. -/

namespace Scanipy.Services.Scan

open Python Library

/-- What `json.loads` returns. The value of a float is never looked at. -/
inductive JsonValue where
  | null
  | bool (value : Bool)
  | int (value : Int)
  | float
  | str (value : Text)
  | list (items : List JsonValue)
  | dict (members : List (Text × JsonValue))

/-- The errors of a worker callback, with their messages, and those of the built-in operations
that it uses: the encoding of a text, the comparison of digests and the printing of an integer.
-/
inductive CallbackError where
  | invalidInput (message : Text)
  | invalidHmac (message : Text)
  | jobStatusConflict
  | unicodeEncodeError
  | typeError
  | valueError
  deriving DecidableEq

/-- The errors that the callback promises. -/
def CallbackError.Contractual : CallbackError → Prop
  | .invalidInput _ | .invalidHmac _ | .jobStatusConflict => True
  | .unicodeEncodeError | .typeError | .valueError => False

structure JobStatusReport where
  jobId : Uuid
  scanId : Uuid
  status : JobStatus
  sVersion : Text
  envDigest : Text
  findingsCount : Nat
  corePartitionCount : Nat
  oraclePartitionCount : Nat
  resultUri : Option Text
  witnessUri : Option Text
  error : Option (Dict Text Text)

/-- The decoders of the standard library: `json.loads(data)`, with `none` for each error that its
caller catches, and `UUID(value)`, with `none` for a `ValueError`.
-/
structure Decoders where
  loads : Bytes → Option JsonValue
  uuid : Text → Option Uuid

/-- `_load_json_object`. -/
def loadJsonObject (decoders : Decoders) (bodyBytes : Bytes) (what : String)
    : Except CallbackError (Dict Text JsonValue) :=
  match decoders.loads bodyBytes with
  | none => .error (.invalidInput (py what ++ py " body is not valid JSON"))
  | some (.dict members) => .ok members
  | some _ => .error (.invalidInput (py what ++ py " body must be a JSON object"))

/-- `_reject_unknown_keys`. -/
def rejectUnknownKeys (body : Dict Text JsonValue) (allowed : List Text) (what : String)
    : Except CallbackError Unit :=
  let unknown := sorted ((body.keys.filter fun key => key ∉ allowed))
  if unknown = [] then
    .ok ()
  else
    .error (.invalidInput (py what ++ py " body has unknown fields: " ++ Text.join (py ", ") unknown))

/-- `_required_uuid`. -/
def requiredUuid (decoders : Decoders) (body : Dict Text JsonValue) (key : String)
    : Except CallbackError Uuid :=
  match body.get? (py key) with
  | some (.str value) =>
      match decoders.uuid value with
      | some id => .ok id
      | none => .error (.invalidInput (py key ++ py " must be a UUID string"))
  | _ => .error (.invalidInput (py key ++ py " must be a UUID string"))

/-- `_required_str`. -/
def requiredStr (body : Dict Text JsonValue) (key : String) : Except CallbackError Text :=
  match body.get? (py key) with
  | some (.str (first :: rest)) => .ok (first :: rest)
  | _ => .error (.invalidInput (py key ++ py " must be a non-empty string"))

/-- `_optional_str`. -/
def optionalStr (body : Dict Text JsonValue) (key : String) : Except CallbackError (Option Text) :=
  match body.get? (py key) with
  | none | some .null => .ok none
  | some (.str value) => .ok (some value)
  | some _ => .error (.invalidInput (py key ++ py " must be a string or null"))

/-- `_optional_count`. -/
def optionalCount (body : Dict Text JsonValue) (key : String) : Except CallbackError Nat :=
  match body.get? (py key) with
  | none => .ok 0
  | some (.int (.ofNat value)) => .ok value
  | some _ => .error (.invalidInput (py key ++ py " must be a non-negative integer"))

/-- The `status` member of a report. -/
def reportStatus (body : Dict Text JsonValue) : Except CallbackError JobStatus :=
  match body.get? (py "status") with
  | some (.str value) =>
      if value = py "running" then .ok .running
      else if value = py "done" then .ok .done
      else if value = py "failed" then .ok .failed
      else .error (.invalidInput (py "status must be one of: running, done, failed"))
  | _ => .error (.invalidInput (py "status must be one of: running, done, failed"))

/-- The member as a text, where it is one. -/
def textMember : Text × JsonValue → Option (Text × Text)
  | (key, .str value) => some (key, value)
  | _ => none

/-- The `error` member of a report. -/
def reportError (body : Dict Text JsonValue) : Except CallbackError (Option (Dict Text Text)) :=
  match body.get? (py "error") with
  | none | some .null => .ok none
  | some (.dict members) =>
      match members.mapM textMember with
      | some texts => .ok (some texts)
      | none =>
          .error (.invalidInput (py "error must be an object of string values or null"))
  | some _ => .error (.invalidInput (py "error must be an object of string values or null"))

/-- The members that a report may have. -/
def reportKeys : List Text :=
  [py "job_id", py "scan_id", py "status", py "S_version", py "env_digest", py "findings_count",
    py "core_partition_count", py "oracle_partition_count", py "result_uri", py "witness_uri",
    py "error"]

def parseJobStatusReport (decoders : Decoders) (bodyBytes : Bytes)
    : Except CallbackError JobStatusReport := do
  let body ← loadJsonObject decoders bodyBytes "job status"
  rejectUnknownKeys body reportKeys "job status"
  let status ← reportStatus body
  let error ← reportError body
  let jobId ← requiredUuid decoders body "job_id"
  let scanId ← requiredUuid decoders body "scan_id"
  let sVersion ← requiredStr body "S_version"
  let envDigest ← requiredStr body "env_digest"
  let findingsCount ← optionalCount body "findings_count"
  let corePartitionCount ← optionalCount body "core_partition_count"
  let oraclePartitionCount ← optionalCount body "oracle_partition_count"
  let resultUri ← optionalStr body "result_uri"
  let witnessUri ← optionalStr body "witness_uri"
  .ok ⟨jobId, scanId, status, sVersion, envDigest, findingsCount, corePartitionCount,
    oraclePartitionCount, resultUri, witnessUri, error⟩

section Reading

variable {decoders : Decoders} {raised : CallbackError}
  (other : ∀ message, raised ≠ .invalidInput message)

include other

theorem requiredUuid_avoids (body : Dict Text JsonValue) (key : String)
    : Avoids raised (requiredUuid decoders body key) := by
  unfold requiredUuid
  split
  · split
    · exact .ok _
    · exact .error (Ne.symm (other _))
  · exact .error (Ne.symm (other _))

theorem requiredStr_avoids (body : Dict Text JsonValue) (key : String)
    : Avoids raised (requiredStr body key) := by
  unfold requiredStr
  split
  · exact .ok _
  · exact .error (Ne.symm (other _))

theorem optionalStr_avoids (body : Dict Text JsonValue) (key : String)
    : Avoids raised (optionalStr body key) := by
  unfold optionalStr
  split
  · exact .ok _
  · exact .ok _
  · exact .ok _
  · exact .error (Ne.symm (other _))

theorem optionalCount_avoids (body : Dict Text JsonValue) (key : String)
    : Avoids raised (optionalCount body key) := by
  unfold optionalCount
  split
  · exact .ok _
  · exact .ok _
  · exact .error (Ne.symm (other _))

theorem reportStatus_avoids (body : Dict Text JsonValue) : Avoids raised (reportStatus body) := by
  unfold reportStatus
  split
  · split_ifs
    · exact .ok _
    · exact .ok _
    · exact .ok _
    · exact .error (Ne.symm (other _))
  · exact .error (Ne.symm (other _))

theorem reportError_avoids (body : Dict Text JsonValue) : Avoids raised (reportError body) := by
  unfold reportError
  split
  · exact .ok _
  · exact .ok _
  · split
    · exact .ok _
    · exact .error (Ne.symm (other _))
  · exact .error (Ne.symm (other _))

/-- Reading a report raises no error but `invalidInput`. Witness: each of its steps. -/
theorem parseJobStatusReport_avoids (bodyBytes : Bytes)
    : Avoids raised (parseJobStatusReport decoders bodyBytes) := by
  have loaded : Avoids raised (loadJsonObject decoders bodyBytes "job status") := by
    unfold loadJsonObject
    split
    · exact .error (Ne.symm (other _))
    · exact .ok _
    · exact .error (Ne.symm (other _))
  refine loaded.bind fun body _ => ?_
  have known : Avoids raised (rejectUnknownKeys body reportKeys "job status") := by
    unfold rejectUnknownKeys
    dsimp only
    split
    · exact .ok _
    · exact .error (Ne.symm (other _))
  refine known.bind fun _ _ => ?_
  refine (reportStatus_avoids other body).bind fun _ _ => ?_
  refine (reportError_avoids other body).bind fun _ _ => ?_
  refine (requiredUuid_avoids other body _).bind fun _ _ => ?_
  refine (requiredUuid_avoids other body _).bind fun _ _ => ?_
  refine (requiredStr_avoids other body _).bind fun _ _ => ?_
  refine (requiredStr_avoids other body _).bind fun _ _ => ?_
  refine (optionalCount_avoids other body _).bind fun _ _ => ?_
  refine (optionalCount_avoids other body _).bind fun _ _ => ?_
  refine (optionalCount_avoids other body _).bind fun _ _ => ?_
  refine (optionalStr_avoids other body _).bind fun _ _ => ?_
  exact (optionalStr_avoids other body _).bind fun _ _ => .ok _

end Reading

end Scanipy.Services.Scan

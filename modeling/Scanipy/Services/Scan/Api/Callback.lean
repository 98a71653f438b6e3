import Scanipy.Library.Segments
import Scanipy.Python.JsonTokens
import Scanipy.Services.Scan.Http.Serde

/-! The worker callback: the signed request, its verification and the transition of the job. -/

namespace Scanipy.Services.Scan

open Python Library

/-- The library functions of a callback, and the secret of a job and key id. -/
structure CallbackRuntime extends Decoders where
  sha256 : Bytes → Bytes
  hmac : Bytes → Bytes → Bytes
  lookup : Uuid → Text → Option Bytes

structure CallbackRequest where
  jobId : Uuid
  hmacHeader : Text
  workerId : Text
  timestamp : Int
  bodyBytes : Bytes
  now : Int

/-- `_CALLBACK_PATH_TEMPLATE.format(job_id=job_id)`. -/
def callbackPath (jobId : Uuid) : Text :=
  py "/api/v1/jobs/" ++ jobId.text ++ py "/status"

def newline : CodePoint := Fin.ofNat 0x110000 0x0A

/-- The request as text: its five parts with line feeds between them. -/
def canonicalText (method path workerId bodySha timestamp : Text) : Text :=
  method ++ newline :: (path ++ newline :: (workerId ++ newline :: (bodySha ++ newline :: timestamp)))

/-- `canonical_request`. An integer of more than 4300 digits is not printed. -/
def canonicalRequest (runtime : CallbackRuntime) (method path workerId : Text) (bodyBytes : Bytes)
    (timestamp : Int) : Except CallbackError Bytes :=
  if 4300 < (decimal timestamp.natAbs).length then
    .error .valueError
  else
    match (canonicalText method path workerId (hex (runtime.sha256 bodyBytes))
      (Json.numeral timestamp)).encode with
    | none => .error .unicodeEncodeError
    | some message => .ok message

/-- `_parse_hmac_header`: the key id and the digest. -/
def parseHmacHeader (header : Text) : Except CallbackError (Text × Text) :=
  let scheme := py "HMAC "
  if header.take scheme.length ≠ scheme then
    .error (.invalidHmac (py "Authorization header is not an HMAC bearer"))
  else
    match Text.partition (Fin.ofNat 0x110000 0x3A) (Text.strip (header.drop scheme.length)) with
    | (first :: keyId, some (digit :: digest)) => .ok (first :: keyId, digit :: digest)
    | _ => .error (.invalidHmac (py "malformed HMAC bearer: expected '<key-id>:<hex-digest>'"))

/-- `hmac.compare_digest` of two texts, of which the second is ASCII. -/
def compareDigest (provided expected : Text) : Except CallbackError Bool :=
  if provided.IsAscii then .ok (provided = expected) else .error .typeError

/-- `verify_worker_callback_hmac`. -/
def verifyWorkerCallbackHmac (runtime : CallbackRuntime) (request : CallbackRequest)
    : Except CallbackError Unit := do
  let (keyId, providedDigest) ← parseHmacHeader request.hmacHeader
  match runtime.lookup request.jobId keyId with
  | none => .error (.invalidHmac (py "unknown HMAC key id for this job"))
  | some secret => do
      let message ← canonicalRequest runtime (py "POST") (callbackPath request.jobId)
        request.workerId request.bodyBytes request.timestamp
      let same ← compareDigest providedDigest (hex (runtime.hmac secret message))
      demand (same = true) (.invalidHmac (py "HMAC digest mismatch"))
      demand ((request.now - request.timestamp).natAbs ≤ 300)
        (.invalidHmac (py "HMAC timestamp outside the 300s anti-replay window"))

/-- `_ENV_DIGEST_RE.match(value)`. A line feed may stand behind the digits. -/
def isEnvDigest (value : Text) : Bool :=
  let pattern := literally "sha256:" ++ List.replicate 64 isHex
  fullmatch pattern value || fullmatch (pattern ++ [(· == newline)]) value

/-- `post_job_status` with a store: the outcome, and the states it leaves. -/
def postJobStatus (runtime : CallbackRuntime) (request : CallbackRequest) (body : JobStatusReport)
    (states : JobStates) : Except CallbackError Unit × JobStates :=
  if body.jobId ≠ request.jobId then
    (.error (.invalidHmac (py "path job_id does not match body job_id")), states)
  else
    match verifyWorkerCallbackHmac runtime request with
    | .error raised => (.error raised, states)
    | .ok () =>
        if body.sVersion = [] ∨ isEnvDigest body.envDigest = false then
          (.error (.invalidInput
            (py "worker callback must carry S_version + sha256 env_digest (INV-2)")), states)
        else
          match states.transition request.jobId body.status
            (hex (runtime.sha256 request.bodyBytes)) with
          | (.conflict, next) => (.error .jobStatusConflict, next)
          | (_, next) => (.ok (), next)

namespace CallbackRuntime

/-- The route: the report is parsed from the body that is verified. -/
def callback (runtime : CallbackRuntime) (request : CallbackRequest) (states : JobStates)
    : Except CallbackError Unit × JobStates :=
  match parseJobStatusReport runtime.toDecoders request.bodyBytes with
  | .error raised => (.error raised, states)
  | .ok body => postJobStatus runtime request body states

/-- Callbacks one after another: their outcomes, and the states they leave. -/
def callbacks (runtime : CallbackRuntime)
    : List CallbackRequest → JobStates → List (Except CallbackError Unit) × JobStates
  | [], states => ([], states)
  | request :: rest, states =>
      let (outcome, next) := runtime.callback request states
      let (outcomes, last) := callbacks runtime rest next
      (outcome :: outcomes, last)

theorem numeral_injective : Function.Injective Json.numeral := by
  intro left right same
  have ends : Json.EndsNumber [] := by simp [Json.EndsNumber, Json.StartsFloat]
  have read := Json.scanNumber_numeral left ends
  rw [same, Json.scanNumber_numeral right ends] at read
  exact (congrArg Prod.fst (Option.some.inj read)).symm

theorem uncontrolled_hex (data : Bytes) : Json.Uncontrolled (hex data) := by
  intro point member
  obtain ⟨byte, _, digit⟩ := List.mem_flatMap.mp member
  rcases List.mem_pair.mp digit with rfl | rfl
  · exact Json.uncontrolled_hexDigit (by omega)
  · exact Json.uncontrolled_hexDigit (by omega)

theorem uncontrolled_uuid (id : Uuid) : Json.Uncontrolled id.text := by
  intro point member
  by_cases dash : point.val = 0x2D
  · omega
  · have digit : point ∈ id.hex := by
      rw [← Uuid.filter_text]
      exact List.mem_filter.mpr ⟨member, decide_eq_true dash⟩
    exact uncontrolled_hex _ point digit

theorem uncontrolled_path (jobId : Uuid) : Json.Uncontrolled (callbackPath jobId) :=
  ((Json.uncontrolled_py rfl).append (uncontrolled_uuid jobId)).append (Json.uncontrolled_py rfl)

theorem newline_not_mem {text : Text} (uncontrolled : Json.Uncontrolled text) : newline ∉ text := by
  intro member
  exact absurd (uncontrolled newline member) (by decide)

theorem callbackPath_injective : Function.Injective callbackPath := by
  intro left right same
  have cut := List.append_cancel_right same
  exact Uuid.text_injective (List.append_cancel_left cut)

variable {workerId : Text} {method path : Text}

/-- The canonical text determines its parts, whatever the worker id contains. Witness: the path
stands before the second line feed, the digest and the timestamp behind the last two.
-/
theorem canonicalText_inj {other worker bodySha sha timestamp stamp : Text}
    (pathFree : newline ∉ path) (otherFree : newline ∉ other) (bodyFree : newline ∉ bodySha)
    (shaFree : newline ∉ sha) (timestampFree : newline ∉ timestamp) (stampFree : newline ∉ stamp)
    (same : canonicalText method path workerId bodySha timestamp
      = canonicalText method other worker sha stamp)
    : path = other ∧ workerId = worker ∧ bodySha = sha ∧ timestamp = stamp := by
  have tail := List.tail_eq_of_cons_eq (List.append_cancel_left same)
  obtain rfl := Segments.eq_of_append_cons_eq pathFree otherFree tail
  have rest := List.tail_eq_of_cons_eq (List.append_cancel_left tail)
  simp only [← List.append_assoc, ← List.cons_append] at rest
  obtain ⟨front, stamps⟩ := Segments.eq_of_append_cons_eq_last timestampFree stampFree rest
  obtain ⟨workers, bodies⟩ := Segments.eq_of_append_cons_eq_last bodyFree shaFree front
  exact ⟨rfl, workers, bodies, stamps⟩

variable {runtime : CallbackRuntime} {timestamp : Int}

/-- When a canonical request is built, and when which error stops it. -/
theorem canonicalRequest_ok {bodyBytes message : Bytes}
    : canonicalRequest runtime method path workerId bodyBytes timestamp = .ok message
      ↔ (decimal timestamp.natAbs).length ≤ 4300
        ∧ (canonicalText method path workerId (hex (runtime.sha256 bodyBytes))
            (Json.numeral timestamp)).encode = some message := by
  unfold canonicalRequest
  split
  next long => simp [Nat.not_le.mpr long]
  next short =>
    split <;> simp_all

/-- What the holder of a secret signs: a body for a job at a time. -/
structure SignedCallback where
  jobId : Uuid
  workerId : Text
  bodyBytes : Bytes
  timestamp : Int

/-- The bytes that are signed for a callback. -/
def message (runtime : CallbackRuntime) (call : SignedCallback) : Except CallbackError Bytes :=
  canonicalRequest runtime (py "POST") (callbackPath call.jobId) call.workerId call.bodyBytes
    call.timestamp

/-- What a request claims that was signed. -/
def presented (request : CallbackRequest) : SignedCallback :=
  ⟨request.jobId, request.workerId, request.bodyBytes, request.timestamp⟩

variable {call : SignedCallback}

/-- The signed bytes determine what was signed, up to the digest of the body. -/
theorem message_inj {other : SignedCallback} {data : Bytes}
    (signed : runtime.message call = .ok data) (signedToo : runtime.message other = .ok data)
    : call.jobId = other.jobId ∧ call.workerId = other.workerId
      ∧ runtime.sha256 call.bodyBytes = runtime.sha256 other.bodyBytes
      ∧ call.timestamp = other.timestamp := by
  have text {call : SignedCallback} (signed : runtime.message call = .ok data)
      : (canonicalText (py "POST") (callbackPath call.jobId) call.workerId
          (hex (runtime.sha256 call.bodyBytes)) (Json.numeral call.timestamp)).utf8 = data := by
    have encoded := (canonicalRequest_ok.mp signed).2
    unfold Text.encode at encoded
    split at encoded
    · exact Option.some.inj encoded
    · cases encoded
  have same := Text.utf8_injective ((text signed).trans (text signedToo).symm)
  obtain ⟨paths, workers, bodies, stamps⟩ := canonicalText_inj
    (newline_not_mem (uncontrolled_path _)) (newline_not_mem (uncontrolled_path _))
    (newline_not_mem (uncontrolled_hex _)) (newline_not_mem (uncontrolled_hex _))
    (newline_not_mem (Json.uncontrolled_numeral _)) (newline_not_mem (Json.uncontrolled_numeral _))
    same
  exact ⟨callbackPath_injective paths, workers, hex_injective bodies, numeral_injective stamps⟩

-- Verification

variable {request : CallbackRequest}

/-- What a verified request has: a known key, the digest of its bytes, and a recent timestamp. -/
theorem verify_ok
    : verifyWorkerCallbackHmac runtime request = .ok ()
      ↔ ∃ keyId digest secret data, parseHmacHeader request.hmacHeader = .ok (keyId, digest)
          ∧ runtime.lookup request.jobId keyId = some secret
          ∧ runtime.message (presented request) = .ok data
          ∧ digest.IsAscii ∧ digest = hex (runtime.hmac secret data)
          ∧ (request.now - request.timestamp).natAbs ≤ 300 := by
  unfold verifyWorkerCallbackHmac
  rw [bind_ok]
  constructor
  · rintro ⟨⟨keyId, digest⟩, parsed, rest⟩
    dsimp only at rest
    cases known : runtime.lookup request.jobId keyId with
    | none => simp [known] at rest
    | some secret =>
        simp only [known] at rest
        obtain ⟨data, built, rest⟩ := bind_ok.mp rest
        obtain ⟨same, compared, rest⟩ := bind_ok.mp rest
        obtain ⟨matched, recent⟩ := check_ok.mp rest
        have equal := demand_ok.mp matched
        subst equal
        unfold compareDigest at compared
        split at compared
        next ascii =>
          exact ⟨keyId, digest, secret, data, parsed, known, built, ascii,
            of_decide_eq_true (Except.ok.inj compared), demand_ok.mp recent⟩
        next => cases compared
  · rintro ⟨keyId, digest, secret, data, parsed, known, built, ascii, equal, recent⟩
    refine ⟨(keyId, digest), parsed, ?_⟩
    dsimp only
    rw [known]
    refine bind_ok.mpr ⟨data, built, bind_ok.mpr ⟨true, ?_, ?_⟩⟩
    · simp [compareDigest, ascii, ← equal]
    · exact check_ok.mpr ⟨demand_ok.mpr rfl, demand_ok.mpr recent⟩

theorem path_encodable (jobId : Uuid) : (callbackPath jobId).Encodable := by
  refine ((py_encodable _).append fun point member => ?_).append (py_encodable _)
  have ascii := Uuid.text_ascii jobId point member
  unfold CodePoint.IsSurrogate
  omega

variable {jobId : Uuid}

/-- The request encodes when the worker id does. -/
theorem canonicalText_encodable_iff {body : Bytes}
    : (canonicalText (py "POST") (callbackPath jobId) workerId (hex body)
        (Json.numeral timestamp)).Encodable
      ↔ workerId.Encodable := by
  constructor
  · intro encodable point member
    exact encodable point (by simp [canonicalText, member])
  · intro encodable point member
    simp only [canonicalText, List.mem_append, List.mem_cons] at member
    have feed : ¬newline.IsSurrogate := by decide
    rcases member with method | rfl | path | rfl | worker | rfl | body | rfl | stamp
    · exact py_encodable _ point method
    · exact feed
    · exact path_encodable jobId point path
    · exact feed
    · exact encodable point worker
    · exact feed
    · exact hex_encodable _ point body
    · exact feed
    · exact Json.numeral_encodable timestamp point stamp

/-- The texts of a request can be printed, encoded and compared. -/
def Presentable (request : CallbackRequest) (digest : Text) : Prop :=
  (decimal request.timestamp.natAbs).length ≤ 4300 ∧ request.workerId.Encodable ∧ digest.IsAscii

variable {raised : CallbackError}

theorem parseHmacHeader_contractual {header : Text}
    (failed : parseHmacHeader header = .error raised)
    : raised.Contractual := by
  unfold parseHmacHeader at failed
  extract_lets scheme at failed
  split at failed
  · cases failed
    trivial
  · split at failed
    · cases failed
    · cases failed
      trivial

/-- A request that cannot be built stops the callback with an error outside its contract. -/
theorem message_error (failed : runtime.message call = .error raised)
    : ¬raised.Contractual := by
  unfold message canonicalRequest at failed
  split at failed
  · cases failed
    exact id
  · split at failed
    · cases failed
      exact id
    · cases failed

theorem exists_message_iff
    : (∃ data, runtime.message call = .ok data)
      ↔ (decimal call.timestamp.natAbs).length ≤ 4300 ∧ call.workerId.Encodable := by
  simp only [message, canonicalRequest_ok, Text.encode, canonicalText_encodable_iff]
  by_cases encodable : call.workerId.Encodable <;> simp [encodable]

/-- Verification keeps to its errors exactly where the texts of a request with a known key can be
printed, encoded and compared.
-/
theorem verify_contractual_iff
    : (∀ raised, verifyWorkerCallbackHmac runtime request = .error raised → raised.Contractual)
      ↔ ∀ keyId digest secret, parseHmacHeader request.hmacHeader = .ok (keyId, digest)
          → runtime.lookup request.jobId keyId = some secret → Presentable request digest := by
  unfold verifyWorkerCallbackHmac
  cases parsed : parseHmacHeader request.hmacHeader with
  | error raised =>
      have contractual := parseHmacHeader_contractual parsed
      simp [bind, Except.bind, contractual]
  | ok parts =>
      obtain ⟨keyId, digest⟩ := parts
      rw [ok_bind]
      dsimp only
      cases known : runtime.lookup request.jobId keyId with
      | none =>
          simp only [Except.error.injEq, forall_eq', Except.ok.injEq, Prod.mk.injEq]
          refine iff_of_true trivial ?_
          rintro _ _ secret ⟨rfl, rfl⟩ found
          rw [known] at found
          cases found
      | some secret =>
          have unique : (∀ other text key, (.ok (keyId, digest) : Except CallbackError (Text × Text))
                = .ok (other, text) → runtime.lookup request.jobId other = some key
                → Presentable request text)
              ↔ Presentable request digest := by
            constructor
            · intro every
              exact every keyId digest secret rfl known
            · rintro holds _ _ _ ⟨⟩ _
              exact holds
          rw [unique]
          dsimp only
          have buildable : (∃ data, runtime.message (presented request) = .ok data) ↔ _ :=
            exists_message_iff
          cases built : runtime.message (presented request) with
          | error raised =>
              have unpresentable : ¬Presentable request digest := by
                rintro ⟨short, encodable, _⟩
                obtain ⟨data, same⟩ := buildable.mpr ⟨short, encodable⟩
                rw [built] at same
                cases same
              refine iff_of_false (fun every => message_error built (every raised ?_)) unpresentable
              change (runtime.message (presented request) >>= _) = _
              rw [built]
              rfl
          | ok data =>
              obtain ⟨short, encodable⟩ := buildable.mp ⟨data, built⟩
              change (∀ raised, (runtime.message (presented request) >>= _) = _ → _) ↔ _
              rw [built, ok_bind]
              by_cases ascii : digest.IsAscii
              · refine iff_of_true ?_ ⟨short, encodable, ascii⟩
                intro raised failed
                simp only [compareDigest, ascii, if_true, ok_bind] at failed
                unfold demand at failed
                split at failed
                · rw [ok_bind] at failed
                  split at failed
                  · cases failed
                  · cases failed
                    trivial
                · cases failed
                  trivial
              · refine iff_of_false (fun every => ?_) fun holds => ascii holds.2.2
                refine every .typeError ?_
                rw [compareDigest, if_neg ascii]
                rfl

-- Callbacks

/-- A callback that returns has reported a verified body whose transition is allowed; one that
raises leaves the states alone.
-/
theorem callback_cases (runtime : CallbackRuntime) (request : CallbackRequest) (states : JobStates)
    : (∃ raised, runtime.callback request states = (.error raised, states))
      ∨ ∃ body, parseJobStatusReport runtime.toDecoders request.bodyBytes = .ok body
          ∧ body.jobId = request.jobId ∧ verifyWorkerCallbackHmac runtime request = .ok ()
          ∧ runtime.callback request states
            = (.ok (), (states.transition request.jobId body.status
                (hex (runtime.sha256 request.bodyBytes))).2) := by
  unfold callback
  cases parsed : parseJobStatusReport runtime.toDecoders request.bodyBytes with
  | error raised => exact .inl ⟨raised, rfl⟩
  | ok body =>
      dsimp only
      unfold postJobStatus
      split
      next => exact .inl ⟨_, rfl⟩
      next same =>
        cases verified : verifyWorkerCallbackHmac runtime request with
        | error raised => exact .inl ⟨raised, rfl⟩
        | ok done =>
            dsimp only
            split
            next => exact .inl ⟨_, rfl⟩
            next =>
              cases moved : states.transition request.jobId body.status
                (hex (runtime.sha256 request.bodyBytes)) with
              | mk outcome next =>
                  cases outcome with
                  | applied => exact .inr ⟨body, rfl, not_not.mp same, rfl, by rw [moved]⟩
                  | duplicate => exact .inr ⟨body, rfl, not_not.mp same, rfl, by rw [moved]⟩
                  | conflict =>
                      refine .inl ⟨.jobStatusConflict, ?_⟩
                      rcases JobStates.transition_cases states request.jobId body.status
                        (hex (runtime.sha256 request.bodyBytes)) with ⟨applied, _⟩ | ⟨_, _, kept⟩
                      · rw [applied] at moved
                        cases moved
                      · rw [kept] at moved
                        cases moved
                        rfl

/-- The request reaches the comparison of digests only with texts that allow it. -/
def Safe (runtime : CallbackRuntime) (request : CallbackRequest) : Prop :=
  ∀ body keyId digest secret, parseJobStatusReport runtime.toDecoders request.bodyBytes = .ok body
    → body.jobId = request.jobId → parseHmacHeader request.hmacHeader = .ok (keyId, digest)
    → runtime.lookup request.jobId keyId = some secret → Presentable request digest

variable {states : JobStates}

/-- A callback keeps to its errors exactly where its request is safe. -/
theorem callback_contractual_iff
    : (∀ raised, (runtime.callback request states).1 = .error raised → raised.Contractual)
      ↔ runtime.Safe request := by
  unfold callback Safe
  cases parsed : parseJobStatusReport runtime.toDecoders request.bodyBytes with
  | error raised =>
      refine iff_of_true ?_ (by simp)
      rintro _ ⟨⟩
      by_contra foreign
      have other : ∀ message, raised ≠ .invalidInput message := by
        rintro message rfl
        exact foreign trivial
      exact parseJobStatusReport_avoids other _ parsed
  | ok body =>
      dsimp only
      unfold postJobStatus
      split
      next different =>
        refine iff_of_true ?_ ?_
        · rintro _ ⟨⟩
          trivial
        · rintro _ _ _ _ ⟨⟩ same
          exact absurd same different
      next same =>
        have unique : (∀ other keyId digest secret, (.ok body : Except CallbackError _) = .ok other
              → other.jobId = request.jobId
              → parseHmacHeader request.hmacHeader = .ok (keyId, digest)
              → runtime.lookup request.jobId keyId = some secret → Presentable request digest)
            ↔ ∀ keyId digest secret, parseHmacHeader request.hmacHeader = .ok (keyId, digest)
              → runtime.lookup request.jobId keyId = some secret → Presentable request digest := by
          constructor
          · intro every keyId digest secret
            exact every body keyId digest secret rfl (not_not.mp same)
          · rintro every _ keyId digest secret ⟨⟩ _
            exact every keyId digest secret
        rw [unique, ← verify_contractual_iff]
        cases checked : verifyWorkerCallbackHmac runtime request with
        | error raised => simp
        | ok done =>
            refine iff_of_true ?_ (by simp)
            intro raised failed
            dsimp only at failed
            split at failed
            · cases failed
              trivial
            · split at failed
              · cases failed
                trivial
              · cases failed

/-- Where a recorded state comes from: a body that a holder of a secret of the job signed for it,
reported within five minutes of the time that was signed.
-/
def Signed (runtime : CallbackRuntime) (signs : Bytes → SignedCallback → Prop)
    (request : CallbackRequest) (jobId : Uuid) (state : JobState) : Prop :=
  ∃ keyId secret call body, runtime.lookup jobId keyId = some secret ∧ signs secret call
    ∧ call.jobId = jobId ∧ call.timestamp = request.timestamp
    ∧ (request.now - call.timestamp).natAbs ≤ 300
    ∧ parseJobStatusReport runtime.toDecoders call.bodyBytes = .ok body ∧ body.jobId = jobId
    ∧ state = ⟨body.status, hex (runtime.sha256 call.bodyBytes)⟩

/-- Whoever presents the digest of a message under a secret has it from a holder of the secret. -/
def Unforgeable (runtime : CallbackRuntime) (signs : Bytes → SignedCallback → Prop)
    (request : CallbackRequest) : Prop :=
  ∀ keyId digest secret data, parseHmacHeader request.hmacHeader = .ok (keyId, digest)
    → runtime.lookup request.jobId keyId = some secret
    → runtime.message (presented request) = .ok data → digest = hex (runtime.hmac secret data)
    → ∃ call, signs secret call ∧ runtime.message call = .ok data

/-- No signed body has the digest of another presented one. -/
def CollisionFree (runtime : CallbackRuntime) (signs : Bytes → SignedCallback → Prop)
    (request : CallbackRequest) : Prop :=
  ∀ secret call, signs secret call → runtime.sha256 call.bodyBytes = runtime.sha256 request.bodyBytes
    → call.bodyBytes = request.bodyBytes

variable {state : JobState} {signs : Bytes → SignedCallback → Prop}

/-- A state that a callback leaves was there before it or comes from its signed body. -/
theorem callback_records (unforgeable : runtime.Unforgeable signs request)
    (distinct : runtime.CollisionFree signs request)
    (recorded : (runtime.callback request states).2.get? jobId = some state)
    : states.get? jobId = some state ∨ runtime.Signed signs request jobId state := by
  rcases callback_cases runtime request states
    with ⟨raised, failed⟩ | ⟨body, parsed, same, verified, returned⟩
  · rw [failed] at recorded
    exact .inl recorded
  · rw [returned] at recorded
    dsimp only at recorded
    rcases JobStates.transition_cases states request.jobId body.status
      (hex (runtime.sha256 request.bodyBytes)) with ⟨applied, _⟩ | ⟨_, _, kept⟩
    · rw [applied, Dict.get?_set] at recorded
      split at recorded
      next own =>
        subst own
        cases recorded
        obtain ⟨keyId, digest, secret, data, header, known, built, _, equal, recent⟩ :=
          verify_ok.mp verified
        obtain ⟨call, signed, sent⟩ := unforgeable keyId digest secret data header known built equal
        obtain ⟨jobs, _, bodies, stamps⟩ := message_inj sent built
        have source : call.bodyBytes = request.bodyBytes := distinct secret call signed bodies
        dsimp only [presented] at jobs stamps
        exact .inr ⟨keyId, secret, call, body, known, signed, jobs, stamps, stamps ▸ recent,
          source ▸ parsed, same, by rw [source]⟩
      next => exact .inl recorded
    · rw [kept] at recorded
      exact .inl recorded

theorem callback_keeps_terminal (recorded : states.get? jobId = some state)
    (terminal : state.status ≠ .running)
    : (runtime.callback request states).2.get? jobId = some state := by
  rcases callback_cases runtime request states
    with ⟨raised, failed⟩ | ⟨body, _, _, _, returned⟩
  · rw [failed]
    exact recorded
  · rw [returned]
    exact JobStates.transition_keeps_terminal recorded terminal

theorem callbacks_cons (request : CallbackRequest) (rest : List CallbackRequest)
    (states : JobStates)
    : runtime.callbacks (request :: rest) states
      = ((runtime.callback request states).1
            :: (runtime.callbacks rest (runtime.callback request states).2).1,
          (runtime.callbacks rest (runtime.callback request states).2).2) :=
  rfl

variable {requests : List CallbackRequest}

/-- Callbacks keep to their errors exactly where every request is safe, by induction on them. -/
theorem callbacks_contractual_iff
    : (∀ outcome ∈ (runtime.callbacks requests states).1, ∀ raised, outcome = .error raised
        → raised.Contractual)
      ↔ ∀ request ∈ requests, runtime.Safe request := by
  induction requests generalizing states with
  | nil => simp [callbacks]
  | cons request rest ih =>
      rw [callbacks_cons, List.forall_mem_cons, List.forall_mem_cons, callback_contractual_iff, ih]

/-- A recorded state was there at first or comes from a signed body, by induction on the callbacks.
-/
theorem callbacks_record (unforgeable : ∀ request ∈ requests, runtime.Unforgeable signs request)
    (distinct : ∀ request ∈ requests, runtime.CollisionFree signs request)
    (recorded : (runtime.callbacks requests states).2.get? jobId = some state)
    : states.get? jobId = some state
      ∨ ∃ request ∈ requests, runtime.Signed signs request jobId state := by
  induction requests generalizing states with
  | nil => exact .inl recorded
  | cons request rest ih =>
      rw [List.forall_mem_cons] at unforgeable distinct
      rcases ih unforgeable.2 distinct.2 recorded with earlier | ⟨later, member, signed⟩
      · rcases callback_records unforgeable.1 distinct.1 earlier with before | signed
        · exact .inl before
        · exact .inr ⟨request, List.mem_cons_self, signed⟩
      · exact .inr ⟨later, List.mem_cons_of_mem _ member, signed⟩

theorem callbacks_keep_terminal (recorded : states.get? jobId = some state)
    (terminal : state.status ≠ .running)
    : (runtime.callbacks requests states).2.get? jobId = some state := by
  induction requests generalizing states with
  | nil => exact recorded
  | cons request rest ih => exact ih (callback_keeps_terminal recorded terminal)

/-- From a new store, the callbacks keep to their errors exactly where every request is safe; one
that raises changes nothing, every recorded state comes from a signed body, and a terminal state
stays.
-/
theorem worker_callbacks_fail_closed (runtime : CallbackRuntime)
    (signs : Bytes → SignedCallback → Prop) (requests : List CallbackRequest)
    (unforgeable : ∀ request ∈ requests, runtime.Unforgeable signs request)
    (distinct : ∀ request ∈ requests, runtime.CollisionFree signs request)
    : ((∀ outcome ∈ (runtime.callbacks requests []).1, ∀ raised, outcome = .error raised
            → raised.Contractual)
        ↔ ∀ request ∈ requests, runtime.Safe request)
      ∧ (∀ request states raised, (runtime.callback request states).1 = .error raised
          → (runtime.callback request states).2 = states)
      ∧ (∀ jobId state, (runtime.callbacks requests []).2.get? jobId = some state
          → ∃ request ∈ requests, runtime.Signed signs request jobId state)
      ∧ ∀ states jobId state, Dict.get? states jobId = some state → state.status ≠ .running
          → (runtime.callbacks requests states).2.get? jobId = some state := by
  refine ⟨callbacks_contractual_iff, ?_, ?_, fun _ _ _ => callbacks_keep_terminal⟩
  · intro request states raised failed
    rcases callback_cases runtime request states
      with ⟨_, same⟩ | ⟨_, _, _, _, returned⟩
    · rw [same]
    · rw [returned] at failed
      cases failed
  · intro jobId state recorded
    rcases callbacks_record unforgeable distinct recorded with initial | signed
    · cases initial
    · exact signed

def sampleBody : Bytes :=
  pyb "\x7b\"job_id\":\"00000000-0000-0000-0000-000000000001\","
  ++ pyb "\"scan_id\":\"00000000-0000-0000-0000-000000000002\",\"status\":\"done\","
  ++ pyb "\"S_version\":\"1.0.0\",\"env_digest\":\"sha256:"
  ++ pyb "0000000000000000000000000000000000000000000000000000000000000000\"\x7d"

/-- The members of the body. -/
def sampleMembers : Dict Text JsonValue :=
  [(py "job_id", .str (py "00000000-0000-0000-0000-000000000001")),
    (py "scan_id", .str (py "00000000-0000-0000-0000-000000000002")),
    (py "status", .str (py "done")), (py "S_version", .str (py "1.0.0")),
    (py "env_digest", .str (py "sha256:" ++ List.replicate 64 (Fin.ofNat 0x110000 0x30)))]

/-- The library functions on the body and on its signed request. -/
def sample : CallbackRuntime where
  loads data := if data = sampleBody then some (.dict sampleMembers) else none
  uuid := Uuid.ofText
  sha256 := tableHash [(sampleBody,
    0x4ee16c2431508dbaa9d1985d7861ee7af6afcdf530b6f936fb03a2a9f0c97cec)]
  hmac key data := tableHash [(pyb "s3cr3tPOST\n"
    ++ pyb "/api/v1/jobs/00000000-0000-0000-0000-000000000001/status\nw1\n"
    ++ pyb "4ee16c2431508dbaa9d1985d7861ee7af6afcdf530b6f936fb03a2a9f0c97cec\n1700000000",
    0x2a52e847ff23386d8abcb1b4701ee81d6a7f8bad100b2db78358c0792a00b414)] (key ++ data)
  lookup jobId keyId := if jobId = 1 ∧ keyId = py "k1" then some (pyb "s3cr3t") else none

/-- A callback of the job with the digest of its header. -/
def sampleRequest (digest : Text) : CallbackRequest :=
  ⟨1, py "HMAC k1:" ++ digest, py "w1", 1700000000, sampleBody, 1700000100⟩

/-- The holder of the secret signs the body for the job. -/
def sampleSigns (secret : Bytes) (call : SignedCallback) : Prop :=
  secret = pyb "s3cr3t" ∧ call = ⟨1, py "w1", sampleBody, 1700000000⟩

def sampleDigest : Text :=
  py "2a52e847ff23386d8abcb1b4701ee81d6a7f8bad100b2db78358c0792a00b414"

theorem signed_callback_recorded
    : ∃ request ∈ [sampleRequest sampleDigest],
        sample.Signed sampleSigns request 1 ⟨.done, hex (sample.sha256 sampleBody)⟩ := by
  have recorded : (sample.callbacks [sampleRequest sampleDigest] []).2.get? 1
      = some ⟨.done, hex (sample.sha256 sampleBody)⟩ := by
    decide +kernel
  refine (worker_callbacks_fail_closed sample sampleSigns [sampleRequest sampleDigest] ?_ ?_).2.2.1
    1 _ recorded
  · intro request member keyId digest secret data _ known built _
    obtain rfl := List.mem_singleton.mp member
    refine ⟨presented (sampleRequest sampleDigest), ⟨?_, rfl⟩, built⟩
    unfold sample at known
    dsimp only at known
    split at known
    · exact (Option.some.inj known).symm
    · cases known
  · intro request member secret call signed _
    obtain rfl := List.mem_singleton.mp member
    rw [signed.2]
    rfl

/-- A digest of one letter that is not ASCII stops the comparison. -/
theorem unreadable_digest_escapes
    : ¬∀ (runtime : CallbackRuntime) (requests : List CallbackRequest),
        ∀ outcome ∈ (runtime.callbacks requests []).1, ∀ raised, outcome = .error raised
          → raised.Contractual := by
  intro claimed
  have safe := callbacks_contractual_iff.mp (claimed sample [sampleRequest (py "é")]) _
    (List.mem_singleton_self _)
  have read : (parseJobStatusReport sample.toDecoders sampleBody).map JobStatusReport.jobId
      = .ok 1 := by
    decide +kernel
  cases parsed : parseJobStatusReport sample.toDecoders sampleBody with
  | error raised =>
      rw [parsed] at read
      cases read
  | ok body =>
      rw [parsed] at read
      have header : parseHmacHeader (sampleRequest (py "é")).hmacHeader = .ok (py "k1", py "é") := by
        decide
      have known : sample.lookup 1 (py "k1") = some (pyb "s3cr3t") := by decide
      have job : body.jobId = 1 := by simpa [Except.map] using read
      have presentable := safe body (py "k1") (py "é") (pyb "s3cr3t") parsed job header known
      have unreadable : ¬Text.IsAscii (py "é") := by decide
      exact unreadable presentable.2.2

end CallbackRuntime

end Scanipy.Services.Scan

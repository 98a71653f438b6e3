import Scanipy.Tools.Worker.RuntimeWriter

/-! Runtime requests survive their packets: what is written is read back to the same document, and
what is read is written back to the same bytes.
-/

namespace Scanipy.Tools.Worker.RuntimePackets

open Analysis.Ifds (Bounded CheckedString Shallow bounded_of_decoded decodeBoundedJson
  decodeBoundedJson_dumps)
open Library Python
open Services.Scan.AcceptedInputs (AdmissionExpectation BundleExpectation ExecutionBinding
  Fits Shape canonicalBytes canonicalBytes_ok_iff)
open Journal (Stored freeze)

-- What a request checks

theorem ofAccepted_ok {α : Type} {outcome : Except Services.Scan.AcceptedInputs.VerificationError α}
    {value : α}
    : ofAccepted outcome = .ok value ↔ outcome = .ok value := by
  cases outcome <;> simp [ofAccepted]

theorem ofRules_ok {α : Type} {outcome : Except Analysis.Ifds.BoundRuleError α} {value : α}
    : ofRules outcome = .ok value ↔ outcome = .ok value := by
  cases outcome <;> simp [ofRules]

variable {value : Json} {maximum : Nat} {characters : Text}

theorem scalar_of_needText (ran : needText value maximum = .ok characters)
    : value.IsScalar := by
  cases value <;> trivial

theorem scalar_of_needMatch {admits : Text → Bool}
    (ran : needMatch value maximum admits = .ok characters)
    : value.IsScalar := by
  obtain ⟨_, first, _⟩ := bind_ok.mp ran
  exact scalar_of_needText first

theorem scalar_of_needInteger {minimum maximum number : Int}
    (ran : needInteger value minimum maximum = .ok number)
    : value.IsScalar := by
  cases value <;> trivial

theorem scalar_of_needUtc {moment : Datetime} (ran : needUtc value = .ok moment)
    : value.IsScalar := by
  obtain ⟨_, first, _⟩ := bind_ok.mp ran
  exact scalar_of_needMatch first

theorem scalar_of_needRelativePath (ran : needRelativePath value = .ok characters)
    : value.IsScalar := by
  obtain ⟨_, first, _⟩ := bind_ok.mp ran
  exact scalar_of_needText first

variable {names : List String}

/-- Every name of a family of fields that are read one after another is a scalar. -/
theorem scalars_of_collect {texts : List Text} {read : Json → Except RuntimePacketError Text}
    (ran : Metered.collect (fun name => read (value.get name)) names = .ok texts)
    (scalar : ∀ {value : Json} {characters : Text}, read value = .ok characters → value.IsScalar)
    : ∀ name ∈ names, (value.get name).IsScalar := by
  intro name listed
  obtain ⟨_, _, first⟩ := exists_result_of_mem ran listed
  exact scalar first

theorem needKeys_ok
    : needKeys value names = .ok () ↔ ∃ members, value = .obj members ∧ HasKeys members names := by
  cases value <;> simp [needKeys]

/-- The keys of a packet are within the limit of the writer. -/
def ShortKeys (value : Json) : Prop :=
  value.KeysSatisfy (CheckedString 4096)

theorem shortKeys_of_names (distinct : value.Distinct) (keys : needKeys value names = .ok ())
    (known : ∀ name ∈ names, checkText (py name) 4096 = .ok ())
    (each : ∀ name ∈ names, ShortKeys (value.get name))
    : ShortKeys value :=
  Json.keysSatisfy_of_hasKeys distinct (needKeys_ok.mp keys)
    (fun name listed => checkText_ok.mp (known name listed)) each

/-- A dictionary of a flat shape has the names of the shape. -/
theorem shortKeys_of_fits {fields : List (String × Shape)} (distinct : value.Distinct)
    (fits : Fits value (.object fields)) (flat : ∀ field ∈ fields, field.2.isScalar = true)
    (known : ∀ name ∈ fields.map Prod.fst, checkText (py name) 4096 = .ok ())
    : ShortKeys value := by
  obtain ⟨keys, each⟩ := Services.Scan.AcceptedInputs.fits_object_iff.mp fits
  refine Json.keysSatisfy_of_hasKeys distinct keys (fun name listed => ?_) fun name listed => ?_
  · exact checkText_ok.mp (known name listed)
  · obtain ⟨field, found, rfl⟩ := List.mem_map.mp listed
    exact ((each field found).isScalar (flat field found)).keysSatisfy

/-- The names of the dictionaries of a request. -/
def packetNames : List String :=
  Services.Scan.AcceptedInputs.bundleExpectationFields.map Prod.fst
    ++ Services.Scan.AcceptedInputs.admissionExpectationFields.map Prod.fst
    ++ Services.Scan.AcceptedInputs.executionBindingFields.map Prod.fst ++ sourceKeys ++ prerequisiteKeys ++ requestKeys
    ++ ["protocol", "bundle", "execution", "qualified_rule", "source"]

theorem packetNames_checked : ∀ name ∈ packetNames, checkText (py name) 4096 = .ok () := by
  have texts : ∀ text ∈ packetNames.map py, checkText text 4096 = .ok () := by
    simp only [packetNames, Services.Scan.AcceptedInputs.bundleExpectationFields,
      Services.Scan.AcceptedInputs.namespaceFields, Services.Scan.AcceptedInputs.scopeFields,
      Services.Scan.AcceptedInputs.admissionExpectationFields,
      Services.Scan.AcceptedInputs.executionBindingFields, Services.Scan.AcceptedInputs.fromKeys,
      sourceKeys, prerequisiteKeys, requestKeys, List.map_cons, List.map_nil, List.cons_append,
      List.nil_append, py, toList_literal]
    decide +kernel
  exact List.forall_mem_map.mp texts

variable {bundle : BundleExpectation}

theorem shortKeys_bundle (distinct : value.Distinct)
    (decoded : BundleExpectation.decode value = .ok bundle)
    : ShortKeys value := by
  have fits := (check_ok.mp decoded).1
  exact shortKeys_of_fits distinct fits (by decide) fun name listed =>
    packetNames_checked name (by simp only [packetNames, List.mem_append, listed, true_or])

theorem shortKeys_admission {admission : AdmissionExpectation} (distinct : value.Distinct)
    (decoded : AdmissionExpectation.decode value = .ok admission)
    : ShortKeys value := by
  have fits := (check_ok.mp decoded).1
  exact shortKeys_of_fits distinct fits (by decide) fun name listed =>
    packetNames_checked name (by simp only [packetNames, List.mem_append, listed, true_or, or_true])

theorem shortKeys_execution {execution : ExecutionBinding} (distinct : value.Distinct)
    (decoded : ExecutionBinding.decode value = .ok execution)
    : ShortKeys value := by
  have fits := (check_ok.mp decoded).1
  exact shortKeys_of_fits distinct fits (by decide) fun name listed =>
    packetNames_checked name (by simp only [packetNames, List.mem_append, listed, true_or, or_true])

variable {data : Bytes}

/-- A rule that is written and decoded as a key is the row of the key. -/
theorem shortKeys_rule {key : Analysis.Ifds.QualifiedRuleKey} (canonical : value.Canonical)
    (written : canonicalBytes value 16384 = .ok data)
    (decoded : Analysis.Ifds.decodeQualifiedRuleKey data = .ok key)
    : ShortKeys value := by
  obtain ⟨writable, rfl⟩ := canonicalBytes_ok_iff.mp written
  obtain ⟨row, parsed, rest⟩ := bind_ok.mp decoded
  rw [check_ok, Analysis.Ifds.closedKey_ok] at rest
  obtain ⟨keys, rest⟩ := rest
  obtain ⟨_, _, rest⟩ := bind_ok.mp rest
  rw [check_ok, Analysis.Ifds.keyOfRow_ok] at rest
  obtain ⟨_, values, _⟩ := rest
  have same : row = value := by
    simp only [decodeBoundedJson, check_ok] at parsed
    obtain ⟨found, read, rest⟩ := bind_ok.mp parsed.2.2
    rw [check_ok] at rest
    cases rest.2
    have again := Analysis.Ifds.parseBounded_dumps canonical (Json.encodable_of_leaves _
      fun characters listed => (writable.bounded.strings _ listed).1) writable.bounded.numbers
    exact Except.ok.inj (read.symm.trans again)
  subst same
  refine Json.keysSatisfy_of_hasKeys (Json.distinct_of_canonical _ canonical) keys
    (fun name listed => (Analysis.Ifds.keyNames_checked name listed).mono (by decide))
    fun name listed => ?_
  rw [← key.names_fields] at listed
  obtain ⟨field, found, rfl⟩ := List.mem_map.mp listed
  rw [(values field found).1]
  rcases Analysis.Ifds.scalar_field found with null | ⟨characters, text⟩
  · rw [null]
    trivial
  · rw [text]
    trivial

theorem shortKeys_scalar (scalar : value.IsScalar) : ShortKeys value :=
  scalar.keysSatisfy

variable {mode : Mode}

theorem shortKeys_input (distinct : value.Distinct) (ran : checkInput value mode = .ok ())
    : ShortKeys value := by
  rw [checkInput, check_ok] at ran
  obtain ⟨keys, ran⟩ := ran
  obtain ⟨_, size, ran⟩ := bind_ok.mp ran
  obtain ⟨_, sha256, ran⟩ := bind_ok.mp ran
  obtain ⟨_, protocol, _⟩ := bind_ok.mp ran
  refine shortKeys_of_names distinct keys (fun name listed => packetNames_checked name ?_) ?_
  · simp only [List.mem_cons, List.not_mem_nil, or_false] at listed
    rcases listed with rfl | rfl | rfl <;> simp [packetNames, sourceKeys]
  simp only [List.forall_mem_cons, List.not_mem_nil, false_imp_iff, implies_true, and_true]
  exact ⟨shortKeys_scalar (scalar_of_needInteger size), shortKeys_scalar (scalar_of_needMatch sha256),
    shortKeys_scalar (scalar_of_needMatch protocol)⟩

theorem shortKeys_checkAdmission (distinct : value.Distinct)
    (ran : checkAdmission value mode = .ok ())
    : ShortKeys value := by
  unfold checkAdmission at ran
  split at ran
  · rw [demand_ok] at ran
    rw [ran]
    trivial
  · rw [check_ok] at ran
    obtain ⟨_, decoded, _⟩ := bind_ok.mp ran.2
    exact shortKeys_admission distinct (ofAccepted_ok.mp decoded)

variable {valid : Datetime} {execution : Option ExecutionBinding}

theorem shortKeys_run {rule : Json} (distinct : value.Distinct) (canonical : rule.Canonical)
    (ran : checkRun value rule bundle valid mode = .ok execution)
    : ShortKeys value ∧ ShortKeys rule := by
  have absent (ran : (demand (value = .null ∧ rule = .null) .invalidInput >>= fun _ => .ok none)
        = (.ok execution : Except RuntimePacketError (Option ExecutionBinding)))
      : ShortKeys value ∧ ShortKeys rule := by
    rw [check_ok, demand_ok] at ran
    rw [ran.1.1, ran.1.2]
    exact ⟨trivial, trivial⟩
  have present {found : ExecutionBinding} (ran : checkExecution value rule bundle valid = .ok found)
      : ShortKeys value ∧ ShortKeys rule := by
    rw [checkExecution, check_ok] at ran
    obtain ⟨_, decoded, ran⟩ := bind_ok.mp ran.2
    obtain ⟨_, written, ran⟩ := bind_ok.mp ran
    obtain ⟨_, read, _⟩ := bind_ok.mp ran
    exact ⟨shortKeys_execution distinct (ofAccepted_ok.mp decoded),
      shortKeys_rule canonical (ofAccepted_ok.mp written) (ofRules_ok.mp read)⟩
  cases mode with
  | publication => exact absent ran
  | historical => exact absent ran
  | execution =>
      obtain ⟨_, checked, _⟩ := bind_ok.mp ran
      exact present checked
  | python =>
      obtain ⟨_, checked, _⟩ := bind_ok.mp ran
      exact present checked

theorem shortKeys_source (distinct : value.Distinct)
    (ran : checkSource value execution mode = .ok ())
    : ShortKeys value := by
  unfold checkSource at ran
  split at ran
  · rw [checkSourceFile, check_ok] at ran
    obtain ⟨keys, ran⟩ := ran
    obtain ⟨_, capture, ran⟩ := bind_ok.mp ran
    obtain ⟨_, algorithm, ran⟩ := bind_ok.mp ran
    obtain ⟨_, digests, ran⟩ := bind_ok.mp ran
    obtain ⟨_, path, ran⟩ := bind_ok.mp ran
    obtain ⟨_, size, _⟩ := bind_ok.mp ran
    have digest := scalars_of_collect digests scalar_of_needMatch
    refine shortKeys_of_names distinct keys (fun name listed => packetNames_checked name
      (by simp only [packetNames, List.mem_append, listed, true_or, or_true])) ?_
    simp only [sourceKeys, List.forall_mem_cons, List.not_mem_nil, false_imp_iff, implies_true,
      and_true] at digest ⊢
    exact ⟨shortKeys_scalar (scalar_of_needMatch capture),
      shortKeys_scalar (scalar_of_needMatch algorithm), shortKeys_scalar digest.1,
      shortKeys_scalar digest.2.1, shortKeys_scalar (scalar_of_needRelativePath path),
      shortKeys_scalar (scalar_of_needInteger size), shortKeys_scalar digest.2.2⟩
  · rw [demand_ok] at ran
    rw [ran]
    trivial

theorem scalar_of_checkEvidence {present : Bool} (ran : checkEvidence value present = .ok ())
    : value.IsScalar := by
  unfold checkEvidence at ran
  split at ran
  · obtain ⟨_, digest, _⟩ := bind_ok.mp ran
    exact scalar_of_needMatch digest
  · rw [demand_ok] at ran
    rw [ran]
    trivial

theorem shortKeys_prerequisite (distinct : value.Distinct)
    (keys : needKeys value prerequisiteKeys = .ok ())
    (ran : checkPrerequisite value mode = .ok valid) (admission : ShortKeys (value.get "admission"))
    (evidence : checkEvidences value execution mode = .ok ())
    : ShortKeys value := by
  rw [checkPrerequisite, check_ok, demand_ok] at ran
  obtain ⟨schema, ran⟩ := ran
  obtain ⟨_, ids, ran⟩ := bind_ok.mp ran
  obtain ⟨_, uuids, ran⟩ := bind_ok.mp ran
  obtain ⟨_, digests, ran⟩ := bind_ok.mp ran
  obtain ⟨_, observed, ran⟩ := bind_ok.mp ran
  obtain ⟨_, ends, _⟩ := bind_ok.mp ran
  rw [checkEvidences, check_ok, check_ok, check_ok] at evidence
  obtain ⟨authorization, lease, content, _⟩ := evidence
  have id := scalars_of_collect ids scalar_of_needMatch
  have uuid := scalars_of_collect uuids scalar_of_needMatch
  have digest := scalars_of_collect digests scalar_of_needMatch
  have schemaScalar : (value.get "schema").IsScalar := by
    rw [schema]
    trivial
  refine shortKeys_of_names distinct keys (fun name listed => packetNames_checked name
    (by simp only [packetNames, List.mem_append, listed, true_or, or_true])) ?_
  simp only [prerequisiteKeys, List.forall_mem_cons, List.not_mem_nil, false_imp_iff, implies_true,
    and_true] at id uuid digest ⊢
  exact ⟨shortKeys_scalar schemaScalar, shortKeys_scalar id.1, shortKeys_scalar uuid.1,
    shortKeys_scalar (scalar_of_needUtc observed), shortKeys_scalar (scalar_of_needUtc ends),
    shortKeys_scalar id.2.1, shortKeys_scalar uuid.2, shortKeys_scalar id.2.2,
    shortKeys_scalar digest.1, shortKeys_scalar digest.2, admission,
    shortKeys_scalar (scalar_of_checkEvidence authorization),
    shortKeys_scalar (scalar_of_checkEvidence lease),
    shortKeys_scalar (scalar_of_checkEvidence content)⟩

/-- A request that is checked has known keys only.
Witness: every dictionary of a request is closed, and its other values are scalars.
-/
theorem shortKeys_request (canonical : value.Canonical) (ran : checkRequest value = .ok ())
    : ShortKeys value := by
  have distinct := Json.distinct_of_canonical _ canonical
  have binding := Json.canonical_get canonical "binding"
  have prerequisite := Json.canonical_get canonical "prerequisite"
  have bound := Json.distinct_of_canonical _ binding
  have required := Json.distinct_of_canonical _ prerequisite
  rw [checkRequest, check_ok, check_ok, demand_ok] at ran
  obtain ⟨keys, schema, ran⟩ := ran
  obtain ⟨mode, modeRead, ran⟩ := bind_ok.mp ran
  obtain ⟨_, uuids, ran⟩ := bind_ok.mp ran
  obtain ⟨_, generation, ran⟩ := bind_ok.mp ran
  obtain ⟨_, profiles, ran⟩ := bind_ok.mp ran
  rw [check_ok] at ran
  obtain ⟨input, ran⟩ := ran
  dsimp only at ran
  rw [check_ok, check_ok] at ran
  obtain ⟨bindingKeys, prerequisiteKeys, ran⟩ := ran
  obtain ⟨valid, checkedPrerequisite, ran⟩ := bind_ok.mp ran
  obtain ⟨bundle, checkedBundle, ran⟩ := bind_ok.mp ran
  rw [check_ok] at ran
  obtain ⟨admission, ran⟩ := ran
  obtain ⟨execution, run, ran⟩ := bind_ok.mp ran
  rw [check_ok] at ran
  obtain ⟨source, evidence⟩ := ran
  obtain ⟨_, decodedBundle, _⟩ := bind_ok.mp checkedBundle
  obtain ⟨_, modeText, _⟩ := bind_ok.mp modeRead
  obtain ⟨executionKeys, ruleKeys⟩ := shortKeys_run (Json.distinct_get bound _)
    (Json.canonical_get binding _) run
  have uuid := scalars_of_collect uuids scalar_of_needMatch
  have profile := scalars_of_collect profiles scalar_of_needMatch
  have schemaScalar : (value.get "schema").IsScalar := by
    rw [schema]
    trivial
  have boundKeys : ShortKeys (value.get "binding") := by
    refine shortKeys_of_names bound bindingKeys (fun name listed => packetNames_checked name
      (List.mem_append_right _ (List.mem_cons_of_mem _ listed))) ?_
    simp only [List.forall_mem_cons, List.not_mem_nil, false_imp_iff, implies_true, and_true]
    exact ⟨shortKeys_bundle (Json.distinct_get bound _) (ofAccepted_ok.mp decodedBundle),
      executionKeys, ruleKeys, shortKeys_source (Json.distinct_get bound _) source⟩
  have requiredKeys := shortKeys_prerequisite required prerequisiteKeys checkedPrerequisite
    (shortKeys_checkAdmission (Json.distinct_get required _) admission) evidence
  refine shortKeys_of_names distinct keys (fun name listed => packetNames_checked name
    (by simp only [packetNames, List.mem_append, listed, true_or, or_true])) ?_
  simp only [requestKeys, List.forall_mem_cons, List.not_mem_nil, false_imp_iff, implies_true,
    and_true] at uuid profile ⊢
  exact ⟨shortKeys_scalar schemaScalar, shortKeys_scalar uuid.1,
    shortKeys_scalar (scalar_of_needText modeText), shortKeys_scalar uuid.2.1,
    shortKeys_scalar uuid.2.2, shortKeys_scalar (scalar_of_needInteger generation),
    shortKeys_scalar profile.1, shortKeys_scalar profile.2,
    shortKeys_input (Json.distinct_get distinct _) input, boundKeys, requiredKeys⟩

-- Packets

/-- A document that a packet can hold is within the limits of the reader. -/
theorem Packet.bounded (packet : Packet value)
    : Bounded packetLimits value ∧ ∀ entry ∈ value.tokens 0, Shallow packetLimits entry := by
  refine ⟨⟨packet.bytes, ?_, ?_, ?_⟩, ?_⟩
  · rw [Json.length_leaves 0]
    exact packet.values
  · rw [Json.forall_leaves_iff 0]
    rintro ⟨token, depth⟩ listed
    have packed := packet.tokens _ listed
    cases token <;> first | exact packed | trivial
  · rw [Json.forall_leaves_iff 0]
    rintro ⟨token, depth⟩ listed
    have packed := packet.tokens _ listed
    cases token <;> first | exact packed | trivial
  · rintro ⟨token, depth⟩ listed
    have packed := packet.tokens _ listed
    cases token <;> first | exact packed | trivial

/-- What is within the limits of the reader can be held, once its keys are short. -/
theorem packet_of_bounded (dictionary : IsDict value) (canonical : value.Canonical)
    (bounded : Bounded packetLimits value)
    (shallow : ∀ entry ∈ value.tokens 0, Shallow packetLimits entry) (keys : ShortKeys value)
    : Packet value := by
  have numbers := (Json.forall_leaves_iff 0).mp bounded.numbers
  have strings := (Json.forall_leaves_iff 0).mp bounded.strings
  refine ⟨dictionary, ⟨canonical, keys⟩, ?_, ?_, bounded.bytes⟩
  · rintro ⟨token, depth⟩ listed
    have number := numbers _ listed
    have string := strings _ listed
    have depths := shallow _ listed
    cases token <;> first | exact number | exact string | exact depths
  · rw [← Json.length_leaves 0]
    exact bounded.values

theorem encodeRuntimeRequest_ok_iff {document : Stored}
    : encodeRuntimeRequest document = .ok data
      ↔ ∃ value, freeze value = document ∧ Packet value ∧ checkRequest value = .ok ()
          ∧ canonicalBytes value maxBytes = .ok data := by
  rw [encodeRuntimeRequest, bind_ok]
  simp only [check_ok, ofAccepted_ok, writerDocument_ok, and_assoc]

theorem decodeRuntimeRequest_ok_iff {packet : RequestPacket}
    : decodeRuntimeRequest data = .ok packet
      ↔ ∃ value, (0 < data.length ∧ data.length ≤ maxBytes)
          ∧ decodeBoundedJson data packetLimits = .ok value ∧ IsDict value
          ∧ canonicalBytes value maxBytes = .ok data ∧ checkRequest value = .ok ()
          ∧ packet = ⟨data, freeze value⟩ := by
  constructor
  · intro ran
    obtain ⟨value, read, ran⟩ := bind_ok.mp ran
    rw [check_ok] at ran
    rw [decodePacket, check_ok, needBytes, demand_ok] at read
    obtain ⟨sized, read⟩ := read
    obtain ⟨found, decoded, read⟩ := bind_ok.mp read
    rw [check_ok, demand_ok] at read
    obtain ⟨dictionary, read⟩ := read
    obtain ⟨written, spelled, read⟩ := bind_ok.mp read
    rw [check_ok, demand_ok] at read
    obtain ⟨rfl, done⟩ := read
    cases done
    exact ⟨value, sized, ofRules_ok.mp decoded, dictionary, ofAccepted_ok.mp spelled,
      ran.1, (Except.ok.inj ran.2).symm⟩
  · rintro ⟨value, sized, decoded, dictionary, spelled, checked, rfl⟩
    have read : decodePacket data = .ok value := by
      rw [decodePacket, check_ok, needBytes, demand_ok]
      refine ⟨sized, bind_ok.mpr ⟨value, ofRules_ok.mpr decoded, ?_⟩⟩
      refine check_ok.mpr ⟨demand_ok.mpr dictionary, ?_⟩
      refine bind_ok.mpr ⟨data, ofAccepted_ok.mpr spelled, ?_⟩
      exact check_ok.mpr ⟨demand_ok.mpr rfl, rfl⟩
    rw [decodeRuntimeRequest, read, ok_bind, check_ok]
    exact ⟨checked, rfl⟩

/-- Every text of a dictionary has its braces. -/
theorem length_dumps_pos (dictionary : IsDict value)
    : 0 < value.dumps.utf8.length := by
  rw [Json.length_utf8_dumps 0]
  cases value with
  | obj members => simp [Json.tokens, Json.cost_cons, Json.Token.cost]
  | null | bool _ | int _ | str _ | arr _ => cases dictionary

/-- A request that is written is read back to its document, and a request that is read is written
back to its bytes.
-/
theorem runtime_request_read_back
    : (∀ document data, encodeRuntimeRequest document = .ok data
        → decodeRuntimeRequest data = .ok ⟨data, document⟩)
      ∧ ∀ data packet, decodeRuntimeRequest data = .ok packet
        → encodeRuntimeRequest packet.document = .ok data := by
  constructor
  · intro document data encoded
    obtain ⟨value, rfl, packet, checked, written⟩ := encodeRuntimeRequest_ok_iff.mp encoded
    obtain ⟨_, rfl⟩ := canonicalBytes_ok_iff.mp written
    obtain ⟨bounded, shallow⟩ := packet.bounded
    have decoded := (decodeBoundedJson_dumps packet.packs.canonical bounded).mpr shallow
    exact decodeRuntimeRequest_ok_iff.mpr ⟨value,
      ⟨length_dumps_pos packet.dictionary, packet.bytes⟩, decoded, packet.dictionary, written,
      checked, rfl⟩
  · intro data packet decoded
    obtain ⟨value, _, read, dictionary, written, checked, rfl⟩ :=
      decodeRuntimeRequest_ok_iff.mp decoded
    obtain ⟨writable, rfl⟩ := canonicalBytes_ok_iff.mp written
    obtain ⟨canonical, bounded, shallow⟩ := bounded_of_decoded writable.encodable read
    have keys := shortKeys_request canonical checked
    exact encodeRuntimeRequest_ok_iff.mpr ⟨value, rfl,
      packet_of_bounded dictionary canonical bounded shallow keys, checked, written⟩

/-- A request to audit a bundle. -/
def auditRequest : Json :=
  let id := Json.str (py "00000000-0000-0000-0000-000000000001")
  let digest := Json.str (List.replicate 64 (Fin.ofNat 0x110000 0x61))
  .obj [
    (py "binding", .obj [
      (py "bundle", .obj [
        (py "S_version", .str (py "1.0.0")), (py "accepted_content_digest", digest),
        (py "bundle_id", id), (py "org_id", id), (py "registry_id", id),
        (py "scope", .str (py "customer"))]),
      (py "execution", .null), (py "qualified_rule", .null), (py "source", .null)]),
    (py "controller_profile_sha256", digest),
    (py "deployment_id", id),
    (py "domain_profile_sha256", digest),
    (py "input", .obj [
      (py "protocol", .str (py "scanipy-accepted-verifier-request/1")), (py "sha256", digest),
      (py "size", .int 1)]),
    (py "installation_generation", .int 1),
    (py "installation_id", id),
    (py "mode", .str (py "verifier-historical")),
    (py "operation_id", id),
    (py "prerequisite", .obj [
      (py "action", .str (py "audit-historical")), (py "admission", .null),
      (py "authentication_evidence_sha256", digest), (py "capture_lease_evidence_sha256", .null),
      (py "content_verification_evidence_sha256", .null),
      (py "execution_authorization_digest", .null), (py "observation_id", id),
      (py "observed_at", .str (py "2026-01-01T00:00:00.000000Z")), (py "org_id", id),
      (py "principal_id", .str (py "a")), (py "reader_id", .str (py "a")),
      (py "schema", .str (py "scanipy-local-launch-prerequisite/1")),
      (py "scope_evidence_sha256", digest),
      (py "valid_until", .str (py "2026-01-01T00:00:01.000000Z"))]),
    (py "schema", .str (py "scanipy-local-runtime-request/1"))]

/-- The request is written and read back. -/
theorem audit_request_read_back
    : ∃ data, encodeRuntimeRequest (freeze auditRequest) = .ok data
        ∧ decodeRuntimeRequest data = .ok ⟨data, freeze auditRequest⟩ := by
  have written : writerDocument (freeze auditRequest) = .ok auditRequest := by
    simp only [auditRequest, py, toList_literal]
    decide +kernel
  have checked : checkRequest auditRequest = .ok () := by
    simp only [auditRequest, py, toList_literal]
    decide +kernel
  have canonical : canonicalBytes auditRequest maxBytes = .ok auditRequest.dumps.utf8 := by
    simp only [auditRequest, py, toList_literal]
    decide +kernel
  have encoded : encodeRuntimeRequest (freeze auditRequest) = .ok auditRequest.dumps.utf8 := by
    rw [encodeRuntimeRequest, written, ok_bind, checked, ok_bind, canonical]
    rfl
  exact ⟨_, encoded, runtime_request_read_back.1 _ _ encoded⟩

end Scanipy.Tools.Worker.RuntimePackets

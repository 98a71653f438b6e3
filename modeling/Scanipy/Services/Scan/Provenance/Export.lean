import Scanipy.Services.Scan.Provenance.Repartition

/-! The export for auditors, and the repartitions that its history shows: those of the record itself,
and none that is chained to another repartition.
-/

namespace Scanipy.Services.Scan.Provenance

open Library Python

/-- `ProvenanceStore`, as a store that lists under an id what was appended with that parent, in any
order.
-/
structure ParentedStore extends ProvenanceStore where
  children : State → Uuid → List SignedProvenanceRecord
  children_append : ∀ state signed parentId,
    (children (append state signed) parentId).Perm
      (children state parentId
        ++ if signed.record.parentRecordId = some parentId then [signed] else [])
  get_child : ∀ {state parentId child}, child ∈ children state parentId
    → get state child.record.id ≠ none

/-- The error of an export. -/
inductive ExportError where
  | noRecord (recordId : Uuid)
  deriving DecidableEq, Repr

/-- One entry of `repartition_history`. -/
def historyEntry (child : SignedProvenanceRecord) : Json :=
  .obj [(py "id", ofUuid child.record.id),
    (py "repartition_reason", orNull .str child.record.repartitionReason),
    (py "repartition_oracle_id", orNull ofUuid child.record.repartitionOracleId),
    (py "new_origin", orNull (fun origin => .str origin.text) child.record.origin)]

/-- The export before the version of the record is looked at. -/
def exportFields (signed : SignedProvenanceRecord) (children : List SignedProvenanceRecord)
    : Dict String Json :=
  let record := signed.record
  [("id", ofUuid record.id),
    ("parent_record_id", orNull ofUuid record.parentRecordId),
    ("record_type", .str record.recordType.text),
    ("commit_sha", .str record.commitSha),
    ("scm_provider", .str record.scmProvider),
    ("snapshot_digest", .str record.snapshotDigest),
    ("precondition_status", orNull (fun status => .str status.text) record.preconditionStatus),
    ("S_version", .str record.sVersion),
    ("env_digest", .str record.envDigest),
    ("cpg_order_hash", orNull ofBytes record.cpgOrderHash),
    ("cpg_order_hash_annotation", .str record.cpgOrderHashAnnotation),
    ("fingerprint_class", orNull (fun verdict => .str (fingerprintClassText verdict)) record.fingerprintClass),
    ("witness_blob_uri", orNull .str record.witnessBlobUri),
    ("slice_fingerprint", orNull ofBytes record.sliceFingerprint),
    ("rule_id", orNull .str record.ruleId),
    ("spec_id", orNull .str record.specId),
    ("detector_id", orNull .str record.detectorId),
    ("detector_engine", orNull (fun engine => .str engine.text) record.detectorEngine),
    ("sarif_hash", orNull ofBytes record.sarifHash),
    ("origin", orNull (fun origin => .str origin.text) record.origin),
    ("determinism_partition", orNull (fun origin => .str origin.text) record.determinismPartition),
    ("claim_label", .str record.claimLabel.text),
    ("kms_key_arn", .str signed.kmsKeyArn),
    ("kms_key_version", .str signed.kmsKeyVersion),
    ("signature", .str (hex signed.signature)),
    ("signature_alg", .str (signatureAlgText signed.signatureAlg)),
    ("repartition_history", .arr (children.map historyEntry))]
where
  signatureAlgText : SignatureAlg → Text
    | .rsassaPssSha256 => py "RSASSA_PSS_SHA_256"
    | .rsassaPssSha384 => py "RSASSA_PSS_SHA_384"

/-- `export_auditor_record`. -/
def exportAuditorRecord (store : ParentedStore) (recordId : Uuid) (state : store.State)
    : Except ExportError (Dict String Json) :=
  match store.get state recordId with
  | none => .error (.noRecord recordId)
  | some signed =>
      let fields := exportFields signed (store.children state recordId)
      if signed.record.recordSchemaVersion = 2 then
        .ok (((((fields.delete "fingerprint_class").delete "cpg_order_hash_annotation").set
          "record_schema_version" (.int 2)).set "artifact_identity"
            (orNull (fun identity => .obj identity.members) signed.record.artifactIdentity)))
      else
        .ok fields

/-- The entries of an export's `repartition_history`. -/
def repartitionHistory (fields : Dict String Json) : List Json :=
  match fields.get? "repartition_history" with
  | some (.arr entries) => entries
  | _ => []

/-- The entries with the id of an event. -/
def entriesOf (history : List Json) (event : SignedProvenanceRecord) : List Json :=
  history.filter fun entry =>
    match entry with
    | .obj members => Dict.get? members (py "id") = some (ofUuid event.record.id)
    | _ => false

/-- A call of `append_repartition_event`, with the id that `uuid.uuid4` returns and the answer of the
signer.
-/
structure EventCall where
  answer : Answer
  id : Uuid
  parentRecordId : Uuid
  repartitionOracleId : Uuid
  repartitionReason : Text
  signatureAlg : SignatureAlg := .rsassaPssSha256

section Events

variable (store : ParentedStore)

def EventCall.run (call : EventCall) (state : store.State)
    : Except ProvenanceError (SignedProvenanceRecord × store.State) :=
  appendRepartitionEvent store.toProvenanceStore call.answer call.id call.parentRecordId
    call.repartitionOracleId call.repartitionReason call.signatureAlg state

/-- The events that the calls create, and the store after them. -/
def appendEvents : List EventCall → store.State → List SignedProvenanceRecord × store.State
  | [], state => ([], state)
  | call :: rest, state =>
      match call.run store state with
      | .ok (event, next) => (event :: (appendEvents rest next).1, (appendEvents rest next).2)
      | .error _ => appendEvents rest state

/-- `uuid.uuid4` returns ids that the store does not have. -/
def FreshIds : List EventCall → store.State → Prop
  | [], _ => True
  | call :: rest, state =>
      store.get state call.id = none
      ∧ FreshIds rest (stateAfter store.toProvenanceStore state (call.run store state))

end Events

variable {store : ParentedStore}

-- What the history shows

/-- What is deleted is gone, and the rest stays. -/
theorem get?_delete (fields : Dict String Json) {key other : String} (different : other ≠ key)
    : (fields.delete key).get? other = fields.get? other := by
  have filtered := Dict.get?_filter fields (fun name => decide (name ≠ key)) other
  rwa [if_pos (decide_eq_true different)] at filtered

variable {recordId : Uuid} {state : store.State}

/-- The history is of the records that name the exported one as their parent. -/
theorem repartitionHistory_export {fields : Dict String Json}
    (exported : exportAuditorRecord store recordId state = .ok fields)
    : repartitionHistory fields = (store.children state recordId).map historyEntry := by
  unfold exportAuditorRecord at exported
  split at exported
  · cases exported
  next signed found =>
    dsimp only at exported
    split at exported
    · cases exported
      unfold repartitionHistory
      rw [Dict.get?_set, if_neg (by decide), Dict.get?_set, if_neg (by decide),
        get?_delete _ (by decide), get?_delete _ (by decide)]
      rfl
    · cases exported
      rfl

variable {event : SignedProvenanceRecord}

theorem entriesOf_map {children : List SignedProvenanceRecord}
    : entriesOf (children.map historyEntry) event
      = (children.filter fun child => child.record.id = event.record.id).map historyEntry := by
  unfold entriesOf
  rw [List.filter_map]
  congr 1
  apply List.filter_congr
  intro child _
  have same : ofUuid child.record.id = ofUuid event.record.id
      ↔ child.record.id = event.record.id :=
    ⟨fun same => Uuid.text_injective (Json.str.inj same), fun same => same ▸ rfl⟩
  simp [historyEntry, Dict.get?, same]

theorem signProvenance_record {answer : Answer} {record : ProvenanceRecord} {kmsKeyArn : Text}
    {signatureAlg : SignatureAlg} {signed : SignedProvenanceRecord}
    (done : signProvenance answer record kmsKeyArn signatureAlg = .ok signed)
    : signed.record = record := by
  simp only [signProvenance, check_ok, demand_ok] at done
  obtain ⟨_, _, done⟩ := done
  obtain ⟨_, _, done⟩ := bind_ok.mp done
  obtain ⟨_, _, done⟩ := bind_ok.mp done
  cases done
  rfl

/-- A call that returns has appended a record under the new id, with the parent that it names. -/
theorem EventCall.run_spec {call : EventCall} {next : store.State}
    (done : call.run store state = .ok (event, next))
    : next = store.append state event ∧ event.record.id = call.id
      ∧ event.record.parentRecordId = some call.parentRecordId := by
  rw [run, appendRepartitionEvent] at done
  split at done
  · cases done
  next parent looked =>
    obtain ⟨signed, written, same⟩ := bind_ok.mp done
    cases same
    rw [signProvenance_record written]
    exact ⟨rfl, rfl, rfl⟩

/-- What a sequence of events does to a store. -/
structure Grows (store : ParentedStore) (before : store.State)
    (events : List SignedProvenanceRecord) (after : store.State) : Prop where
  children : ∀ parentId, (store.children after parentId).Perm
    (store.children before parentId
      ++ events.filter fun event => event.record.parentRecordId = some parentId)
  fresh : ∀ event ∈ events, store.get before event.record.id = none
  distinct : (events.map fun event => event.record.id).Nodup
  kept : Extends (store.get before) (store.get after)

/-- By list induction on the calls; every call that returns appends its event. -/
theorem appendEvents_grows {calls : List EventCall} (fresh : FreshIds store calls state)
    : Grows store state (appendEvents store calls state).1 (appendEvents store calls state).2 := by
  induction calls generalizing state with
  | nil => exact ⟨fun _ => by simp [appendEvents], by simp [appendEvents], by simp [appendEvents],
      fun _ _ found => found⟩
  | cons call rest ih =>
      obtain ⟨unused, later⟩ := fresh
      unfold appendEvents
      split
      next event next done =>
        rw [done] at later
        obtain ⟨rfl, id, named⟩ := call.run_spec done
        have grown : Grows store (store.append state event) _ _ := ih later
        have more : Extends (store.get state) (store.get (store.append state event)) :=
          extends_append (id ▸ unused)
        have stored : store.get (store.append state event) event.record.id = some event := by
          rw [store.get_append (id ▸ unused), if_pos rfl]
        refine ⟨?_, ?_, ?_, fun other found seen => grown.kept _ _ (more _ _ seen)⟩
        · intro parentId
          refine (grown.children parentId).trans ?_
          refine ((store.children_append state event parentId).append_right _).trans ?_
          rw [List.append_assoc]
          refine .append_left _ ?_
          by_cases own : event.record.parentRecordId = some parentId
          · simp [own]
          · simp [own]
        · intro other listed
          rcases List.mem_cons.mp listed with rfl | listed
          · exact id ▸ unused
          · cases seen : store.get state other.record.id with
            | none => rfl
            | some signed =>
                have absent := grown.fresh other listed
                rw [more _ _ seen] at absent
                cases absent
        · rw [List.map_cons, List.nodup_cons]
          refine ⟨?_, grown.distinct⟩
          intro listed
          obtain ⟨other, among, same⟩ := List.mem_map.mp listed
          have absent := grown.fresh other among
          rw [same, stored] at absent
          cases absent
      next raised failed =>
        rw [failed] at later
        exact ih later

variable {events : List SignedProvenanceRecord}

/-- Ids that are distinct select one event, by list induction. -/
theorem filter_id_eq_singleton (distinct : (events.map fun event => event.record.id).Nodup)
    (listed : event ∈ events)
    : (events.filter fun other => other.record.id = event.record.id) = [event] := by
  induction events with
  | nil => cases listed
  | cons head rest ih =>
      rw [List.map_cons, List.nodup_cons] at distinct
      rcases List.mem_cons.mp listed with rfl | later
      · rw [List.filter_cons_of_pos (by simp), List.filter_eq_nil_iff.mpr]
        intro other among same
        exact distinct.1 (List.mem_map.mpr ⟨other, among, of_decide_eq_true same⟩)
      · rw [List.filter_cons_of_neg, ih distinct.2 later]
        intro same
        exact distinct.1 (List.mem_map.mpr ⟨event, later, (of_decide_eq_true same).symm⟩)

/-- The entries of an event in the history of a record: one where it names the record as its parent,
none where it names another.
-/
theorem entriesOf_event {before after : store.State} (grown : Grows store before events after)
    (listed : event ∈ events)
    : (entriesOf ((store.children after recordId).map historyEntry) event).length
      = if event.record.parentRecordId = some recordId then 1 else 0 := by
  rw [entriesOf_map, List.length_map,
    ((grown.children recordId).filter _).length_eq, List.filter_append, List.length_append]
  have earlier : (store.children before recordId).filter
      (fun child => child.record.id = event.record.id) = [] := by
    rw [List.filter_eq_nil_iff]
    intro child member same
    have stored := store.get_child member
    rw [of_decide_eq_true same] at stored
    exact stored (grown.fresh event listed)
  have own : (events.filter fun child => child.record.id = event.record.id) = [event] :=
    filter_id_eq_singleton grown.distinct listed
  rw [earlier, List.filter_comm, own, List.length_nil, Nat.zero_add]
  by_cases named : event.record.parentRecordId = some recordId
  · simp [named]
  · simp [named]

/-- After a sequence of events the export of a record shows each event exactly once if and only if
every event names the record itself as its parent.
-/
theorem export_shows_events_iff {recordId : Uuid} {state : store.State} {calls : List EventCall}
    (stored : store.get state recordId ≠ none) (fresh : FreshIds store calls state)
    : (∃ fields,
        exportAuditorRecord store recordId (appendEvents store calls state).2 = .ok fields
        ∧ ∀ event ∈ (appendEvents store calls state).1,
            (entriesOf (repartitionHistory fields) event).length = 1)
      ↔ ∀ event ∈ (appendEvents store calls state).1,
          event.record.parentRecordId = some recordId := by
  have grown := appendEvents_grows fresh
  constructor
  · rintro ⟨fields, exported, shown⟩ event listed
    have once := shown event listed
    rw [repartitionHistory_export exported, entriesOf_event grown listed] at once
    by_contra other
    rw [if_neg other] at once
    cases once
  · intro named
    obtain ⟨signed, found⟩ := Option.ne_none_iff_exists'.mp stored
    obtain ⟨fields, exported⟩ : ∃ fields,
        exportAuditorRecord store recordId (appendEvents store calls state).2 = .ok fields := by
      unfold exportAuditorRecord
      rw [grown.kept _ _ found]
      dsimp only
      split
      · exact ⟨_, rfl⟩
      · exact ⟨_, rfl⟩
    refine ⟨fields, exported, fun event listed => ?_⟩
    rw [repartitionHistory_export exported, entriesOf_event grown listed, if_pos (named event listed)]

/-- A store in memory, as the list of what was appended. -/
def listStore : ParentedStore where
  State := List SignedProvenanceRecord
  get state id := state.find? fun signed => signed.record.id = id
  append state signed := state ++ [signed]
  get_append := by
    intro state signed fresh id
    rw [List.find?_append]
    by_cases same : id = signed.record.id
    · subst same
      rw [fresh, if_pos rfl]
      simp
    · rw [if_neg same]
      simp [Ne.symm same]
  children state parentId :=
    state.filter fun signed => signed.record.parentRecordId = some parentId
  children_append := by
    intro state signed parentId
    rw [List.filter_append]
    refine .of_eq (congrArg _ ?_)
    by_cases own : signed.record.parentRecordId = some parentId
    · simp [own]
    · simp [own]
  get_child := by
    intro state parentId child listed absent
    rw [List.find?_eq_none] at absent
    exact absent child (List.mem_of_mem_filter listed) (decide_eq_true rfl)

/-- A store with one record, which is no repartition. -/
def rootState : listStore.State :=
  [bareSigned (bareRecord 1 none .chain)]

/-- A repartition of the record, and a repartition of that repartition. -/
def chainedCalls : List EventCall :=
  [⟨echoAnswer, 2, 1, 0, [], .rsassaPssSha256⟩, ⟨echoAnswer, 3, 2, 0, [], .rsassaPssSha256⟩]

/-- Two repartitions of the record. -/
def directCalls : List EventCall :=
  [⟨echoAnswer, 2, 1, 0, [], .rsassaPssSha256⟩, ⟨echoAnswer, 3, 1, 0, [], .rsassaPssSha256⟩]

theorem export_shows_events_direct
    : ∃ fields,
        exportAuditorRecord listStore 1 (appendEvents listStore directCalls rootState).2 = .ok fields
        ∧ ∀ event ∈ (appendEvents listStore directCalls rootState).1,
            (entriesOf (repartitionHistory fields) event).length = 1 := by
  have named : ((appendEvents listStore directCalls rootState).1.all fun event =>
      event.record.parentRecordId = some 1) = true := by
    decide +kernel
  have stored : listStore.get rootState 1 ≠ none := by decide
  have fresh : FreshIds listStore directCalls rootState :=
    ⟨by decide, by decide, trivial⟩
  refine (export_shows_events_iff stored fresh).mpr ?_
  exact fun event listed => of_decide_eq_true (List.all_eq_true.mp named event listed)

/-- Each of the two calls names the record or what an earlier call created, and both return, but the
history shows one event.
-/
theorem export_hides_chained_event
    : FreshIds listStore chainedCalls rootState
      ∧ (appendEvents listStore chainedCalls rootState).1.map
          (fun event => (event.record.id, event.record.parentRecordId))
        = [(2, some 1), (3, some 2)]
      ∧ ¬∃ fields,
        exportAuditorRecord listStore 1 (appendEvents listStore chainedCalls rootState).2
          = .ok fields
        ∧ ∀ event ∈ (appendEvents listStore chainedCalls rootState).1,
            (entriesOf (repartitionHistory fields) event).length = 1 := by
  have shown : ((exportAuditorRecord listStore 1
      (appendEvents listStore chainedCalls rootState).2).map fun fields =>
        (appendEvents listStore chainedCalls rootState).1.map fun event =>
          (entriesOf (repartitionHistory fields) event).length) = .ok [1, 0] := by
    decide +kernel
  refine ⟨⟨by decide, by decide, trivial⟩, by decide, ?_⟩
  rintro ⟨fields, exported, all⟩
  rw [exported] at shown
  have ones : (appendEvents listStore chainedCalls rootState).1.map (fun event =>
      (entriesOf (repartitionHistory fields) event).length)
      = (appendEvents listStore chainedCalls rootState).1.map fun _ => 1 :=
    List.map_congr_left all
  have lengths := (Except.ok.inj shown).symm.trans ones
  have last : (0 : Nat) ∈ (appendEvents listStore chainedCalls rootState).1.map fun _ => 1 := by
    rw [← lengths]
    decide +kernel
  obtain ⟨_, _, absurdity⟩ := List.mem_map.mp last
  cases absurdity

end Scanipy.Services.Scan.Provenance

import Scanipy.Services.Triage.AnytimeValidity

/-! The versions that acceptances allocate, over runs of updates and evaluations against the tables.
The counter of a version is kept for each class, while the table wants versions that are unique
over all classes, and the decision step does not look at earlier decisions.
-/

namespace Scanipy.Services.Triage

open Library Python Scan.Provenance

theorem decimalOf_decimal (value : Nat) : decimalOf (decimal value) = some value := by
  obtain ⟨digits, total, first, others, same, _⟩ := Json.decimal_shape value
  have nonempty : decimal value ≠ [] := by
    rw [same]
    exact List.cons_ne_nil _ _
  have all : (decimal value).all isDigit = true := by
    rw [List.all_eq_true]
    intro point member
    have digit := digits point member
    simpa [isDigit, between, Json.IsDigit] using digit
  rw [decimalOf, if_pos ⟨nonempty, all⟩, total]

theorem dot_not_mem_decimal (value : Nat) : dot ∉ decimal value := by
  intro member
  have digit := (Json.decimal_shape value).1 dot member
  exact absurd digit (by decide)

/-- A version reads back as its numbers. -/
theorem semver_semverText (major minor patch : Nat)
    : semver (semverText major minor patch) = .ok (toLex (major, toLex (minor, patch))) := by
  have parts : (semverText major minor patch).splitOn dot
      = [decimal major, decimal minor, decimal patch] := by
    refine List.splitOn_intercalate dot ?_ (List.cons_ne_nil _ _)
    simp only [List.mem_cons, List.not_mem_nil, or_false, forall_eq_or_imp, forall_eq]
    exact ⟨dot_not_mem_decimal major, dot_not_mem_decimal minor, dot_not_mem_decimal patch⟩
  simp only [semver, parts, List.map_cons, List.map_nil, decimalOf_decimal]

variable {version : Text}

/-- Bumping the patch of a version gives a greater one. -/
theorem lt_of_bumpPatch {bumped : Text} (done : bumpPatch version = .ok bumped)
    : ∃ before after, semver version = .ok before ∧ semver bumped = .ok after ∧ before < after := by
  obtain ⟨⟨major, minor, patch⟩, read, done⟩ := bind_ok.mp done
  cases done
  refine ⟨_, toLex (major, toLex (minor, patch + 1)), read, semver_semverText _ _ _, ?_⟩
  exact Prod.Lex.toLex_lt_toLex.mpr
    (.inr ⟨rfl, Prod.Lex.toLex_lt_toLex.mpr (.inr ⟨rfl, Nat.lt_succ_self patch⟩)⟩)

variable {classOf : Dict Text Json → Option Text} {provenance : ProvenanceStore}

/-- The global rows of a class. -/
def OfClass (classOf : Dict Text Json → Option Text) (detectorClass : Text) (row : SpecVersionRow)
    : Prop :=
  row.scope = .global ∧ classOf row.specSet = some detectorClass

/-- A row whose version comes before a version. -/
def Precedes (row : SpecVersionRow) (version : Text) : Prop :=
  ∃ before after, semver row.sVersion = .ok before ∧ semver version = .ok after ∧ before < after

variable {rows : List SpecVersionRow} {row : SpecVersionRow} {detectorClass next : Text}

/-- The next version of a class is above every version of that class. Witness: the greatest one,
bumped.
-/
theorem precedes_nextSemver
    (done : nextSemverForClass (specVersionsTable classOf) rows detectorClass = .ok next)
    (member : row ∈ rows) (ofClass : OfClass classOf detectorClass row)
    : Precedes row next := by
  obtain ⟨keyed, read, done⟩ := bind_ok.mp done
  have listed : row ∈ (specVersionsTable classOf).allForClass rows detectorClass .global :=
    List.mem_filter.mpr ⟨member, decide_eq_true ofClass⟩
  obtain ⟨entry, among, keyOfRow⟩ := exists_result_of_mem read listed
  obtain ⟨key, parsed, same⟩ := bind_ok.mp keyOfRow
  cases same
  cases greatest : keyed.argmax Prod.fst with
  | none =>
      rw [List.argmax_eq_none.mp greatest] at among
      cases among
  | some best =>
      rw [greatest] at done
      have top : key ≤ best.1 := List.le_of_mem_argmax among (Option.mem_def.mpr greatest)
      obtain ⟨highest, _, keyOfBest⟩ := exists_mem_of_result read (List.argmax_mem greatest)
      obtain ⟨bestKey, bestParsed, same⟩ := bind_ok.mp keyOfBest
      cases same
      obtain ⟨before, after, was, becomes, less⟩ := lt_of_bumpPatch done
      obtain rfl := Except.ok.inj (bestParsed.symm.trans was)
      exact ⟨key, after, parsed, becomes, lt_of_le_of_lt top less⟩

/-- The version that a class is given next can be read. -/
theorem semver_nextSemver
    (done : nextSemverForClass (specVersionsTable classOf) rows detectorClass = .ok next)
    : ∃ numbers, semver next = .ok numbers := by
  obtain ⟨keyed, read, done⟩ := bind_ok.mp done
  cases greatest : keyed.argmax Prod.fst with
  | none =>
      rw [greatest] at done
      cases done
      exact ⟨_, semver_semverText 1 0 0⟩
  | some best =>
      rw [greatest] at done
      obtain ⟨_, after, _, becomes, _⟩ := lt_of_bumpPatch done
      exact ⟨after, becomes⟩

theorem Precedes.ne {other : SpecVersionRow} (precedes : Precedes row version)
    (same : other.sVersion = version)
    : row.sVersion ≠ other.sVersion := by
  obtain ⟨before, after, was, becomes, less⟩ := precedes
  intro equal
  rw [equal, same, becomes] at was
  exact less.ne' (Except.ok.inj was)

-- Runs

/-- The rows of `proposed_specs`: candidates by id, each in the class that its body names. -/
structure Proposals (classOf : Dict Text Json → Option Text) where
  spec : Uuid → CandidateSpec
  spec_id : ∀ id, (spec id).id = id
  filed : ∀ id, classOf (spec id).specBody = some (spec id).detectorClass

/-- The tables, and the state of each candidate's process. -/
structure World (provenance : ProvenanceStore) where
  rows : List SpecVersionRow
  proposed : Dict Uuid (Uuid × Int)
  records : provenance.State
  states : Uuid → EProcessState

/-- The calls of a run. -/
inductive Operation where
  | update (id : Uuid) (outcome : ℚ)
  | evaluate (id : Uuid) (call : Call) (answer : Answer)

variable (proposals : Proposals classOf)

/-- What a call does to the tables when it returns. -/
def perform (world : World provenance) : Operation → Except GateError (World provenance)
  | .update id outcome => do
      let state ← updateEProcess (world.states id) outcome
      .ok { world with states := Function.update world.states id state }
  | .evaluate id call answer => do
      let ports : Ports (tables classOf provenance) :=
        { specVersions := some world.rows
          proposedSpecs := some world.proposed
          provenanceStore := some world.records
          signer := some answer }
      let (_, ports) ← evaluateProposedSpec (proposals.spec id) (world.states id) call ports
      .ok
        { world with
          rows := ports.specVersions.getD world.rows
          proposed := ports.proposedSpecs.getD world.proposed
          records := ports.provenanceStore.getD world.records }

/-- A call in its transaction: the writes of a call that raises are rolled back. -/
def step (world : World provenance) (operation : Operation) : World provenance :=
  match perform proposals world operation with
  | .ok next => next
  | .error _ => world

/-- The tables after a sequence of calls. -/
def run (world : World provenance) (operations : List Operation) : World provenance :=
  operations.foldl (step proposals) world

/-- The candidate of a call. -/
def Operation.subject : Operation → Uuid
  | .update id _ => id
  | .evaluate id _ _ => id

/-- The rows that a sequence of calls inserts, with the candidates that they are inserted for. -/
def materialised (world : World provenance) : List Operation → List (Uuid × SpecVersionRow)
  | [] => []
  | operation :: rest =>
      ((step proposals world operation).rows.drop world.rows.length).map (operation.subject, ·)
      ++ materialised (step proposals world operation) rest

/-- The row that an evaluation inserts. -/
def rowOf (world : World provenance) (id : Uuid) (call : Call) (version : Text) : SpecVersionRow :=
  newRow (proposals.spec id) call.rowId version (world.states id).eValue
    (1 / (world.states id).alpha)

/-- The tables after an acceptance. -/
def World.accepted (world : World provenance) (id : Uuid) (call : Call) (row : SpecVersionRow)
    (signed : SignedProvenanceRecord)
    : World provenance :=
  { world with
    rows := world.rows ++ [row]
    proposed := world.proposed.set id (call.rowId, call.decidedAt.getD call.now)
    records := provenance.append world.records signed }

variable {proposals} {answer : Answer} {signed : SignedProvenanceRecord}

theorem record_of_signInto {record : ProvenanceRecord} {kmsKeyArn : Text}
    {signatureAlg : SignatureAlg} {state appended : provenance.State}
    (done : signInto provenance answer record kmsKeyArn signatureAlg state = .ok (signed, appended))
    : signed.record = record ∧ appended = provenance.append state signed := by
  simp only [signInto, signProvenance, bind_ok] at done
  obtain ⟨_, ⟨_, _, _, _, canonical, _, signature, _, built⟩, same⟩ := done
  cases built
  cases same
  exact ⟨rfl, rfl⟩

variable {inserted : List SpecVersionRow}

theorem insertRow_eq (done : insertRow rows row = .ok inserted)
    : inserted = rows ++ [row] := by
  simp only [insertRow, check_ok] at done
  obtain ⟨_, _, _, _, same⟩ := done
  exact (Except.ok.inj same).symm

variable {world : World provenance} {id : Uuid} {call : Call}

/-- What an evaluation that returns has done: nothing, or it has accepted the candidate under the
next version of its class.
-/
theorem perform_evaluate_cases {next : World provenance}
    (done : perform proposals world (.evaluate id call answer) = .ok next)
    : next = world
      ∨ ∃ version signed,
          1 / (world.states id).alpha ≤ (world.states id).eValue
          ∧ nextSemverForClass (specVersionsTable classOf) world.rows
              (proposals.spec id).detectorClass = .ok version
          ∧ insertRow world.rows (rowOf proposals world id call version)
            = .ok (world.rows ++ [rowOf proposals world id call version])
          ∧ signed.record = specAcceptanceRecord call.recordId (proposals.spec id) version
              call.envDigest (call.scanId.getD call.freshScanId)
          ∧ next = world.accepted id call (rowOf proposals world id call version) signed := by
  obtain ⟨⟨verdict, ports⟩, evaluated, same⟩ := bind_ok.mp done
  cases same
  obtain ⟨threshold, level, decided⟩ := bind_ok.mp evaluated
  rw [EProcessState.threshold] at level
  split at level
  case isTrue => cases level
  case isFalse nonzero =>
    obtain rfl := Except.ok.inj level
    split at decided
    case isTrue =>
      obtain ⟨_, rfl⟩ := Prod.mk.inj (Except.ok.inj decided)
      exact .inl rfl
    case isFalse reached =>
      obtain ⟨⟨version, allocated⟩, allocates, signing⟩ := bind_ok.mp decided
      obtain ⟨fresh, nextVersion, inserting⟩ := bind_ok.mp allocates
      obtain ⟨rows, inserts, kept⟩ := bind_ok.mp inserting
      obtain ⟨rfl, rfl⟩ := Prod.mk.inj (Except.ok.inj kept)
      obtain ⟨appended, recorded, marking⟩ := bind_ok.mp signing
      obtain ⟨flipped, marked, returned⟩ := bind_ok.mp marking
      obtain ⟨_, rfl⟩ := Prod.mk.inj (Except.ok.inj returned)
      obtain rfl := insertRow_eq inserts
      simp only [signAcceptance] at recorded
      split at recorded
      case h_1 => cases recorded
      case h_2 signed records signs =>
        obtain ⟨_, recorded⟩ := check_ok.mp recorded
        obtain rfl := Except.ok.inj recorded
        obtain ⟨record, rfl⟩ := record_of_signInto signs
        obtain ⟨marks, flips, marked⟩ := bind_ok.mp marked
        obtain rfl := Except.ok.inj flips
        obtain rfl := Except.ok.inj marked
        refine .inr ⟨fresh, signed, not_lt.mp reached, nextVersion, inserts, record, ?_⟩
        simp only [World.accepted, rowOf, proposals.spec_id]
        rfl

/-- Updates leave the tables alone. -/
theorem perform_update_eq {next : World provenance} {outcome : ℚ}
    (done : perform proposals world (.update id outcome) = .ok next)
    : ∃ state, next = { world with states := Function.update world.states id state } := by
  obtain ⟨state, _, same⟩ := bind_ok.mp done
  exact ⟨state, (Except.ok.inj same).symm⟩

-- Sound allocation

/-- The constraint that keeps global versions apart. -/
def globalVersionKey : GateError :=
  .store "spec_versions_global_version_key"

/-- What the tables have to do with each other: global versions can be read and are unique, and
the records of acceptances carry versions of global rows.
-/
structure Consistent (world : World provenance) : Prop where
  versioned : ∀ row ∈ world.rows, row.scope = .global → ∃ numbers, semver row.sVersion = .ok numbers
  unique : (world.rows.filter fun row => row.scope = .global).Pairwise
    fun earlier later => earlier.sVersion ≠ later.sVersion
  recorded : ∀ id signed, provenance.get world.records id = some signed
    → signed.record.recordType = .specAcceptance
    → ∃ row ∈ world.rows, row.scope = .global ∧ row.sVersion = signed.record.sVersion

variable (proposals)

/-- What keeps a call clear of the defects: where it finds its candidate at the threshold, the
candidate has not been accepted before, and every global version is of the candidate's class.
-/
def Clear (world : World provenance) : Operation → Prop
  | .update _ _ => True
  | .evaluate id _ _ =>
      1 / (world.states id).alpha ≤ (world.states id).eValue
      → world.proposed.get? id = none
        ∧ ∀ row ∈ world.rows, row.scope = .global
          → classOf row.specSet = some (proposals.spec id).detectorClass

/-- The id of a call's record is new, as that of `uuid4` is. -/
def FreshRecord (world : World provenance) : Operation → Prop
  | .update _ _ => True
  | .evaluate _ call _ => provenance.get world.records call.recordId = none

/-- A run whose calls all meet a condition in the state that they find. -/
def Always (condition : World provenance → Operation → Prop)
    : World provenance → List Operation → Prop
  | _, [] => True
  | world, operation :: rest =>
      condition world operation ∧ Always condition (step proposals world operation) rest

/-- Each spec version is allocated once: no call of a run violates the uniqueness of global
versions; every inserted row is above all earlier rows of its class; no candidate is inserted
twice, or again; and every inserted row has one record of its acceptance.
-/
structure AllocatedOnce (world : World provenance) (operations : List Operation) : Prop where
  admitted : Always proposals
    (fun world operation => perform proposals world operation ≠ .error globalVersionKey)
    world operations
  ascending : ∀ before (row : SpecVersionRow) after,
    (run proposals world operations).rows = before ++ row :: after
    → world.rows.length ≤ before.length
    → ∀ earlier ∈ before, earlier.scope = .global → classOf earlier.specSet = classOf row.specSet
    → Precedes earlier row.sVersion
  once : ((materialised proposals world operations).map Prod.fst).Nodup
    ∧ ∀ entry ∈ materialised proposals world operations, world.proposed.get? entry.1 = none
  signed : ∀ entry ∈ materialised proposals world operations,
    ∃! id, ∃ signed, provenance.get (run proposals world operations).records id = some signed
      ∧ signed.record.recordType = .specAcceptance
      ∧ signed.record.sVersion = entry.2.sVersion

variable {proposals}

/-- What a call does to the tables in its transaction: nothing, or it accepts its candidate. -/
theorem step_cases (proposals : Proposals classOf) (world : World provenance)
    (operation : Operation)
    : ((step proposals world operation).rows = world.rows
        ∧ (step proposals world operation).proposed = world.proposed
        ∧ (step proposals world operation).records = world.records)
      ∨ ∃ id call answer version signed,
          operation = .evaluate id call answer
          ∧ 1 / (world.states id).alpha ≤ (world.states id).eValue
          ∧ nextSemverForClass (specVersionsTable classOf) world.rows
              (proposals.spec id).detectorClass = .ok version
          ∧ insertRow world.rows (rowOf proposals world id call version)
            = .ok (world.rows ++ [rowOf proposals world id call version])
          ∧ signed.record = specAcceptanceRecord call.recordId (proposals.spec id) version
              call.envDigest (call.scanId.getD call.freshScanId)
          ∧ step proposals world operation
            = world.accepted id call (rowOf proposals world id call version) signed := by
  rw [step]
  cases done : perform proposals world operation with
  | error raised => exact .inl ⟨rfl, rfl, rfl⟩
  | ok next =>
      cases operation with
      | update id outcome =>
          obtain ⟨state, rfl⟩ := perform_update_eq done
          exact .inl ⟨rfl, rfl, rfl⟩
      | evaluate id call answer =>
          rcases perform_evaluate_cases done with rfl | ⟨version, signed, facts⟩
          · exact .inl ⟨rfl, rfl, rfl⟩
          · obtain ⟨reached, allocated, inserts, record, same⟩ := facts
            exact .inr ⟨id, call, answer, version, signed, rfl, reached, allocated, inserts, record,
              same⟩

/-- A global row that the table takes has a version that no global row has. -/
theorem other_of_insertRow (done : insertRow rows row = .ok inserted) (scope : row.scope = .global)
    : ∀ other ∈ rows, other.scope = .global → other.sVersion ≠ row.sVersion := by
  simp only [insertRow, check_ok, demand_ok] at done
  exact done.2.2.2.1 scope

variable {world : World provenance}

/-- A new record is found under its id, and the others stay. -/
theorem get_accepted (row : SpecVersionRow)
    (record : signed.record = specAcceptanceRecord call.recordId (proposals.spec id) version
      call.envDigest (call.scanId.getD call.freshScanId))
    (fresh : provenance.get world.records call.recordId = none) (other : Uuid)
    : provenance.get (world.accepted id call row signed).records other
      = if other = call.recordId then some signed else provenance.get world.records other := by
  have named : signed.record.id = call.recordId := by rw [record]; rfl
  rw [World.accepted, provenance.get_append (named ▸ fresh), named]

/-- Calls with fresh records keep the tables consistent. -/
theorem Consistent.step (consistent : Consistent world) {operation : Operation}
    (fresh : FreshRecord world operation)
    : Consistent (step proposals world operation) := by
  rcases step_cases proposals world operation with ⟨rows, _, records⟩ | accepted
  · refine ⟨?_, ?_, ?_⟩
    · rw [rows]
      exact consistent.versioned
    · rw [rows]
      exact consistent.unique
    · rw [rows, records]
      exact consistent.recorded
  · obtain ⟨id, call, answer, version, signed, rfl, _, allocated, inserts, record, same⟩ := accepted
    have found := get_accepted (rowOf proposals world id call version) record fresh
    rw [same]
    refine ⟨?_, ?_, ?_⟩
    · intro row member scope
      rcases List.mem_append.mp member with old | new
      · exact consistent.versioned row old scope
      · obtain rfl := List.mem_singleton.mp new
        exact semver_nextSemver allocated
    · rw [World.accepted, List.filter_append, List.pairwise_append]
      refine ⟨consistent.unique,
        List.Pairwise.sublist List.filter_sublist (List.pairwise_singleton _ _), ?_⟩
      intro earlier old later new
      obtain ⟨old, scope⟩ := List.mem_filter.mp old
      obtain rfl := List.mem_singleton.mp (List.mem_filter.mp new).1
      exact other_of_insertRow inserts rfl earlier old (by simpa using scope)
    · intro recordId stored present type
      rw [found] at present
      by_cases own : recordId = call.recordId
      · rw [if_pos own] at present
        obtain rfl := Option.some.inj present
        refine ⟨rowOf proposals world id call version,
          List.mem_append_right _ (List.mem_singleton_self _), rfl, ?_⟩
        rw [record]
        rfl
      · rw [if_neg own] at present
        obtain ⟨row, member, rest⟩ := consistent.recorded recordId stored present type
        exact ⟨row, List.mem_append_left _ member, rest⟩

/-- Rows are only added, by induction on the calls. -/
theorem rows_extend (proposals : Proposals classOf) (world : World provenance)
    (operations : List Operation)
    : world.rows <+: (run proposals world operations).rows := by
  induction operations generalizing world with
  | nil => exact List.prefix_rfl
  | cons operation rest ih =>
      refine List.IsPrefix.trans ?_ (ih (Triage.step proposals world operation))
      rcases step_cases proposals world operation with ⟨rows, _⟩ | accepted
      · rw [rows]
      · obtain ⟨id, call, answer, version, signed, _, _, _, _, _, same⟩ := accepted
        rw [same]
        exact List.prefix_append _ _

/-- One record of an acceptance carries a version. -/
def OneRecord (records : provenance.State) (version : Text) : Prop :=
  ∃! id, ∃ signed, provenance.get records id = some signed
    ∧ signed.record.recordType = .specAcceptance
    ∧ signed.record.sVersion = version

/-- The record of a version stays the only one. Witness: later acceptances are given other
versions.
-/
theorem OneRecord.step {version : Text} (one : OneRecord world.records version)
    {row : SpecVersionRow} (member : row ∈ world.rows) (scope : row.scope = .global)
    (versioned : row.sVersion = version) {operation : Operation}
    (fresh : FreshRecord world operation)
    : OneRecord (Triage.step proposals world operation).records version := by
  rcases step_cases proposals world operation with ⟨_, _, records⟩ | accepted
  · rw [records]
    exact one
  · obtain ⟨id, call, answer, next, signed, rfl, _, _, inserts, record, same⟩ := accepted
    have found := get_accepted (rowOf proposals world id call next) record fresh
    have other : next ≠ version := fun equal =>
      other_of_insertRow inserts rfl row member scope (versioned.trans equal.symm)
    obtain ⟨own, ⟨kept, present, facts⟩, unique⟩ := one
    rw [same]
    refine ⟨own, ⟨kept, ?_, facts⟩, ?_⟩
    · have apart : own ≠ call.recordId := by
        intro equal
        rw [equal, fresh] at present
        cases present
      rw [found, if_neg apart]
      exact present
    · rintro recordId ⟨stored, storedThere, type, carried⟩
      rw [found] at storedThere
      by_cases mine : recordId = call.recordId
      · rw [if_pos mine] at storedThere
        obtain rfl := Option.some.inj storedThere
        rw [record] at carried
        exact absurd carried other
      · rw [if_neg mine] at storedThere
        exact unique recordId ⟨stored, storedThere, type, carried⟩

/-- An acceptance has one record. -/
theorem oneRecord_accepted (consistent : Consistent world)
    (inserts : insertRow world.rows (rowOf proposals world id call version)
      = .ok (world.rows ++ [rowOf proposals world id call version]))
    (record : signed.record = specAcceptanceRecord call.recordId (proposals.spec id) version
      call.envDigest (call.scanId.getD call.freshScanId))
    (fresh : FreshRecord world (.evaluate id call answer))
    : OneRecord (world.accepted id call (rowOf proposals world id call version) signed).records
        version := by
  have found := get_accepted (rowOf proposals world id call version) record fresh
  refine ⟨call.recordId, ⟨signed, ?_, ?_, ?_⟩, ?_⟩
  · rw [found, if_pos rfl]
  · rw [record]
    rfl
  · rw [record]
    rfl
  · rintro recordId ⟨stored, present, type, carried⟩
    by_contra apart
    rw [found, if_neg apart] at present
    obtain ⟨row, member, scope, same⟩ := consistent.recorded recordId stored present type
    exact other_of_insertRow inserts rfl row member scope (same.trans carried)

/-- One record stays one along a run, by induction on the calls. -/
theorem OneRecord.run {operations : List Operation} (one : OneRecord world.records version)
    (member : row ∈ world.rows) (scope : row.scope = .global) (versioned : row.sVersion = version)
    (fresh : Always proposals FreshRecord world operations)
    : OneRecord (Triage.run proposals world operations).records version := by
  induction operations generalizing world with
  | nil => exact one
  | cons operation rest ih =>
      exact ih (one.step member scope versioned fresh.1)
        ((rows_extend proposals world [operation]).subset member) fresh.2

theorem avoids_semver (version : Text) : Avoids globalVersionKey (semver version) := by
  unfold semver
  split
  · exact .ok _
  · exact .error (by decide)

theorem avoids_nextSemver (rows : List SpecVersionRow) (detectorClass : Text)
    : Avoids globalVersionKey
        (nextSemverForClass (specVersionsTable classOf) rows detectorClass) := by
  have keyed : ∀ row ∈ (specVersionsTable classOf).allForClass rows detectorClass .global,
      Avoids globalVersionKey (keyOf row) :=
    fun row _ => Avoids.bind (avoids_semver row.sVersion) fun _ _ => .ok _
  refine Avoids.bind (.collect keyed) fun entries _ => ?_
  cases entries.argmax Prod.fst with
  | none => exact .ok _
  | some best => exact Avoids.bind (avoids_semver best.2.sVersion) fun _ _ => .ok _

/-- Only the versions of global rows are in the way of a global row. -/
theorem avoids_insertRow
    (apart : ∀ other ∈ rows, other.scope = .global → other.sVersion ≠ row.sVersion)
    : Avoids globalVersionKey (insertRow rows row) := by
  refine Avoids.bind (.demand (by decide)) fun _ _ => Avoids.bind (.demand (by decide)) fun _ _ =>
    Avoids.bind (.demand (by decide)) fun _ _ => ?_
  rw [demand, if_pos fun _ => apart]
  exact .ok _

theorem avoids_signAcceptance (spec : CandidateSpec) (version : Text) (call : Call)
    (ports : Ports (tables classOf provenance))
    : Avoids globalVersionKey (signAcceptance spec version call ports) := by
  rw [signAcceptance]
  split
  · dsimp only
    split
    · exact .error (by simp [globalVersionKey])
    · exact Avoids.bind (.demand (by decide)) fun _ _ => .ok _
  · exact .ok _

theorem avoids_markAccepted (spec : CandidateSpec) (call : Call)
    (ports : Ports (tables classOf provenance))
    : Avoids globalVersionKey (markAccepted spec call ports) := by
  rw [markAccepted]
  split
  · exact .ok _
  · exact Avoids.bind (.ok _) fun _ _ => .ok _

variable {operation : Operation}

/-- A clear call does not violate the uniqueness of global versions. Witness: the new version is
above all global ones.
-/
theorem admitted_of_clear (clear : Clear proposals world operation)
    : Avoids globalVersionKey (perform proposals world operation) := by
  cases operation with
  | update id outcome =>
      refine Avoids.bind (Avoids.bind (.demand (by decide)) fun _ _ => ?_) fun _ _ => .ok _
      exact Avoids.bind (.demand (by decide)) fun _ _ => .ok _
  | evaluate id call answer =>
      refine Avoids.bind (Avoids.bind ?_ fun threshold level => ?_) fun _ _ => .ok _
      · rw [EProcessState.threshold]
        split
        · exact .error (by decide)
        · exact .ok _
      · split
        case isTrue => exact .ok _
        case isFalse reached =>
          have met : 1 / (world.states id).alpha ≤ (world.states id).eValue := by
            rw [EProcessState.threshold] at level
            split at level
            · cases level
            · obtain rfl := Except.ok.inj level
              exact not_lt.mp reached
          refine Avoids.bind (Avoids.bind (avoids_nextSemver _ _) fun version allocated =>
            Avoids.bind (avoids_insertRow ?_) fun _ _ => .ok _) fun _ _ =>
            Avoids.bind (avoids_signAcceptance _ _ _ _) fun _ _ =>
            Avoids.bind (avoids_markAccepted _ _ _) fun _ _ => .ok _
          intro other member scope
          exact (precedes_nextSemver allocated member
            ⟨scope, (clear met).2 other member scope⟩).ne rfl

/-- In a run from consistent tables whose calls are all clear, each spec version is allocated once,
by induction on the calls.
-/
theorem allocated_once (proposals : Proposals classOf) {world : World provenance}
    {operations : List Operation} (consistent : Consistent world)
    (fresh : Always proposals FreshRecord world operations)
    (clear : Always proposals (Clear proposals) world operations)
    : AllocatedOnce proposals world operations := by
  induction operations generalizing world with
  | nil =>
      refine ⟨trivial, ?_, ⟨List.nodup_nil, fun _ member => by cases member⟩,
        fun _ member => by cases member⟩
      intro before row after same longer
      have lengths := congrArg List.length same
      simp only [run, List.foldl_nil, List.length_append, List.length_cons] at lengths
      omega
  | cons operation rest ih =>
      have later := ih (consistent.step fresh.1) fresh.2 clear.2
      rcases step_cases proposals world operation with unchanged | accepted
      · obtain ⟨rows, proposed, _⟩ := unchanged
        have inserted : materialised proposals world (operation :: rest)
            = materialised proposals (Triage.step proposals world operation) rest := by
          rw [materialised, rows, List.drop_length, List.map_nil, List.nil_append]
        refine ⟨⟨admitted_of_clear clear.1, later.admitted⟩, ?_, ?_, ?_⟩
        · intro before row after same longer
          exact later.ascending before row after same (rows ▸ longer)
        · rw [inserted, ← proposed]
          exact later.once
        · rw [inserted]
          exact later.signed
      · obtain ⟨id, call, answer, version, signed, rfl, reached, allocated, inserts, record, same⟩ :=
          accepted
        have inserted : materialised proposals world (.evaluate id call answer :: rest)
            = (id, rowOf proposals world id call version)
              :: materialised proposals (Triage.step proposals world (.evaluate id call answer))
                rest := by
          rw [materialised, same, World.accepted, List.drop_left]
          rfl
        have absent := (clear.1 reached).1
        have one := oneRecord_accepted consistent inserts record fresh.1
        rw [← same] at one
        refine ⟨⟨admitted_of_clear clear.1, later.admitted⟩, ?_, ?_, ?_⟩
        · have starts : (Triage.step proposals world (.evaluate id call answer)).rows
              = world.rows ++ [rowOf proposals world id call version] := by
            rw [same]
            rfl
          intro before row after whole longer
          rcases Nat.lt_or_ge world.rows.length before.length with beyond | exactly
          · refine later.ascending before row after whole ?_
            rw [starts, List.length_append]
            exact beyond
          · obtain ⟨tail, extends'⟩ := rows_extend proposals
              (Triage.step proposals world (.evaluate id call answer)) rest
            rw [starts, List.append_assoc, List.singleton_append] at extends'
            obtain ⟨rfl, others⟩ := List.append_inj (extends'.trans whole) (by omega)
            obtain rfl := (List.cons.inj others).1
            intro earlier member scope sameClass
            exact precedes_nextSemver allocated member
              ⟨scope, sameClass.trans (proposals.filed id)⟩
        · rw [inserted]
          have marked : ∀ other, (Triage.step proposals world
              (.evaluate id call answer)).proposed.get? other = none
              → other ≠ id ∧ world.proposed.get? other = none := by
            intro other none'
            rw [same, World.accepted, Dict.get?_set] at none'
            split at none'
            · cases none'
            · rename_i different
              exact ⟨Ne.symm different, none'⟩
          refine ⟨List.nodup_cons.mpr ⟨fun again => ?_, later.once.1⟩, ?_⟩
          · obtain ⟨entry, member, subject⟩ := List.mem_map.mp again
            exact (marked entry.1 (later.once.2 entry member)).1 subject
          · intro entry member
            rcases List.mem_cons.mp member with rfl | further
            · exact absent
            · exact (marked entry.1 (later.once.2 entry further)).2
        · rw [inserted]
          intro entry member
          rcases List.mem_cons.mp member with rfl | further
          · exact one.run (by
              rw [same]
              exact List.mem_append_right _ (List.mem_singleton_self _)) rfl rfl fresh.2
          · exact later.signed entry further

/-- The class that a body names under `class`. -/
def classNamed (body : Dict Text Json) : Option Text :=
  match body.get? (py "class") with
  | some (.str name) => some name
  | _ => none

/-- Two candidates of different classes, with a floor of one half and the pinned level. -/
def twoClasses : Proposals classNamed where
  spec id :=
    { id, orgId := 0
      specBody := [(py "class", .str (if id = 0 then py "injection" else py "ssrf"))]
      detectorClass := if id = 0 then py "injection" else py "ssrf"
      piZero := 1 / 2 }
  spec_id _ := rfl
  filed _ := rfl

/-- Empty tables. -/
def emptyWorld : World mapStore where
  rows := []
  proposed := []
  records := fun _ => none
  states id := initialState (twoClasses.spec id)

def callWith (rowId recordId : Uuid) : Call :=
  { plainCall with rowId, recordId }

/-- Empty tables, and candidates whose wealth has passed the threshold. -/
def readyWorld : World mapStore :=
  { emptyWorld with states := fun id => { initialState (twoClasses.spec id) with wealth := 25 } }

theorem allocated_once_ready
    : AllocatedOnce twoClasses readyWorld [.evaluate 0 (callWith 1 1) echoAnswer] := by
  have consistent : Consistent readyWorld := by
    refine ⟨?_, List.Pairwise.nil, ?_⟩
    · intro row member
      cases member
    · intro id signed present
      cases present
  refine allocated_once twoClasses consistent ⟨rfl, trivial⟩ ⟨fun _ => ⟨rfl, ?_⟩, trivial⟩
  intro row member
  cases member

/-- Nine true positives, which take a candidate past its threshold. -/
def driven (id : Uuid) : List Operation :=
  List.replicate 9 (.update id 1)

/-- What a whole run meets, each of its calls meets in the state that it finds, by induction on the
calls before it.
-/
theorem Always.holds {condition : World provenance → Operation → Prop}
    {before after : List Operation}
    (always : Always proposals condition world (before ++ operation :: after))
    : condition (run proposals world before) operation := by
  induction before generalizing world with
  | nil => exact always.1
  | cons first before ih => exact ih always.2

/-- Whether a call violates the uniqueness of global versions. -/
def violates (world : World mapStore) (operation : Operation) : Bool :=
  match perform twoClasses world operation with
  | .error raised => raised = globalVersionKey
  | .ok _ => false

theorem perform_of_violates {world : World mapStore} (violation : violates world operation = true)
    : perform twoClasses world operation = .error globalVersionKey := by
  rw [violates] at violation
  split at violation
  case h_1 raised done => rw [done, of_decide_eq_true violation]
  case h_2 => cases violation

/-- A candidate of a second class is refused by the uniqueness of global versions, and a candidate
that is evaluated twice becomes two rows.
-/
theorem not_allocated_once
    : ¬ AllocatedOnce twoClasses emptyWorld
        (driven 0 ++ .evaluate 0 (callWith 1 1) echoAnswer :: driven 1
          ++ [.evaluate 1 (callWith 2 2) echoAnswer])
      ∧ ¬ AllocatedOnce twoClasses emptyWorld
        (driven 0 ++ [.evaluate 0 (callWith 1 1) echoAnswer,
          .evaluate 0 (callWith 2 2) echoAnswer]) := by
  constructor
  · intro allocated
    exact allocated.admitted.holds (perform_of_violates (by decide +kernel))
  · intro allocated
    have twice : (materialised twoClasses emptyWorld (driven 0
        ++ [.evaluate 0 (callWith 1 1) echoAnswer, .evaluate 0 (callWith 2 2) echoAnswer])).map
        Prod.fst = [0, 0] := by
      decide +kernel
    have once := allocated.once.1
    rw [twice] at once
    exact absurd once (by decide)

end Scanipy.Services.Triage

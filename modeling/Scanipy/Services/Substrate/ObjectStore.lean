import Mathlib.Data.List.Infix
import Scanipy.Library.Outcome
import Scanipy.Library.Segments
import Scanipy.Python.Dict
import Scanipy.Python.Text

/-! The object store: how the keys of a snapshot are minted, how the guard of a tenant admits keys,
and the store in memory that both stand in front of.
-/

namespace Scanipy.Services.Substrate

open Library Python

/-- The case folding of one character: of the ASCII ones their lower case, of the others what the
table says.
-/
def foldPoint (table : CodePoint → Text) (point : CodePoint) : Text :=
  if 0x41 ≤ point.val ∧ point.val ≤ 0x5A then [Fin.ofNat 0x110000 (point.val + 0x20)]
  else if point.val < 0x80 then [point]
  else table point

/-- `text.casefold()`. -/
def casefold (table : CodePoint → Text) (text : Text) : Text :=
  text.flatMap (foldPoint table)

/-- The errors of the object store, with what their messages name. -/
inductive ObjectStoreError where
  | emptyComponent (name : String)
  | forbiddenComponent (name : String) (value token : Text)
  | forbiddenKey (key token : Text)
  | crossTenant (key expectedPrefix : Text)
  | unknownArtifactType (artifactType : Text)
  | noObject (key : Text)
  deriving DecidableEq

/-- `_FORBIDDEN_SUBSTRINGS`. -/
def forbiddenSubstrings : List Text :=
  [py "/", py "\\", py "..", py "%2e", py "%2f", py "%5c", [0]]

variable (table : CodePoint → Text)

/-- What `_validate_component` admits. -/
def IsComponent (value : Text) : Prop :=
  value ≠ [] ∧ ∀ token ∈ forbiddenSubstrings, ¬token <:+: casefold table value

instance (value : Text) : Decidable (IsComponent table value) :=
  inferInstanceAs (Decidable (_ ∧ _))

/-- A component that has been validated. -/
abbrev Component : Type :=
  {value : Text // IsComponent table value}

/-- `_validate_component`: what is not admitted is empty, or contains a first forbidden sequence. -/
def validateComponent (name : String) (value : Text)
    : Except ObjectStoreError (Component table) :=
  if accepted : IsComponent table value then .ok ⟨value, accepted⟩
  else if value = [] then .error (.emptyComponent name)
  else
    let token := forbiddenSubstrings.find? fun token => token <:+: casefold table value
    .error (.forbiddenComponent name value (token.getD []))

/-- `SnapshotKeyBuilder`, whose components are validated when it is built. -/
structure SnapshotKeyBuilder where
  orgId : Component table
  codebaseId : Component table
  commitSha : Component table
  envDigest : Component table

/-- `SNAPSHOT_ARTIFACT_SUFFIXES`. -/
def snapshotArtifactSuffixes : Dict Text Text :=
  [(py "cpg_tarball", py "cpg.tar.zst"),
    (py "reverse_symbol_index", py "reverse_symbol_index.json.zst"),
    (py "dynamic_call_graph", py "dyn_call_graph.json.zst"),
    (py "delta_graph", py "delta_graph.json.zst"),
    (py "precondition_status", py "precondition_status.json")]

variable {table}

namespace SnapshotKeyBuilder

/-- `prefix`. -/
def keyPrefix (builder : SnapshotKeyBuilder table) : Text :=
  py "orgs/" ++ builder.orgId.val ++ py "/codebases/" ++ builder.codebaseId.val
    ++ py "/snapshots/" ++ builder.commitSha.val ++ py "/" ++ builder.envDigest.val ++ py "/"

/-- `artifact_key`. -/
def artifactKey (builder : SnapshotKeyBuilder table) (artifactType : Text)
    : Except ObjectStoreError Text :=
  match snapshotArtifactSuffixes.get? artifactType with
  | none => .error (.unknownArtifactType artifactType)
  | some suffix => .ok (builder.keyPrefix ++ suffix)

end SnapshotKeyBuilder

/-- The tokens that the guard refuses in a key. -/
def forbiddenTokens : List Text :=
  [py "..", py "%2e", py "%5c", py "\\", [0]]

variable (table)

/-- `_guard_key`. -/
def guardKey (orgId key : Text) : Except ObjectStoreError Text := do
  let _ ← validateComponent table "org_id" orgId
  match forbiddenTokens.find? fun token => token <:+: casefold table key with
  | some token => .error (.forbiddenKey key token)
  | none =>
      let expectedPrefix := py "orgs/" ++ orgId ++ py "/"
      if expectedPrefix <+: key then .ok key
      else .error (.crossTenant key expectedPrefix)

/-- `InMemoryObjectStore`. -/
structure InMemoryObjectStore where
  objects : Dict Text Bytes

namespace InMemoryObjectStore

def create : InMemoryObjectStore :=
  ⟨[]⟩

def put (store : InMemoryObjectStore) (orgId key : Text) (body : Bytes)
    : Except ObjectStoreError InMemoryObjectStore := do
  let resolved ← guardKey table orgId key
  .ok ⟨store.objects.set resolved body⟩

def get (store : InMemoryObjectStore) (orgId key : Text) : Except ObjectStoreError Bytes := do
  let resolved ← guardKey table orgId key
  match store.objects.get? resolved with
  | none => .error (.noObject resolved)
  | some body => .ok body

end InMemoryObjectStore

/-- A call on the store by an organisation. -/
inductive StoreCall where
  | put (orgId key : Text) (body : Bytes)
  | get (orgId key : Text)

/-- How a call ends. -/
inductive StoreOutcome where
  | stored
  | returned (body : Bytes)
  | raised (error : ObjectStoreError)

/-- One call, with the store that it leaves. -/
def InMemoryObjectStore.perform (store : InMemoryObjectStore)
    : StoreCall → StoreOutcome × InMemoryObjectStore
  | .put orgId key body =>
      match store.put table orgId key body with
      | .ok after => (.stored, after)
      | .error raised => (.raised raised, store)
  | .get orgId key =>
      match store.get table orgId key with
      | .ok body => (.returned body, store)
      | .error raised => (.raised raised, store)

/-- The calls of a sequence, each with its outcome. -/
def InMemoryObjectStore.run (store : InMemoryObjectStore)
    : List StoreCall → List (StoreCall × StoreOutcome)
  | [] => []
  | call :: rest =>
      let (outcome, after) := store.perform table call
      (call, outcome) :: after.run rest

/-- The separator of the segments of a key. -/
def slash : CodePoint :=
  Fin.ofNat 0x110000 0x2F

variable {table}

theorem foldPoint_slash : foldPoint table slash = [slash] :=
  rfl

/-- Lower-case ASCII text. -/
def isLower (text : Text) : Bool :=
  text.all fun point => point.val < 0x80 && !(0x41 ≤ point.val && point.val ≤ 0x5A)

/-- Lower-case ASCII text is its own case folding. -/
theorem casefold_of_lower {text : Text} (lower : isLower text = true)
    : casefold table text = text := by
  have each : ∀ point ∈ text, foldPoint table point = [point] := by
    intro point listed
    have ranges := List.all_eq_true.mp lower point listed
    simp only [Bool.and_eq_true, decide_eq_true_eq, Bool.not_eq_true', Bool.and_eq_false_iff,
      decide_eq_false_iff_not] at ranges
    rw [foldPoint, if_neg (by omega), if_pos ranges.1]
  rw [casefold, List.flatMap_congr each]
  exact List.flatMap_singleton' text

variable {value : Text}

/-- The separator is no part of the folding of a component. -/
theorem IsComponent.slash_notMem_casefold (component : IsComponent table value)
    : slash ∉ casefold table value := by
  intro listed
  obtain ⟨front, back, same⟩ := List.append_of_mem listed
  exact component.2 (py "/") (by decide) ⟨front, back, by rw [same]; simp [slash, py]⟩

theorem IsComponent.slash_notMem (component : IsComponent table value)
    : slash ∉ value := by
  intro listed
  apply component.slash_notMem_casefold
  exact List.mem_flatMap.mpr ⟨slash, listed, by rw [foldPoint_slash]; exact List.mem_singleton_self _⟩

theorem validateComponent_of_isComponent {name : String} (component : Component table)
    : validateComponent table name component.val = .ok component :=
  dif_pos component.property

variable {orgId key : Text} {resolved : Text}

/-- A key that the guard admits begins with the segments of its organisation. -/
theorem guardKey_ok (admitted : guardKey table orgId key = .ok resolved)
    : resolved = key ∧ IsComponent table orgId
      ∧ ∃ rest, key = py "orgs/" ++ (orgId ++ slash :: rest) := by
  unfold guardKey at admitted
  obtain ⟨component, validated, admitted⟩ := bind_ok.mp admitted
  have accepted : IsComponent table orgId := by
    unfold validateComponent at validated
    split at validated
    · assumption
    · split at validated <;> cases validated
  split at admitted
  · cases admitted
  · dsimp only at admitted
    split at admitted
    · rename_i begins
      cases admitted
      obtain ⟨rest, whole⟩ := begins
      refine ⟨rfl, accepted, rest, ?_⟩
      rw [← whole, List.append_assoc, List.append_assoc]
      rfl
    · cases admitted

variable {otherId : Text}

/-- A key belongs to one organisation. -/
theorem orgId_of_guardKey {other : Text} (admitted : guardKey table orgId key = .ok resolved)
    (alsoAdmitted : guardKey table otherId key = .ok other)
    : orgId = otherId := by
  obtain ⟨_, accepted, rest, whole⟩ := guardKey_ok admitted
  obtain ⟨_, otherAccepted, others, same⟩ := guardKey_ok alsoAdmitted
  have segments := List.append_cancel_left (whole.symm.trans same)
  exact Segments.eq_of_append_cons_eq accepted.slash_notMem otherAccepted.slash_notMem segments

-- Minted keys

/-- The segments of a key. -/
def SnapshotKeyBuilder.segments (builder : SnapshotKeyBuilder table) (suffix : Text) : List Text :=
  [py "orgs", builder.orgId.val, py "codebases", builder.codebaseId.val, py "snapshots",
    builder.commitSha.val, builder.envDigest.val, suffix]

theorem keyPrefix_append (builder : SnapshotKeyBuilder table) (suffix : Text)
    : builder.keyPrefix ++ suffix = [slash].intercalate (builder.segments suffix) := by
  have orgs : py "orgs/" = py "orgs" ++ [slash] := by decide
  have codebases : py "/codebases/" = slash :: (py "codebases" ++ [slash]) := by decide
  have snapshots : py "/snapshots/" = slash :: (py "snapshots" ++ [slash]) := by decide
  have separator : py "/" = [slash] := by decide
  simp [SnapshotKeyBuilder.keyPrefix, SnapshotKeyBuilder.segments, orgs, codebases, snapshots,
    separator, List.intercalate_cons_cons]

/-- A segment of a key that the builder does not take from its components. -/
def fixedSegments : List Text :=
  [py "orgs", py "codebases", py "snapshots"] ++ snapshotArtifactSuffixes.map Prod.snd

theorem fixedSegments_lower : fixedSegments.all isLower = true := by
  simp only [fixedSegments, snapshotArtifactSuffixes, List.map_cons, List.map_nil, py,
    toList_literal]
  decide +kernel

theorem fixedSegments_lack
    : (fixedSegments.all fun segment => !segment.contains slash
        && forbiddenTokens.all fun token => Segments.lacks token segment) = true := by
  simp only [fixedSegments, snapshotArtifactSuffixes, forbiddenTokens, List.map_cons, List.map_nil,
    py, toList_literal]
  decide +kernel

variable {segment : Text}

theorem fixedSegments_clean (fixed : segment ∈ fixedSegments)
    : slash ∉ segment ∧ ∀ token ∈ forbiddenTokens, ¬token <:+: segment := by
  have lacking := List.all_eq_true.mp fixedSegments_lack segment fixed
  simp only [Bool.and_eq_true, Bool.not_eq_true', List.contains_eq_mem, decide_eq_false_iff_not,
    List.all_eq_true] at lacking
  exact ⟨lacking.1, fun token listed => Segments.not_infix_of_lacks (lacking.2 token listed)⟩

theorem forbiddenTokens_clean
    : ∀ token ∈ forbiddenTokens, slash ∉ token ∧ token ∈ forbiddenSubstrings := by
  decide

variable {builder : SnapshotKeyBuilder table} {suffix : Text}

/-- Every segment of a minted key is a fixed one or a component. -/
theorem segment_cases (known : suffix ∈ snapshotArtifactSuffixes.map Prod.snd)
    (listed : segment ∈ builder.segments suffix)
    : segment ∈ fixedSegments ∨ IsComponent table segment := by
  simp only [SnapshotKeyBuilder.segments, List.mem_cons, List.not_mem_nil, or_false] at listed
  rcases listed with rfl | rfl | rfl | rfl | rfl | rfl | rfl | rfl
  · exact .inl (by simp [fixedSegments])
  · exact .inr builder.orgId.property
  · exact .inl (by simp [fixedSegments])
  · exact .inr builder.codebaseId.property
  · exact .inl (by simp [fixedSegments])
  · exact .inr builder.commitSha.property
  · exact .inr builder.envDigest.property
  · exact .inl (List.mem_append_right _ known)

theorem segments_free (known : suffix ∈ snapshotArtifactSuffixes.map Prod.snd)
    : Segments.Free slash (builder.segments suffix) := by
  intro segment listed
  rcases segment_cases known listed with fixed | component
  · exact (fixedSegments_clean fixed).1
  · exact component.slash_notMem

/-- No forbidden sequence arises in a minted key, not even across its segments. -/
theorem minted_clean {token : Text} (known : suffix ∈ snapshotArtifactSuffixes.map Prod.snd)
    (listed : token ∈ forbiddenTokens)
    : ¬token <:+: casefold table (builder.keyPrefix ++ suffix) := by
  intro within
  rw [keyPrefix_append, casefold, Segments.flatMap_intercalate foldPoint_slash] at within
  obtain ⟨part, mapped, inside⟩ := Segments.infix_intercalate (by simp [SnapshotKeyBuilder.segments])
    within (forbiddenTokens_clean token listed).1
  obtain ⟨segment, among, rfl⟩ := List.mem_map.mp mapped
  rcases segment_cases known among with fixed | component
  · rw [← casefold, casefold_of_lower (List.all_eq_true.mp fixedSegments_lower segment fixed)] at inside
    exact (fixedSegments_clean fixed).2 token listed inside
  · exact component.2 token (forbiddenTokens_clean token listed).2 inside

variable {artifactType : Text}

theorem artifactKey_eq_ok (minted : builder.artifactKey artifactType = .ok key)
    : ∃ suffix, (artifactType, suffix) ∈ snapshotArtifactSuffixes
        ∧ suffix ∈ snapshotArtifactSuffixes.map Prod.snd ∧ key = builder.keyPrefix ++ suffix := by
  unfold SnapshotKeyBuilder.artifactKey at minted
  split at minted
  · cases minted
  · rename_i suffix found
    cases minted
    have listed := Dict.mem_of_get? found
    exact ⟨suffix, listed, List.mem_map_of_mem listed, rfl⟩

/-- The guard of its own organisation admits a minted key. -/
theorem guardKey_minted (minted : builder.artifactKey artifactType = .ok key)
    : guardKey table builder.orgId.val key = .ok key := by
  obtain ⟨suffix, _, known, rfl⟩ := artifactKey_eq_ok minted
  have clean : forbiddenTokens.find? (fun token =>
      token <:+: casefold table (builder.keyPrefix ++ suffix)) = none := by
    apply List.find?_eq_none.mpr
    intro token listed
    simpa using minted_clean known listed
  have begins : py "orgs/" ++ builder.orgId.val ++ py "/" <+: builder.keyPrefix ++ suffix := by
    refine ⟨py "codebases/" ++ builder.codebaseId.val ++ py "/snapshots/" ++ builder.commitSha.val
      ++ py "/" ++ builder.envDigest.val ++ py "/" ++ suffix, ?_⟩
    have codebases : py "/codebases/" = py "/" ++ py "codebases/" := by decide
    simp only [SnapshotKeyBuilder.keyPrefix, codebases, List.append_assoc]
  simp only [guardKey, validateComponent_of_isComponent, ok_bind, clean, if_pos begins]

/-- The guard of any other organisation refuses it. -/
theorem guardKey_minted_other (minted : builder.artifactKey artifactType = .ok key)
    (other : otherId ≠ builder.orgId.val)
    : ∃ raised, guardKey table otherId key = .error raised := by
  cases guarded : guardKey table otherId key with
  | error raised => exact ⟨raised, rfl⟩
  | ok resolved => exact absurd (orgId_of_guardKey guarded (guardKey_minted minted)) other

/-- The suffix of an artifact determines its type. -/
theorem artifactType_of_suffix
    : ∀ left ∈ snapshotArtifactSuffixes, ∀ right ∈ snapshotArtifactSuffixes,
        left.2 = right.2 → left.1 = right.1 := by
  simp only [snapshotArtifactSuffixes, py, toList_literal]
  decide +kernel

/-- A minted key determines its components and the type of its artifact. -/
theorem artifactKey_injective {left right : SnapshotKeyBuilder table} {leftType rightType : Text}
    (leftMinted : left.artifactKey leftType = .ok key)
    (rightMinted : right.artifactKey rightType = .ok key)
    : left = right ∧ leftType = rightType := by
  obtain ⟨suffix, leftListed, leftKnown, rfl⟩ := artifactKey_eq_ok leftMinted
  obtain ⟨other, rightListed, rightKnown, same⟩ := artifactKey_eq_ok rightMinted
  rw [keyPrefix_append, keyPrefix_append] at same
  have segments := Segments.eq_of_intercalate_eq (segments_free leftKnown) (segments_free rightKnown)
    (by simp [SnapshotKeyBuilder.segments]) (by simp [SnapshotKeyBuilder.segments]) same
  simp only [SnapshotKeyBuilder.segments, List.cons.injEq, true_and, and_true] at segments
  obtain ⟨org, codebase, commit, env, sameSuffix⟩ := segments
  refine ⟨?_, artifactType_of_suffix _ leftListed _ rightListed sameSuffix⟩
  cases left
  cases right
  simp only [SnapshotKeyBuilder.mk.injEq]
  exact ⟨Subtype.ext org, Subtype.ext codebase, Subtype.ext commit, Subtype.ext env⟩

-- Isolation

variable {store : InMemoryObjectStore} {body : Bytes} {after : InMemoryObjectStore}

theorem InMemoryObjectStore.put_ok (done : store.put table orgId key body = .ok after)
    : guardKey table orgId key = .ok key ∧ after.objects = store.objects.set key body := by
  obtain ⟨resolved, admitted, stored⟩ := bind_ok.mp done
  cases stored
  obtain ⟨rfl, _⟩ := guardKey_ok admitted
  exact ⟨admitted, rfl⟩

theorem InMemoryObjectStore.get_ok (done : store.get table orgId key = .ok body)
    : guardKey table orgId key = .ok key ∧ store.objects.get? key = some body := by
  obtain ⟨resolved, admitted, found⟩ := bind_ok.mp done
  obtain ⟨rfl, _⟩ := guardKey_ok admitted
  split at found
  · cases found
  · rename_i held
    cases found
    exact ⟨admitted, held⟩

/-- A call that stores is a call that the guard of its organisation admits. -/
theorem InMemoryObjectStore.perform_stored
    (done : store.perform table (.put orgId key body) = (.stored, after))
    : guardKey table orgId key = .ok key := by
  unfold perform at done
  dsimp only at done
  split at done
  · rename_i put
    exact (put_ok put).1
  · cases done

variable {call : StoreCall}

/-- A call that returns bytes is admitted, and the bytes are those of its key. -/
theorem InMemoryObjectStore.perform_returned
    (done : store.perform table call = (.returned body, after))
    : ∃ orgId key, call = .get orgId key ∧ guardKey table orgId key = .ok key
        ∧ store.objects.get? key = some body := by
  unfold perform at done
  cases call with
  | put orgId key data =>
      dsimp only at done
      split at done <;> cases done
  | get orgId key =>
      dsimp only at done
      split at done
      · rename_i found
        cases done
        exact ⟨orgId, key, rfl, get_ok found⟩
      · cases done

/-- What a key holds after a call, it held before, or the call has put it there. -/
theorem InMemoryObjectStore.perform_objects {outcome : StoreOutcome}
    (done : store.perform table call = (outcome, after)) (held : after.objects.get? key = some body)
    : store.objects.get? key = some body
      ∨ ∃ orgId, call = .put orgId key body ∧ outcome = .stored := by
  unfold perform at done
  cases call with
  | get orgId other =>
      dsimp only at done
      split at done <;> (cases done; exact .inl held)
  | put orgId other data =>
      dsimp only at done
      split at done
      · rename_i put
        cases done
        rw [(put_ok put).2, Dict.get?_set] at held
        split at held
        · rename_i same
          cases held
          exact .inr ⟨orgId, by rw [same], rfl⟩
        · exact .inl held
      · cases done
        exact .inl held

/-- Bytes that a call returns were in the store at the start, or an earlier call of the run has put
them under the same key; by induction on the calls.
-/
theorem InMemoryObjectStore.run_returned {calls : List StoreCall} {time : Nat}
    (returned : (store.run table calls)[time]? = some (.get orgId key, .returned body))
    : guardKey table orgId key = .ok key
      ∧ (store.objects.get? key = some body
        ∨ ∃ earlier < time, ∃ putter,
            (store.run table calls)[earlier]? = some (.put putter key body, .stored)
            ∧ guardKey table putter key = .ok key) := by
  induction calls generalizing store time with
  | nil => simp [run] at returned
  | cons call rest ih =>
      obtain ⟨outcome, after, step⟩ : ∃ outcome after, store.perform table call = (outcome, after) :=
        ⟨_, _, rfl⟩
      simp only [run, step] at returned ⊢
      cases time with
      | zero =>
          simp only [List.getElem?_cons_zero, Option.some.injEq, Prod.mk.injEq] at returned
          obtain ⟨rfl, rfl⟩ := returned
          obtain ⟨_, _, same, admitted, held⟩ := perform_returned step
          cases same
          exact ⟨admitted, .inl held⟩
      | succ time =>
          rw [List.getElem?_cons_succ] at returned
          obtain ⟨admitted, held | ⟨earlier, before, putter, put, guarded⟩⟩ := ih returned
          · refine ⟨admitted, (perform_objects step held).imp_right ?_⟩
            rintro ⟨putter, rfl, rfl⟩
            exact ⟨0, Nat.succ_pos _, putter, rfl, perform_stored step⟩
          · exact ⟨admitted, .inr ⟨earlier + 1, Nat.succ_lt_succ before, putter, put, guarded⟩⟩

/-- Organisations cannot reach each other's objects: what a call returns to an organisation, the
same organisation has put under that key; the guard admits a minted key for its own organisation
only; and a key determines what it was minted from.
-/
theorem store_isolates_tenants (table : CodePoint → Text)
    : (∀ (calls : List StoreCall) (time : Nat) (orgId key : Text) (body : Bytes),
        (InMemoryObjectStore.create.run table calls)[time]? = some (.get orgId key, .returned body)
        → ∃ earlier < time,
            (InMemoryObjectStore.create.run table calls)[earlier]?
              = some (.put orgId key body, .stored))
      ∧ (∀ (builder : SnapshotKeyBuilder table) (artifactType key : Text),
        builder.artifactKey artifactType = .ok key
        → guardKey table builder.orgId.val key = .ok key
          ∧ ∀ otherId ≠ builder.orgId.val, ∃ raised, guardKey table otherId key = .error raised)
      ∧ ∀ (left right : SnapshotKeyBuilder table) (leftType rightType key : Text),
        left.artifactKey leftType = .ok key → right.artifactKey rightType = .ok key
        → left = right ∧ leftType = rightType := by
  refine ⟨?_, ?_, ?_⟩
  · intro calls time orgId key body returned
    obtain ⟨admitted, held | ⟨earlier, before, putter, put, guarded⟩⟩ :=
      InMemoryObjectStore.run_returned returned
    · cases held
    · obtain rfl := orgId_of_guardKey admitted guarded
      exact ⟨earlier, before, put⟩
  · intro builder artifactType key minted
    exact ⟨guardKey_minted minted, fun otherId other => guardKey_minted_other minted other⟩
  · intro left right leftType rightType key leftMinted rightMinted
    exact artifactKey_injective leftMinted rightMinted

-- Interference

variable {left right : InMemoryObjectStore}

/-- The organisation of a call. -/
def StoreCall.caller : StoreCall → Text
  | .put orgId _ _ => orgId
  | .get orgId _ => orgId

/-- The stores hold the same wherever the guard admits an organisation. -/
def HoldAlike (table : CodePoint → Text) (orgId : Text) (left right : InMemoryObjectStore) : Prop :=
  ∀ key, guardKey table orgId key = .ok key → left.objects.get? key = right.objects.get? key

/-- Where the guard admits the caller alone, a call of another organisation writes nothing. -/
theorem InMemoryObjectStore.perform_other (other : call.caller ≠ orgId)
    : HoldAlike table orgId (store.perform table call).2 store := by
  intro key admitted
  cases call with
  | get => unfold perform; dsimp only; split <;> rfl
  | put putter written body =>
      unfold perform
      dsimp only
      split
      case h_2 => rfl
      case h_1 after put =>
        obtain ⟨guarded, objects⟩ := put_ok put
        rw [objects, Dict.get?_set, if_neg]
        rintro rfl
        exact other (orgId_of_guardKey guarded admitted)

/-- Stores that hold alike serve the organisation alike, and still hold alike. -/
theorem HoldAlike.perform (alike : HoldAlike table call.caller left right)
    : (left.perform table call).1 = (right.perform table call).1
      ∧ HoldAlike table call.caller (left.perform table call).2 (right.perform table call).2 := by
  cases call with
  | get orgId key =>
      simp only [InMemoryObjectStore.perform, InMemoryObjectStore.get, bind, Except.bind]
      cases admitted : guardKey table orgId key with
      | error raised => exact ⟨rfl, alike⟩
      | ok resolved =>
          obtain ⟨rfl, _⟩ := guardKey_ok admitted
          simp only [alike _ admitted]
          cases right.objects.get? resolved <;> exact ⟨rfl, alike⟩
  | put orgId key body =>
      simp only [InMemoryObjectStore.perform, InMemoryObjectStore.put, bind, Except.bind]
      cases admitted : guardKey table orgId key with
      | error raised => exact ⟨rfl, alike⟩
      | ok resolved =>
          refine ⟨rfl, fun other guarded => ?_⟩
          simp only [Dict.get?_set, alike other guarded]

/-- Runs from stores that hold alike answer the organisation alike, by induction on the calls. -/
theorem HoldAlike.run {calls : List StoreCall} (alike : HoldAlike table orgId left right)
    : (left.run table calls).filter (fun entry => entry.1.caller = orgId)
      = right.run table (calls.filter fun call => call.caller = orgId) := by
  induction calls generalizing left right with
  | nil => rfl
  | cons call rest ih =>
      by_cases own : call.caller = orgId
      · subst own
        obtain ⟨outcome, still⟩ := alike.perform
        simp [InMemoryObjectStore.run, ih still, outcome]
      · have spared : HoldAlike table orgId (left.perform table call).2 right := fun key admitted =>
          (InMemoryObjectStore.perform_other own key admitted).trans (alike key admitted)
        simp [InMemoryObjectStore.run, own, ih spared]

/-- What an organisation sees of a run, it would see without the calls of the others. -/
theorem store_without_interference (table : CodePoint → Text) (calls : List StoreCall) (orgId : Text)
    : (InMemoryObjectStore.create.run table calls).filter (fun entry => entry.1.caller = orgId)
      = InMemoryObjectStore.create.run table (calls.filter fun call => call.caller = orgId) :=
  HoldAlike.run fun _ _ => rfl

end Scanipy.Services.Substrate

import Scanipy.Db.Execution.Validation
import Scanipy.Services.Scan.OccurrenceStore.Codec

/-! The database and the Python codec accept the same envelopes. -/

namespace Scanipy.Services.Scan.OccurrenceStore.Codec

open Library Python Db
open Db.Execution (admitsText bytesOf canonicalItems canonicalMembers checkDescriptor checkSemantic
  convertFrom envelopeNamed extract jsonTypeof preservedShape require_ok_iff)

variable {sha256 : Bytes → Bytes}

-- Tokens that both sides store

/-- A token at a depth that both sides store. -/
def Storable (entry : Json.Token × Nat) : Prop :=
  entry.2 ≤ maxDepth
  ∧ match entry.1 with
    | .int value => IsWord value
    | .str text => IsPlain text
    | .null | .bool _ | .arr _ | .obj _ => True

variable {value : Json}

/-- The first token of a value stands at its depth. -/
theorem depth_le_of_storable {depth : Nat} (storable : ∀ entry ∈ value.tokens depth, Storable entry)
    : depth ≤ maxDepth := by
  cases value with
  | null | bool | int | str | arr | obj => exact (storable _ List.mem_cons_self).1

mutual

/-- `v1_canonical` succeeds for the values without repeated keys whose tokens are storable, and
writes what `json.dumps` writes.
-/
theorem canonical_ok : (value : Json) → (depth : Nat) → (text : Text)
    → (Execution.canonical value depth = .ok text
      ↔ text = value.dumps ∧ value.Distinct ∧ ∀ entry ∈ value.tokens depth, Storable entry)
  | .null, depth, text | .bool true, depth, text | .bool false, depth, text => by
      simp only [Execution.canonical, check_ok, require_ok_iff,
        Json.dumps, Json.Distinct, Json.tokens, List.mem_singleton, forall_eq, Storable, true_and,
        and_true]
      exact ⟨fun ⟨shallow, same⟩ => ⟨(Except.ok.inj same).symm, shallow⟩,
        fun ⟨same, shallow⟩ => ⟨shallow, congrArg Except.ok same.symm⟩⟩
  | .int value, depth, text => by
      simp only [Execution.canonical, check_ok, require_ok_iff,
        demand_ok, Json.tokens, List.mem_singleton, forall_eq, Storable, Json.Distinct,
        Json.dumps, true_and]
      constructor
      · intro ⟨shallow, _, word, same⟩
        exact ⟨(Except.ok.inj same).symm, shallow, word⟩
      · intro ⟨same, shallow, word⟩
        exact ⟨shallow, Json.length_numeral_le word.1 word.2, word, congrArg Except.ok same.symm⟩
  | .str value, depth, text => by
      simp only [Execution.canonical, require_ok_iff,
        extract, bind_ok, exists_const, demand_ok, Json.tokens, List.mem_singleton,
        forall_eq, Storable, Json.Distinct, Json.dumps, true_and]
      constructor
      · intro ⟨shallow, middle, ⟨plain, read⟩, same⟩
        cases read
        exact ⟨(Except.ok.inj same).symm, shallow, plain⟩
      · intro ⟨same, shallow, plain⟩
        exact ⟨shallow, value, ⟨plain, rfl⟩, congrArg Except.ok same.symm⟩
  | .arr items, depth, text => by
      simp only [Execution.canonical, require_ok_iff, exists_const,
        bind_ok, canonicalItems_ok items, Json.tokens, List.mem_cons,
        forall_eq_or_imp, Json.Distinct, Json.dumps]
      constructor
      · intro ⟨shallow, _, ⟨rfl, distinct, storable⟩, same⟩
        exact ⟨(Except.ok.inj same).symm, distinct, ⟨shallow, trivial⟩, storable⟩
      · intro ⟨same, distinct, first, storable⟩
        exact ⟨first.1, _, ⟨rfl, distinct, storable⟩, congrArg Except.ok same.symm⟩
  | .obj members, depth, text => by
      have keys : ((sortedBy Prod.fst (Json.dumpsMembers members)).map Prod.fst).Nodup
          ↔ (members.map Prod.fst).Nodup := by
        rw [((sortedBy_perm Prod.fst (Json.dumpsMembers members)).map Prod.fst).nodup_iff,
          Json.dumpsMembers_eq, List.map_map]
        rfl
      simp only [Execution.canonical, require_ok_iff, exists_const,
        bind_ok, canonicalMembers_ok members, Json.tokens, List.mem_cons,
        forall_eq_or_imp, Json.Distinct, Json.dumps]
      constructor
      · intro ⟨shallow, _, ⟨rfl, distinct, storable⟩, once, same⟩
        exact ⟨(Except.ok.inj same).symm, ⟨keys.mp once, distinct⟩, ⟨shallow, trivial⟩, storable⟩
      · intro ⟨same, distinct, first, storable⟩
        exact ⟨first.1, _, ⟨rfl, distinct.2, storable⟩, keys.mpr distinct.1,
          congrArg Except.ok same.symm⟩

theorem canonicalItems_ok : (items : List Json) → (depth : Nat) → (texts : List Text)
    → (canonicalItems items depth = .ok texts
      ↔ texts = Json.dumpsItems items ∧ Json.DistinctItems items
        ∧ ∀ entry ∈ Json.tokensItems depth items, Storable entry)
  | [], depth, texts => by
      simp [canonicalItems, Json.dumpsItems, Json.tokensItems, eq_comm]
  | item :: rest, depth, texts => by
      simp only [canonicalItems, bind_ok, canonical_ok item,
        canonicalItems_ok rest, Json.dumpsItems, Json.DistinctItems, Json.tokensItems,
        List.mem_append, or_imp, forall_and]
      constructor
      · intro ⟨_, ⟨rfl, head, first⟩, _, ⟨rfl, tail, others⟩, same⟩
        exact ⟨(Except.ok.inj same).symm, ⟨head, tail⟩, first, others⟩
      · intro ⟨same, ⟨head, tail⟩, first, others⟩
        exact ⟨_, ⟨rfl, head, first⟩, _, ⟨rfl, tail, others⟩, congrArg Except.ok same.symm⟩

theorem canonicalMembers_ok : (members : List (Text × Json)) → (depth : Nat)
    → (texts : List (Text × Text))
    → (canonicalMembers members depth = .ok texts
      ↔ texts = Json.dumpsMembers members ∧ Json.DistinctMembers members
        ∧ ∀ entry ∈ Json.tokensMembers depth members, Storable entry)
  | [], depth, texts => by
      simp [canonicalMembers, Json.dumpsMembers, Json.tokensMembers, eq_comm]
  | (key, value) :: rest, depth, texts => by
      simp only [canonicalMembers, extract, bind_ok,
        exists_const, demand_ok, canonical_ok value,
        canonicalMembers_ok rest, Json.dumpsMembers, Json.DistinctMembers,
        Json.tokensMembers, List.mem_cons, List.mem_append, or_imp, forall_and, forall_eq]
      constructor
      · intro ⟨_, ⟨plain, read⟩, _, ⟨rfl, head, first⟩, _, ⟨rfl, tail, others⟩, same⟩
        cases read
        exact ⟨(Except.ok.inj same).symm, ⟨head, tail⟩, ⟨depth_le_of_storable first, plain⟩, first,
          others⟩
      · intro ⟨same, ⟨head, tail⟩, plain, first, others⟩
        exact ⟨key, ⟨plain.2, rfl⟩, _, ⟨rfl, head, first⟩, _, ⟨rfl, tail, others⟩,
          congrArg Except.ok same.symm⟩

end

/-- A token that `_scalar` accepts: a string is bounded besides. -/
def Accepted (entry : Json.Token × Nat) : Prop :=
  Storable entry
  ∧ match entry.1 with
    | .str text => text.length ≤ maxEnvelope
    | .null | .bool _ | .int _ | .arr _ | .obj _ => True

mutual

/-- `_scalar` accepts a decoded value when it accepts the tokens. -/
theorem scalar_ofJson : (value : Json) → (depth : Nat)
    → (scalar (.ofJson value) depth = .ok () ↔ ∀ entry ∈ value.tokens depth, Accepted entry)
  | .null, depth | .bool _, depth => by
      simp [PyValue.ofJson, scalar, check_ok, Json.tokens, Accepted, Storable]
  | .int value, depth => by
      simp [PyValue.ofJson, scalar, check_ok, Json.tokens, Accepted, Storable]
  | .str value, depth => by
      simp only [PyValue.ofJson, scalar, check_ok, need_ok_iff, Json.tokens,
        List.mem_singleton, forall_eq, Accepted, Storable]
      exact ⟨fun ⟨shallow, bounded, plain⟩ => ⟨⟨shallow, plain⟩, bounded⟩,
        fun ⟨⟨shallow, plain⟩, bounded⟩ => ⟨shallow, bounded, plain⟩⟩
  | .arr items, depth => by
      simp only [PyValue.ofJson, scalar, check_ok, need_ok_iff, Json.tokens,
        scalarItems_ofItems items, List.mem_cons, forall_eq_or_imp, Accepted, Storable, and_true]
  | .obj members, depth => by
      simp only [PyValue.ofJson, scalar, check_ok, need_ok_iff, Json.tokens,
        scalarMembers_ofMembers members, List.mem_cons, forall_eq_or_imp, Accepted, Storable,
        and_true]

theorem scalarItems_ofItems : (items : List Json) → (depth : Nat)
    → (scalarItems (PyValue.ofItems items) depth = .ok ()
      ↔ ∀ entry ∈ Json.tokensItems depth items, Accepted entry)
  | [], depth => by simp [PyValue.ofItems, scalarItems, Json.tokensItems]
  | item :: rest, depth => by
      simp only [PyValue.ofItems, scalarItems, check_ok, scalar_ofJson item,
        scalarItems_ofItems rest, Json.tokensItems, List.mem_append, or_imp, forall_and]

theorem scalarMembers_ofMembers : (members : List (Text × Json)) → (depth : Nat)
    → (scalarMembers (PyValue.ofMembers members) depth = .ok ()
      ↔ ∀ entry ∈ Json.tokensMembers depth members, Accepted entry)
  | [], depth => by simp [PyValue.ofMembers, scalarMembers, Json.tokensMembers]
  | (key, value) :: rest, depth => by
      have first : scalar (.str key) depth = .ok () ↔ Accepted (.str key, depth) := by
        have tokens := scalar_ofJson (.str key) depth
        rw [PyValue.ofJson, Json.tokens] at tokens
        simpa using tokens
      simp only [PyValue.ofMembers, scalarMembers, check_ok, first,
        scalar_ofJson value, scalarMembers_ofMembers rest, Json.tokensMembers, List.mem_cons,
        List.mem_append, or_imp, forall_and, forall_eq]

end

-- Shapes

mutual

/-- Enumerated values are strings and integers, and an object has fields, with distinct plain
names.
-/
def closedShape : Shape → Bool
  | .nullable inner => closedShape inner
  | .enum values =>
      values.all fun value =>
        match value with
        | .str _ | .int _ => true
        | .null | .bool _ | .arr _ | .obj _ => false
  | .array item => closedShape item
  | .object fields =>
      !fields.isEmpty && decide (((fields.map Prod.fst).map py).Nodup) && closedFields fields
  | .bool | .nat | .positive | .int _ _ | .text | .nonempty | .digest | .env | .commit | .uuid
  | .path => true

def closedFields : List (String × Shape) → Bool
  | [] => true
  | (name, rule) :: rest => decide (IsPlain (py name)) && closedShape rule && closedFields rest

end

theorem closed_schemaShape (name : EnvelopeName) : closedShape (schemaShape name) = true := by
  cases name <;>
    simp only [schemaShape, schemaFields, schema, retryFields, identityPolicyFields, ruleFields,
      bindingFields, runnerFields, locationFields, occurrenceFields, artifactFields, identityFields,
      actualIdentityFields, errorFields, Shape.literals, closedShape, closedFields, List.map_cons,
      List.map_nil, py, toList_literal] <;>
    decide +kernel

variable {fields : List (String × Shape)} {rule : Shape}

theorem mem_closedFields (closed : closedFields fields = true) {name : String}
    (member : (name, rule) ∈ fields)
    : IsPlain (py name) ∧ closedShape rule = true := by
  induction fields with
  | nil => cases member
  | cons field rest ih =>
      simp only [closedFields, Bool.and_eq_true, decide_eq_true_eq] at closed
      rcases List.mem_cons.mp member with rfl | later
      · exact closed.1
      · exact ih closed.2 later

variable {members : List (Text × Json)} {names : List String}

/-- The keys of a dictionary are the names, whichever side compares them. -/
theorem sameKeys_iff (distinct : (members.map Prod.fst).Nodup) (different : (names.map py).Nodup)
    (nonempty : names ≠ [])
    : Execution.SameKeys members names ↔ HasKeys members names := by
  rw [Execution.SameKeys, sorted_eq_sorted, List.perm_ext_iff_of_nodup distinct different]
  constructor
  · intro ⟨_, same⟩
    exact ⟨fun member listed => (same _).mp (List.mem_map_of_mem listed),
      fun name named => (same _).mpr named⟩
  · intro ⟨known, present⟩
    constructor
    · obtain ⟨name, rest, rfl⟩ := List.exists_cons_of_ne_nil nonempty
      intro empty
      rw [empty] at present
      exact absurd (present _ List.mem_cons_self) List.not_mem_nil
    · intro key
      refine ⟨fun listed => ?_, present key⟩
      obtain ⟨member, among, rfl⟩ := List.mem_map.mp listed
      exact known member among

variable {text : Text}

theorem fullmatch_env
    : fullmatch (literally "sha256:" ++ List.replicate 64 isHex) text = true
      ↔ (py "sha256:").isPrefixOf text = true
        ∧ fullmatch (List.replicate 64 isHex) (text.drop 7) = true := by
  rw [fullmatch_append_iff, List.isPrefixOf_iff_prefix]
  constructor
  · intro ⟨first, rest, same, head, tail⟩
    rw [fullmatch_literally_iff.mp head] at same
    rw [same]
    exact ⟨⟨rest, rfl⟩, tail⟩
  · intro ⟨⟨rest, same⟩, tail⟩
    rw [← same] at tail ⊢
    exact ⟨_, rest, rfl, fullmatch_literally_iff.mpr rfl, tail⟩

/-- Both sides ask the same of a string. -/
theorem admitsText_iff
    : admitsText text rule = true ↔ validScalar (.str text) rule = true := by
  cases rule with
  | env =>
      simp only [admitsText, Execution.isHexRun, validScalar, isText,
        Bool.and_eq_true, fullmatch_env]
  | uuid => simp only [admitsText, validScalar, isText, Uuid.isSome_ofText]
  | bool | nat | positive | int | nullable | enum | array | object =>
      simp [admitsText, validScalar, isBetween]
  | text | nonempty | digest | commit | path => exact Iff.rfl

/-- Both sides accept the same scalars. -/
theorem shape_scalar (isScalar : match rule with
      | .nullable _ | .enum _ | .array _ | .object _ => False
      | _ => True)
    : Execution.shape value rule = .ok () ↔ shape value rule = .ok () := by
  cases rule with
  | nullable | enum | array | object => exact isScalar.elim
  | bool =>
      cases value with
      | bool value =>
          cases value <;> simp [Execution.shape, shape, jsonTypeof, validScalar]
      | null | int | str | arr | obj =>
          simp [Execution.shape, shape, jsonTypeof, validScalar]
  | nat | positive | int =>
      cases value <;>
        simp [Execution.shape, shape, Execution.integerShape, validScalar, isBetween]
  | text | nonempty | digest | env | commit | uuid | path =>
      cases value with
      | str text =>
          simp only [Execution.shape, shape, Execution.textShape, need_ok_iff,
            require_ok_iff, admitsText_iff]
      | null | bool | int | arr | obj =>
          simp [Execution.shape, shape, Execution.textShape, validScalar, isText]

theorem distinct_items (distinct : value.Distinct)
    : ∀ item ∈ value.items, item.Distinct := by
  cases value with
  | arr items => exact Json.distinctItems_iff.mp distinct
  | null | bool | int | str | obj => exact fun _ member => absurd member List.not_mem_nil

mutual

/-- `v1_shape` and `_shape` accept the same values, by recursion on the shape. -/
theorem shape_agrees : (rule : Shape) → closedShape rule = true → (value : Json)
    → value.Distinct → (Execution.shape value rule = .ok () ↔ shape value rule = .ok ())
  | .nullable inner, closed, value, distinct => by
      simp only [Execution.shape, shape]
      split
      · exact ⟨fun _ => rfl, fun _ => rfl⟩
      · exact shape_agrees inner closed value distinct
  | .enum values, _, value, _ => by
      simp only [Execution.shape, shape, require_ok_iff, need_ok_iff]
  | .array item, closed, value, distinct => by
      cases value with
      | arr items =>
          simp only [Execution.shape, shape, check_ok,
            require_ok_iff, jsonTypeof, true_and, visit_ok]
          exact forall₂_congr fun entry member =>
            shape_agrees item closed entry (distinct_items distinct entry member)
      | null | bool | int | str | obj =>
          simp [Execution.shape, shape, check_ok, jsonTypeof]
  | .object fields, closed, value, distinct => by
      cases value with
      | obj members =>
          simp only [closedShape, Bool.and_eq_true, decide_eq_true_eq] at closed
          have names : fields.map Prod.fst ≠ [] := by
            cases fields with
            | nil => cases closed.1.1
            | cons => exact List.cons_ne_nil _ _
          simp only [Execution.shape, shape, check_ok,
            require_ok_iff, need_ok_iff,
            sameKeys_iff distinct.1 closed.1.2 names,
            shapeFields_agrees fields closed.2 _ distinct]
      | null | bool | int | str | arr => simp [Execution.shape, shape]
  | .bool, _, _, _ | .nat, _, _, _ | .positive, _, _, _ | .int _ _, _, _, _ | .text, _, _, _
  | .nonempty, _, _, _ | .digest, _, _, _ | .env, _, _, _ | .commit, _, _, _ | .uuid, _, _, _
  | .path, _, _, _ =>
      shape_scalar trivial

theorem shapeFields_agrees : (fields : List (String × Shape)) → closedFields fields = true
    → (value : Json) → value.Distinct
    → (Execution.shapeFields value fields = .ok () ↔ shapeFields value fields = .ok ())
  | [], _, _, _ => by simp [Execution.shapeFields, shapeFields]
  | (name, rule) :: rest, closed, value, distinct => by
      simp only [closedFields, Bool.and_eq_true, decide_eq_true_eq] at closed
      simp only [Execution.shapeFields, shapeFields, check_ok,
        shape_agrees rule closed.1.2 _ (Json.distinct_get distinct name),
        shapeFields_agrees rest closed.2 value distinct]

end

mutual

/-- What `_shape` accepts has the types and keys of `v1_preserved_shape`, by recursion on the
shape.
-/
theorem preserved_of_shape : (rule : Shape) → closedShape rule = true → (value : Json)
    → value.Distinct → shape value rule = .ok () → preservedShape value rule = .ok ()
  | .nullable inner, closed, value, distinct, accepted => by
      simp only [shape] at accepted
      simp only [preservedShape]
      split
      · rfl
      · rw [if_neg ‹_›] at accepted
        exact preserved_of_shape inner closed value distinct accepted
  | .enum values, closed, value, _, accepted => by
      simp only [shape, need_ok_iff] at accepted
      simp only [closedShape, List.all_eq_true] at closed
      have listed := closed value accepted
      simp only [preservedShape, require_ok_iff]
      cases value with
      | str => exact .inl rfl
      | int => exact .inr rfl
      | null | bool | arr | obj => cases listed
  | .array item, closed, value, distinct, accepted => by
      cases value with
      | arr items =>
          simp only [shape, visit_ok] at accepted
          simp only [preservedShape, check_ok,
            require_ok_iff, jsonTypeof, true_and, visit_ok]
          exact fun entry member => preserved_of_shape item closed entry
            (distinct_items distinct entry member) (accepted entry member)
      | null | bool | int | str | obj => cases accepted
  | .object fields, closed, value, distinct, accepted => by
      cases value with
      | obj members =>
          simp only [closedShape, Bool.and_eq_true, decide_eq_true_eq] at closed
          have names : fields.map Prod.fst ≠ [] := by
            cases fields with
            | nil => cases closed.1.1
            | cons => exact List.cons_ne_nil _ _
          simp only [shape, check_ok, need_ok_iff] at accepted
          simp only [preservedShape, check_ok,
            require_ok_iff, sameKeys_iff distinct.1 closed.1.2 names,
            visit_ok]
          refine ⟨fun member listed => ?_, accepted.1,
            preservedFields_of_shape fields closed.2 _ distinct accepted.2⟩
          obtain ⟨name, named, same⟩ := List.mem_map.mp (accepted.1.1 member listed)
          obtain ⟨⟨_, rule⟩, among, rfl⟩ := List.mem_map.mp named
          have plain := (mem_closedFields closed.2 among).1
          rw [same] at plain
          simp [extract, demand, show Execution.Extractable member.1 from plain,
            ok_bind, Except.map]
      | null | bool | int | str | arr => cases accepted
  | .bool, _, value, _, accepted | .nat, _, value, _, accepted | .positive, _, value, _, accepted
  | .int _ _, _, value, _, accepted | .text, _, value, _, accepted
  | .nonempty, _, value, _, accepted | .digest, _, value, _, accepted | .env, _, value, _, accepted
  | .commit, _, value, _, accepted | .uuid, _, value, _, accepted | .path, _, value, _, accepted => by
      simp only [shape, need_ok_iff] at accepted
      simp only [preservedShape, require_ok_iff]
      cases value <;> simp [validScalar, isBetween, isText] at accepted
      rfl

theorem preservedFields_of_shape : (fields : List (String × Shape)) → closedFields fields = true
    → (value : Json) → value.Distinct → shapeFields value fields = .ok ()
    → Execution.preservedFields value fields = .ok ()
  | [], _, _, _, _ => rfl
  | (name, rule) :: rest, closed, value, distinct, accepted => by
      simp only [closedFields, Bool.and_eq_true, decide_eq_true_eq] at closed
      simp only [shapeFields, check_ok] at accepted
      simp only [Execution.preservedFields, check_ok]
      exact ⟨preserved_of_shape rule closed.1.2 _ (Json.distinct_get distinct name) accepted.1,
        preservedFields_of_shape rest closed.2 value distinct accepted.2⟩

end

theorem shapeFields_ok
    : shapeFields value fields = .ok ()
      ↔ ∀ field ∈ fields, shape (value.get field.1) field.2 = .ok () := by
  induction fields with
  | nil => simp [shapeFields]
  | cons field rest ih => simp [shapeFields, check_ok, ih]

/-- A dictionary of a shape has its keys, and their values have the shapes of the fields. -/
theorem of_shape_object (accepted : shape value (.object fields) = .ok ())
    : ∃ members, value = .obj members ∧ HasKeys members (fields.map Prod.fst)
      ∧ ∀ field ∈ fields, shape (value.get field.1) field.2 = .ok () := by
  cases value with
  | obj members =>
      simp only [shape, check_ok, need_ok_iff, shapeFields_ok] at accepted
      exact ⟨members, rfl, accepted⟩
  | null | bool | int | str | arr => cases accepted

theorem of_shape_array {item : Shape} (accepted : shape value (.array item) = .ok ())
    : ∃ items, value = .arr items ∧ ∀ entry ∈ items, shape entry item = .ok () := by
  cases value with
  | arr items =>
      simp only [shape, visit_ok] at accepted
      exact ⟨items, rfl, accepted⟩
  | null | bool | int | str | obj => cases accepted

theorem of_shape_nat (accepted : shape value .nat = .ok ())
    : ∃ number, value = .int number ∧ 0 ≤ number := by
  cases value with
  | int number =>
      simp only [shape, need_ok_iff, validScalar, isBetween, Bool.and_eq_true,
        decide_eq_true_eq] at accepted
      exact ⟨number, rfl, accepted.1⟩
  | null | bool | str | arr | obj => simp [shape, validScalar, isBetween] at accepted

theorem of_shape_bool (accepted : shape value .bool = .ok ())
    : value = .bool true ∨ value = .bool false := by
  simpa [shape, validScalar] using accepted

theorem of_shape_nullable {inner : Shape} (accepted : shape value (.nullable inner) = .ok ())
    : value = .null ∨ shape value inner = .ok () := by
  simp only [shape] at accepted
  split at accepted
  next absent => exact .inl absent
  next => exact .inr accepted

/-- The values of an enumeration of strings. -/
theorem of_shape_literals {literals : List String}
    (accepted : shape value (.literals literals) = .ok ())
    : ∃ literal ∈ literals, value = .str (py literal) := by
  simp only [Shape.literals, shape, need_ok_iff, List.mem_map] at accepted
  obtain ⟨literal, listed, same⟩ := accepted
  exact ⟨literal, listed, same.symm⟩

theorem retry_agrees {retry : Json}
    : Execution.checkRetry retry = .ok () ↔ semanticRetry retry = .ok () := by
  rw [Execution.checkRetry, semanticRetry, require_ok_iff, need_ok_iff,
    gt_iff_lt, not_lt]

theorem policy_agrees {policy : Json}
    : Execution.checkPolicy policy = .ok () ↔ semanticPolicy policy = .ok () := by
  rw [Execution.checkPolicy, semanticPolicy, require_ok_iff, need_ok_iff,
    not_and_or]

/-- The location rules are one condition on the five fields, written twice. -/
theorem location_agrees
    : Execution.checkLocation value = .ok () ↔ location value = .ok () := by
  simp only [Execution.checkLocation, location, check_ok,
    require_ok_iff, need_ok_iff, List.mem_cons, List.not_mem_nil, or_false,
    exists_eq_or_imp, exists_eq_left, not_or, not_and_or, not_not, ne_eq, not_lt]

theorem files_agree
    : checkSemantic sha256 .sourceInventory value = .ok ()
      ↔ semantic sha256 .sourceInventory value = .ok () := by
  have strings : Function.Injective Json.str := fun _ _ same => Json.str.inj same
  simp only [checkSemantic, semantic, semanticFiles, Execution.unique, unique,
    check_ok, require_ok_iff, need_ok_iff,
    List.nodup_map_iff strings]

theorem bindings_agree
    : Execution.checkBindings value = .ok () ↔ semanticBindings value = .ok () := by
  simp only [Execution.checkBindings, semanticBindings, Execution.checkBinding,
    check_ok, visit_ok, require_ok_iff, need_ok_iff,
    Execution.unique, unique, not_or, ne_eq]

/-- The ordinals in the order of the rows, which are integers. -/
theorem ordinals_iff {rows : List Json}
    (typed : ∀ row ∈ rows, ∃ ordinal, row.get "tool_ordinal" = .int ordinal)
    : (∀ entry ∈ rows.zipIdx, (entry.1.get "tool_ordinal").integer = entry.2)
      ↔ rows.map (·.get "tool_ordinal") = (List.range rows.length).map fun ordinal => .int ordinal := by
  constructor
  · intro each
    apply List.ext_getElem (by simp)
    intro index inside _
    rw [List.length_map] at inside
    have listed : (rows[index], index) ∈ rows.zipIdx :=
      List.mem_zipIdx_iff_getElem?.mpr (List.getElem?_eq_getElem inside)
    obtain ⟨ordinal, read⟩ := typed _ (List.getElem_mem inside)
    have same := each _ listed
    rw [read] at same
    rw [List.getElem_map, List.getElem_map, List.getElem_range, read]
    exact congrArg Json.int same
  · intro same entry listed
    have found := List.mem_zipIdx_iff_getElem?.mp listed
    obtain ⟨inside, read⟩ := List.getElem?_eq_some_iff.mp found
    have position := congrArg (·[entry.2]?) same
    simp only [List.getElem?_map, found, Option.map_some, List.getElem?_range inside,
      Option.some.injEq] at position
    rw [position]
    rfl

theorem rows_agree (accepted : shape value (.object fields) = .ok ())
    (listed : ("occurrences", .array (.object occurrenceFields)) ∈ fields)
    : Execution.checkOccurrences value = .ok () ↔ semanticRows value = .ok () := by
  have typed : ∀ row ∈ (value.get "occurrences").items,
      ∃ ordinal, row.get "tool_ordinal" = .int ordinal := by
    obtain ⟨_, _, _, each⟩ := of_shape_object accepted
    obtain ⟨items, same, rows⟩ := of_shape_array (each _ listed)
    rw [same]
    intro row member
    obtain ⟨_, _, _, columns⟩ := of_shape_object (rows row member)
    obtain ⟨ordinal, read, _⟩ := of_shape_nat (columns ("tool_ordinal", .nat) (by
      simp [occurrenceFields]))
    exact ⟨ordinal, read⟩
  have keys : ((value.get "occurrences").items.map fun row =>
        Json.arr [row.get "result_key", row.get "duplicate_ordinal"]).Nodup
      ↔ ((value.get "occurrences").items.map fun row =>
        (row.get "result_key", row.get "duplicate_ordinal")).Nodup := by
    have injective : Function.Injective fun key : Json × Json => Json.arr [key.1, key.2] := by
      intro left right same
      simp only [Json.arr.injEq, List.cons.injEq, and_true] at same
      exact Prod.ext same.1 same.2
    rw [← List.nodup_map_iff injective, List.map_map]
    rfl
  have located : (∀ entry ∈ (value.get "occurrences").items.zipIdx,
        location (entry.1.get "location") = .ok ())
      ↔ ∀ row ∈ (value.get "occurrences").items, location (row.get "location") = .ok () := by
    conv_rhs => rw [← List.zipIdx_map_fst 0 (value.get "occurrences").items]
    rw [List.forall_mem_map]
  simp only [Execution.checkOccurrences, semanticRows, Execution.unique, unique,
    check_ok, visit_ok, require_ok_iff, need_ok_iff,
    location_agrees, forall_and, keys, ordinals_iff typed, located]

-- Identities

/-- A string or null. -/
def textOrNull : Option Text → Json
  | none => .null
  | some text => .str text

theorem textOrNull_eq_null {text : Option Text} : textOrNull text = .null ↔ text = none := by
  cases text <;> simp [textOrNull]

/-- What a shape of strings accepts, or null. -/
theorem of_shape_text {accepts : Text → Bool} {message : String}
    (reads : ∀ value, shape value rule = need (isText accepts value = true) message)
    (accepted : shape value (.nullable rule) = .ok ())
    : ∃ text, value = textOrNull text ∧ ∀ content ∈ text, accepts content = true := by
  rcases of_shape_nullable accepted with absent | present
  · exact ⟨none, absent, fun _ member => by cases member⟩
  · rw [reads, need_ok_iff] at present
    cases value with
    | str text => exact ⟨some text, rfl, fun _ member => Option.some.inj member ▸ present⟩
    | null | bool | int | arr | obj => cases present

theorem isHex_iff {width : Nat}
    : fullmatch (List.replicate width isHex) text = true ↔ Analysis.IsHex width text := by
  rw [fullmatch_replicate_iff, Analysis.IsHex]
  refine and_congr_right fun _ => forall₂_congr fun point _ => ?_
  simp only [isHex, isDigit, between, Bool.or_eq_true, Bool.and_eq_true, decide_eq_true_eq,
    Analysis.IsHexDigit]

theorem item_eq_get (keys : HasKeys members names) {name : String} (named : name ∈ names)
    : Analysis.item members name = .ok ((Json.obj members).get name) := by
  have present : py name ∈ Dict.keys members := keys.2 _ (List.mem_map_of_mem named)
  obtain ⟨value, found⟩ := Dict.mem_keys.mp present
  have read : (Json.obj members).get name = (Dict.get? members (py name)).getD .null := rfl
  rw [read, Analysis.item, found]
  rfl

theorem textItem_eq_get (keys : HasKeys members names) {name : String} (named : name ∈ names)
    {text : Option Text} (read : (Json.obj members).get name = textOrNull text)
    : Analysis.textItem members name = .ok text := by
  rw [Analysis.textItem, item_eq_get keys named, ok_bind, read]
  cases text <;> rfl

/-- The statuses of a stored descriptor; a legacy status is not among them. -/
theorem status_of_literal {literal : String}
    (listed : literal ∈ ["completed", "pending", "running", "failed", "not-applicable"])
    : ∃ status, Analysis.artifactStatus (py literal) = .ok status ∧ status ≠ .legacyAmbiguous
      ∧ (status = .completed ↔ py literal = py "completed") := by
  simp only [List.mem_cons, List.not_mem_nil, or_false] at listed
  rcases listed with rfl | rfl | rfl | rfl | rfl
  · exact ⟨.completed, rfl, by decide, by decide⟩
  · exact ⟨.pending, rfl, by decide, by decide⟩
  · exact ⟨.running, rfl, by decide, by decide⟩
  · exact ⟨.failed, rfl, by decide, by decide⟩
  · exact ⟨.notApplicable, rfl, by decide, by decide⟩

/-- A descriptor of the stored shape is an artifact for Python exactly when the database accepts
it.
-/
theorem descriptor_agrees {descriptor : Json}
    (accepted : shape descriptor (.object artifactFields) = .ok ())
    : checkDescriptor descriptor = .ok ()
      ↔ ∃ artifact, Analysis.artifactFromDict descriptor = .ok artifact := by
  obtain ⟨members, rfl, keys, each⟩ := of_shape_object accepted
  have names : artifactFields.map Prod.fst = Analysis.descriptorKeys := rfl
  rw [names] at keys
  obtain ⟨literal, listed, status⟩ := of_shape_literals (each ("status", _) List.mem_cons_self)
  obtain ⟨digest, digestRead, digestHex⟩ :=
    of_shape_text (fun _ => rfl) (each ("digest", .nullable .digest) (by simp [artifactFields]))
  obtain ⟨ns, nsRead, nsFilled⟩ := of_shape_text (fun _ => rfl)
    (each ("namespace", .nullable .nonempty) (by simp [artifactFields]))
  obtain ⟨fingerprintClass, classRead, classListed⟩ : ∃ text,
      (Json.obj members).get "fingerprint_class" = textOrNull text
        ∧ ∀ content ∈ text, content = py "strong" ∨ content = py "weak" := by
    rcases of_shape_nullable (each ("fingerprint_class", .nullable (.literals ["strong", "weak"]))
      (by simp [artifactFields])) with absent | present
    · exact ⟨none, absent, fun _ member => by cases member⟩
    · obtain ⟨literal, listed, same⟩ := of_shape_literals present
      refine ⟨some (py literal), same, fun content member => ?_⟩
      obtain rfl := Option.some.inj member
      simp only [List.mem_cons, List.not_mem_nil, or_false] at listed
      exact listed.imp (congrArg py) (congrArg py)
  obtain ⟨note, noted, annotation⟩ := of_shape_literals (each
    ("annotation", .literals [ artifactAnnotation]) (by simp [artifactFields]))
  rw [List.mem_singleton.mp noted] at annotation
  obtain ⟨state, stated, current, completed⟩ := status_of_literal listed
  have statusRead : (Json.obj members).get "status" = textOrNull (some (py literal)) := status
  have annotated : Analysis.item members "annotation" = .ok (.str Analysis.annotationLiteral) := by
    rw [item_eq_get keys (by simp [Analysis.descriptorKeys])]
    exact congrArg Except.ok annotation
  have reads : Analysis.artifactFromDict (.obj members)
      = construct (Analysis.artifactPostInit state digest fingerprintClass ns) fun accepted =>
          { status := state, digest, fingerprintClass, ns, accepted } := by
    rw [Analysis.artifactFromDict]
    simp only [raiseUnless, if_pos keys, ok_bind, annotated, if_true,
      textItem_eq_get keys (show "status" ∈ Analysis.descriptorKeys by decide)
        statusRead,
      textItem_eq_get keys (show "digest" ∈ Analysis.descriptorKeys by decide)
        digestRead,
      textItem_eq_get keys (show "fingerprint_class" ∈ Analysis.descriptorKeys by decide)
        classRead,
      textItem_eq_get keys (show "namespace" ∈ Analysis.descriptorKeys by decide)
        nsRead, stated]
  have hex : ∀ text ∈ digest, Analysis.IsHex 64 text := fun text member =>
    isHex_iff.mp (digestHex text member)
  have passed : (∃ artifact, Analysis.artifactFromDict (.obj members) = .ok artifact)
      ↔ Analysis.artifactPostInit state digest fingerprintClass ns = .ok () := by
    rw [reads]
    simp only [construct_ok]
    constructor
    · intro built
      obtain ⟨_, accepted, _⟩ := built
      exact accepted
    · intro accepted
      exact ⟨_, accepted, rfl⟩
  have evidence : checkDescriptor (.obj members) = .ok ()
      ↔ if state = .completed then digest ≠ none ∧ fingerprintClass ≠ none ∧ ns ≠ none
        else digest = none ∧ fingerprintClass = none ∧ ns = none := by
    simp only [checkDescriptor, status, Json.str.injEq, ← completed, digestRead,
      classRead, nsRead]
    split <;> simp [textOrNull_eq_null]
  rw [passed, evidence]
  have filled : ns ≠ none → ns ≠ some [] := by
    intro present empty
    exact absurd (nsFilled [] empty) (by simp)
  have known : fingerprintClass ≠ none
      ↔ fingerprintClass = some (py "strong") ∨ fingerprintClass = some (py "weak") := by
    cases fingerprintClass with
    | none => simp
    | some text => simpa using classListed text rfl
  simp only [Analysis.artifactPostInit, check_ok, raiseUnless_ok]
  split
  next =>
    simp only [check_ok, raiseUnless_ok, ← known]
    constructor
    · rintro ⟨digested, classed, spaced⟩
      exact ⟨hex, ⟨digested, classed⟩, spaced, filled spaced⟩
    · rintro ⟨_, ⟨digested, classed⟩, spaced, _⟩
      exact ⟨digested, classed, spaced⟩
  next =>
    simp only [check_ok, raiseUnless_ok, current, false_or]
    constructor
    · rintro ⟨undigested, unclassed, free⟩
      exact ⟨hex, ⟨unclassed, free⟩, undigested⟩
    · rintro ⟨_, ⟨unclassed, free⟩, undigested⟩
      exact ⟨undigested, unclassed, free⟩

/-- An identity of the stored shape is valid for Python exactly when the database accepts it. -/
theorem identity_agrees {identity : Json}
    (accepted : shape identity (.nullable (.object identityFields)) = .ok ())
    : Execution.checkIdentity identity = .ok () ↔ semanticIdentity identity = .ok () := by
  rcases of_shape_nullable accepted with rfl | present
  · exact ⟨fun _ => rfl, fun _ => rfl⟩
  · obtain ⟨members, rfl, keys, each⟩ := of_shape_object present
    have names : identityFields.map Prod.fst = Analysis.metadataKeys := rfl
    rw [names] at keys
    have version : (Json.obj members).get "schema_version" = .int 2 := by
      have listed := each ("schema_version", .enum [.int 2]) (by simp [identityFields])
      simpa [shape] using listed
    have graph := descriptor_agrees (each ("cpg_order", .object artifactFields) (by
      simp [identityFields]))
    have sliced := descriptor_agrees (each ("slice", .object artifactFields) (by
      simp [identityFields]))
    have reads : (∃ pair, Analysis.validateIdentityMetadata (.obj members) = .ok pair)
        ↔ (∃ artifact, Analysis.artifactFromDict ((Json.obj members).get "cpg_order") = .ok artifact)
          ∧ ∃ artifact, Analysis.artifactFromDict ((Json.obj members).get "slice") = .ok artifact := by
      simp only [Analysis.validateIdentityMetadata, raiseUnless, if_pos keys, ok_bind,
        item_eq_get keys (show "schema_version" ∈ Analysis.metadataKeys by decide),
        item_eq_get keys (show "cpg_order" ∈ Analysis.metadataKeys by decide),
        item_eq_get keys (show "slice" ∈ Analysis.metadataKeys by decide), version, if_true,
        bind_ok]
      constructor
      · intro ⟨_, first, read, second, also, _⟩
        exact ⟨⟨first, read⟩, second, also⟩
      · intro ⟨⟨first, read⟩, second, also⟩
        exact ⟨(first, second), first, read, second, also, rfl⟩
    have semantics : semanticIdentity (.obj members) = .ok ()
        ↔ ∃ pair, Analysis.validateIdentityMetadata (.obj members) = .ok pair := by
      rw [semanticIdentity, if_neg (by simp)]
      cases Analysis.validateIdentityMetadata (.obj members) with
      | ok pair => simp
      | error raised => simp
    rw [semantics, reads, ← graph, ← sliced, Execution.checkIdentity, if_neg (by simp),
      visit_ok]
    simp

theorem result_agrees (accepted : shape value (schemaShape .attemptResult) = .ok ())
    : Execution.checkResult value = .ok () ↔ semanticResult value = .ok () := by
  obtain ⟨_, _, _, each⟩ := of_shape_object accepted
  have identity := identity_agrees (each ("identity", .nullable (.object identityFields)) (by
    simp [schemaFields, schema]))
  have retryable : value.get "retryable" = .bool false ↔ ¬value.get "retryable" = .bool true := by
    rcases of_shape_bool (each ("retryable", .bool) (by simp [schemaFields, schema])) with
      yes | no
    · simp [show value.get "retryable" = .bool true from yes]
    · simp [show value.get "retryable" = .bool false from no]
  simp only [Execution.checkResult, semanticResult, check_ok, Execution.unique,
    unique, require_ok_iff, need_ok_iff, identity, retryable, not_and_or, not_or,
    not_not, ne_eq]

/-- The rules of a batch that need no digest. -/
theorem coverage_agrees
    : (Execution.unique ((value.get "coverage").get "files").items "covered file" = .ok ()
        ∧ Execution.unique ((value.get "coverage").get "rules").items "covered rule" = .ok ()
        ∧ (value.get "status" ≠ .str (py "completed")
          ∨ (value.get "coverage").get "status" = .str (py "complete")
            ∧ ((value.get "coverage").get "errors").items = []))
      ↔ semanticCoverage value = .ok () := by
  simp only [semanticCoverage, check_ok, Execution.unique, unique,
    require_ok_iff, need_ok_iff, not_and_or, not_or, not_not, ne_eq]

-- Bytes

theorem pairs_keeps : Json.KeepsDistinct pairs := by
  intro members distinct
  simp [pairs, need, demand, distinct, ok_bind]

theorem pairs_refuses : Json.RefusesRepeated pairs := by
  intro members result kept
  simp only [pairs, check_ok, need_ok_iff] at kept
  obtain ⟨distinct, done⟩ := kept
  cases done
  exact ⟨rfl, distinct⟩

/-- What both sides ask of the bytes of an envelope. -/
structure Stored (value : Json) (data : Bytes) : Prop where
  canonical : value.Canonical
  written : data = value.dumps.utf8
  bounded : data.length ≤ maxEnvelope
  storable : ∀ entry ∈ value.tokens 0, Storable entry

variable {data : Bytes}

theorem Stored.encodable (stored : Stored value data)
    : value.dumps.Encodable := by
  apply Json.dumps_encodable
  apply Json.encodable_of_leaves
  intro text listed point member
  obtain ⟨⟨token, depth⟩, among, same⟩ := List.mem_map.mp listed
  obtain rfl : token = .str text := same
  exact ((stored.storable _ among).2 point member).2

/-- The strings of a bounded text are bounded. -/
theorem Stored.accepted (stored : Stored value data)
    : ∀ entry ∈ value.tokens 0, Accepted entry := by
  intro entry among
  refine ⟨stored.storable entry among, ?_⟩
  obtain ⟨token, depth⟩ := entry
  cases token with
  | str text =>
      have cost := Json.cost_le_of_mem among
      have length := Json.length_utf8_dumps 0 value
      have quoted : text.utf8.length ≤ (Json.Token.str text).cost := by
        rw [Json.Token.cost, Json.quoteCost]
        omega
      have bounded := stored.bounded
      rw [stored.written] at bounded
      have short := text.length_le_utf8
      exact le_trans short (le_trans quoted (le_trans cost (length ▸ bounded)))
  | null | bool | int | arr | obj => trivial

theorem integer_of_storable {entry : Json.Token × Nat} (storable : Storable entry)
    : integer entry.1 = .ok () := by
  obtain ⟨token, depth⟩ := entry
  cases token with
  | int value =>
      have word : IsWord value := storable.2
      simp only [integer, check_ok, need_ok_iff]
      exact ⟨Json.length_numeral_le word.1 word.2, word⟩
  | null | bool | str | arr | obj => rfl

/-- `json.loads` reads the text that the encoder writes. -/
theorem Stored.loads (stored : Stored value data)
    : loads data = .ok value := by
  have decoded : Text.decode data = some value.dumps :=
    Text.decode_eq_some.mpr ⟨stored.encodable, stored.written⟩
  have read : Json.loads pairs (.envelope "invalid envelope encoding") value.dumps = .ok value :=
    Json.loads_self pairs_keeps stored.canonical
  have integers : Metered.visit integer value.leaves = .ok () := by
    rw [visit_ok]
    intro token listed
    obtain ⟨entry, among, rfl⟩ := List.mem_map.mp listed
    exact integer_of_storable (stored.storable entry among)
  simp only [Codec.loads, decoded, ok_bind, read, integers]

mutual

/-- A decoded value is written as it is, by recursion on the value. -/
theorem json_ofJson : (value : Json) → (PyValue.ofJson value).json = value
  | .null | .bool _ | .int _ | .str _ => rfl
  | .arr items => by rw [PyValue.ofJson, PyValue.json, jsonItems_ofItems items]
  | .obj members => by rw [PyValue.ofJson, PyValue.json, jsonMembers_ofMembers members]

theorem jsonItems_ofItems : (items : List Json)
    → PyValue.jsonItems (PyValue.ofItems items) = items
  | [] => rfl
  | item :: rest => by
      rw [PyValue.ofItems, PyValue.jsonItems, json_ofJson item, jsonItems_ofItems rest]

theorem jsonMembers_ofMembers : (members : List (Text × Json))
    → PyValue.jsonMembers (PyValue.ofMembers members) = members
  | [] => rfl
  | (key, value) :: rest => by
      rw [PyValue.ofMembers, PyValue.jsonMembers, json_ofJson value, jsonMembers_ofMembers rest]
      rfl

end

theorem canonical_ofJson_ok
    : canonical (.ofJson value) = .ok data
      ↔ scalar (.ofJson value) 0 = .ok () ∧ data = value.dumps.utf8 ∧ data.length ≤ maxEnvelope := by
  simp only [canonical, check_ok, need_ok_iff, json_ofJson]
  refine and_congr_right fun _ => ?_
  constructor
  · intro ⟨bounded, same⟩
    rw [← Except.ok.inj same]
    exact ⟨rfl, bounded⟩
  · intro ⟨same, bounded⟩
    rw [same] at bounded ⊢
    exact ⟨bounded, rfl⟩

variable {name : EnvelopeName}

/-- `decode_envelope` accepts the bytes of the stored values that satisfy the shape and the rules.
-/
theorem decodeBy_ok_iff {rules : Json → Except CodecError Unit} {digest : Option Bytes}
    : decodeBy rules sha256 name data digest = .ok value
      ↔ Stored value data ∧ shape value (schemaShape name) = .ok () ∧ rules value = .ok ()
        ∧ ∀ given ∈ digest, given = digestOf sha256 name data := by
  constructor
  · intro done
    obtain ⟨bounded, done⟩ := check_ok.mp done
    obtain ⟨found, loaded, done⟩ := bind_ok.mp done
    simp only [check_ok] at done
    obtain ⟨scalars, shaped, ruled, done⟩ := done
    obtain ⟨written, encoded, done⟩ := bind_ok.mp done
    simp only [check_ok, need_ok_iff] at done
    obtain ⟨rfl, digested, same⟩ := done
    cases same
    obtain ⟨_, dumped, small⟩ := canonical_ofJson_ok.mp encoded
    have read : Json.loads pairs (.envelope "invalid envelope encoding") value.dumps = .ok value := by
      unfold loads at loaded
      cases decoded : Text.decode written with
      | none =>
          rw [decoded] at loaded
          cases loaded
      | some text =>
          simp only [decoded, ok_bind] at loaded
          obtain ⟨parsed, read, loaded⟩ := bind_ok.mp loaded
          obtain ⟨_, same⟩ := check_ok.mp loaded
          cases same
          have encoded := (Text.decode_eq_some.mp decoded).2
          rwa [Text.utf8_injective (encoded.symm.trans dumped)] at read
    refine ⟨⟨Json.canonical_of_loads pairs_refuses pairs_keeps read, dumped, small, ?_⟩, shaped,
      ruled, digested⟩
    exact fun entry among => ((scalar_ofJson value 0).mp scalars entry among).1
  · intro ⟨stored, shaped, ruled, digested⟩
    have scalars := (scalar_ofJson value 0).mpr stored.accepted
    have encoded := canonical_ofJson_ok.mpr ⟨scalars, stored.written, stored.bounded⟩
    refine check_ok.mpr ⟨need_ok_iff.mpr stored.bounded, ?_⟩
    rw [stored.loads, ok_bind]
    simp only [scalars, shaped, ruled, encoded, ok_bind, check_ok, need_ok_iff,
      true_and, and_true]
    exact digested

theorem keeps_members
    : Json.KeepsDistinct (fun members => (.ok members : Except Execution.SqlError _)) :=
  fun _ _ => rfl

variable {digest : Bytes}

/-- `v1_envelope` accepts the bytes of the stored values that satisfy the shape and its own rules.
-/
theorem envelope_ok_iff
    : Execution.envelope sha256 name data digest = .ok value
      ↔ Stored value data ∧ shape value (schemaShape name) = .ok ()
        ∧ checkSemantic sha256 name value = .ok ()
        ∧ digest = digestOf sha256 name data := by
  have closed := closed_schemaShape name
  constructor
  · intro done
    obtain ⟨bounded, done⟩ := check_ok.mp done
    obtain ⟨original, converted, done⟩ := bind_ok.mp done
    obtain ⟨parsed, read, done⟩ := bind_ok.mp done
    obtain ⟨preserved, done⟩ := check_ok.mp done
    obtain ⟨text, written, done⟩ := bind_ok.mp done
    simp only [check_ok, require_ok_iff] at done
    obtain ⟨same, digested, shaped, ruled, result⟩ := done
    cases result
    obtain ⟨rfl, distinct, storable⟩ := (canonical_ok value 0 text).mp written
    have encoded : data = original.utf8 := by
      rw [convertFrom] at converted
      split at converted
      next found =>
        split at converted
        · cases converted
          exact (Text.decode_eq_some.mp found).2
        · cases converted
      next => cases converted
    subst same
    refine ⟨⟨Json.canonical_of_distinct keeps_members distinct read, encoded,
      require_ok_iff.mp bounded, storable⟩, ?_, ruled, digested⟩
    exact (shape_agrees _ closed _ distinct).mp shaped
  · intro facts
    obtain ⟨stored, shaped, ruled, digested⟩ := facts
    have distinct := Json.distinct_of_canonical _ stored.canonical
    have decoded : Text.decode data = some value.dumps :=
      Text.decode_eq_some.mpr ⟨stored.encodable, stored.written⟩
    have visible : (value.dumps.all fun point => point.val ≠ 0) = true := by
      rw [List.all_eq_true]
      intro point member
      have low := Json.uncontrolled_dumps value point member
      exact decide_eq_true (by omega)
    have converted : convertFrom data = .ok value.dumps := by
      simp only [convertFrom, decoded, visible, if_true]
    have read : Execution.parseJson value.dumps = .ok value :=
      Json.loads_self keeps_members stored.canonical
    have written := (canonical_ok value 0 value.dumps).mpr ⟨rfl, distinct, stored.storable⟩
    refine check_ok.mpr ⟨require_ok_iff.mpr stored.bounded, ?_⟩
    simp only [converted, read, written, ok_bind, check_ok,
      require_ok_iff, true_and, and_true]
    exact ⟨preserved_of_shape _ closed _ distinct shaped, digested,
      (shape_agrees _ closed _ distinct).mpr shaped, ruled⟩

-- The inventory inside a batch

/-- The fields of an inventory, which a batch holds too. -/
def inventoryRecord (value : Json) : List (String × Json) :=
  [("schema", .str EnvelopeName.occurrenceInventory.schemaText),
    ("occurrences", value.get "occurrences")]

theorem schema_of_shape (accepted : shape value (.object (schema name fields)) = .ok ())
    : value.get "schema" = .str name.schemaText := by
  obtain ⟨_, _, _, each⟩ := of_shape_object accepted
  have listed := each ("schema", .enum [.str name.schemaText]) List.mem_cons_self
  simpa [shape] using listed

/-- The tokens of a batch and of the record of its fields are the same. -/
theorem tokens_of_shape (canonical : value.Canonical)
    (different : ((fields.map Prod.fst).map py).Nodup)
    (accepted : shape value (.object fields) = .ok ())
    : (value.tokens 0).Perm
        ((Json.record (fields.map fun field => (field.1, value.get field.1))).tokens 0) := by
  obtain ⟨members, rfl, keys, _⟩ := of_shape_object accepted
  have record : Json.obj ((fields.map Prod.fst).map fun name => (py name, (Json.obj members).get name))
      = Json.record (fields.map fun field => (field.1, (Json.obj members).get field.1)) := by
    rw [Json.record, List.map_map, List.map_map]
    rfl
  have same := Json.eq_sortKeys_of_hasKeys canonical different keys
  rw [record] at same
  conv_lhs => rw [same]
  exact Json.tokens_sortKeys 0 _

/-- The inventory is shorter than its batch. Witness: the batch writes all that the inventory
writes, but for the longer name of its schema.
-/
theorem inventory_shorter (canonical : value.Canonical)
    (accepted : shape value (schemaShape .detectionBatch) = .ok ())
    : (Json.record (inventoryRecord value)).dumps.utf8.length ≤ value.dumps.utf8.length := by
  have perm := tokens_of_shape canonical (by decide) accepted
  have batch : Json.quoteCost EnvelopeName.detectionBatch.schemaText = 37 := by decide +kernel
  have inventory : Json.quoteCost EnvelopeName.occurrenceInventory.schemaText = 42 := by
    decide +kernel
  rw [Json.length_utf8_dumps 0, Json.length_utf8_dumps 0, Json.cost_perm perm, Json.tokens_record,
    Json.tokens_record]
  simp only [inventoryRecord, schemaFields, schema, List.map_cons, List.map_nil, List.flatMap_cons,
    List.flatMap_nil, List.append_nil, Json.cost_cons, Json.cost_append, List.cons_append,
    Json.Token.cost, schema_of_shape accepted, Json.tokens, Json.cost_nil, batch, inventory,
    List.length_cons, List.length_nil]
  omega

theorem sortKeys_get_record (canonical : value.Canonical) {name : String}
    (listed : name = "schema" ∨ name = "occurrences")
    : (Json.sortKeys (Json.record (inventoryRecord value))).get name
      = if name = "schema" then .str EnvelopeName.occurrenceInventory.schemaText
        else value.get "occurrences" := by
  have different : (((inventoryRecord value).map Prod.fst).map py).Nodup := by
    simp only [inventoryRecord, List.map_cons, List.map_nil]
    decide
  rcases listed with rfl | rfl
  · exact Json.get_sortKeys_record different List.mem_cons_self
  · rw [Json.get_sortKeys_record different (List.mem_cons_of_mem _ List.mem_cons_self)]
    exact Json.sortKeys_of_canonical _ (Json.canonical_get canonical "occurrences")

/-- The inventory of a stored batch is stored. -/
theorem stored_inventory (stored : Stored value data)
    (accepted : shape value (schemaShape .detectionBatch) = .ok ())
    : Stored (Json.sortKeys (Json.record (inventoryRecord value)))
        (Json.record (inventoryRecord value)).dumps.utf8 := by
  have tokens := tokens_of_shape stored.canonical (by decide) accepted
  have batch : ∀ entry ∈ (Json.record ((schemaFields .detectionBatch).map fun field =>
      (field.1, value.get field.1))).tokens 0, Storable entry :=
    fun entry among => stored.storable entry (tokens.mem_iff.mpr among)
  rw [Json.forall_tokens_record] at batch
  have occurrences := batch.2 ("occurrences", value.get "occurrences") (by
    simp [schemaFields, schema])
  refine ⟨Json.canonical_sortKeys _ ?_, by rw [Json.dumps_sortKeys], ?_, ?_⟩
  · refine Json.distinct_record (by simp only [inventoryRecord, List.map_cons, List.map_nil]; decide)
      fun field listed => ?_
    simp only [inventoryRecord, List.mem_cons, List.not_mem_nil, or_false] at listed
    rcases listed with rfl | rfl
    · trivial
    · exact Json.distinct_get (Json.distinct_of_canonical _ stored.canonical) _
  · have bounded := stored.bounded
    rw [stored.written] at bounded
    exact le_trans (inventory_shorter stored.canonical accepted) bounded
  · intro entry among
    have each : ∀ entry ∈ (Json.record (inventoryRecord value)).tokens 0, Storable entry := by
      rw [Json.forall_tokens_record]
      refine ⟨⟨Nat.zero_le _, trivial⟩, fun field listed => ?_⟩
      simp only [inventoryRecord, List.mem_cons, List.not_mem_nil, or_false] at listed
      rcases listed with rfl | rfl
      · refine ⟨⟨by decide, by decide⟩, fun entry among => ?_⟩
        rw [Json.tokens, List.mem_singleton] at among
        rw [among]
        exact ⟨by decide, by decide⟩
      · exact occurrences
    exact each entry ((Json.tokens_sortKeys 0 _).mem_iff.mp among)

/-- The inventory of a batch has the shape of an inventory. -/
theorem shape_inventory (canonical : value.Canonical)
    (accepted : shape value (schemaShape .detectionBatch) = .ok ())
    : shape (Json.sortKeys (Json.record (inventoryRecord value)))
        (schemaShape .occurrenceInventory) = .ok () := by
  obtain ⟨_, _, _, each⟩ := of_shape_object accepted
  have occurrences := each ("occurrences", .array (.object occurrenceFields)) (by
    simp [schemaFields, schema])
  obtain ⟨members, same, keys⟩ := Json.hasKeys_sortKeys_record (inventoryRecord value)
  have fields : shapeFields (Json.sortKeys (Json.record (inventoryRecord value)))
      (schemaFields .occurrenceInventory) = .ok () := by
    rw [shapeFields_ok]
    intro field listed
    simp only [schemaFields, schema, List.mem_cons, List.not_mem_nil, or_false] at listed
    rcases listed with rfl | rfl
    · rw [sortKeys_get_record canonical (.inl rfl), if_pos rfl]
      simp [shape]
    · rw [sortKeys_get_record canonical (.inr rfl), if_neg (by decide)]
      exact occurrences
  rw [same] at fields ⊢
  simp only [schemaShape, shape, check_ok, need_ok_iff]
  exact ⟨keys, fields⟩

/-- Both sides compute one digest of the inventory inside a batch: the envelope that Python builds
for it is always accepted.
-/
theorem inventory_agrees (stored : Stored value data)
    (accepted : shape value (schemaShape .detectionBatch) = .ok ())
    (rows : semanticRows value = .ok ())
    : semanticInventory sha256 value = .ok ()
      ↔ ∃ inventory, bytesOf (Execution.occurrenceInventory value) = .ok inventory
        ∧ value.get "inventory_digest" = .str (hex (digestOf sha256 .occurrenceInventory inventory)) := by
  have kept := stored_inventory stored accepted
  have shaped := shape_inventory stored.canonical accepted
  have ruled : semanticRows (Json.sortKeys (Json.record (inventoryRecord value))) = .ok () := by
    rw [semanticRows, sortKeys_get_record stored.canonical (.inr rfl), if_neg (by decide)]
    exact rows
  have storable : ∀ entry ∈ (Json.record (inventoryRecord value)).tokens 0, Storable entry :=
    fun entry among => kept.storable entry ((Json.tokens_sortKeys 0 _).mem_iff.mpr among)
  have accepts : scalar (.ofJson (Json.record (inventoryRecord value))) 0 = .ok () := by
    rw [scalar_ofJson]
    exact fun entry among => kept.accepted entry ((Json.tokens_sortKeys 0 _).mem_iff.mpr among)
  have encoded : canonical (.ofJson (Json.record (inventoryRecord value)))
      = .ok (Json.record (inventoryRecord value)).dumps.utf8 :=
    canonical_ofJson_ok.mpr ⟨accepts, rfl, kept.bounded⟩
  have decoded : decodeBy semanticRows sha256 .occurrenceInventory
      (Json.record (inventoryRecord value)).dumps.utf8
      (some (digestOf sha256 .occurrenceInventory
        (Json.record (inventoryRecord value)).dumps.utf8))
        = .ok (Json.sortKeys (Json.record (inventoryRecord value))) :=
    decodeBy_ok_iff.mpr ⟨kept, shaped, ruled, fun given member => (Option.some.inj member).symm⟩
  have distinct : (Json.record (inventoryRecord value)).Distinct := by
    refine Json.distinct_record (by simp only [inventoryRecord, List.map_cons, List.map_nil]; decide)
      fun field listed => ?_
    simp only [inventoryRecord, List.mem_cons, List.not_mem_nil, or_false] at listed
    rcases listed with rfl | rfl
    · trivial
    · exact Json.distinct_get (Json.distinct_of_canonical _ stored.canonical) _
  have written : bytesOf (Execution.occurrenceInventory value)
      = .ok (Json.record (inventoryRecord value)).dumps.utf8 := by
    have text := (canonical_ok _ 0 _).mpr ⟨rfl, distinct, storable⟩
    rw [bytesOf]
    exact bind_ok.mpr ⟨_, text, rfl⟩
  have reads : semanticInventory sha256 value
      = need (value.get "inventory_digest" = .str (hex (digestOf sha256 .occurrenceInventory
        (Json.record (inventoryRecord value)).dumps.utf8))) "occurrence inventory digest mismatch" := by
    rw [semanticInventory]
    change (canonical (.ofJson (Json.record (inventoryRecord value))) >>= _) = _
    rw [encoded, ok_bind]
    dsimp only
    rw [decoded, ok_bind]
  rw [reads, need_ok_iff, written]
  simp only [Except.ok.injEq, exists_eq_left']

/-- The rules of a batch. -/
theorem batch_agrees (stored : Stored value data)
    (accepted : shape value (schemaShape .detectionBatch) = .ok ())
    : checkSemantic sha256 .detectionBatch value = .ok ()
      ↔ semantic sha256 .detectionBatch value = .ok () := by
  have rows := rows_agree accepted (by simp [schemaFields, schema])
  simp only [checkSemantic, semantic, check_ok, rows]
  refine and_congr_right fun ruled => ?_
  rw [inventory_agrees stored accepted ruled, ← coverage_agrees]
  simp only [Execution.checkBatch, bind_ok, require_ok_iff, and_assoc,
    exists_const]
  constructor
  · intro parts
    obtain ⟨_, files, _, rules, rest⟩ := parts
    exact ⟨files, rules, rest⟩
  · intro parts
    obtain ⟨files, rules, rest⟩ := parts
    exact ⟨(), files, (), rules, rest⟩

/-- `v1_semantic` and `_semantic` accept the same stored values, by the name of the envelope. -/
theorem semantic_agrees (stored : Stored value data)
    (accepted : shape value (schemaShape name) = .ok ())
    : checkSemantic sha256 name value = .ok ()
      ↔ semantic sha256 name value = .ok () := by
  cases name with
  | retryPolicy => exact retry_agrees
  | plannedPolicy =>
      simp only [checkSemantic, semantic, check_ok, policy_agrees,
        bindings_agree]
  | request =>
      simp only [checkSemantic, semantic, check_ok, policy_agrees,
        retry_agrees]
  | sourceInventory => exact files_agree
  | scanSeal =>
      simp only [checkSemantic, semantic, check_ok, bindings_agree,
        Execution.unique, unique, require_ok_iff, need_ok_iff]
  | workPayload =>
      simp only [checkSemantic, semantic, check_ok, policy_agrees,
        semanticWork, require_ok_iff, need_ok_iff]
  | occurrenceInventory => exact rows_agree accepted (by simp [schemaFields, schema])
  | detectionBatch => exact batch_agrees stored accepted
  | attemptResult => exact result_agrees accepted
  | acceptedContent | attemptPolicy | runInput | runFailure | leaseRelease | cancellation
  | retirement => exact ⟨fun _ => rfl, fun _ => rfl⟩

theorem envelope_agrees
    : Execution.envelope sha256 name data digest = .ok value
      ↔ decodeBy (semantic sha256 name) sha256 name data (some digest) = .ok value := by
  rw [envelope_ok_iff, decodeBy_ok_iff]
  refine and_congr_right fun stored => and_congr_right fun accepted => and_congr ?_ ?_
  · exact semantic_agrees stored accepted
  · exact ⟨fun same given member => (Option.some.inj member) ▸ same, fun same => same digest rfl⟩

-- Encoding

mutual

/-- `_scalar` accepts only what the decoder can build, by recursion on the value. -/
theorem ofJson_of_scalar : (value : PyValue) → (depth : Nat) → scalar value depth = .ok ()
    → PyValue.ofJson value.json = value
  | .none, _, _ | .bool _, _, _ | .int _, _, _ | .str _, _, _ => rfl
  | .list items, depth, accepted => by
      simp only [scalar, check_ok] at accepted
      rw [PyValue.json, PyValue.ofJson, ofItems_of_scalar items _ accepted.2]
  | .dict members, depth, accepted => by
      simp only [scalar, check_ok] at accepted
      rw [PyValue.json, PyValue.ofJson, ofMembers_of_scalar members _ accepted.2]
  | .other, depth, accepted => by simp [scalar, check_ok] at accepted

theorem ofItems_of_scalar : (items : List PyValue) → (depth : Nat)
    → scalarItems items depth = .ok () → PyValue.ofItems (PyValue.jsonItems items) = items
  | [], _, _ => rfl
  | item :: rest, depth, accepted => by
      simp only [scalarItems, check_ok] at accepted
      rw [PyValue.jsonItems, PyValue.ofItems, ofJson_of_scalar item _ accepted.1,
        ofItems_of_scalar rest _ accepted.2]

theorem ofMembers_of_scalar : (members : List (PyValue × PyValue)) → (depth : Nat)
    → scalarMembers members depth = .ok ()
    → PyValue.ofMembers (PyValue.jsonMembers members) = members
  | [], _, _ => rfl
  | (.str key, value) :: rest, depth, accepted => by
      simp only [scalarMembers, check_ok] at accepted
      rw [PyValue.jsonMembers, PyValue.ofMembers, ofJson_of_scalar value _ accepted.2.1,
        ofMembers_of_scalar rest _ accepted.2.2]
      rfl
  | (.none, _) :: _, _, accepted | (.bool _, _) :: _, _, accepted | (.int _, _) :: _, _, accepted
  | (.list _, _) :: _, _, accepted | (.dict _, _) :: _, _, accepted
  | (.other, _) :: _, _, accepted => by simp [scalarMembers] at accepted

end

theorem keys_ofMembers (members : List (Text × Json))
    : PyValue.keys (PyValue.ofMembers members) = members.map Prod.fst := by
  induction members with
  | nil => rfl
  | cons member rest ih =>
      obtain ⟨key, value⟩ := member
      rw [PyValue.ofMembers, PyValue.keys, List.filterMap_cons, List.map_cons, ← ih]
      rfl

mutual

/-- The dictionaries of an object have every key once, as JSON. -/
theorem distinct_ofJson : (value : Json) → (PyValue.ofJson value).Distinct → value.Distinct
  | .null, _ | .bool _, _ | .int _, _ | .str _, _ => trivial
  | .arr items, distinct => distinct_ofItems items distinct
  | .obj members, distinct =>
      ⟨keys_ofMembers members ▸ distinct.1, distinct_ofMembers members distinct.2⟩

theorem distinct_ofItems : (items : List Json)
    → PyValue.DistinctItems (PyValue.ofItems items) → Json.DistinctItems items
  | [], _ => trivial
  | item :: rest, distinct => ⟨distinct_ofJson item distinct.1, distinct_ofItems rest distinct.2⟩

theorem distinct_ofMembers : (members : List (Text × Json))
    → PyValue.DistinctMembers (PyValue.ofMembers members) → Json.DistinctMembers members
  | [], _ => trivial
  | (_, value) :: rest, distinct =>
      ⟨distinct_ofJson value distinct.1, distinct_ofMembers rest distinct.2⟩

end

/-- What an envelope encodes: a JSON value, whose text it holds. -/
theorem encodeEnvelope_eq_ok {name : Text} {object : PyObject} {envelope : CanonicalEnvelope sha256}
    (encoded : encodeEnvelope sha256 name object = .ok envelope)
    : envelope.name = name ∧ ∃ value : Json, object.value = .ofJson value ∧ value.Distinct
      ∧ envelope.data = value.dumps.utf8 := by
  obtain ⟨data, written, encoded⟩ := bind_ok.mp encoded
  obtain ⟨_, encoded⟩ := check_ok.mp encoded
  simp only [canonical, check_ok] at written
  obtain ⟨accepted, _, same⟩ := written
  have json := ofJson_of_scalar object.value 0 accepted
  have distinct := distinct_ofJson object.value.json (json.symm ▸ object.distinct)
  unfold CanonicalEnvelope.of at encoded
  dsimp only at encoded
  split at encoded
  next value decoded =>
    cases encoded
    exact ⟨rfl, object.value.json, json.symm, distinct, (Except.ok.inj same).symm⟩
  next => cases encoded

theorem envelopeNamed_agrees {name : Text}
    : envelopeNamed sha256 name data digest = .ok value
      ↔ decodeEnvelope sha256 name data (some digest) = .ok value := by
  unfold envelopeNamed decodeEnvelope
  cases EnvelopeName.ofText name with
  | some known => exact envelope_agrees
  | none => simp

end Scanipy.Services.Scan.OccurrenceStore.Codec

import Scanipy.Analysis.Ifds.BoundedJson
import Scanipy.Services.Scan.AcceptedInputs.Schemas

/-! Canonical JSON of accepted inputs: the walk that bounds a value before it is written, the
writer, and the reader.
-/

namespace Scanipy.Services.Scan.AcceptedInputs

open Library Python
open Analysis.Ifds (BoundRuleError JsonLimits InRange decodeBoundedJson)

/-- The bytes that `_primitive_budget` counts for a character. -/
def characterSize (point : CodePoint) : Nat :=
  if point.val ∈ [0x22, 0x5C, 0x08, 0x0C, 0x0A, 0x0D, 0x09] then 2
  else if point.val < 32 then 6
  else if point.val < 128 then 1
  else if point.val < 2048 then 2
  else if point.val < 65536 then 3
  else 4

/-- An item of the walk: its parts, the last one first, and the bytes of its own. -/
def expand (remaining pending depth : Nat)
    : Json → Except VerificationError (List (Json × Nat) × Nat)
  | .null => .ok ([], 4)
  | .bool value => .ok ([], if value then 4 else 5)
  | .int value => do
      demand (InRange value) .invalidInput
      .ok ([], (Json.numeral value).length)
  | .str value => do
      text value maxString false
      .ok ([], 2 + (value.map characterSize).sum)
  | .arr items => do
      demand (items.length + pending ≤ remaining) .invalidInput
      .ok ((items.map fun item => (item, depth + 1)).reverse, 2 + (items.length - 1))
  | .obj members => do
      demand (members.length * 2 + pending ≤ remaining) .invalidInput
      .ok ((members.flatMap fun member =>
          [(.str member.1, depth + 1), (member.2, depth + 1)]).reverse,
        2 + members.length + (members.length - 1))

/-- The loop of `_primitive_budget`: every round counts one value, so the count that is left
decreases.
-/
def budgetLoop (maximumBytes : Nat) : Nat → List (Json × Nat) → Nat → Except VerificationError Nat
  | remaining, [], _ => .ok remaining
  | 0, _ :: _, _ => .error .invalidInput
  | remaining + 1, (item, depth) :: pending, encoded => do
      demand (depth ≤ maxDepth) .invalidInput
      let (parts, written) ← expand remaining pending.length depth item
      demand (encoded + written ≤ maximumBytes) .invalidInput
      budgetLoop maximumBytes remaining (parts ++ pending) (encoded + written)

/-- `_primitive_budget` with the default number of values: the number of values. -/
def primitiveBudget (value : Json) (maximumBytes : Nat) : Except VerificationError Nat := do
  demand (maximumBytes ≤ maxContent) .invalidInput
  let remaining ← budgetLoop maximumBytes maxValues [(value, 0)] 0
  .ok (maxValues - remaining)

/-- `canonical_bytes`. -/
def canonicalBytes (value : Json) (maximum : Nat) : Except VerificationError Bytes := do
  let _ ← primitiveBudget value maximum
  match value.dumps.encode with
  | none => .error .invalidInput
  | some data => do
      demand (data.length ≤ maximum) .invalidInput
      .ok data

/-- The limits of the reader. -/
def readerLimits (maximum : Nat) : JsonLimits :=
  ⟨maximum, maxDepth, maxValues, maxString⟩

/-- The bytes are the canonical ones of the value. -/
def needCanonical (value : Json) (data : Bytes) (maximum : Nat) : Except VerificationError Unit := do
  let written ← canonicalBytes value maximum
  demand (written = data) .invalidInput

/-- `parse_json`. -/
def parseJson (data : Bytes) (maximum : Nat) (canonical : Bool) : Except VerificationError Json :=
  match decodeBoundedJson data (readerLimits maximum) with
  | .error _ => .error .invalidInput
  | .ok value =>
      (if canonical then needCanonical value data maximum else .ok ()) >>= fun _ => .ok value

-- What is written

theorem characterSize_eq (point : CodePoint)
    : characterSize point = point.utf8.length + Json.escapeCost point := by
  have narrow : point.val < 0x80 → point.utf8.length = 1 := by
    intro small
    simp [CodePoint.utf8, small]
  unfold characterSize Json.escapeCost
  split_ifs with special control ascii two three
  · have small : point.val < 0x80 := by
      simp only [List.mem_cons, List.not_mem_nil, or_false] at special
      omega
    rw [narrow small]
  · rw [narrow (by omega)]
  · rw [narrow ascii]
  · simp [CodePoint.utf8, ascii, two]
  · simp [CodePoint.utf8, ascii, two, three]
  · simp [CodePoint.utf8, ascii, two, three]

theorem stringSize_eq (value : Text)
    : 2 + (value.map characterSize).sum = Json.quoteCost value := by
  have body : (value.map characterSize).sum
      = value.utf8.length + (value.map Json.escapeCost).sum := by
    induction value with
    | nil => rfl
    | cons point rest ih =>
        have tail : Text.utf8 (point :: rest) = point.utf8 ++ Text.utf8 rest := by
          simp [Text.utf8]
        rw [List.map_cons, List.sum_cons, ih, characterSize_eq, tail, List.length_append,
          List.map_cons, List.sum_cons]
        omega
  rw [body, Json.quoteCost]
  omega

/-- A token that the walk accepts. -/
def Written (entry : Json.Token × Nat) : Prop :=
  entry.2 ≤ maxDepth
  ∧ match entry.1 with
    | .int value => InRange value
    | .str value => TextFits maxString value
    | .null | .bool _ | .arr _ | .obj _ => True

/-- The tokens of the pending items. -/
def pendingTokens (pending : List (Json × Nat)) : List (Json.Token × Nat) :=
  pending.flatMap fun entry => entry.1.tokens entry.2

theorem pendingTokens_append (first second : List (Json × Nat))
    : pendingTokens (first ++ second) = pendingTokens first ++ pendingTokens second :=
  List.flatMap_append

variable {remaining pending depth : Nat} {item : Json}

/-- An item is replaced by its own token and its parts. -/
theorem expand_ok {written : Nat} {parts : List (Json × Nat)}
    (ran : expand remaining pending depth item = .ok (parts, written))
    : ∃ token, (item.tokens depth).Perm ((token, depth) :: pendingTokens parts)
        ∧ token.cost = written
        ∧ (depth ≤ maxDepth → Written (token, depth)) := by
  cases item with
  | null =>
      cases ran
      exact ⟨.null, .refl _, rfl, fun shallow => ⟨shallow, trivial⟩⟩
  | bool value =>
      cases ran
      exact ⟨.bool value, .refl _, rfl, fun shallow => ⟨shallow, trivial⟩⟩
  | int value =>
      simp only [expand, check_ok, demand_ok] at ran
      obtain ⟨range, done⟩ := ran
      cases done
      exact ⟨.int value, .refl _, rfl, fun shallow => ⟨shallow, range⟩⟩
  | str value =>
      simp only [expand, check_ok, text_ok] at ran
      obtain ⟨fits, done⟩ := ran
      cases done
      exact ⟨.str value, .refl _, (stringSize_eq value).symm, fun shallow => ⟨shallow, fits⟩⟩
  | arr items =>
      simp only [expand, check_ok, demand_ok] at ran
      obtain ⟨_, done⟩ := ran
      cases done
      refine ⟨.arr items.length, .cons _ ?_, rfl, fun shallow => ⟨shallow, trivial⟩⟩
      have parts := ((items.map fun item => (item, depth + 1)).reverse_perm.flatMap_right
        fun entry : Json × Nat => entry.1.tokens entry.2).symm
      rw [List.flatMap_map] at parts
      rw [Json.tokensItems_eq]
      exact parts
  | obj members =>
      simp only [expand, check_ok, demand_ok] at ran
      obtain ⟨_, done⟩ := ran
      cases done
      refine ⟨.obj members.length, .cons _ ?_, rfl, fun shallow => ⟨shallow, trivial⟩⟩
      have parts := ((members.flatMap fun member : Text × Json =>
        [(Json.str member.1, depth + 1), (member.2, depth + 1)]).reverse_perm.flatMap_right
          fun entry : Json × Nat => entry.1.tokens entry.2).symm
      rw [List.flatMap_assoc] at parts
      have each : (fun member : Text × Json => [(Json.str member.1, depth + 1),
            (member.2, depth + 1)].flatMap fun entry => entry.1.tokens entry.2)
          = Json.memberTokens (depth + 1) := by
        funext member
        simp [Json.memberTokens, Json.tokens]
      rw [each] at parts
      rw [Json.tokensMembers_eq]
      exact parts

/-- An item whose own token is accepted is expanded where its tokens are still within the count. -/
theorem exists_expand (accepted : ∀ entry ∈ item.tokens depth, Written entry)
    (counted : (item.tokens depth).length + pending ≤ remaining + 1)
    : ∃ parts written, expand remaining pending depth item = .ok (parts, written) := by
  cases item with
  | null | bool _ => exact ⟨_, _, rfl⟩
  | int value =>
      have range := (accepted _ List.mem_cons_self).2
      exact ⟨_, _, check_ok.mpr ⟨demand_ok.mpr range, rfl⟩⟩
  | str value =>
      have fits := (accepted _ List.mem_cons_self).2
      exact ⟨_, _, check_ok.mpr ⟨text_ok.mpr fits, rfl⟩⟩
  | arr items =>
      have inside := Json.length_le_tokensItems (depth + 1) items
      rw [Json.tokens, List.length_cons] at counted
      exact ⟨_, _, check_ok.mpr ⟨demand_ok.mpr (by omega), rfl⟩⟩
  | obj members =>
      have inside := Json.length_le_tokensMembers (depth + 1) members
      rw [Json.tokens, List.length_cons] at counted
      exact ⟨_, _, check_ok.mpr ⟨demand_ok.mpr (by omega), rfl⟩⟩

/-- The walk accepts the pending items just when their tokens are accepted, within the count and
the bytes. By induction on the count.
-/
theorem budgetLoop_ok {maximumBytes encoded left : Nat} {pending : List (Json × Nat)}
    (within : encoded ≤ maximumBytes)
    : budgetLoop maximumBytes remaining pending encoded = .ok left
      ↔ (pendingTokens pending).length + left = remaining
        ∧ (∀ entry ∈ pendingTokens pending, Written entry)
        ∧ encoded + Json.cost (pendingTokens pending) ≤ maximumBytes := by
  induction remaining generalizing pending encoded with
  | zero =>
      cases pending with
      | nil => simp [budgetLoop, pendingTokens, within, eq_comm]
      | cons item rest =>
          obtain ⟨item, depth⟩ := item
          have positive := Json.length_tokens_pos depth item
          simp only [budgetLoop, pendingTokens, List.flatMap_cons, List.length_append, reduceCtorEq,
            false_iff]
          omega
  | succ remaining ih =>
      cases pending with
      | nil => simp [budgetLoop, pendingTokens, within, eq_comm]
      | cons item rest =>
          obtain ⟨item, depth⟩ := item
          have listed : pendingTokens ((item, depth) :: rest)
              = item.tokens depth ++ pendingTokens rest := List.flatMap_cons
          have more : rest.length ≤ (pendingTokens rest).length := by
            clear ih within listed
            induction rest with
            | nil => exact Nat.zero_le _
            | cons head tail shorter =>
                have positive := Json.length_tokens_pos head.2 head.1
                rw [pendingTokens, List.flatMap_cons, List.length_append, List.length_cons]
                rw [pendingTokens] at shorter
                omega
          have traded {token : Json.Token} {parts : List (Json × Nat)}
              (perm : (item.tokens depth).Perm ((token, depth) :: pendingTokens parts))
              : (item.tokens depth ++ pendingTokens rest).Perm
                  ((token, depth) :: pendingTokens (parts ++ rest)) := by
            rw [pendingTokens_append]
            exact perm.append_right _
          rw [listed, budgetLoop, check_ok, demand_ok]
          constructor
          · rintro ⟨shallow, ran⟩
            obtain ⟨⟨parts, written⟩, expanded, ran⟩ := bind_ok.mp ran
            simp only [check_ok, demand_ok] at ran
            obtain ⟨token, perm, cost, accepted⟩ := expand_ok expanded
            obtain ⟨short, ran⟩ := ran
            obtain ⟨counted, others, spent⟩ := (ih short).mp ran
            rw [(traded perm).length_eq, Json.cost_perm (traded perm), Json.cost_cons, cost,
              List.length_cons]
            refine ⟨by omega, fun entry found => ?_, by omega⟩
            rcases List.mem_cons.mp ((traded perm).mem_iff.mp found) with rfl | later
            · exact accepted shallow
            · exact others entry later
          · rintro ⟨counted, accepted, short⟩
            rw [List.length_append] at counted
            obtain ⟨parts, written, expanded⟩
                : ∃ parts written, expand remaining rest.length depth item = .ok (parts, written) :=
              exists_expand (fun entry found => accepted entry (List.mem_append_left _ found))
                (by omega)
            obtain ⟨token, perm, cost, _⟩ := expand_ok expanded
            have own := accepted (token, depth) ((traded perm).mem_iff.mpr List.mem_cons_self)
            rw [Json.cost_perm (traded perm), Json.cost_cons, cost] at short
            rw [← List.length_append, (traded perm).length_eq, List.length_cons] at counted
            refine ⟨own.1, bind_ok.mpr ⟨_, expanded, ?_⟩⟩
            simp only [check_ok, demand_ok]
            refine ⟨by omega, (ih (by omega)).mpr ⟨by omega, fun entry found => ?_, by omega⟩⟩
            exact accepted entry ((traded perm).mem_iff.mpr (List.mem_cons_of_mem _ found))

/-- A value that is written within a maximum. -/
structure Writable (maximum : Nat) (value : Json) : Prop where
  content : maximum ≤ maxContent
  values : (value.tokens 0).length ≤ maxValues
  tokens : ∀ entry ∈ value.tokens 0, Written entry
  bytes : value.dumps.utf8.length ≤ maximum

variable {maximum : Nat} {value : Json}

theorem Writable.encodable (writable : Writable maximum value)
    : value.dumps.Encodable := by
  apply Json.dumps_encodable
  apply Json.encodable_of_leaves
  intro string listed
  obtain ⟨entry, found, same⟩ := List.mem_map.mp listed
  have written := (writable.tokens entry found).2
  rw [same] at written
  exact written.1

theorem primitiveBudget_ok {count : Nat}
    : primitiveBudget value maximum = .ok count
      ↔ Writable maximum value ∧ (value.tokens 0).length = count := by
  have single : pendingTokens [(value, 0)] = value.tokens 0 := by simp [pendingTokens]
  rw [primitiveBudget, check_ok, demand_ok, bind_ok]
  simp only [budgetLoop_ok (Nat.zero_le maximum), single, Except.ok.injEq,
    ← Json.length_utf8_dumps 0 value]
  constructor
  · rintro ⟨content, remaining, ⟨counted, accepted, short⟩, done⟩
    exact ⟨⟨content, by omega, accepted, by omega⟩, by omega⟩
  · rintro ⟨⟨content, counted, accepted, short⟩, rfl⟩
    exact ⟨content, maxValues - (value.tokens 0).length, ⟨by omega, accepted, by omega⟩, by omega⟩

variable {data : Bytes}

theorem canonicalBytes_ok_iff
    : canonicalBytes value maximum = .ok data
      ↔ Writable maximum value ∧ value.dumps.utf8 = data := by
  simp only [canonicalBytes, bind_ok, primitiveBudget_ok]
  constructor
  · rintro ⟨count, ⟨writable, _⟩, ran⟩
    rw [Text.encode, if_pos writable.encodable] at ran
    simp only [check_ok] at ran
    exact ⟨writable, Except.ok.inj ran.2⟩
  · rintro ⟨writable, rfl⟩
    refine ⟨_, ⟨writable, rfl⟩, ?_⟩
    rw [Text.encode, if_pos writable.encodable]
    exact check_ok.mpr ⟨demand_ok.mpr writable.bytes, rfl⟩

-- What is read back

/-- A list or a dictionary. -/
def IsContainer : Json.Token → Prop
  | .arr _ | .obj _ => True
  | .null | .bool _ | .int _ | .str _ => False

instance (token : Json.Token) : Decidable (IsContainer token) :=
  match token with
  | .arr _ | .obj _ => isTrue trivial
  | .null | .bool _ | .int _ | .str _ => isFalse id

/-- No container stands inside as many others as the reader allows brackets. -/
def Nested (value : Json) : Prop :=
  ∀ entry ∈ value.tokens 0, IsContainer entry.1 → entry.2 < maxDepth

theorem nested_iff
    : Nested value ↔ ∀ entry ∈ value.tokens 0, Analysis.Ifds.Shallow (readerLimits maximum) entry := by
  apply forall₂_congr
  rintro ⟨token, depth⟩ _
  cases token <;> simp [IsContainer, Analysis.Ifds.Shallow, readerLimits]

theorem Writable.sortKeys (writable : Writable maximum value)
    : Writable maximum value.sortKeys := by
  have perm := Json.tokens_sortKeys 0 value
  refine ⟨writable.content, perm.length_eq ▸ writable.values, fun entry listed => ?_, ?_⟩
  · exact writable.tokens entry (perm.mem_iff.mp listed)
  · rw [Json.dumps_sortKeys]
    exact writable.bytes

theorem nested_sortKeys : Nested value.sortKeys ↔ Nested value := by
  have perm := Json.tokens_sortKeys 0 value
  unfold Nested
  simp only [perm.mem_iff]

/-- What is written is within the limits of the reader, the nesting apart. -/
theorem Writable.bounded (writable : Writable maximum value)
    : Analysis.Ifds.Bounded (readerLimits maximum) value := by
  refine ⟨writable.bytes, ?_, ?_, ?_⟩
  · rw [Json.length_leaves 0]
    exact writable.values
  · rw [Json.forall_leaves_iff 0]
    rintro ⟨token, depth⟩ listed
    have written := (writable.tokens _ listed).2
    cases token <;> first | exact written | trivial
  · rw [Json.forall_leaves_iff 0]
    rintro ⟨token, depth⟩ listed
    have written := (writable.tokens _ listed).2
    cases token <;> first | exact written | trivial

/-- The canonical text of a written value is read just when the value is not nested too deeply. -/
theorem parseJson_dumps (canonical : value.Canonical) (writable : Writable maximum value)
    (check : Bool)
    : parseJson value.dumps.utf8 maximum check = .ok value ↔ Nested value := by
  have again : canonicalBytes value maximum = .ok value.dumps.utf8 :=
    canonicalBytes_ok_iff.mpr ⟨writable, rfl⟩
  have decoded := Analysis.Ifds.decodeBoundedJson_dumps canonical writable.bounded
  rw [nested_iff, ← decoded, parseJson]
  cases ran : decodeBoundedJson value.dumps.utf8 (readerLimits maximum) with
  | error raised => simp
  | ok found =>
      constructor
      · intro read
        obtain ⟨_, _, done⟩ := bind_ok.mp read
        rw [Except.ok.inj done]
      · intro same
        cases same
        have checked : needCanonical value value.dumps.utf8 maximum = .ok () := by
          simp [needCanonical, again, demand, ok_bind]
        cases check <;> simp [checked, ok_bind]

theorem canonicalBytes_of_parseJson (read : parseJson data maximum true = .ok value)
    : canonicalBytes value maximum = .ok data := by
  rw [parseJson] at read
  split at read
  · cases read
  · obtain ⟨_, checked, done⟩ := bind_ok.mp read
    cases done
    simp only [if_true, needCanonical, bind_ok, demand_ok] at checked
    obtain ⟨written, ran, rfl⟩ := checked
    exact ran

/-- What the writer returns reads back to the same value just when no container stands inside 32
others, and what the reader accepts is written back to the same bytes.
-/
theorem canonical_json_read_back (value : Json) (dictionary : value.Distinct) (maximum : Nat)
    : (∀ data, canonicalBytes value maximum = .ok data
        → (parseJson data maximum true = .ok value.sortKeys ↔ Nested value))
      ∧ ∀ data, parseJson data maximum true = .ok value
        → canonicalBytes value maximum = .ok data := by
  refine ⟨?_, fun data read => canonicalBytes_of_parseJson read⟩
  intro data written
  obtain ⟨writable, rfl⟩ := canonicalBytes_ok_iff.mp written
  rw [← Json.dumps_sortKeys,
    parseJson_dumps (Json.canonical_sortKeys value dictionary) writable.sortKeys, nested_sortKeys]

/-- Lists inside each other. -/
def nestedLists : Nat → Json
  | 0 => .arr []
  | depth + 1 => .arr [nestedLists depth]

/-- A list in a dictionary is written and read back. -/
theorem canonical_json_read_back_pair
    : let value : Json := .obj [(py "b", .arr [.int 1]), (py "a", .null)]
      ∃ data, canonicalBytes value maxObject = .ok data
        ∧ parseJson data maxObject true = .ok (.obj [(py "a", .null), (py "b", .arr [.int 1])]) := by
  refine ⟨pyb "\x7b\"a\":null,\"b\":[1]\x7d", ?_, ?_⟩
  · decide
  · refine ((canonical_json_read_back (.obj [(py "b", .arr [.int 1]), (py "a", .null)]) ?_
      maxObject).1 _ ?_).mpr ?_
    · simp
      decide
    · decide
    · unfold Nested
      decide

/-- Thirty-three lists inside each other are written, and not read back. -/
theorem nested_lists_not_read_back
    : ∃ value : Json, ∃ data, value.Distinct ∧ canonicalBytes value maxObject = .ok data
        ∧ parseJson data maxObject true = .error .invalidInput := by
  refine ⟨nestedLists 32, (nestedLists 32).dumps.utf8, ?_, ?_, ?_⟩
  · simp [nestedLists]
  · decide
  · decide

end Scanipy.Services.Scan.AcceptedInputs

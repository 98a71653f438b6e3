import Scanipy.Python.JsonTokens
import Scanipy.Python.Utf8

/-! Bounded JSON: a scanner that limits the nesting, the tokens and the extent of strings before
the text is parsed, and the checks of strings afterwards.
-/

namespace Scanipy.Analysis.Ifds

open Library Python

/-- `BoundRuleError`, by its code. A text that does not parse raises one code for bad numbers,
repeated keys and everything else; no caller tells them apart.
-/
inductive BoundRuleError where
  | byteLimit
  | depthLimit
  | valueLimit
  | stringLimit
  | invalidJson
  | invalidString
  | invalidFields
  | invalidId
  | invalidDigest
  | invalidVersion
  | invalidUuid
  | invalidScope
  | unknownKeySchema
  | noncanonicalKey
  deriving DecidableEq, Repr

/-- The limits of `decode_bounded_json`. -/
structure JsonLimits where
  bytes : Nat
  depth : Nat
  values : Nat
  stringBytes : Nat
  deriving DecidableEq, Repr

/-- The variables of `_preflight_json`. -/
structure Preflight where
  depth : Nat
  count : Nat
  extent : Nat
  quoted : Bool
  escaped : Bool
  atom : Bool
  deriving DecidableEq, Repr

section Scanner

variable (limits : JsonLimits)

/-- A byte inside a string. -/
def preflightQuoted (state : Preflight) (byte : Byte) : Except BoundRuleError Preflight := do
  let extent := state.extent + 1
  demand (extent ≤ limits.stringBytes * 6 + 1) .stringLimit
  if state.escaped then .ok { state with extent := extent, escaped := false }
  else if byte.val = 92 then .ok { state with extent := extent, escaped := true }
  else if byte.val = 34 then .ok { state with extent := extent, quoted := false }
  else .ok { state with extent := extent }

/-- A byte that starts, continues or ends a token. -/
def preflightToken (state : Preflight) (byte : Byte) : Except BoundRuleError Preflight :=
  if byte.val = 34 then
    .ok { state with quoted := true, extent := 0, count := state.count + 1, atom := false }
  else if byte.val = 91 ∨ byte.val = 123 then do
    demand (state.depth + 1 ≤ limits.depth) .depthLimit
    .ok { state with depth := state.depth + 1, count := state.count + 1, atom := false }
  else if byte.val = 93 ∨ byte.val = 125 then do
    demand (0 < state.depth) .invalidJson
    .ok { state with depth := state.depth - 1, atom := false }
  else if state.atom then .ok state
  else .ok { state with count := state.count + 1, atom := true }

/-- `byte in b" \r\n\t,:"`. -/
def Separates (byte : Byte) : Prop :=
  byte.val ∈ [32, 13, 10, 9, 44, 58]

instance (byte : Byte) : Decidable (Separates byte) :=
  inferInstanceAs (Decidable (_ ∈ _))

def preflightByte (state : Preflight) (byte : Byte) : Except BoundRuleError Preflight :=
  if state.quoted then preflightQuoted limits state byte
  else if Separates byte then .ok { state with atom := false }
  else do
    let next ← preflightToken limits state byte
    demand (next.count ≤ limits.values) .valueLimit
    .ok next

def preflightStart : Preflight :=
  ⟨0, 0, 0, false, false, false⟩

/-- `_preflight_json`. -/
def preflightJson (data : Bytes) : Except BoundRuleError Unit := do
  let _ ← data.foldlM (preflightByte limits) preflightStart
  .ok ()

end Scanner

/-- `_unique_object`. -/
def uniqueObject (members : List (Text × Json)) : Except BoundRuleError (List (Text × Json)) := do
  demand (members.map Prod.fst).Nodup .invalidJson
  .ok members

/-- `_checked_string` once the type is known. -/
def checkedString (maximum : Nat) (text : Text) : Except BoundRuleError Unit := do
  demand (text.length ≤ maximum) .stringLimit
  demand (text.all fun point => point.val ≠ 0) .invalidString
  demand text.Encodable .invalidString
  demand (text.utf8.length ≤ maximum) .stringLimit

/-- The range of `_integer`. -/
def InRange (number : Int) : Prop :=
  -(2 ^ 63) ≤ number ∧ number < 2 ^ 63

instance (number : Int) : Decidable (InRange number) :=
  inferInstanceAs (Decidable (_ ∧ _))

/-- The tokens whose numbers `_integer` accepts. -/
def SmallNumber : Json.Token → Prop
  | .int number => InRange number
  | _ => True

instance (token : Json.Token) : Decidable (SmallNumber token) :=
  match token with
  | .int number => inferInstanceAs (Decidable (InRange number))
  | .null | .bool _ | .str _ | .arr _ | .obj _ => isTrue trivial

/-- The strings and keys of the pending values, the last one first. Every round takes a token, so
their number is fuel enough.
-/
def checkStrings (maximum : Nat) : Nat → List Json → Except BoundRuleError Unit
  | _, [] => .ok ()
  | 0, _ :: _ => .error .invalidJson
  | fuel + 1, .str text :: pending => do
      checkedString maximum text
      checkStrings maximum fuel pending
  | fuel + 1, .arr items :: pending => checkStrings maximum fuel (items.reverse ++ pending)
  | fuel + 1, .obj members :: pending => do
      Metered.visit (fun member : Text × Json => checkedString maximum member.1) members
      checkStrings maximum fuel ((members.map Prod.snd).reverse ++ pending)
  | fuel + 1, .null :: pending | fuel + 1, .bool _ :: pending | fuel + 1, .int _ :: pending =>
      checkStrings maximum fuel pending

/-- `json.loads` with the hooks, inside the `try`; numbers are checked behind it. -/
def parseBounded (data : Bytes) : Except BoundRuleError Json := do
  let value ← match Text.decode data with
    | none => .error .invalidJson
    | some text => Json.loads uniqueObject .invalidJson text
  demand (∀ token ∈ value.leaves, SmallNumber token) .invalidJson
  .ok value

/-- `decode_bounded_json`. -/
def decodeBoundedJson (data : Bytes) (limits : JsonLimits) : Except BoundRuleError Json := do
  demand (data.length ≤ limits.bytes) .byteLimit
  preflightJson limits data
  let value ← parseBounded data
  checkStrings limits.stringBytes value.leaves.length [value]
  .ok value

-- Canonical text passes the scanner

variable {before after : Preflight} {byte : Byte} {text : Text} {value : Json} {data : Bytes}

section Passing

variable {limits : JsonLimits}

/-- The scanner comes from the first state to the second over the bytes. -/
def Passes (limits : JsonLimits) (data : Bytes) (before after : Preflight) : Prop :=
  data.foldlM (preflightByte limits) before = .ok after

theorem passes_nil (state : Preflight) : Passes limits [] state state :=
  rfl

theorem passes_append {first second : Bytes}
    : Passes limits (first ++ second) before after
      ↔ ∃ middle, Passes limits first before middle ∧ Passes limits second middle after := by
  unfold Passes
  rw [List.foldlM_append]
  exact bind_ok

theorem passes_cons {rest : Bytes}
    : Passes limits (byte :: rest) before after
      ↔ ∃ middle, preflightByte limits before byte = .ok middle
          ∧ Passes limits rest middle after := by
  unfold Passes
  rw [List.foldlM_cons]
  exact bind_ok

theorem passes_single
    : Passes limits [byte] before after ↔ preflightByte limits before byte = .ok after := by
  rw [passes_cons]
  constructor
  · rintro ⟨middle, stepped, done⟩
    cases done
    exact stepped
  · intro stepped
    exact ⟨after, stepped, rfl⟩

-- Strings: every byte is inside, and the extent is the length of the written text.

/-- Inside a string, at an extent. -/
def inside (depth count extent : Nat) : Preflight :=
  ⟨depth, count, extent, true, false, false⟩

variable {depth count : Nat}

theorem passes_quotable (quotable : Json.Quotable data) {extent : Nat}
    (short : extent + data.length ≤ limits.stringBytes * 6 + 1)
    : Passes limits data (inside depth count extent) (inside depth count (extent + data.length)) := by
  induction quotable generalizing extent with
  | nil => exact passes_nil _
  | @plain byte rest plain _ ih =>
      rw [List.length_cons] at short
      have stepped : preflightByte limits (inside depth count extent) byte
          = .ok (inside depth count (extent + 1)) := by
        simp [preflightByte, preflightQuoted, inside, demand, plain.1, plain.2.1,
          show extent + 1 ≤ limits.stringBytes * 6 + 1 by omega, ok_bind]
      have more : Passes limits rest (inside depth count (extent + 1))
          (inside depth count (extent + 1 + rest.length)) :=
        ih (by omega)
      rw [List.length_cons, show extent + (rest.length + 1) = extent + 1 + rest.length by omega]
      exact passes_cons.mpr ⟨_, stepped, more⟩
  | @pair letter rest _ ih =>
      rw [List.length_cons, List.length_cons] at short
      have more : Passes limits rest (inside depth count (extent + 2))
          (inside depth count (extent + 2 + rest.length)) :=
        ih (by omega)
      rw [List.length_cons, List.length_cons,
        show extent + (rest.length + 1 + 1) = extent + 2 + rest.length by omega]
      refine passes_cons.mpr ⟨⟨depth, count, extent + 1, true, true, false⟩, ?_,
        passes_cons.mpr ⟨_, ?_, more⟩⟩
      · simp [preflightByte, preflightQuoted, inside, demand,
          show extent + 1 ≤ limits.stringBytes * 6 + 1 by omega, ok_bind]
      · simp [preflightByte, preflightQuoted, inside, demand,
          show extent + 2 ≤ limits.stringBytes * 6 + 1 by omega, ok_bind]

/-- Between tokens, at a depth, after a count. -/
structure Ready (depth count : Nat) (state : Preflight) : Prop where
  depth : state.depth = depth
  count : state.count = count
  quoted : state.quoted = false
  escaped : state.escaped = false

/-- The written text of a string is at most six times as long as its bytes. -/
theorem length_utf8_escaped_le (text : Text)
    : (Text.utf8 (text.flatMap Json.escape)).length ≤ 6 * text.utf8.length := by
  induction text with
  | nil => simp [Text.utf8]
  | cons point rest ih =>
      have head := Json.length_utf8_escape point
      have extra : Json.escapeCost point ≤ 5 := by
        unfold Json.escapeCost
        split_ifs <;> omega
      have present := List.length_pos_of_ne_nil point.utf8_ne_nil
      have tail : Text.utf8 (point :: rest) = point.utf8 ++ Text.utf8 rest := by
        simp [Text.utf8]
      rw [List.flatMap_cons, Text.utf8_append, List.length_append, tail, List.length_append]
      omega

variable {state : Preflight}

theorem passes_quote (short : text.utf8.length ≤ limits.stringBytes)
    (ready : Ready depth count state) (counted : count + 1 ≤ limits.values)
    : ∃ after, Passes limits (Json.quote text).utf8 state after ∧ Ready depth (count + 1) after := by
  obtain ⟨sameDepth, sameCount, unquoted, unescaped⟩ := ready
  have spelled : (py "\"").utf8 = [Fin.ofNat 256 34] := by decide
  have written := length_utf8_escaped_le text
  have opened : preflightByte limits state (Fin.ofNat 256 34) = .ok (inside depth (count + 1) 0) := by
    simp [preflightByte, preflightToken, unquoted, unescaped, Separates, inside, sameDepth,
      sameCount, demand, counted, ok_bind]
  refine ⟨⟨depth, count + 1, (Text.utf8 (text.flatMap Json.escape)).length + 1, false, false, false⟩,
    ?_, rfl, rfl, rfl, rfl⟩
  rw [Json.quote, Text.utf8_append, Text.utf8_append, spelled]
  refine passes_append.mpr ⟨_, passes_append.mpr ⟨_, passes_single.mpr opened,
    passes_quotable (Json.quotable_escaped text) (by omega)⟩, passes_single.mpr ?_⟩
  simp [preflightByte, preflightQuoted, inside, demand,
    show (Text.utf8 (text.flatMap Json.escape)).length + 1 ≤ limits.stringBytes * 6 + 1 by omega,
    ok_bind]

-- Numbers and literals: one token over bytes that neither separate nor open anything.

/-- A byte of a number or a literal. -/
def Atomic (byte : Byte) : Prop :=
  ¬Separates byte ∧ byte.val ∉ [34, 91, 123, 93, 125]

instance (byte : Byte) : Decidable (Atomic byte) :=
  inferInstanceAs (Decidable (_ ∧ _))

theorem preflightToken_atomic {byte : Byte} (atomic : Atomic byte) (state : Preflight)
    : preflightToken limits state byte
      = .ok (if state.atom then state else { state with count := state.count + 1, atom := true }) := by
  have others := atomic.2
  simp only [List.mem_cons, List.not_mem_nil, or_false, not_or] at others
  obtain ⟨quotation, bracket, brace, closing, closed⟩ := others
  rw [preflightToken, if_neg quotation, if_neg (by omega), if_neg (by omega)]
  split <;> rfl

variable {run : Bytes}

theorem passes_rest (atomic : ∀ byte ∈ run, Atomic byte) (ready : Ready depth count state)
    (counted : count ≤ limits.values) (started : state.atom = true)
    : Passes limits run state state := by
  induction run with
  | nil => exact passes_nil _
  | cons byte rest ih =>
      have first := atomic byte List.mem_cons_self
      have token := @preflightToken_atomic limits _ first state
      refine passes_cons.mpr ⟨state, ?_, ih fun other member =>
        atomic other (List.mem_cons_of_mem _ member)⟩
      rw [if_pos started] at token
      simp [preflightByte, ready.quoted, first.1, token, ok_bind, demand, ready.count, counted]

theorem passes_atom (present : run ≠ []) (atomic : ∀ byte ∈ run, Atomic byte)
    (ready : Ready depth count state) (fresh : state.atom = false)
    (counted : count + 1 ≤ limits.values)
    : ∃ after, Passes limits run state after ∧ Ready depth (count + 1) after := by
  cases run with
  | nil => exact absurd rfl present
  | cons byte rest =>
      have first := atomic byte List.mem_cons_self
      have token := @preflightToken_atomic limits _ first state
      rw [if_neg (by simp [fresh])] at token
      have next : Ready depth (count + 1) { state with count := state.count + 1, atom := true } :=
        ⟨ready.depth, by rw [ready.count], ready.quoted, ready.escaped⟩
      refine ⟨_, passes_cons.mpr ⟨_, ?_, passes_rest (fun other member =>
        atomic other (List.mem_cons_of_mem _ member)) next counted rfl⟩, next⟩
      simp [preflightByte, ready.quoted, first.1, token, ok_bind, demand, ready.count, counted]

/-- The bytes of a numeral are its sign and its digits. -/
theorem atomic_numeral (value : Int) : ∀ byte ∈ (Json.numeral value).utf8, Atomic byte := by
  have ofDigit {point : CodePoint} (digit : Json.IsDigit point ∨ point.val = 0x2D)
      : ∀ byte ∈ point.utf8, Atomic byte := by
    intro byte member
    unfold Json.IsDigit at digit
    have small : point.val < 0x80 := by omega
    simp only [CodePoint.utf8, small, if_true, List.mem_singleton] at member
    have same : byte.val = point.val := by
      rw [member]
      exact val_ofNat_lt (by omega)
    constructor
    · unfold Separates
      simp only [List.mem_cons, List.not_mem_nil, or_false]
      omega
    · simp only [List.mem_cons, List.not_mem_nil, or_false]
      omega
  have spelled : py "-" = [Fin.ofNat 0x110000 0x2D] := by decide
  have points : ∀ point ∈ Json.numeral value, Json.IsDigit point ∨ point.val = 0x2D := by
    intro point member
    cases value with
    | ofNat number => exact .inl ((Json.decimal_shape number).1 point member)
    | negSucc number =>
        rcases List.mem_append.mp member with sign | digit
        · rw [spelled, List.mem_singleton] at sign
          exact .inr (by rw [sign]; rfl)
        · exact .inl ((Json.decimal_shape (number + 1)).1 point digit)
  intro byte member
  obtain ⟨point, listed, found⟩ := List.mem_flatMap.mp member
  exact ofDigit (points point listed) byte found

theorem utf8_numeral_ne_nil (value : Int) : (Json.numeral value).utf8 ≠ [] := by
  intro empty
  have written := congrArg List.length empty
  rw [Json.length_utf8_numeral, List.length_nil] at written
  cases value with
  | ofNat number =>
      obtain ⟨_, _, first, others, same, _⟩ := Json.decimal_shape number
      simp [Json.numeral, same] at written
  | negSucc number => simp [Json.numeral, show (py "-").length = 1 by decide] at written

theorem atomic_literals
    : ((py "null").utf8 ≠ [] ∧ ∀ byte ∈ (py "null").utf8, Atomic byte)
      ∧ ((py "true").utf8 ≠ [] ∧ ∀ byte ∈ (py "true").utf8, Atomic byte)
      ∧ (py "false").utf8 ≠ [] ∧ ∀ byte ∈ (py "false").utf8, Atomic byte := by
  have spelled : (py "null").utf8 = [110, 117, 108, 108].map (Fin.ofNat 256)
      ∧ (py "true").utf8 = [116, 114, 117, 101].map (Fin.ofNat 256)
      ∧ (py "false").utf8 = [102, 97, 108, 115, 101].map (Fin.ofNat 256) := by
    decide
  rw [spelled.1, spelled.2.1, spelled.2.2]
  decide +kernel

theorem passes_separator (separates : Separates byte) (ready : Ready depth count state)
    : ∃ after, Passes limits [byte] state after ∧ Ready depth count after ∧ after.atom = false := by
  refine ⟨{ state with atom := false }, passes_single.mpr ?_,
    ⟨ready.depth, ready.count, ready.quoted, ready.escaped⟩, rfl⟩
  simp [preflightByte, ready.quoted, separates]

theorem passes_open (opens : byte.val = 91 ∨ byte.val = 123) (ready : Ready depth count state)
    (counted : count + 1 ≤ limits.values) (shallow : depth < limits.depth)
    : ∃ after, Passes limits [byte] state after ∧ Ready (depth + 1) (count + 1) after
        ∧ after.atom = false := by
  have notSeparator : ¬Separates byte := by
    unfold Separates
    simp only [List.mem_cons, List.not_mem_nil, or_false]
    omega
  refine ⟨{ state with depth := depth + 1, count := count + 1, atom := false },
    passes_single.mpr ?_, ⟨rfl, rfl, ready.quoted, ready.escaped⟩, rfl⟩
  rw [preflightByte, if_neg (by simp [ready.quoted]), if_neg notSeparator, preflightToken,
    if_neg (by omega), if_pos opens]
  simp [demand, ready.depth, ready.count, counted, ok_bind, Nat.succ_le_of_lt shallow]

theorem shallow_of_passes_open (opens : byte.val = 91 ∨ byte.val = 123)
    (ready : Ready depth count state) (passed : Passes limits [byte] state after)
    : depth < limits.depth := by
  have notSeparator : ¬Separates byte := by
    unfold Separates
    simp only [List.mem_cons, List.not_mem_nil, or_false]
    omega
  rw [passes_single, preflightByte, if_neg (by simp [ready.quoted]), if_neg notSeparator,
    preflightToken, if_neg (by omega), if_pos opens] at passed
  obtain ⟨_, opened, _⟩ := bind_ok.mp passed
  simp only [check_ok, demand_ok, ready.depth] at opened
  omega

theorem passes_close (closes : byte.val = 93 ∨ byte.val = 125)
    (ready : Ready (depth + 1) count state) (counted : count ≤ limits.values)
    : ∃ after, Passes limits [byte] state after ∧ Ready depth count after := by
  have notSeparator : ¬Separates byte := by
    unfold Separates
    simp only [List.mem_cons, List.not_mem_nil, or_false]
    omega
  refine ⟨{ state with depth := depth, atom := false }, passes_single.mpr ?_,
    ⟨rfl, ready.count, ready.quoted, ready.escaped⟩⟩
  rw [preflightByte, if_neg (by simp [ready.quoted]), if_neg notSeparator, preflightToken,
    if_neg (by omega), if_neg (by omega), if_pos closes]
  simp [demand, ready.depth, ready.count, counted, ok_bind]

theorem Passes.unique {first second : Preflight} (left : Passes limits data before first)
    (right : Passes limits data before second)
    : first = second :=
  Except.ok.inj (left.symm.trans right)

-- Texts: what the scanner makes of a text depends on the depths of its containers only.

/-- A container is above the limit of nesting. -/
def Shallow (limits : JsonLimits) (entry : Json.Token × Nat) : Prop :=
  match entry.1 with
  | .arr _ | .obj _ => entry.2 < limits.depth
  | .null | .bool _ | .int _ | .str _ => True

/-- The text counts as the tokens, and passes just when their containers are shallow. -/
def Runs (limits : JsonLimits) (depth : Nat) (text : Text) (found : List (Json.Token × Nat)) : Prop :=
  ∀ count state, Ready depth count state → state.atom = false
    → count + found.length ≤ limits.values
    → ((∀ entry ∈ found, Shallow limits entry)
        → ∃ after, Passes limits text.utf8 state after ∧ Ready depth (count + found.length) after)
      ∧ ∀ after, Passes limits text.utf8 state after → ∀ entry ∈ found, Shallow limits entry

theorem runs_nil (depth : Nat) : Runs limits depth [] [] := by
  intro count state ready _ _
  exact ⟨fun _ => ⟨state, passes_nil state, ready⟩, fun _ _ _ listed => nomatch listed⟩

variable {token : Json.Token}

/-- A text of one token that is no container always passes. -/
theorem runs_scalar (scalar : ∀ depth, Shallow limits (token, depth))
    (runs : ∀ count state, Ready depth count state → state.atom = false → count + 1 ≤ limits.values
      → ∃ after, Passes limits text.utf8 state after ∧ Ready depth (count + 1) after)
    : Runs limits depth text [(token, depth)] := by
  intro count state ready fresh counted
  refine ⟨fun _ => runs count state ready fresh counted, ?_⟩
  intro _ _ entry listed
  rw [List.mem_singleton.mp listed]
  exact scalar depth

theorem runs_separated {depth : Nat} {first second separator : Text} {byte : Byte}
    {left right : List (Json.Token × Nat)} (spelled : separator.utf8 = [byte])
    (separates : Separates byte) (head : Runs limits depth first left)
    (tail : Runs limits depth second right)
    : Runs limits depth (first ++ separator ++ second) (left ++ right) := by
  intro count state ready fresh counted
  rw [List.length_append] at counted
  have firstRuns := head count state ready fresh (by omega)
  have secondRuns (after : Preflight) (between : Ready depth (count + left.length) after)
      (clean : after.atom = false) := tail (count + left.length) after between clean (by omega)
  rw [Text.utf8_append, Text.utf8_append, spelled]
  constructor
  · intro shallow
    obtain ⟨middle, ran, between⟩ :=
      firstRuns.1 fun entry listed => shallow entry (List.mem_append_left _ listed)
    obtain ⟨next, separated, later, clean⟩ := passes_separator separates between
    obtain ⟨after, rest, done⟩ :=
      (secondRuns next later clean).1 fun entry listed => shallow entry (List.mem_append_right _ listed)
    refine ⟨after, passes_append.mpr ⟨next, passes_append.mpr ⟨middle, ran, separated⟩, rest⟩, ?_⟩
    rw [List.length_append, ← Nat.add_assoc]
    exact done
  · intro after passed
    obtain ⟨next, front, rest⟩ := passes_append.mp passed
    obtain ⟨middle, ran, separated⟩ := passes_append.mp front
    have shallow := firstRuns.2 middle ran
    obtain ⟨other, again, between⟩ := firstRuns.1 shallow
    rw [again.unique ran] at between
    obtain ⟨found, step, later, clean⟩ := passes_separator separates between
    rw [step.unique separated] at later clean
    intro entry listed
    rcases List.mem_append.mp listed with inFirst | inSecond
    · exact shallow entry inFirst
    · exact (secondRuns next later clean).2 after rest entry inSecond

theorem runs_enclosed {opening body closing : Text} {first last : Byte}
    {found : List (Json.Token × Nat)} (spelledOpen : opening.utf8 = [first])
    (spelledClose : closing.utf8 = [last])
    (brackets : first.val = 91 ∧ last.val = 93 ∨ first.val = 123 ∧ last.val = 125)
    (container : Shallow limits (token, depth) ↔ depth < limits.depth)
    (inner : Runs limits (depth + 1) body found)
    : Runs limits depth (opening ++ body ++ closing) ((token, depth) :: found) := by
  intro count state ready fresh counted
  rw [List.length_cons] at counted
  have opens : first.val = 91 ∨ first.val = 123 := by omega
  have closes : last.val = 93 ∨ last.val = 125 := by omega
  rw [Text.utf8_append, Text.utf8_append, spelledOpen, spelledClose]
  constructor
  · intro shallow
    have above := container.mp (shallow _ List.mem_cons_self)
    obtain ⟨opened, step, within, clean⟩ := passes_open opens ready (by omega) above
    obtain ⟨middle, ran, between⟩ := (inner (count + 1) opened within clean (by omega)).1
      fun entry listed => shallow entry (List.mem_cons_of_mem _ listed)
    obtain ⟨after, closed, done⟩
        : ∃ after, Passes limits [last] middle after
            ∧ Ready depth (count + 1 + found.length) after :=
      passes_close closes between (by omega)
    refine ⟨after, passes_append.mpr ⟨middle, passes_append.mpr ⟨opened, step, ran⟩, closed⟩, ?_⟩
    rw [List.length_cons, show count + (found.length + 1) = count + 1 + found.length by omega]
    exact done
  · intro after passed
    obtain ⟨middle, front, _⟩ := passes_append.mp passed
    obtain ⟨opened, step, ran⟩ := passes_append.mp front
    have above : depth < limits.depth := shallow_of_passes_open opens ready step
    obtain ⟨again, reached, within, clean⟩
        : ∃ again, Passes limits [first] state again ∧ Ready (depth + 1) (count + 1) again
            ∧ again.atom = false :=
      passes_open opens ready (by omega) above
    rw [reached.unique step] at within clean
    intro entry listed
    rcases List.mem_cons.mp listed with rfl | nested
    · exact container.mpr above
    · exact (inner (count + 1) opened within clean (by omega)).2 middle ran entry nested

/-- A string is within its limit. -/
def ShortString (limits : JsonLimits) (entry : Json.Token × Nat) : Prop :=
  ∀ text, entry.1 = .str text → text.utf8.length ≤ limits.stringBytes

theorem runs_quote (short : text.utf8.length ≤ limits.stringBytes)
    : Runs limits depth (Json.quote text) [(.str text, depth)] :=
  runs_scalar (fun _ => trivial) fun _ _ ready _ counted => passes_quote short ready counted

theorem runs_atom (scalar : ∀ depth, Shallow limits (token, depth)) (present : text.utf8 ≠ [])
    (atomic : ∀ byte ∈ text.utf8, Atomic byte)
    : Runs limits depth text [(token, depth)] :=
  runs_scalar scalar fun _ _ ready fresh counted => passes_atom present atomic ready fresh counted

theorem utf8_marks
    : (py ",").utf8 = [Fin.ofNat 256 44] ∧ (py ":").utf8 = [Fin.ofNat 256 58]
      ∧ (py "[").utf8 = [Fin.ofNat 256 91] ∧ (py "]").utf8 = [Fin.ofNat 256 93]
      ∧ (py "\x7b").utf8 = [Fin.ofNat 256 123] ∧ (py "\x7d").utf8 = [Fin.ofNat 256 125] := by
  decide

mutual

/-- The text of a canonical value counts as its tokens. By recursion on the value. -/
theorem runs_dumps
    : (value : Json) → value.Canonical → (depth : Nat)
      → (∀ entry ∈ value.tokens depth, ShortString limits entry)
      → Runs limits depth value.dumps (value.tokens depth)
  | .null, _, depth, _ => runs_atom (fun _ => trivial) atomic_literals.1.1 atomic_literals.1.2
  | .bool true, _, depth, _ =>
      runs_atom (fun _ => trivial) atomic_literals.2.1.1 atomic_literals.2.1.2
  | .bool false, _, depth, _ =>
      runs_atom (fun _ => trivial) atomic_literals.2.2.1 atomic_literals.2.2.2
  | .int number, _, depth, _ =>
      runs_atom (fun _ => trivial) (utf8_numeral_ne_nil number) (atomic_numeral number)
  | .str text, _, depth, short => runs_quote (short _ List.mem_cons_self text rfl)
  | .arr items, canonical, depth, short => by
      rw [Json.dumps_arr, Json.tokens]
      refine runs_enclosed utf8_marks.2.2.1 utf8_marks.2.2.2.1 (.inl ⟨rfl, rfl⟩) Iff.rfl ?_
      exact runs_items items canonical (depth + 1)
        fun entry listed => short entry (List.mem_cons_of_mem _ listed)
  | .obj members, canonical, depth, short => by
      rw [Json.dumps_obj canonical.1, Json.tokens]
      refine runs_enclosed utf8_marks.2.2.2.2.1 utf8_marks.2.2.2.2.2 (.inr ⟨rfl, rfl⟩) Iff.rfl ?_
      exact runs_members members canonical.2 (depth + 1)
        fun entry listed => short entry (List.mem_cons_of_mem _ listed)

theorem runs_items
    : (items : List Json) → Json.CanonicalItems items → (depth : Nat)
      → (∀ entry ∈ Json.tokensItems depth items, ShortString limits entry)
      → Runs limits depth (Json.commaSeparated (items.map Json.dumps)) (Json.tokensItems depth items)
  | [], _, depth, _ => runs_nil depth
  | [item], canonical, depth, short => by
      rw [Json.tokensItems, Json.tokensItems, List.append_nil] at short ⊢
      exact runs_dumps item canonical.1 depth short
  | item :: next :: rest, canonical, depth, short => by
      rw [Json.tokensItems] at short ⊢
      refine runs_separated utf8_marks.1 (by decide) (runs_dumps item canonical.1 depth
        fun entry listed => short entry (List.mem_append_left _ listed)) ?_
      exact runs_items (next :: rest) canonical.2 depth
        fun entry listed => short entry (List.mem_append_right _ listed)

theorem runs_members
    : (members : List (Text × Json)) → Json.CanonicalMembers members → (depth : Nat)
      → (∀ entry ∈ Json.tokensMembers depth members, ShortString limits entry)
      → Runs limits depth (Json.commaSeparated (members.map Json.dumpsMember))
          (Json.tokensMembers depth members)
  | [], _, depth, _ => runs_nil depth
  | [(key, value)], canonical, depth, short => by
      rw [Json.tokensMembers, Json.tokensMembers, List.append_nil] at short ⊢
      refine @runs_separated _ _ _ _ _ _ [_] _ utf8_marks.2.1 (by decide)
        (runs_quote (short _ List.mem_cons_self key rfl)) ?_
      exact runs_dumps value canonical.1 depth
        fun entry listed => short entry (List.mem_cons_of_mem _ listed)
  | (key, value) :: next :: rest, canonical, depth, short => by
      rw [Json.tokensMembers] at short ⊢
      have member : Runs limits depth (Json.dumpsMember (key, value))
          ((.str key, depth) :: value.tokens depth) := by
        refine @runs_separated _ _ _ _ _ _ [_] _ utf8_marks.2.1 (by decide)
          (runs_quote (short _ List.mem_cons_self key rfl)) ?_
        exact runs_dumps value canonical.1 depth
          fun entry listed => short entry (List.mem_cons_of_mem _ (List.mem_append_left _ listed))
      refine @runs_separated _ _ _ _ _ _ (_ :: _) _ utf8_marks.1 (by decide) member ?_
      exact runs_members (next :: rest) canonical.2 depth
        fun entry listed => short entry (List.mem_cons_of_mem _ (List.mem_append_right _ listed))

end

/-- The canonical text of a value with short strings passes just when the value is shallow. -/
theorem preflightJson_dumps (canonical : value.Canonical)
    (short : ∀ entry ∈ value.tokens 0, ShortString limits entry)
    (counted : (value.tokens 0).length ≤ limits.values)
    : preflightJson limits value.dumps.utf8 = .ok ()
      ↔ ∀ entry ∈ value.tokens 0, Shallow limits entry := by
  have runs := runs_dumps value canonical 0 short 0 preflightStart ⟨rfl, rfl, rfl, rfl⟩ rfl
    (by omega)
  constructor
  · intro passed
    obtain ⟨after, ran, _⟩ := bind_ok.mp passed
    exact runs.2 after ran
  · intro shallow
    obtain ⟨after, ran, _⟩ := runs.1 shallow
    exact bind_ok.mpr ⟨after, ran, rfl⟩

end Passing

-- Canonical text is decoded

/-- The text encodes, holds no NUL, and is within the limit. -/
def CheckedString (maximum : Nat) (text : Text) : Prop :=
  text.Encodable ∧ (∀ point ∈ text, point.val ≠ 0) ∧ text.utf8.length ≤ maximum

variable {maximum : Nat}

theorem checkedString_ok
    : checkedString maximum text = .ok () ↔ CheckedString maximum text := by
  have short := text.length_le_utf8
  simp only [checkedString, check_ok, demand_ok, CheckedString,
    List.all_eq_true, decide_eq_true_eq]
  constructor
  · rintro ⟨_, nonzero, encodable, fits⟩
    exact ⟨encodable, nonzero, fits⟩
  · rintro ⟨encodable, nonzero, fits⟩
    exact ⟨by omega, nonzero, encodable, fits⟩

/-- The string of a token is checked. -/
def StringChecked (maximum : Nat) : Json.Token → Prop
  | .str text => CheckedString maximum text
  | .null | .bool _ | .int _ | .arr _ | .obj _ => True

/-- The keys of an object stand beside the tokens of its values. -/
theorem memberLeaves_perm (members : List (Text × Json))
    : (members.flatMap fun member => .str member.1 :: Json.leaves member.2).Perm
        (members.map (fun member => Json.Token.str member.1)
          ++ members.flatMap fun member => Json.leaves member.2) := by
  induction members with
  | nil => exact .refl _
  | cons member rest ih =>
      simp only [List.flatMap_cons, List.map_cons, List.cons_append]
      refine .cons _ ((ih.append_left _).trans ?_)
      rw [← List.append_assoc, ← List.append_assoc]
      exact List.perm_append_comm.append_right _

/-- All pending strings are checked, by induction on the fuel. -/
theorem checkStrings_ok {fuel : Nat} {pending : List Json}
    (enough : (pending.flatMap Json.leaves).length ≤ fuel)
    : checkStrings maximum fuel pending = .ok ()
      ↔ ∀ token ∈ pending.flatMap Json.leaves, StringChecked maximum token := by
  induction fuel generalizing pending with
  | zero =>
      cases pending with
      | nil => simp [checkStrings]
      | cons value rest =>
          have positive := Json.length_tokens_pos 0 value
          rw [List.flatMap_cons, List.length_append, Json.length_leaves 0] at enough
          omega
  | succ fuel ih =>
      cases pending with
      | nil => simp [checkStrings]
      | cons value rest =>
          rw [List.flatMap_cons] at enough ⊢
          cases value with
          | null | bool _ | int _ =>
              rw [checkStrings, ih (by simpa [Json.leaves, Json.tokens] using enough)]
              simp [Json.leaves, Json.tokens, StringChecked]
          | str text =>
              rw [checkStrings, check_ok, checkedString_ok,
                ih (by simpa [Json.leaves, Json.tokens] using enough)]
              simp [Json.leaves, Json.tokens, StringChecked]
          | arr items =>
              rw [Json.leaves_arr] at enough ⊢
              have perm : ((items.reverse ++ rest).flatMap Json.leaves).Perm
                  (items.flatMap Json.leaves ++ rest.flatMap Json.leaves) := by
                rw [List.flatMap_append]
                exact (items.reverse_perm.flatMap_right _).append_right _
              rw [checkStrings, ih (by
                rw [perm.length_eq]
                simpa using enough)]
              simp only [perm.mem_iff, List.cons_append, List.mem_cons, forall_eq_or_imp,
                StringChecked, true_and]
          | obj members =>
              have perm : (((members.map Prod.snd).reverse ++ rest).flatMap Json.leaves).Perm
                  (members.flatMap (fun member => Json.leaves member.2)
                    ++ rest.flatMap Json.leaves) := by
                have values := ((members.map Prod.snd).reverse_perm).flatMap_right Json.leaves
                rw [List.flatMap_map] at values
                rw [List.flatMap_append]
                exact values.append_right _
              have split := memberLeaves_perm members
              rw [Json.leaves_obj, List.cons_append, List.length_cons, List.length_append,
                split.length_eq, List.length_append] at enough
              rw [Json.leaves_obj, checkStrings, check_ok, visit_ok, ih (by
                rw [perm.length_eq, List.length_append]
                omega)]
              have container : StringChecked maximum (.obj members.length) := trivial
              simp only [checkedString_ok, perm.mem_iff, List.cons_append, List.mem_append,
                List.forall_mem_cons, container, true_and, or_imp, forall_and, split.mem_iff,
                List.forall_mem_map, and_assoc]
              rfl

theorem uniqueObject_keeps : Json.KeepsDistinct uniqueObject := by
  intro members distinct
  simp [uniqueObject, demand, distinct, ok_bind]

theorem uniqueObject_refuses : Json.RefusesRepeated uniqueObject := by
  intro members result kept
  simp only [uniqueObject, check_ok, demand_ok] at kept
  obtain ⟨distinct, done⟩ := kept
  cases done
  exact ⟨rfl, distinct⟩

theorem parseBounded_dumps (canonical : value.Canonical) (encodable : value.Encodable)
    (numbers : ∀ token ∈ value.leaves, SmallNumber token)
    : parseBounded value.dumps.utf8 = .ok value := by
  have read : Json.loads uniqueObject .invalidJson (value.dumps ++ []) = .ok value :=
    Json.loads_dumps uniqueObject_keeps canonical Json.endsNumber_nil rfl
  rw [List.append_nil] at read
  rw [parseBounded, Text.decode_utf8 (Json.dumps_encodable value encodable)]
  simp only [read, ok_bind]
  exact check_ok.mpr ⟨demand_ok.mpr numbers, rfl⟩

/-- A value that is read from its own text has its keys in order. -/
theorem canonical_of_parseBounded (encodable : value.dumps.Encodable)
    (parsed : parseBounded value.dumps.utf8 = .ok value)
    : value.Canonical := by
  rw [parseBounded, Text.decode_utf8 encodable] at parsed
  obtain ⟨found, read, done⟩ := bind_ok.mp parsed
  rw [check_ok] at done
  cases done.2
  exact Json.canonical_of_loads uniqueObject_refuses uniqueObject_keeps read

/-- A value with small numbers and checked strings, within the limits of bytes and values. -/
structure Bounded (limits : JsonLimits) (value : Json) : Prop where
  bytes : value.dumps.utf8.length ≤ limits.bytes
  values : value.leaves.length ≤ limits.values
  numbers : ∀ token ∈ value.leaves, SmallNumber token
  strings : ∀ token ∈ value.leaves, StringChecked limits.stringBytes token

/-- The canonical text of a bounded value is decoded just when the value is shallow. -/
theorem decodeBoundedJson_dumps {limits : JsonLimits} (canonical : value.Canonical)
    (bounded : Bounded limits value)
    : decodeBoundedJson value.dumps.utf8 limits = .ok value
      ↔ ∀ entry ∈ value.tokens 0, Shallow limits entry := by
  have short : ∀ entry ∈ value.tokens 0, ShortString limits entry := by
    intro entry listed text same
    have checked := (Json.forall_leaves_iff 0).mp bounded.strings entry listed
    rw [same] at checked
    exact checked.2.2
  have encodable : value.Encodable := by
    apply Json.encodable_of_leaves
    intro text listed
    exact (bounded.strings _ listed).1
  have parsed := parseBounded_dumps canonical encodable bounded.numbers
  have strings : checkStrings limits.stringBytes value.leaves.length [value] = .ok () := by
    rw [checkStrings_ok (by simp)]
    simpa using bounded.strings
  have counted := bounded.values
  rw [Json.length_leaves 0] at counted
  simp only [decodeBoundedJson, check_ok, demand_ok, bounded.bytes, true_and,
    preflightJson_dumps canonical short counted, parsed, ok_bind, strings, and_true]

section Decoded

variable {limits : JsonLimits}

theorem preflightByte_count (ran : preflightByte limits before byte = .ok after)
    (counted : before.count ≤ limits.values)
    : after.count ≤ limits.values := by
  unfold preflightByte at ran
  split at ran
  · simp only [preflightQuoted, check_ok] at ran
    have done := ran.2
    split_ifs at done <;> cases done <;> exact counted
  · split at ran
    · cases ran
      exact counted
    · obtain ⟨next, _, rest⟩ := bind_ok.mp ran
      rw [check_ok, demand_ok] at rest
      cases rest.2
      exact rest.1

/-- What has passed was counted within the limit. -/
theorem Passes.count (passes : Passes limits data before after)
    (counted : before.count ≤ limits.values)
    : after.count ≤ limits.values := by
  induction data generalizing before with
  | nil =>
      cases passes
      exact counted
  | cons byte rest ih =>
      obtain ⟨middle, ran, passes⟩ := passes_cons.mp passes
      exact ih passes (preflightByte_count ran counted)

/-- A higher limit of values lets the same bytes pass. -/
theorem Passes.widen {values : Nat} (passes : Passes limits data before after)
    (wider : limits.values ≤ values)
    : Passes { limits with values := values } data before after := by
  have step {before after : Preflight} {byte : Byte}
      (ran : preflightByte limits before byte = .ok after)
      : preflightByte { limits with values := values } before byte = .ok after := by
    unfold preflightByte at ran ⊢
    split at ran
    next quoted => exact (if_pos quoted).trans ran
    next plain =>
      rw [if_neg plain]
      split at ran
      next separates => exact (if_pos separates).trans ran
      next token =>
        rw [if_neg token]
        obtain ⟨next, taken, rest⟩ := bind_ok.mp ran
        rw [check_ok, demand_ok] at rest
        exact bind_ok.mpr ⟨next, taken, check_ok.mpr
          ⟨demand_ok.mpr (rest.1.trans wider), rest.2⟩⟩
  induction data generalizing before with
  | nil => exact passes
  | cons byte rest ih =>
      obtain ⟨middle, ran, passes⟩ := passes_cons.mp passes
      exact passes_cons.mpr ⟨middle, step ran, ih passes⟩

/-- What is decoded from its own text has its keys in order, is bounded, and is shallow.
Witness: the scanner counts every token, whatever the limit.
-/
theorem bounded_of_decoded (encodable : value.dumps.Encodable)
    (decoded : decodeBoundedJson value.dumps.utf8 limits = .ok value)
    : value.Canonical ∧ Bounded limits value ∧ ∀ entry ∈ value.tokens 0, Shallow limits entry := by
  simp only [decodeBoundedJson, check_ok, demand_ok] at decoded
  obtain ⟨bytes, scanned, rest⟩ := decoded
  obtain ⟨found, parsed, rest⟩ := bind_ok.mp rest
  rw [check_ok] at rest
  obtain ⟨strings, done⟩ := rest
  cases done
  have canonical := canonical_of_parseBounded encodable parsed
  rw [checkStrings_ok (by simp)] at strings
  replace strings : ∀ token ∈ value.leaves, StringChecked limits.stringBytes token := by
    simpa using strings
  have numbers : ∀ token ∈ value.leaves, SmallNumber token := by
    rw [parseBounded, Text.decode_utf8 encodable] at parsed
    obtain ⟨_, _, rest⟩ := bind_ok.mp parsed
    rw [check_ok, demand_ok] at rest
    cases rest.2
    exact rest.1
  have short : ∀ entry ∈ value.tokens 0, ShortString limits entry := by
    intro entry listed text same
    have checked := (Json.forall_leaves_iff 0).mp strings entry listed
    rw [same] at checked
    exact checked.2.2
  obtain ⟨after, ran, _⟩ := bind_ok.mp scanned
  have passes : Passes limits value.dumps.utf8 preflightStart after := ran
  have wide := passes.widen (Nat.le_max_left limits.values (value.tokens 0).length)
  have runs := @runs_dumps { limits with values := max limits.values (value.tokens 0).length }
    value canonical 0 short 0 preflightStart ⟨rfl, rfl, rfl, rfl⟩ rfl
    (by rw [Nat.zero_add]; exact Nat.le_max_right _ _)
  have shallow := runs.2 after wide
  obtain ⟨final, reached, ready⟩ := runs.1 shallow
  have counted : (value.tokens 0).length ≤ limits.values := by
    have same := reached.unique wide
    have total := ready.count
    have within := passes.count (Nat.zero_le _)
    rw [same] at total
    omega
  refine ⟨canonical, ⟨bytes, ?_, numbers, strings⟩, shallow⟩
  rw [Json.length_leaves 0]
  exact counted

end Decoded

end Scanipy.Analysis.Ifds

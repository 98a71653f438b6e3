import Scanipy.Tools.Worker.Journal.Lexical

/-! The history reader decides before it replays a blob whether the blob may reach a JSON parser, and
how many nodes the parse may have. The decision is conservative: what it leaves out both lexical
guards refuse, and a JSON text has no more nodes than it counts.
-/

namespace Scanipy.Tools.Worker.ProcessEvidence

open Library Python
open Journal (Limits skipString)

/-- `ProcessEvidenceError`. -/
inductive ProcessEvidenceError where
  | invalid

/-- `_need`. -/
def need (condition : Prop) [Decidable condition] : Except ProcessEvidenceError Unit :=
  demand condition .invalid

/-- `48 <= byte <= 57`. -/
def IsDigit (byte : Byte) : Prop :=
  48 ≤ byte.val ∧ byte.val ≤ 57

instance (byte : Byte) : Decidable (IsDigit byte) :=
  inferInstanceAs (Decidable (_ ∧ _))

/-- `index == len(data) or data[index] in b" \t\r\n,]}"`. -/
def Delimited (rest : Bytes) : Prop :=
  ∀ byte ∈ rest.head?, byte.val ∈ [32, 9, 13, 10, 44, 93, 125]

instance (rest : Bytes) : Decidable (Delimited rest) :=
  inferInstanceAs (Decidable (∀ byte ∈ rest.head?, _))

/-- A number from its first byte on, and the rest. -/
def skipNumber (byte : Byte) (rest : Bytes) : Except ProcessEvidenceError Bytes := do
  let data := if byte.val = 45 then rest else byte :: rest
  let magnitude := data.takeWhile IsDigit
  let behind := data.dropWhile IsDigit
  need (1 ≤ magnitude.length ∧ magnitude.length ≤ 19)
  let ceiling := if byte.val = 45 then pyb "9223372036854775808" else pyb "9223372036854775807"
  need (magnitude.length < 19 ∨ magnitude ≤ ceiling)
  need (Delimited behind)
  .ok behind

/-- The first of the literals that the data starts with, and the rest. -/
def skipLiteral (data : Bytes) : Except ProcessEvidenceError Bytes := do
  match [pyb "true", pyb "false", pyb "null"].find? fun token => token.isPrefixOf data with
  | none => .error .invalid
  | some token => do
      let behind := data.drop token.length
      need (Delimited behind)
      .ok behind

/-- One round of `_lexical`: the bytes behind the token, the depth and the values. -/
def scanToken (limits : Limits) (byte : Byte) (rest : Bytes) (depth values : Nat)
    : Except ProcessEvidenceError (Bytes × Nat × Nat) :=
  if byte.val = 93 ∨ byte.val = 125 then do
    need (0 < depth)
    .ok (rest, depth - 1, values)
  else if byte.val ∈ [32, 9, 13, 10, 44, 58] then
    .ok (rest, depth, values)
  else do
    need (values + 1 ≤ limits.values)
    if byte.val = 91 ∨ byte.val = 123 then do
      need (depth + 1 ≤ limits.depth)
      .ok (rest, depth + 1, values + 1)
    else if byte.val = 34 then
      match skipString rest with
      | none => .error .invalid
      | some behind => .ok (behind, depth, values + 1)
    else if byte.val = 45 ∨ IsDigit byte then do
      let behind ← skipNumber byte rest
      .ok (behind, depth, values + 1)
    else do
      let behind ← skipLiteral (byte :: rest)
      .ok (behind, depth, values + 1)

/-- The loop of `_lexical`; every token takes a byte, so the length is fuel enough. -/
def scan (limits : Limits) : Nat → Bytes → Nat → Nat → Except ProcessEvidenceError Unit
  | _, [], depth, _ => need (depth = 0)
  | 0, _ :: _, _, _ => .error .invalid
  | fuel + 1, byte :: rest, depth, values => do
      let (rest, depth, values) ← scanToken limits byte rest depth values
      scan limits fuel rest depth values

/-- `_lexical`. -/
def lexical (data : Bytes) (limits : Limits) : Except ProcessEvidenceError Unit := do
  need (data.length ≤ limits.bytes)
  scan limits data.length data 0 0

end Scanipy.Tools.Worker.ProcessEvidence

namespace Scanipy.Tools.Worker.RuntimeEvidence

open Library Python
open Journal (Limits)

/-- `_MIB`. -/
def mib : Nat := 1048576

/-- `_CHUNK`. -/
def chunk : Nat := 65536

/-- `data[index] in b" \t\r\n"`. -/
def IsSpace (byte : Byte) : Prop :=
  byte.val ∈ [32, 9, 13, 10]

instance (byte : Byte) : Decidable (IsSpace byte) :=
  inferInstanceAs (Decidable (_ ∈ _))

/-- `,`, `:`, `[` and the opening brace. -/
def counted : List Byte :=
  [44, 58, 91, 123]

/-- `sum(data.count(token) for token in ...)`. -/
def punctuation (data : Bytes) : Nat :=
  (counted.map data.count).sum

/-- The loop of `_history_scan` over the chunks; `work.check` in it can only end the call. -/
def scanChunks : Nat → Bytes → Nat → Option Byte → Nat × Option Byte
  | 0, _, nodes, first => (nodes, first)
  | _, [], nodes, first => (nodes, first)
  | fuel + 1, data, nodes, first =>
      let piece := data.take chunk
      scanChunks fuel (data.drop chunk) (nodes + punctuation piece)
        (first.or (piece.find? fun byte => ¬IsSpace byte))

/-- `first in b',:{["-0123456789tfn'`. -/
def Starts (byte : Byte) : Prop :=
  byte.val ∈ [44, 58, 123, 91, 34, 45, 48, 49, 50, 51, 52, 53, 54, 55, 56, 57, 116, 102, 110]

instance (byte : Byte) : Decidable (Starts byte) :=
  inferInstanceAs (Decidable (_ ∈ _))

/-- `_history_scan`; the number of chunks is at most the length. -/
def historyScan (data : Bytes) : Bool × Nat :=
  let (nodes, first) := scanChunks data.length data 1 none
  (data.length ≤ mib ∧ (first.all fun byte => Starts byte), nodes)

/-- The chunks together are the data, by induction on the fuel. -/
theorem scanChunks_eq {fuel : Nat} {data : Bytes} (enough : data.length ≤ fuel) (nodes : Nat)
    (first : Option Byte)
    : scanChunks fuel data nodes first
      = (nodes + punctuation data, first.or (data.find? fun byte => ¬IsSpace byte)) := by
  induction fuel generalizing data nodes first with
  | zero =>
      obtain rfl := List.length_eq_zero_iff.mp (Nat.le_zero.mp enough)
      simp [scanChunks, punctuation, counted]
  | succ fuel ih =>
      cases data with
      | nil => simp [scanChunks, punctuation, counted]
      | cons byte rest =>
          have later : ((byte :: rest).drop chunk).length ≤ fuel := by
            rw [List.length_drop]
            simp only [List.length_cons, chunk] at enough ⊢
            omega
          have split := List.take_append_drop chunk (byte :: rest)
          have total : punctuation ((byte :: rest).take chunk)
              + punctuation ((byte :: rest).drop chunk) = punctuation (byte :: rest) := by
            conv_rhs => rw [← split]
            simp only [punctuation, counted, List.map_cons, List.map_nil, List.sum_cons,
              List.sum_nil, List.count_append]
            omega
          rw [scanChunks, ih later, Nat.add_assoc, total, Option.or_assoc, ← List.find?_append,
            split]
          simp

theorem historyScan_eq (data : Bytes)
    : historyScan data
      = (decide (data.length ≤ mib
            ∧ ((data.find? fun byte => ¬IsSpace byte).all fun byte => Starts byte)),
        1 + punctuation data) := by
  rw [historyScan, scanChunks_eq le_rfl]
  simp

variable {limits : Limits} {byte : Byte} {rest : Bytes}

/-- A first byte that starts nothing is refused by the journal's guard. -/
theorem journal_refuses (starts : ¬Starts byte) (fuel : Nat)
    : ∃ error, Journal.scan limits fuel (byte :: rest) 0 0 = .error error := by
  simp only [Starts, List.mem_cons, List.not_mem_nil, or_false] at starts
  cases fuel with
  | zero => exact ⟨_, rfl⟩
  | succ fuel =>
      by_cases closes : byte.val = 125 ∨ byte.val = 93
      · refine ⟨.validation .noncanonical, ?_⟩
        rw [Journal.scan, Journal.scanToken, if_neg (by omega), if_pos closes]
        rfl
      · refine ⟨.validation .noncanonical, ?_⟩
        rw [Journal.scan, Journal.scanToken, if_neg (by omega), if_neg closes, if_neg (by omega),
          if_neg (by omega), if_neg (by omega), if_neg (by omega)]
        rfl

/-- A byte that starts nothing starts no literal. -/
theorem skipLiteral_refuses (starts : ¬Starts byte)
    : ProcessEvidence.skipLiteral (byte :: rest) = .error .invalid := by
  have none : [pyb "true", pyb "false", pyb "null"].find?
      (fun token => token.isPrefixOf (byte :: rest)) = none := by
    rw [List.find?_eq_none]
    intro token listed begins
    have first : ∀ token ∈ [pyb "true", pyb "false", pyb "null"],
        ∃ head tail, token = head :: tail ∧ Starts head := by
      simp only [List.forall_mem_cons, List.not_mem_nil, false_implies, implies_true, and_true]
      exact ⟨⟨_, _, rfl, by decide⟩, ⟨_, _, rfl, by decide⟩, ⟨_, _, rfl, by decide⟩⟩
    obtain ⟨head, tail, rfl, known⟩ := first token listed
    obtain ⟨same, _⟩ := List.cons_prefix_cons.mp (List.isPrefixOf_iff_prefix.mp begins)
    exact starts (same ▸ known)
  rw [ProcessEvidence.skipLiteral, none]

/-- After white space, a byte that starts nothing is refused by the guard of process evidence; by
list induction.
-/
theorem processEvidence_refuses {spaces : Bytes} (blank : ∀ space ∈ spaces, IsSpace space)
    (starts : ¬Starts byte) (other : ¬IsSpace byte) (fuel : Nat)
    : ∃ error, ProcessEvidence.scan limits fuel (spaces ++ byte :: rest) 0 0 = .error error := by
  refine ⟨.invalid, ?_⟩
  induction spaces generalizing fuel with
  | nil =>
      cases fuel with
      | zero => rfl
      | succ fuel =>
          have unknown : ProcessEvidence.skipLiteral (byte :: rest) = .error .invalid :=
            skipLiteral_refuses starts
          simp only [Starts, IsSpace, List.mem_cons, List.not_mem_nil, or_false] at starts other
          rw [List.nil_append, ProcessEvidence.scan, ProcessEvidence.scanToken]
          by_cases closes : byte.val = 93 ∨ byte.val = 125
          · rw [if_pos closes]
            rfl
          · have blank : byte.val ∉ [32, 9, 13, 10, 44, 58] := by
              simp only [List.mem_cons, List.not_mem_nil, or_false]
              omega
            have number : ¬(byte.val = 45 ∨ ProcessEvidence.IsDigit byte) := by
              unfold ProcessEvidence.IsDigit
              omega
            rw [if_neg closes, if_neg blank, if_neg (by omega), if_neg (by omega), if_neg number,
              unknown]
            by_cases room : 0 + 1 ≤ limits.values
            · rw [ProcessEvidence.need, demand, if_pos room]
              rfl
            · rw [ProcessEvidence.need, demand, if_neg room]
              rfl
  | cons space spaces ih =>
      cases fuel with
      | zero => rfl
      | succ fuel =>
          have white := blank space List.mem_cons_self
          have opens : ¬(space.val = 93 ∨ space.val = 125) := by
            simp only [IsSpace, List.mem_cons, List.not_mem_nil, or_false] at white
            omega
          have passed : space.val ∈ [32, 9, 13, 10, 44, 58] := List.mem_append_left [44, 58] white
          rw [List.cons_append, ProcessEvidence.scan, ProcessEvidence.scanToken, if_neg opens,
            if_pos passed]
          exact ih (fun space listed => blank space (List.mem_cons_of_mem _ listed)) fuel

/-- What a part of a JSON text is. -/
inductive Part where
  | value
  | items
  | members

/-- Part of a JSON text, with the number of keys, scalars and containers that it is parsed to. The
tokens of scalars and keys and the white space may be any text, those of JSON among them.
-/
inductive Parses : Part → Text → Nat → Prop where
  | scalar (token : Text) : Parses .value token 1
  | spaced {text : Text} {count : Nat} (before after : Text)
      : Parses .value text count → Parses .value (before ++ text ++ after) count
  | emptyArray (space : Text) : Parses .value (py "[" ++ space ++ py "]") 1
  | array {text : Text} {count : Nat}
      : Parses .items text count → Parses .value (py "[" ++ text ++ py "]") (count + 1)
  | emptyObject (space : Text) : Parses .value (py "\x7b" ++ space ++ py "\x7d") 1
  | object {text : Text} {count : Nat}
      : Parses .members text count → Parses .value (py "\x7b" ++ text ++ py "\x7d") (count + 1)
  | item {text : Text} {count : Nat} : Parses .value text count → Parses .items text count
  | nextItem {text rest : Text} {count others : Nat}
      : Parses .value text count → Parses .items rest others
        → Parses .items (text ++ py "," ++ rest) (count + others)
  | member {text : Text} {count : Nat} (key : Text)
      : Parses .value text count → Parses .members (key ++ py ":" ++ text) (count + 1)
  | nextMember {text rest : Text} {count others : Nat} (key : Text)
      : Parses .value text count → Parses .members rest others
        → Parses .members (key ++ py ":" ++ text ++ py "," ++ rest) (count + 1 + others)

theorem punctuation_append (first second : Bytes)
    : punctuation (first ++ second) = punctuation first + punctuation second := by
  simp only [punctuation, counted, List.map_cons, List.map_nil, List.sum_cons, List.sum_nil,
    List.count_append]
  omega

theorem punctuation_marks
    : punctuation (py "[").utf8 = 1 ∧ punctuation (py "\x7b").utf8 = 1
      ∧ punctuation (py ",").utf8 = 1 ∧ punctuation (py ":").utf8 = 1 := by
  decide

/-- Every node but one has a punctuation mark of its own, by induction on the text. -/
theorem Parses.count_le {part : Part} {text : Text} {count : Nat} (parses : Parses part text count)
    : count ≤ 1 + punctuation text.utf8 := by
  obtain ⟨bracket, brace, comma, colon⟩ := punctuation_marks
  induction parses <;>
    simp only [Text.utf8_append, punctuation_append, bracket, brace, comma, colon] at * <;> omega

/-- A blob that is no candidate is refused by both lexical guards under every byte limit of at most
one MiB, and a JSON text is parsed to no more keys, scalars and containers than are counted.
-/
theorem historyScan_conservative
    : (∀ (data : Bytes) (limits : Limits), limits.bytes ≤ mib → (historyScan data).1 = false
        → (∃ error, Journal.lexical data limits = .error error)
          ∧ ∃ error, ProcessEvidence.lexical data limits = .error error)
      ∧ ∀ (text : Text) (count : Nat), Parses .value text count
        → count ≤ (historyScan text.utf8).2 := by
  constructor
  · intro data limits small refused
    rw [historyScan_eq, decide_eq_false_iff_not] at refused
    unfold Journal.lexical ProcessEvidence.lexical
    by_cases long : data.length ≤ limits.bytes
    · rw [Journal.need, ProcessEvidence.need, demand, if_pos long, if_pos long, ok_bind, ok_bind]
      cases found : data.find? fun byte => ¬IsSpace byte with
      | none => exact absurd ⟨long.trans small, by rw [found]; rfl⟩ refused
      | some byte =>
          have starts : ¬Starts byte := by
            intro starts
            refine refused ⟨long.trans small, ?_⟩
            rw [found]
            exact decide_eq_true starts
          obtain ⟨other, spaces, rest, rfl, blank⟩ := List.find?_eq_some_iff_append.mp found
          have white : ∀ space ∈ spaces, IsSpace space := by simpa using blank
          refine ⟨?_, processEvidence_refuses white starts (of_decide_eq_true other) _⟩
          cases spaces with
          | nil => exact journal_refuses starts _
          | cons space spaces =>
              refine journal_refuses (fun begins => ?_) _
              have white := white space List.mem_cons_self
              simp only [Starts, IsSpace, List.mem_cons, List.not_mem_nil, or_false] at begins white
              omega
    · rw [Journal.need, ProcessEvidence.need, demand, if_neg long, if_neg long]
      exact ⟨⟨_, rfl⟩, _, rfl⟩
  · intro text count parses
    rw [historyScan_eq]
    exact parses.count_le

/-- A closing bracket is no candidate. -/
theorem historyScan_conservative_bracket
    : (∃ error, Journal.lexical [93] ⟨mib, 1, 1⟩ = .error error)
      ∧ ∃ error, ProcessEvidence.lexical [93] ⟨mib, 1, 1⟩ = .error error :=
  historyScan_conservative.1 [93] ⟨mib, 1, 1⟩ le_rfl (by decide)

end Scanipy.Tools.Worker.RuntimeEvidence

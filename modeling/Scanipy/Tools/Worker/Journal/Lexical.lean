import Scanipy.Tools.Worker.Journal.Canonical

/-! Reading a journal record: the scanner that bounds the bytes before they are parsed, and the
decoder. What is decoded is exactly the canonical text of a clean object within the limits.
-/

namespace Scanipy.Tools.Worker.Journal

open Library Python

/-- The bytes, the depth and the values of a record at most. -/
structure Limits where
  bytes : Nat
  depth : Nat
  values : Nat
  deriving DecidableEq, Repr

/-- The bytes behind the closing quote of a string; an escape takes the next byte with it. -/
def skipString : Bytes → Option Bytes
  | [] => none
  | byte :: rest =>
      if byte.val = 34 then some rest
      else if byte.val = 92 then
        match rest with
        | [] => none
        | _ :: rest => skipString rest
      else skipString rest

/-- What ends a number: `b",]} \r\n\t"`. -/
def EndsToken (byte : Byte) : Prop :=
  byte.val ∈ [44, 93, 125, 32, 13, 10, 9]

instance (byte : Byte) : Decidable (EndsToken byte) :=
  inferInstanceAs (Decidable (_ ∈ _))

/-- `0|[1-9][0-9]*`. -/
def matchesNatural : Bytes → Bool
  | [] => false
  | first :: rest =>
      if first.val = 48 then rest.isEmpty
      else 49 ≤ first.val && first.val ≤ 57
        && rest.all fun byte => 48 ≤ byte.val && byte.val ≤ 57

/-- `int` of a run of digits. -/
def naturalOf (digits : Bytes) : Nat :=
  digits.foldl (fun value byte => value * 10 + (byte.val - 48)) 0

/-- `int(token)` where the token matches `-?(0|[1-9][0-9]*)`. -/
def integerOf : Bytes → Option Int
  | [] => none
  | first :: rest =>
      if first.val = 45 then
        if matchesNatural rest then some (-(naturalOf rest : Int)) else none
      else
        if matchesNatural (first :: rest) then some (naturalOf (first :: rest) : Int) else none

/-- A number from its first byte on, and the rest. -/
def skipNumber (byte : Byte) (rest : Bytes) : Except JournalError Bytes := do
  let token := byte :: rest.takeWhile fun next => ¬EndsToken next
  need (token.length ≤ 20) .limit
  match integerOf token with
  | none => .error (.validation .noncanonical)
  | some number => do
      need (minInt ≤ number ∧ number ≤ maxInt) .limit
      .ok (rest.dropWhile fun next => ¬EndsToken next)

/-- `true`, `false` or `null`, by its first byte. -/
def skipLiteral (byte : Byte) (rest : Bytes) : Except JournalError Bytes := do
  let literal :=
    if byte.val = 116 then pyb "true" else if byte.val = 102 then pyb "false" else pyb "null"
  need ((byte :: rest).take literal.length = literal) .noncanonical
  .ok ((byte :: rest).drop literal.length)

/-- One token: the bytes behind it, the depth and the count. -/
def scanToken (limits : Limits) (byte : Byte) (rest : Bytes) (depth count : Nat)
    : Except JournalError (Bytes × Nat × Nat) :=
  if byte.val = 123 ∨ byte.val = 91 then do
    need (depth + 1 ≤ limits.depth) .limit
    .ok (rest, depth + 1, count + 1)
  else if byte.val = 125 ∨ byte.val = 93 then do
    need (0 < depth) .noncanonical
    .ok (rest, depth - 1, count)
  else if byte.val = 34 then
    match skipString rest with
    | none => .error (.validation .noncanonical)
    | some rest => .ok (rest, depth, count + 1)
  else if byte.val = 45 ∨ 48 ≤ byte.val ∧ byte.val ≤ 57 then do
    let rest ← skipNumber byte rest
    .ok (rest, depth, count + 1)
  else if byte.val = 116 ∨ byte.val = 102 ∨ byte.val = 110 then do
    let rest ← skipLiteral byte rest
    .ok (rest, depth, count + 1)
  else if byte.val = 44 ∨ byte.val = 58 then
    .ok (rest, depth, count)
  else
    .error (.validation .noncanonical)

/-- The loop of `_lexical`; every token takes a byte, so the length is fuel enough. -/
def scan (limits : Limits) : Nat → Bytes → Nat → Nat → Except JournalError Unit
  | _, [], depth, _ => need (depth = 0) .noncanonical
  | 0, _ :: _, _, _ => .error (.validation .noncanonical)
  | fuel + 1, byte :: rest, depth, count => do
      let (rest, depth, count) ← scanToken limits byte rest depth count
      need (count ≤ limits.values) .limit
      scan limits fuel rest depth count

/-- `_lexical`. -/
def lexical (data : Bytes) (limits : Limits) : Except JournalError Unit := do
  need (data.length ≤ limits.bytes) .limit
  scan limits data.length data 0 0

/-- `_pairs`: a key that occurs twice is refused. -/
def pairs (members : List (Text × Json)) : Except JournalError (List (Text × Json)) := do
  need (members.map Prod.fst).Nodup .noncanonical
  .ok members

/-- `json.loads(data.decode("utf-8"), object_pairs_hook=_pairs)` inside the `try`. -/
def parse (data : Bytes) : Except JournalError Json :=
  match Text.decode data with
  | none => .error (.validation .noncanonical)
  | some text => Json.loads pairs (.validation .noncanonical) text

def IsObject : Json → Prop
  | .obj _ => True
  | _ => False

instance (value : Json) : Decidable (IsObject value) :=
  match value with
  | .obj _ => isTrue trivial
  | .null | .bool _ | .int _ | .str _ | .arr _ => isFalse id

/-- `_plain(value, _PrimitiveBudget(limits))`. -/
def thaw (limits : Limits) (stored : Stored) : Except JournalError Json := do
  let (value, _) ← plain limits.depth 0 stored ⟨limits.bytes, limits.values⟩
  .ok value

/-- `_decode`. -/
def decode (data : Bytes) (limits : Limits) : Except JournalError Json := do
  lexical data limits
  let value ← parse data
  need (IsObject value) .schema
  let snapshot ← thaw limits (freeze value)
  let written ← json snapshot
  need (written = data) .noncanonical
  .ok snapshot

-- Canonical text passes the scanner

variable {data : Bytes}

section Accepts

variable {limits : Limits} {rest : Bytes}

theorem length_skipString (skipped : skipString data = some rest)
    : rest.length ≤ data.length := by
  fun_induction skipString data with
  | case1 => cases skipped
  | case2 byte others quotation =>
      cases skipped
      exact Nat.le_succ _
  | case3 => cases skipped
  | case4 byte quotation escape letter others ih => exact (ih skipped).trans ((Nat.le_succ _).trans (Nat.le_succ _))
  | case5 byte others quotation escape ih => exact (ih skipped).trans (Nat.le_succ _)

variable {byte : Byte} {depth count : Nat}

/-- A token takes its first byte at least. -/
theorem length_scanToken {after : Bytes} {below total : Nat}
    (read : scanToken limits byte rest depth count = .ok (after, below, total))
    : after.length ≤ rest.length ∧ count ≤ total := by
  unfold scanToken at read
  split_ifs at read
  · cases (check_ok.mp read).2
    simp
  · cases (check_ok.mp read).2
    simp
  · cases skipped : skipString rest with
    | none => simp [skipped] at read
    | some others =>
        rw [skipped] at read
        cases read
        exact ⟨length_skipString skipped, Nat.le_succ _⟩
  · obtain ⟨others, skipped, done⟩ := bind_ok.mp read
    cases done
    obtain ⟨_, skipped⟩ := check_ok.mp skipped
    split at skipped
    · cases skipped
    · cases (check_ok.mp skipped).2
      exact ⟨(List.dropWhile_sublist _).length_le, Nat.le_succ _⟩
  · obtain ⟨others, skipped, done⟩ := bind_ok.mp read
    cases done
    rw [skipLiteral] at skipped
    cases (check_ok.mp skipped).2
    refine ⟨?_, Nat.le_succ _⟩
    rw [List.length_drop, List.length_cons]
    split_ifs <;> simp [pyb]
  · cases read
    simp

/-- The scanner accepts the bytes from a depth and a count on. -/
def Accepts (limits : Limits) (data : Bytes) (depth count : Nat) : Prop :=
  count ≤ limits.values ∧ ∃ fuel, scan limits fuel data depth count = .ok ()

/-- The length of the data is fuel enough, by induction on the fuel. -/
theorem scan_of_length {fuel more : Nat} (scanned : scan limits fuel data depth count = .ok ())
    (enough : data.length ≤ more)
    : scan limits more data depth count = .ok () := by
  induction fuel generalizing data depth count more with
  | zero =>
      cases data with
      | nil => cases more <;> exact scanned
      | cons byte rest => cases scanned
  | succ fuel ih =>
      cases data with
      | nil => cases more <;> exact scanned
      | cons byte rest =>
          cases more with
          | zero => exact absurd enough (Nat.not_succ_le_zero _)
          | succ more =>
              rw [scan, bind_ok] at scanned ⊢
              obtain ⟨⟨after, below, total⟩, read, scanned⟩ := scanned
              refine ⟨_, read, ?_⟩
              simp only [check_ok] at scanned ⊢
              refine ⟨scanned.1, ih scanned.2 ?_⟩
              exact (length_scanToken read).1.trans (Nat.le_of_succ_le_succ enough)

/-- One token is accepted with what is behind it. -/
theorem accepts_token {after : Bytes} {below total : Nat}
    (read : scanToken limits byte rest depth count = .ok (after, below, total))
    : Accepts limits (byte :: rest) depth count ↔ Accepts limits after below total := by
  have round (fuel : Nat)
      : scan limits (fuel + 1) (byte :: rest) depth count = .ok ()
        ↔ total ≤ limits.values ∧ scan limits fuel after below total = .ok () := by
    rw [scan, read, ok_bind]
    simp only [check_ok, need_ok_iff]
  constructor
  · rintro ⟨_, fuel, accepted⟩
    cases fuel with
    | zero => cases accepted
    | succ fuel => exact ⟨((round fuel).mp accepted).1, fuel, ((round fuel).mp accepted).2⟩
  · rintro ⟨small, fuel, accepted⟩
    exact ⟨(length_scanToken read).2.trans small, fuel + 1, (round fuel).mpr ⟨small, accepted⟩⟩

theorem accepts_open (opens : byte.val = 123 ∨ byte.val = 91)
    : Accepts limits (byte :: rest) depth count
      ↔ depth < limits.depth ∧ Accepts limits rest (depth + 1) (count + 1) := by
  by_cases shallow : depth < limits.depth
  · have read : scanToken limits byte rest depth count = .ok (rest, depth + 1, count + 1) := by
      simp [scanToken, opens, need, Nat.succ_le_of_lt shallow, ok_bind]
    rw [accepts_token read, and_iff_right shallow]
  · refine iff_of_false ?_ fun accepted => shallow accepted.1
    rintro ⟨_, fuel, accepted⟩
    cases fuel with
    | zero => cases accepted
    | succ fuel =>
        obtain ⟨_, read, _⟩ := bind_ok.mp accepted
        rw [scanToken, if_pos opens, check_ok, need_ok_iff] at read
        exact shallow read.1

theorem accepts_close (closes : byte.val = 125 ∨ byte.val = 93)
    : Accepts limits (byte :: rest) (depth + 1) count ↔ Accepts limits rest depth count := by
  apply accepts_token
  have closed : ¬(byte.val = 123 ∨ byte.val = 91) := by omega
  simp [scanToken, closed, closes, need, ok_bind]

theorem accepts_separator (separates : byte.val = 44 ∨ byte.val = 58)
    : Accepts limits (byte :: rest) depth count ↔ Accepts limits rest depth count := by
  apply accepts_token
  unfold scanToken
  rw [if_neg (by omega), if_neg (by omega), if_neg (by omega), if_neg (by omega),
    if_neg (by omega), if_pos separates]

-- Strings: no byte inside ends the string early.

theorem skipString_cons (byte : Byte) (rest : Bytes)
    : skipString (byte :: rest)
      = if byte.val = 34 then some rest
        else if byte.val = 92 then skipString (rest.drop 1)
        else skipString rest := by
  rw [skipString.eq_def]
  cases rest <;> simp [skipString]

theorem skipString_quoted (inside : Json.Quotable data) {quotation : Byte}
    (isQuote : quotation.val = 34) (rest : Bytes)
    : skipString (data ++ quotation :: rest) = some rest := by
  induction inside with
  | nil => simp [skipString_cons, isQuote]
  | plain plain _ ih =>
      rw [List.cons_append, skipString_cons, if_neg plain.1, if_neg plain.2.1, ih]
  | pair letter _ ih =>
      rw [List.cons_append, skipString_cons, if_neg (by decide), if_pos (by decide),
        List.cons_append, List.drop_one, List.tail_cons, ih]

theorem utf8_quote : (py "\"").utf8 = [Fin.ofNat 256 34] := by decide

theorem accepts_quote (text : Text)
    : Accepts limits ((Json.quote text).utf8 ++ rest) depth count
      ↔ Accepts limits rest depth (count + 1) := by
  rw [Json.quote, Text.utf8_append, Text.utf8_append, utf8_quote, List.append_assoc,
    List.append_assoc, List.cons_append, List.nil_append, List.cons_append, List.nil_append]
  apply accepts_token
  rw [scanToken, if_neg (by decide), if_neg (by decide), if_pos (by decide),
    skipString_quoted (Json.quotable_escaped text) (by decide)]

-- Numbers: the numeral of an integer of 64 bits has at most twenty bytes.

/-- The bytes that end a number, or nothing. -/
def Delimited (rest : Bytes) : Prop :=
  ∀ byte ∈ rest.head?, EndsToken byte

/-- The byte of an ASCII character. -/
def asciiByte (point : CodePoint) : Byte :=
  Fin.ofNat 256 point.val

theorem utf8_ascii {text : Text} (ascii : ∀ point ∈ text, point.val < 0x80)
    : text.utf8 = text.map asciiByte := by
  induction text with
  | nil => rfl
  | cons point rest ih =>
      have first : point.utf8 = [asciiByte point] := by
        simp [CodePoint.utf8, ascii point List.mem_cons_self, asciiByte]
      have others := ih fun other member => ascii other (List.mem_cons_of_mem _ member)
      rw [Text.utf8] at others ⊢
      rw [List.flatMap_cons, first, others, List.map_cons, List.singleton_append]

theorem asciiByte_val {point : CodePoint} (ascii : point.val < 0x80)
    : (asciiByte point).val = point.val :=
  val_ofNat_lt (by omega)

theorem naturalOf_digits {digits : Text} (each : ∀ point ∈ digits, Json.IsDigit point)
    : naturalOf (digits.map asciiByte) = Json.digitsValue digits := by
  have folded (total : Nat)
      : (digits.map asciiByte).foldl (fun value byte => value * 10 + (byte.val - 48)) total
        = digits.foldl (fun value point => value * 10 + (point.val - 0x30)) total := by
    induction digits generalizing total with
    | nil => rfl
    | cons point rest ih =>
        have digit := each point List.mem_cons_self
        unfold Json.IsDigit at digit
        rw [List.map_cons, List.foldl_cons, List.foldl_cons, asciiByte_val (by omega)]
        exact ih (fun other member => each other (List.mem_cons_of_mem _ member)) _
  exact folded 0

/-- The bytes of a numeral match the pattern and have its value. -/
theorem decimal_bytes (value : Nat)
    : matchesNatural (decimal value).utf8 = true ∧ naturalOf (decimal value).utf8 = value
      ∧ (∀ byte ∈ (decimal value).utf8, 48 ≤ byte.val ∧ byte.val ≤ 57) := by
  obtain ⟨digits, total, first, others, same, zero⟩ := Json.decimal_shape value
  have ascii : ∀ point ∈ decimal value, point.val < 0x80 := by
    intro point member
    have digit := digits point member
    unfold Json.IsDigit at digit
    omega
  have each : ∀ byte ∈ (decimal value).utf8, 48 ≤ byte.val ∧ byte.val ≤ 57 := by
    intro byte member
    rw [utf8_ascii ascii] at member
    obtain ⟨point, among, rfl⟩ := List.mem_map.mp member
    rw [asciiByte_val (ascii point among)]
    exact digits point among
  refine ⟨?_, ?_, each⟩
  · rw [utf8_ascii ascii, same, List.map_cons] at each ⊢
    have firstVal : (asciiByte first).val = first.val := asciiByte_val (ascii first (by simp [same]))
    rw [matchesNatural]
    split_ifs with isZero
    · rw [(zero (firstVal ▸ isZero)).2]
      rfl
    · have lead := each (asciiByte first) List.mem_cons_self
      simp only [Bool.and_eq_true, decide_eq_true_eq, List.all_eq_true]
      exact ⟨⟨by omega, lead.2⟩, fun byte member => each byte (List.mem_cons_of_mem _ member)⟩
  · rw [utf8_ascii ascii, naturalOf_digits digits, total]

theorem integerOf_numeral (value : Int) : integerOf (Json.numeral value).utf8 = some value := by
  cases value with
  | ofNat value =>
      obtain ⟨pattern, total, each⟩ := decimal_bytes value
      rw [Json.numeral]
      cases bytes : (decimal value).utf8 with
      | nil => simp [bytes, matchesNatural] at pattern
      | cons first rest =>
          rw [bytes] at pattern total each
          have digit := each first List.mem_cons_self
          rw [integerOf, if_neg (by omega), if_pos pattern, total]
          rfl
  | negSucc value =>
      obtain ⟨pattern, total, _⟩ := decimal_bytes (value + 1)
      have sign : (py "-").utf8 = [Fin.ofNat 256 45] := by decide
      rw [Json.numeral, Text.utf8_append, sign, List.singleton_append, integerOf,
        if_pos (by decide), if_pos pattern, total, Int.negSucc_eq]
      simp

theorem length_numeral_le {value : Int} (range : minInt ≤ value ∧ value ≤ maxInt)
    : (Json.numeral value).length ≤ 20 := by
  simp only [minInt, maxInt] at range
  exact Json.length_numeral_le (by omega) (by omega)

/-- What a numeral starts with, and what follows. -/
theorem numeral_bytes (value : Int)
    : ∃ first others, (Json.numeral value).utf8 = first :: others
        ∧ (first.val = 45 ∨ 48 ≤ first.val ∧ first.val ≤ 57)
        ∧ ∀ byte ∈ others, ¬EndsToken byte := by
  have inside {byte : Byte} (digit : 48 ≤ byte.val ∧ byte.val ≤ 57) : ¬EndsToken byte := by
    simp only [EndsToken, List.mem_cons, List.not_mem_nil, or_false]
    omega
  cases value with
  | ofNat value =>
      obtain ⟨pattern, _, each⟩ := decimal_bytes value
      rw [Json.numeral]
      cases bytes : (decimal value).utf8 with
      | nil => simp [bytes, matchesNatural] at pattern
      | cons first rest =>
          rw [bytes] at each
          exact ⟨first, rest, rfl, .inr (each first List.mem_cons_self),
            fun byte member => inside (each byte (List.mem_cons_of_mem _ member))⟩
  | negSucc value =>
      obtain ⟨_, _, each⟩ := decimal_bytes (value + 1)
      have sign : (py "-").utf8 = [Fin.ofNat 256 45] := by decide
      refine ⟨Fin.ofNat 256 45, (decimal (value + 1)).utf8, ?_, .inl rfl,
        fun byte member => inside (each byte member)⟩
      rw [Json.numeral, Text.utf8_append, sign, List.singleton_append]

theorem takeWhile_delimited {run : Bytes} (inside : ∀ byte ∈ run, ¬EndsToken byte)
    (delimited : Delimited rest)
    : (run ++ rest).takeWhile (fun byte => ¬EndsToken byte) = run
      ∧ (run ++ rest).dropWhile (fun byte => ¬EndsToken byte) = rest := by
  have stopped : rest.takeWhile (fun byte => ¬EndsToken byte) = []
      ∧ rest.dropWhile (fun byte => ¬EndsToken byte) = rest := by
    cases rest with
    | nil => exact ⟨rfl, rfl⟩
    | cons byte others => simp [delimited byte rfl]
  rw [List.takeWhile_append_of_pos (by simpa using inside),
    List.dropWhile_append_of_pos (by simpa using inside), stopped.1, stopped.2, List.append_nil]
  exact ⟨rfl, rfl⟩

theorem accepts_numeral {value : Int} (range : minInt ≤ value ∧ value ≤ maxInt)
    (delimited : Delimited rest)
    : Accepts limits ((Json.numeral value).utf8 ++ rest) depth count
      ↔ Accepts limits rest depth (count + 1) := by
  have short := length_numeral_le range
  have read := integerOf_numeral value
  rw [← Json.length_utf8_numeral] at short
  obtain ⟨first, others, same, starts, inside⟩ := numeral_bytes value
  obtain ⟨taken, dropped⟩ := takeWhile_delimited inside delimited
  rw [same] at short read ⊢
  rw [List.cons_append]
  apply accepts_token
  have skipped : skipNumber first (others ++ rest) = .ok rest := by
    simp only [skipNumber, taken, dropped, read, check_ok, need_ok_iff]
    exact ⟨short, range, trivial⟩
  rw [scanToken, if_neg (by omega), if_neg (by omega), if_neg (by omega), if_pos starts, skipped]
  rfl

-- Literals.

theorem accepts_literal {literal others : Bytes} {first : Byte} (same : literal = first :: others)
    (known : first.val = 116 ∧ literal = pyb "true" ∨ first.val = 102 ∧ literal = pyb "false"
      ∨ first.val = 110 ∧ literal = pyb "null")
    : Accepts limits (literal ++ rest) depth count ↔ Accepts limits rest depth (count + 1) := by
  have skipped : skipLiteral first (others ++ rest) = .ok rest := by
    have whole : first :: (others ++ rest) = literal ++ rest := by rw [same, List.cons_append]
    rcases known with ⟨isFirst, spelled⟩ | ⟨isFirst, spelled⟩ | ⟨isFirst, spelled⟩ <;>
      simp [skipLiteral, isFirst, ← spelled, whole, need, ok_bind]
  rw [same, List.cons_append]
  apply accepts_token
  rw [scanToken, if_neg (by omega), if_neg (by omega), if_neg (by omega), if_neg (by omega),
    if_pos (by omega), skipped]
  rfl

theorem utf8_literals
    : (py "null").utf8 = pyb "null" ∧ (py "true").utf8 = pyb "true"
      ∧ (py "false").utf8 = pyb "false" := by
  decide

theorem delimited_cons (ends : EndsToken byte) (rest : Bytes)
    : Delimited (byte :: rest) := by
  intro head found
  cases found
  exact ends

section Values

variable {deep : Nat}

mutual

/-- The text of a clean value is accepted when its nesting and its values are within the limits.
By recursion on the value.
-/
theorem accepts_value
    : (value : Json) → {depth count : Nat} → {rest : Bytes} → Plain deep depth value
      → Delimited rest
      → (Accepts limits (value.dumps.utf8 ++ rest) depth count
        ↔ Plain limits.depth depth value ∧ Accepts limits rest depth (count + values value))
  | .null, depth, count, rest, _, _ => by
      rw [Json.dumps, utf8_literals.1]
      exact (accepts_literal rfl (by decide)).trans (and_iff_right trivial).symm
  | .bool true, depth, count, rest, _, _ => by
      rw [Json.dumps, utf8_literals.2.1]
      exact (accepts_literal rfl (by decide)).trans (and_iff_right trivial).symm
  | .bool false, depth, count, rest, _, _ => by
      rw [Json.dumps, utf8_literals.2.2]
      exact (accepts_literal rfl (by decide)).trans (and_iff_right trivial).symm
  | .int _, depth, count, rest, range, delimited =>
      (accepts_numeral range delimited).trans (and_iff_right range).symm
  | .str text, depth, count, rest, clean, _ =>
      (accepts_quote text).trans (and_iff_right clean).symm
  | .arr items, depth, count, rest, ⟨_, clean⟩, _ => by
      rw [Json.dumps_arr, Text.utf8_append, Text.utf8_append, Json.utf8_punctuation.1,
        Json.utf8_punctuation.2.1, List.append_assoc, List.append_assoc, List.singleton_append,
        accepts_open (.inr (by decide)), List.singleton_append,
        accepts_items items clean (by decide : EndsToken (Fin.ofNat 256 93)) rest,
        accepts_close (.inr (by decide)), Plain, and_assoc, Journal.values, Nat.add_assoc]
  | .obj members, depth, count, rest, ⟨_, ordered, clean⟩, _ => by
      rw [Json.dumps_obj ordered, Text.utf8_append, Text.utf8_append, Json.utf8_punctuation.2.2.1,
        Json.utf8_punctuation.2.2.2.1, List.append_assoc, List.append_assoc, List.singleton_append,
        accepts_open (.inl (by decide)), List.singleton_append,
        accepts_members members clean (by decide : EndsToken (Fin.ofNat 256 125)) rest,
        accepts_close (.inl (by decide)), Plain, and_iff_right ordered, and_assoc,
        Journal.values, Nat.add_assoc]

theorem accepts_items
    : (items : List Json) → {depth count : Nat} → PlainItems deep depth items
      → {close : Byte} → EndsToken close → (rest : Bytes)
      → (Accepts limits ((Json.commaSeparated (items.map Json.dumps)).utf8 ++ close :: rest) depth
          count
        ↔ PlainItems limits.depth depth items
          ∧ Accepts limits (close :: rest) depth (count + valuesItems items))
  | [], _, _, _, _, _, _ => (and_iff_right trivial).symm
  | [item], depth, count, ⟨clean, _⟩, close, closing, rest => by
      refine (accepts_value item clean (delimited_cons closing rest)).trans ?_
      rw [PlainItems, PlainItems, and_true, valuesItems, valuesItems, Nat.add_zero]
  | item :: next :: items, depth, count, ⟨clean, others⟩, close, closing, rest => by
      have comma : EndsToken (Fin.ofNat 256 44) := by decide
      rw [List.map_cons, List.map_cons, Json.commaSeparated, Text.utf8_append, Text.utf8_append,
        Json.utf8_punctuation.2.2.2.2.1, List.append_assoc, List.append_assoc, List.singleton_append,
        accepts_value item clean (delimited_cons comma _), accepts_separator (.inl (by decide)),
        ← List.map_cons, accepts_items (next :: items) others closing rest, ← and_assoc,
        Nat.add_assoc]
      rfl
      simp

theorem accepts_members
    : (members : List (Text × Json)) → {depth count : Nat} → PlainMembers deep depth members
      → {close : Byte} → EndsToken close → (rest : Bytes)
      → (Accepts limits ((Json.commaSeparated (members.map Json.dumpsMember)).utf8 ++ close :: rest)
          depth count
        ↔ PlainMembers limits.depth depth members
          ∧ Accepts limits (close :: rest) depth (count + valuesMembers members))
  | [], _, _, _, _, _, _ => (and_iff_right trivial).symm
  | [(key, value)], depth, count, ⟨keyClean, clean, _⟩, close, closing, rest => by
      refine (accepts_member key value clean (delimited_cons closing rest)).trans ?_
      rw [PlainMembers, PlainMembers, and_true, and_iff_right keyClean, valuesMembers,
        valuesMembers, Nat.add_zero]
  | (key, value) :: next :: members, depth, count, ⟨keyClean, clean, others⟩, close, closing,
      rest => by
      have comma : EndsToken (Fin.ofNat 256 44) := by decide
      rw [List.map_cons, List.map_cons, Json.commaSeparated, Text.utf8_append, Text.utf8_append,
        Json.utf8_punctuation.2.2.2.2.1, List.append_assoc, List.append_assoc, List.singleton_append,
        accepts_member key value clean (delimited_cons comma _), accepts_separator (.inl (by decide)),
        ← List.map_cons, accepts_members (next :: members) others closing rest, ← and_assoc,
        Nat.add_assoc]
      exact and_congr_left fun _ => (and_iff_right keyClean).symm
      simp

theorem accepts_member (key : Text)
    : (value : Json) → {depth count : Nat} → {rest : Bytes} → Plain deep depth value
      → Delimited rest
      → (Accepts limits ((Json.dumpsMember (key, value)).utf8 ++ rest) depth count
        ↔ Plain limits.depth depth value ∧ Accepts limits rest depth (count + (1 + values value)))
  | value, depth, count, rest, clean, delimited => by
      rw [Json.dumpsMember, Text.utf8_append, Text.utf8_append, Json.utf8_punctuation.2.2.2.2.2,
        List.append_assoc, List.append_assoc, accepts_quote, List.singleton_append,
        accepts_separator (.inr (by decide)), accepts_value value clean delimited, Nat.add_assoc]

end

end Values

end Accepts

/-- A clean object whose text is within the limits. -/
structure Fits (limits : Limits) (value : Json) : Prop where
  isObject : IsObject value
  clean : Plain limits.depth 0 value
  bytes : size value ≤ limits.bytes
  values : values value ≤ limits.values

variable {limits : Limits} {value : Json}

theorem thaw_ok {stored : Stored}
    : thaw limits stored = .ok value
      ↔ freeze value = stored ∧ Plain limits.depth 0 value ∧ size value ≤ limits.bytes
        ∧ values value ≤ limits.values := by
  rw [thaw, bind_ok]
  constructor
  · rintro ⟨⟨found, left⟩, walked, done⟩
    cases done
    obtain ⟨frozen, clean, bytes, counts⟩ := plain_sound stored walked
    dsimp only at bytes counts
    exact ⟨frozen, clean, by omega, by omega⟩
  · rintro ⟨rfl, clean, bytes, counts⟩
    have walked : plain limits.depth 0 (freeze value) ⟨limits.bytes, limits.values⟩
        = .ok (value, ⟨limits.bytes - size value, limits.values - values value⟩) :=
      plain_complete value clean (by dsimp only; omega) (by dsimp only; omega)
    exact ⟨_, walked, rfl⟩

theorem json_ok_iff (encodable : value.Encodable)
    : json value = .ok data ↔ value.dumps.utf8 = data := by
  simp [json, Text.encode, Json.dumps_encodable value encodable]

/-- Freezing keeps objects apart from other values. -/
theorem isObject_of_freeze {snapshot : Json} (isObject : IsObject value)
    (same : freeze snapshot = freeze value)
    : IsObject snapshot := by
  have tags : py "array" ≠ py "object" := by decide
  cases value with
  | obj members =>
      cases snapshot with
      | obj _ => trivial
      | arr items =>
          simp only [freeze, Stored.tuple.injEq, List.cons.injEq, Stored.str.injEq] at same
          exact absurd same.1 tags
      | null | bool _ | int _ | str _ => simp [freeze] at same
  | null | bool _ | int _ | str _ | arr _ => exact isObject.elim

/-- The scanner accepts the text of a clean value within the same limits as the walk. -/
theorem lexical_dumps_iff {deep : Nat} (clean : Plain deep 0 value)
    : lexical value.dumps.utf8 limits = .ok ()
      ↔ size value ≤ limits.bytes ∧ Plain limits.depth 0 value ∧ values value ≤ limits.values := by
  have ends : Delimited [] := fun _ found => nomatch found
  have nested : Accepts limits (value.dumps.utf8 ++ []) 0 0
      ↔ Plain limits.depth 0 value ∧ Accepts limits [] 0 (0 + values value) :=
    accepts_value value clean ends
  have scanned : Accepts limits value.dumps.utf8 0 0
      ↔ scan limits value.dumps.utf8.length value.dumps.utf8 0 0 = .ok () := by
    constructor
    · rintro ⟨_, fuel, accepted⟩
      exact scan_of_length accepted le_rfl
    · exact fun accepted => ⟨Nat.zero_le _, _, accepted⟩
  have ended : Accepts limits [] 0 (values value) ↔ values value ≤ limits.values := by
    refine ⟨And.left, fun counted => ⟨counted, 0, rfl⟩⟩
  rw [List.append_nil, Nat.zero_add, ended] at nested
  rw [lexical, check_ok, need_ok_iff, ← scanned, nested]
  rfl

theorem lexical_dumps (fits : Fits limits value)
    : lexical value.dumps.utf8 limits = .ok () :=
  (lexical_dumps_iff fits.clean).mpr ⟨fits.bytes, fits.clean, fits.values⟩

theorem parse_dumps (fits : Fits limits value)
    : parse value.dumps.utf8 = .ok value := by
  have keeps : Json.KeepsDistinct pairs := by
    intro members distinct
    simp [pairs, need, distinct, ok_bind]
  have read : Json.loads pairs (.validation .noncanonical) (value.dumps ++ []) = .ok value :=
    Json.loads_dumps keeps fits.clean.canonical Json.endsNumber_nil rfl
  rw [List.append_nil] at read
  rw [parse, Text.decode_utf8 (Json.dumps_encodable value fits.clean.encodable)]
  exact read

/-- The decoder accepts exactly the canonical text of what it returns. -/
theorem decode_ok
    : decode data limits = .ok value ↔ Fits limits value ∧ value.dumps.utf8 = data := by
  rw [decode, check_ok]
  constructor
  · rintro ⟨_, ran⟩
    obtain ⟨parsed, _, ran⟩ := bind_ok.mp ran
    simp only [check_ok, need_ok_iff] at ran
    obtain ⟨isObject, ran⟩ := ran
    obtain ⟨snapshot, thawed, ran⟩ := bind_ok.mp ran
    obtain ⟨written, dumped, ran⟩ := bind_ok.mp ran
    simp only [check_ok, need_ok_iff] at ran
    obtain ⟨same, done⟩ := ran
    cases done
    obtain ⟨frozen, clean, bytes, counts⟩ := thaw_ok.mp thawed
    rw [json_ok_iff clean.encodable, same] at dumped
    exact ⟨⟨isObject_of_freeze isObject frozen, clean, bytes, counts⟩, dumped⟩
  · rintro ⟨fits, rfl⟩
    refine ⟨lexical_dumps fits, ?_⟩
    have thawed := thaw_ok.mpr ⟨rfl, fits.clean, fits.bytes, fits.values⟩
    rw [parse_dumps fits, ok_bind]
    simp only [check_ok, need_ok_iff]
    refine ⟨fits.isObject, ?_⟩
    rw [thawed, ok_bind, (json_ok_iff fits.clean.encodable).mpr rfl, ok_bind]
    simp [need, ok_bind]

end Scanipy.Tools.Worker.Journal

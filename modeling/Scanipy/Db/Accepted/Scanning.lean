import Scanipy.Db.Accepted.Validation
import Scanipy.Python.JsonTokens

/-! What the lexical scan counts: a value that is written out is scanned to its end, and its keys,
scalars and containers are counted.
-/

namespace Scanipy.Db.Accepted

open Library Python

mutual

/-- The keys, scalars and containers of a value. -/
def tokens : Json → Nat
  | .null | .bool _ | .int _ | .str _ => 1
  | .arr items => 1 + tokensItems items
  | .obj members => 1 + tokensMembers members

def tokensItems : List Json → Nat
  | [] => 0
  | item :: rest => tokens item + tokensItems rest

def tokensMembers : List (Text × Json) → Nat
  | [] => 0
  | (_, value) :: rest => 1 + tokens value + tokensMembers rest

end

mutual

/-- The containers are no deeper than the limit, the integers have 64 bits, and the members are in
the order in which they are written.
-/
def Scannable (limit depth : Nat) : Json → Prop
  | .null | .bool _ | .str _ => True
  | .int value => -(2 ^ 63) ≤ value ∧ value < 2 ^ 63
  | .arr items => depth < limit ∧ ScannableItems limit (depth + 1) items
  | .obj members =>
      depth < limit ∧ (members.map Prod.fst).Pairwise (· < ·)
      ∧ ScannableMembers limit (depth + 1) members

def ScannableItems (limit depth : Nat) : List Json → Prop
  | [] => True
  | item :: rest => Scannable limit depth item ∧ ScannableItems limit depth rest

def ScannableMembers (limit depth : Nat) : List (Text × Json) → Prop
  | [] => True
  | (_, value) :: rest => Scannable limit depth value ∧ ScannableMembers limit depth rest

end

variable {depth : Nat}

theorem scannableItems_iff {limit : Nat} {items : List Json}
    : ScannableItems limit depth items ↔ ∀ item ∈ items, Scannable limit depth item := by
  induction items with
  | nil => simp [ScannableItems]
  | cons head rest ih => simp [ScannableItems, ih]

theorem tokensItems_eq_sum (items : List Json) : tokensItems items = (items.map tokens).sum := by
  induction items with
  | nil => rfl
  | cons head rest ih => rw [tokensItems, ih, List.map_cons, List.sum_cons]

variable {limits : LexicalLimits}

/-- From between two tokens to between two tokens. -/
def Scans (limits : LexicalLimits) (data : Bytes) (depth count below total : Nat) : Prop :=
  data.foldlM limits.step ⟨.between, depth, count⟩ = .ok ⟨.between, below, total⟩

/-- A scan that a delimiter brings between two tokens: it is there, or in a bare token. -/
def Settles (limits : LexicalLimits) (scan : Scan) (depth total : Nat) : Prop :=
  scan = ⟨.between, depth, total⟩
  ∨ ∃ token, scan.scanner = .bare token ∧ limits.close token scan = .ok ⟨.between, depth, total⟩

/-- From between two tokens over one value. -/
def Reads (limits : LexicalLimits) (data : Bytes) (depth count total : Nat) : Prop :=
  ∃ scan, data.foldlM limits.step ⟨.between, depth, count⟩ = .ok scan
    ∧ Settles limits scan depth total

variable {count total : Nat} {first second : Bytes} {below middle : Nat}

theorem Scans.append {under : Nat} (one : Scans limits first depth count below middle)
    (two : Scans limits second below middle under total)
    : Scans limits (first ++ second) depth count under total := by
  rw [Scans, List.foldlM_append, one, ok_bind]
  exact two

/-- A value behind what was scanned. -/
theorem Scans.reads (one : Scans limits first depth count below middle)
    (two : Reads limits second below middle total)
    : ∃ scan, (first ++ second).foldlM limits.step ⟨.between, depth, count⟩ = .ok scan
        ∧ Settles limits scan below total := by
  obtain ⟨scan, run, settles⟩ := two
  refine ⟨scan, ?_, settles⟩
  rw [List.foldlM_append, one, ok_bind]
  exact run

variable {byte : Byte}

/-- A delimiter ends a value. -/
theorem Reads.end (reads : Reads limits first depth count middle)
    (delimiter : isDelimiter byte = true) (next : Scans limits [byte] depth middle below total)
    : Scans limits (first ++ [byte]) depth count below total := by
  obtain ⟨scan, run, settles⟩ := reads
  rw [Scans, List.foldlM_append, run, ok_bind]
  rcases settles with rfl | ⟨token, isBare, closed⟩
  · exact next
  · obtain ⟨scanner, scanDepth, values⟩ := scan
    obtain rfl : scanner = .bare token := isBare
    have stepped : limits.step ⟨.bare token, scanDepth, values⟩ byte
        = limits.step ⟨.between, depth, middle⟩ byte := by
      rw [LexicalLimits.step]
      dsimp only
      rw [if_pos delimiter, closed]
      rfl
    rw [List.foldlM_cons, stepped]
    exact next

variable {data : Bytes}

theorem Scans.reads_self (scans : Scans limits data depth count depth total)
    : Reads limits data depth count total :=
  ⟨_, scans, .inl rfl⟩

theorem scans_single
    (next : limits.next ⟨.between, depth, count⟩ byte = .ok ⟨.between, below, total⟩)
    : Scans limits [byte] depth count below total := by
  rw [Scans, List.foldlM_cons, LexicalLimits.step, next]
  rfl

theorem scans_separator (separates : byte.val = 44 ∨ byte.val = 58) (depth count : Nat)
    : Scans limits [byte] depth count depth count := by
  refine scans_single ?_
  have filler : isFiller byte = true := by
    rcases separates with same | same <;> simp [isFiller, same]
  rw [LexicalLimits.next, if_pos filler]

theorem scans_open (opens : byte.val = 91 ∨ byte.val = 123) (shallow : depth < limits.depth)
    (counted : count + 1 ≤ limits.values)
    : Scans limits [byte] depth count (depth + 1) (count + 1) := by
  refine scans_single ?_
  have other : isFiller byte = false := by
    rcases opens with same | same <;> simp [isFiller, same]
  have shallow : depth + 1 ≤ limits.depth := shallow
  rw [LexicalLimits.next, other, if_neg (by decide), if_neg (by omega), if_pos opens]
  simp [valid, require, demand, shallow, counted, ok_bind]

theorem scans_close (closes : byte.val = 93 ∨ byte.val = 125) (counted : count ≤ limits.values)
    : Scans limits [byte] (depth + 1) count depth count := by
  refine scans_single ?_
  have other : isFiller byte = false := by
    rcases closes with same | same <;> simp [isFiller, same]
  rw [LexicalLimits.next, other, if_neg (by decide), if_neg (by omega), if_neg (by omega),
    if_pos closes]
  simp [valid, require, demand, counted, ok_bind]

-- Strings

/-- Some bytes inside a string leave the scan in it. -/
def Inside (limits : LexicalLimits) (data : Bytes) : Prop :=
  ∀ extent depth count, extent + data.length ≤ 6 * limits.string + 1 →
    data.foldlM limits.step ⟨.quoted extent false, depth, count⟩
      = .ok ⟨.quoted (extent + data.length) false, depth, count⟩

theorem Inside.append (one : Inside limits first) (two : Inside limits second)
    : Inside limits (first ++ second) := by
  intro extent depth count short
  rw [List.length_append] at short ⊢
  rw [List.foldlM_append, one extent depth count (by omega), ok_bind,
    two (extent + first.length) depth count (by omega), Nat.add_assoc]

/-- A byte that is written as it is. -/
theorem inside_plain (quotation : byte.val ≠ 34) (slash : byte.val ≠ 92) (visible : 32 ≤ byte.val)
    : Inside limits [byte] := by
  intro extent depth count short
  rw [List.length_singleton] at short
  rw [List.foldlM_cons, LexicalLimits.step]
  simp [LexicalLimits.inside, valid, require, demand, short, quotation, slash, visible, ok_bind,
    pure, Except.pure]

/-- A backslash with the byte behind it. -/
theorem inside_escaped {slash letter : Byte} (isSlash : slash.val = 92)
    : Inside limits [slash, letter] := by
  intro extent depth count short
  have second : extent + 1 ≤ 6 * limits.string := by
    simp only [List.length_cons, List.length_nil] at short
    omega
  have first : extent ≤ 6 * limits.string := by omega
  rw [List.foldlM_cons, LexicalLimits.step]
  simp [LexicalLimits.step, LexicalLimits.inside, valid, require, demand, first, second, isSlash,
    ok_bind, pure, Except.pure]

theorem inside_quotable (quotable : Json.Quotable data) : Inside limits data := by
  induction quotable with
  | nil =>
      intro extent depth count _
      rfl
  | plain plain _ ih => exact (inside_plain plain.1 plain.2.1 plain.2.2).append ih
  | pair letter _ ih => exact (inside_escaped rfl).append ih

theorem utf8_quotation : (py "\"").utf8 = [Fin.ofNat 256 34] := by
  decide

/-- A string that is not too long. -/
theorem scans_quote (text : Text) (counted : count + 1 ≤ limits.values)
    (short : (Json.quote text).utf8.length ≤ 6 * limits.string)
    : Scans limits (Json.quote text).utf8 depth count depth (count + 1) := by
  rw [Json.quote, Text.utf8_append, Text.utf8_append, utf8_quotation] at short ⊢
  simp only [List.length_append, List.length_singleton] at short
  have opened : limits.step ⟨.between, depth, count⟩ (Fin.ofNat 256 34)
      = .ok ⟨.quoted 0 false, depth, count + 1⟩ := by
    have isQuote : (Fin.ofNat 256 34 : Byte).val = 34 := rfl
    rw [LexicalLimits.step, LexicalLimits.next, if_neg (by decide), if_pos isQuote]
    simp [valid, require, demand, counted, ok_bind]
  have closed : limits.step
        ⟨.quoted (0 + (Text.utf8 (text.flatMap Json.escape)).length) false, depth, count + 1⟩
        (Fin.ofNat 256 34)
      = .ok ⟨.between, depth, count + 1⟩ := by
    have within : 0 + (Text.utf8 (text.flatMap Json.escape)).length + 1
        ≤ 6 * limits.string + 1 := by omega
    rw [LexicalLimits.step]
    simp only [LexicalLimits.inside, valid, require, demand, if_pos within, ok_bind]
    rfl
  have run : Inside limits (Text.utf8 (text.flatMap Json.escape)) :=
    inside_quotable (Json.quotable_escaped text)
  have run := run 0 depth (count + 1) (by omega)
  rw [Scans, List.append_assoc, List.singleton_append, List.foldlM_cons, opened, ok_bind,
    List.foldlM_append, run, ok_bind, List.foldlM_cons, closed]
  rfl

-- Bare tokens

theorem bare_run (each : ∀ byte ∈ data, isDelimiter byte = false) {token : Bytes}
    (short : token.length + data.length ≤ 20) (depth count : Nat)
    : data.foldlM limits.step ⟨.bare token, depth, count⟩
      = .ok ⟨.bare (data.reverse ++ token), depth, count⟩ := by
  induction data generalizing token with
  | nil => rfl
  | cons head rest ih =>
      rw [List.length_cons] at short
      have stepped : limits.step ⟨.bare token, depth, count⟩ head
          = .ok ⟨.bare (head :: token), depth, count⟩ := by
        have within : token.length + 1 ≤ 20 := by omega
        rw [LexicalLimits.step]
        dsimp only
        rw [each head List.mem_cons_self, if_neg (by decide)]
        simp only [valid, require, demand, if_pos within, ok_bind]
      rw [List.foldlM_cons, stepped, ok_bind,
        ih (fun byte later => each byte (List.mem_cons_of_mem _ later))
          (by rw [List.length_cons]; omega), List.reverse_cons, List.append_assoc,
        List.singleton_append]

/-- A literal or an integer of 64 bits, by its bytes. -/
structure IsBare (data : Bytes) : Prop where
  nonempty : data ≠ []
  short : data.length ≤ 20
  plain : ∀ byte ∈ data, isDelimiter byte = false
  known : asciiText data ∈ [py "true", py "false", py "null"]
    ∨ isInteger (asciiText data) = true ∧ -(2 ^ 63) ≤ integerOf (asciiText data)
      ∧ integerOf (asciiText data) < 2 ^ 63

theorem IsBare.reads (bare : IsBare data) (counted : count + 1 ≤ limits.values)
    : Reads limits data depth count (count + 1) := by
  obtain ⟨first, others, rfl⟩ := List.exists_cons_of_ne_nil bare.nonempty
  have short := bare.short
  rw [List.length_cons] at short
  have started : limits.step ⟨.between, depth, count⟩ first
      = .ok ⟨.bare [first], depth, count⟩ := by
    have plain := bare.plain first List.mem_cons_self
    simp only [isDelimiter, List.contains_eq_mem, List.mem_cons, List.not_mem_nil, or_false,
      decide_eq_false_iff_not, not_or] at plain
    have filler : isFiller first = false := by
      simp only [isFiller, List.contains_eq_mem, List.mem_cons, List.not_mem_nil, or_false,
        decide_eq_false_iff_not, not_or]
      omega
    rw [LexicalLimits.step, LexicalLimits.next, filler, if_neg (by decide), if_neg (by omega),
      if_neg (by omega), if_neg (by omega)]
  have run : others.foldlM limits.step ⟨.bare [first], depth, count⟩
      = .ok ⟨.bare (others.reverse ++ [first]), depth, count⟩ :=
    bare_run (fun byte later => bare.plain byte (List.mem_cons_of_mem _ later))
      (by rw [List.length_singleton]; omega) depth count
  refine ⟨⟨.bare (others.reverse ++ [first]), depth, count⟩, ?_, .inr ⟨_, rfl, ?_⟩⟩
  · rw [List.foldlM_cons, started, ok_bind, run]
  · have spelled : (others.reverse ++ [first]).reverse = first :: others := by simp
    rw [LexicalLimits.close, spelled]
    simp only [valid, require, demand, if_pos bare.known, if_pos counted, ok_bind]

variable {text : Text}

/-- ASCII text is its bytes. -/
theorem asciiText_utf8 (ascii : ∀ point ∈ text, point.val < 0x80)
    : asciiText text.utf8 = text ∧ text.utf8.length = text.length := by
  induction text with
  | nil => exact ⟨rfl, rfl⟩
  | cons point rest ih =>
      have low := ascii point List.mem_cons_self
      obtain ⟨same, length⟩ := ih fun other later => ascii other (List.mem_cons_of_mem _ later)
      have first : point.utf8 = [Fin.ofNat 256 point.val] := by simp [CodePoint.utf8, low]
      have whole : Text.utf8 (point :: rest) = Fin.ofNat 256 point.val :: Text.utf8 rest := by
        rw [Text.utf8, List.flatMap_cons, first]
        rfl
      have small : (Fin.ofNat 256 point.val : Byte).val = point.val :=
        Nat.mod_eq_of_lt (by omega)
      constructor
      · rw [whole, asciiText, List.map_cons, small, point_ofNat point rfl]
        exact congrArg (point :: ·) same
      · rw [whole, List.length_cons, length, List.length_cons]

theorem mem_asciiText (member : byte ∈ data)
    : (Fin.ofNat 0x110000 byte.val : CodePoint) ∈ asciiText data :=
  List.mem_map.mpr ⟨byte, member, rfl⟩

/-- A byte of an ASCII text is the value of one of its characters. -/
theorem exists_point (ascii : ∀ point ∈ text, point.val < 0x80) (member : byte ∈ text.utf8)
    : ∃ point ∈ text, byte.val = point.val := by
  have inside := mem_asciiText member
  rw [(asciiText_utf8 ascii).1] at inside
  refine ⟨_, inside, ?_⟩
  have small := byte.isLt
  exact (Nat.mod_eq_of_lt (by omega)).symm

/-- The digits of a numeral that begins with no zero. -/
theorem decimal_isInteger (value : Nat)
    : (decimal value == py "0" || startsWith (between 0x31 0x39) isDigit (decimal value)) = true := by
  obtain ⟨digits, _, first, others, same, zero⟩ := Json.decimal_shape value
  by_cases isZero : first.val = 0x30
  · obtain ⟨_, rfl⟩ := zero isZero
    have spelled : decimal value = py "0" := by
      rw [same]
      exact congrArg (fun point => [point]) (Fin.ext isZero)
    simp [spelled]
  · have lead := digits first (by simp [same])
    unfold Json.IsDigit at lead
    have others' : ∀ point ∈ others, isDigit point = true := by
      intro point member
      have digit := digits point (by simp [same, member])
      unfold Json.IsDigit at digit
      simp only [isDigit, between, Bool.and_eq_true, decide_eq_true_eq]
      omega
    simp only [same, startsWith, between, Bool.or_eq_true, Bool.and_eq_true, decide_eq_true_eq,
      List.all_eq_true]
    exact .inr ⟨by omega, others'⟩

theorem decimal_ascii (value : Nat) : ∀ point ∈ decimal value, 0x30 ≤ point.val ∧ point.val ≤ 0x39 :=
  fun point member => (Json.decimal_shape value).1 point member

/-- A numeral has the pattern of integers, and its value. -/
theorem numeral_isInteger (value : Int)
    : isInteger (Json.numeral value) = true ∧ integerOf (Json.numeral value) = value := by
  cases value with
  | ofNat value =>
      have unsigned : (py "-").isPrefixOf (decimal value) = false := by
        obtain ⟨digits, _, first, others, same, _⟩ := Json.decimal_shape value
        have lead := digits first (by simp [same])
        unfold Json.IsDigit at lead
        have sign : py "-" = [Fin.ofNat 0x110000 0x2D] := by decide
        rw [same, sign]
        have different : (Fin.ofNat 0x110000 0x2D : CodePoint) ≠ first := by
          rintro rfl
          exact absurd lead.1 (by decide)
        simpa [List.isPrefixOf] using different
      rw [Json.numeral, isInteger, integerOf, unsigned, if_neg (by decide), if_neg (by decide)]
      exact ⟨decimal_isInteger value, congrArg Int.ofNat (Json.decimal_shape value).2.1⟩
  | negSucc value =>
      have sign : py "-" = [Fin.ofNat 0x110000 0x2D] := by decide
      have signed : (py "-").isPrefixOf (py "-" ++ decimal (value + 1)) = true := by
        rw [sign]
        simp [List.isPrefixOf]
      have digits : (py "-" ++ decimal (value + 1)).drop 1 = decimal (value + 1) := by
        rw [sign]
        rfl
      rw [Json.numeral, isInteger, integerOf, signed, if_pos rfl, if_pos rfl, digits,
        (Json.decimal_shape (value + 1)).2.1]
      exact ⟨decimal_isInteger (value + 1), by omega⟩

theorem numeral_ascii (value : Int)
    : ∀ point ∈ Json.numeral value, point.val = 0x2D ∨ 0x30 ≤ point.val ∧ point.val ≤ 0x39 := by
  cases value with
  | ofNat value => exact fun point member => .inr (decimal_ascii value point member)
  | negSucc value =>
      intro point member
      rcases List.mem_append.mp member with sign | digit
      · have spelled : py "-" = [Fin.ofNat 0x110000 0x2D] := by decide
        rw [spelled, List.mem_singleton] at sign
        exact .inl (congrArg Fin.val sign)
      · exact .inr (decimal_ascii (value + 1) point digit)

theorem numeral_isBare {value : Int} (low : -(2 ^ 63) ≤ value) (high : value < 2 ^ 63)
    : IsBare (Json.numeral value).utf8 := by
  have points := numeral_ascii value
  have ascii : ∀ point ∈ Json.numeral value, point.val < 0x80 := by
    intro point member
    have range := points point member
    omega
  obtain ⟨same, length⟩ := asciiText_utf8 ascii
  obtain ⟨pattern, total⟩ := numeral_isInteger value
  constructor
  · intro empty
    rw [empty] at same
    rw [← same] at pattern
    exact absurd pattern (by decide)
  · rw [length]
    exact Json.length_numeral_le low high
  · intro byte member
    obtain ⟨point, inside, equal⟩ := exists_point ascii member
    have range := points point inside
    simp only [isDelimiter, List.contains_eq_mem, List.mem_cons, List.not_mem_nil, or_false,
      decide_eq_false_iff_not, not_or]
    omega
  · rw [same]
    exact .inr ⟨pattern, by rw [total]; exact low, by rw [total]; exact high⟩

theorem literals_isBare
    : IsBare (py "null").utf8 ∧ IsBare (py "true").utf8 ∧ IsBare (py "false").utf8 :=
  ⟨⟨by decide, by decide, by decide +kernel, .inl (by decide +kernel)⟩,
    ⟨by decide, by decide, by decide +kernel, .inl (by decide +kernel)⟩,
    ⟨by decide, by decide, by decide +kernel, .inl (by decide +kernel)⟩⟩

-- Values

/-- A closing bracket behind values. -/
def Closes (limits : LexicalLimits) (close : Byte) : Prop :=
  isDelimiter close = true
  ∧ ∀ depth count, count ≤ limits.values → Scans limits [close] (depth + 1) count depth count

theorem closes_bracket : Closes limits (Fin.ofNat 256 93) :=
  ⟨by decide, fun _ _ counted => scans_close (.inl rfl) counted⟩

theorem closes_brace : Closes limits (Fin.ofNat 256 125) :=
  ⟨by decide, fun _ _ counted => scans_close (.inr rfl) counted⟩

theorem scans_comma (depth count : Nat) : Scans limits [Fin.ofNat 256 44] depth count depth count :=
  scans_separator (.inl rfl) depth count

theorem scans_colon (depth count : Nat) : Scans limits [Fin.ofNat 256 58] depth count depth count :=
  scans_separator (.inr rfl) depth count

mutual

/-- What is written is read, and every key, scalar and container is counted. By recursion on the
value; no part is longer than the whole, so no string is too long.
-/
theorem reads_dumps
    : (value : Json) → {depth count : Nat} → Scannable limits.depth depth value
      → count + tokens value ≤ limits.values → value.dumps.utf8.length ≤ 6 * limits.string
      → Reads limits value.dumps.utf8 depth count (count + tokens value)
  | .null, _, _, _, counted, _ => literals_isBare.1.reads counted
  | .bool true, _, _, _, counted, _ => literals_isBare.2.1.reads counted
  | .bool false, _, _, _, counted, _ => literals_isBare.2.2.reads counted
  | .int _, _, _, range, counted, _ => (numeral_isBare range.1 range.2).reads counted
  | .str text, _, _, _, counted, short => (scans_quote text counted short).reads_self
  | .arr items, depth, count, ⟨shallow, each⟩, counted, short => by
      rw [tokens] at counted ⊢
      rw [Json.dumps_arr, Text.utf8_append, Text.utf8_append, Json.utf8_punctuation.1,
        Json.utf8_punctuation.2.1] at short ⊢
      simp only [List.length_append, List.length_singleton] at short
      have inner := scans_items items each (by omega : count + 1 + tokensItems items ≤ _)
        (by omega) closes_bracket
      rw [← Nat.add_assoc, List.append_assoc]
      exact ((scans_open (.inl rfl) shallow (by omega)).append inner).reads_self
  | .obj members, depth, count, ⟨shallow, ordered, each⟩, counted, short => by
      rw [tokens] at counted ⊢
      rw [Json.dumps_obj ordered, Text.utf8_append, Text.utf8_append, Json.utf8_punctuation.2.2.1,
        Json.utf8_punctuation.2.2.2.1] at short ⊢
      simp only [List.length_append, List.length_singleton] at short
      have inner := scans_members members each (by omega : count + 1 + tokensMembers members ≤ _)
        (by omega) closes_brace
      rw [← Nat.add_assoc, List.append_assoc]
      exact ((scans_open (.inr rfl) shallow (by omega)).append inner).reads_self

theorem scans_items
    : (items : List Json) → {depth count : Nat} → ScannableItems limits.depth (depth + 1) items
      → count + tokensItems items ≤ limits.values
      → (Json.commaSeparated (items.map Json.dumps)).utf8.length ≤ 6 * limits.string
      → {close : Byte} → Closes limits close
      → Scans limits ((Json.commaSeparated (items.map Json.dumps)).utf8 ++ [close]) (depth + 1)
          count depth (count + tokensItems items)
  | [], depth, count, _, counted, _, _, closes => closes.2 depth count counted
  | [item], depth, count, ⟨scannable, _⟩, counted, short, close, closes =>
      (reads_dumps item scannable counted short).end closes.1 (closes.2 depth _ counted)
  | item :: next :: items, depth, count, ⟨scannable, others⟩, counted, short, close, closes => by
      rw [tokensItems, ← Nat.add_assoc] at counted ⊢
      rw [List.map_cons, List.map_cons, Json.commaSeparated, Text.utf8_append, Text.utf8_append,
        Json.utf8_punctuation.2.2.2.2.1] at short ⊢
      · simp only [List.length_append, List.length_singleton] at short
        have first := (reads_dumps item scannable (by omega) (by omega)).end (by decide)
          (scans_comma (depth + 1) (count + tokens item))
        have later := scans_items (next :: items) others counted (by rw [List.map_cons]; omega)
          closes
        rw [List.append_assoc]
        exact first.append later
      · simp
      · simp

theorem scans_members
    : (members : List (Text × Json)) → {depth count : Nat}
      → ScannableMembers limits.depth (depth + 1) members
      → count + tokensMembers members ≤ limits.values
      → (Json.commaSeparated (members.map Json.dumpsMember)).utf8.length ≤ 6 * limits.string
      → {close : Byte} → Closes limits close
      → Scans limits ((Json.commaSeparated (members.map Json.dumpsMember)).utf8 ++ [close])
          (depth + 1) count depth (count + tokensMembers members)
  | [], depth, count, _, counted, _, _, closes => closes.2 depth count counted
  | [(key, value)], depth, count, ⟨scannable, _⟩, counted, short, close, closes => by
      have total : count + tokensMembers [(key, value)] = count + 1 + tokens value := by
        rw [tokensMembers, tokensMembers]
        omega
      rw [total] at counted ⊢
      exact (reads_member key value scannable counted short).end closes.1
        (closes.2 depth _ counted)
  | (key, value) :: next :: members, depth, count, ⟨scannable, others⟩, counted, short, close,
      closes => by
      rw [tokensMembers, ← Nat.add_assoc, ← Nat.add_assoc] at counted ⊢
      rw [List.map_cons, List.map_cons, Json.commaSeparated, Text.utf8_append, Text.utf8_append,
        Json.utf8_punctuation.2.2.2.2.1] at short ⊢
      · simp only [List.length_append, List.length_singleton] at short
        have first := (reads_member key value scannable (by omega) (by omega)).end (by decide)
          (scans_comma (depth + 1) (count + 1 + tokens value))
        have later := scans_members (next :: members) others counted 
          (by rw [List.map_cons]; omega) closes
        rw [List.append_assoc]
        exact first.append later
      · simp
      · simp

theorem reads_member (key : Text)
    : (value : Json) → {depth count : Nat} → Scannable limits.depth depth value
      → count + 1 + tokens value ≤ limits.values
      → (Json.dumpsMember (key, value)).utf8.length ≤ 6 * limits.string
      → Reads limits (Json.dumpsMember (key, value)).utf8 depth count (count + 1 + tokens value)
  | value, depth, count, scannable, counted, short => by
      rw [Json.dumpsMember, Text.utf8_append, Text.utf8_append,
        Json.utf8_punctuation.2.2.2.2.2] at short ⊢
      simp only [List.length_append, List.length_singleton] at short
      have quoted : Scans limits (Json.quote key).utf8 depth count depth (count + 1) :=
        scans_quote key (by omega) (by omega)
      have colon := quoted.append (scans_colon depth (count + 1))
      exact colon.reads (reads_dumps value scannable counted (by omega))

end

/-- The lexical scan of a value that is written out counts its tokens. -/
theorem lexical_dumps {value : Json} {maximum : Nat} (scannable : Scannable limits.depth 0 value)
    (counted : tokens value ≤ limits.values) (fits : value.dumps.utf8.length ≤ maximum)
    (short : maximum ≤ 6 * limits.string)
    : lexical limits maximum value.dumps.utf8 = .ok (tokens value) := by
  have reads : Reads limits value.dumps.utf8 0 0 (0 + tokens value) :=
    reads_dumps value scannable (by omega) (by omega)
  obtain ⟨scan, run, settles⟩ := reads
  have nonempty : 1 ≤ value.dumps.utf8.length := by
    refine List.length_pos_iff.mpr fun empty => ?_
    rw [empty] at run
    cases run
    rcases settles with same | ⟨token, bare, _⟩
    · have positive : 0 < tokens value := by cases value <;> simp [tokens]
      have zero := congrArg Scan.values same
      simp only at zero
      omega
    · cases bare
  rw [Nat.zero_add] at settles
  simp only [lexical, valid, require, demand, if_pos (And.intro nonempty fits), ok_bind, run]
  rcases settles with rfl | ⟨token, bare, closed⟩
  · simp [LexicalLimits.finish, valid, require, demand, ok_bind]
  · obtain ⟨scanner, depth, values⟩ := scan
    obtain rfl : scanner = .bare token := bare
    simp [LexicalLimits.finish, closed, valid, require, demand, ok_bind]

end Scanipy.Db.Accepted

import Scanipy.Python.JsonDecoder

/-! `json.loads` reads back what `json.dumps` writes. -/

namespace Scanipy.Python

open Library

namespace Json

-- Tokens read back

theorem hexValue_hexDigit {value : Nat} (digit : value < 16)
    : hexValue (hexDigit value) = some value := by
  have table : ∀ value < 16, hexValue (hexDigit value) = some value := by decide
  exact table value digit

theorem hexDigit_inj {left right : Nat} (leftDigit : left < 16) (rightDigit : right < 16)
    (same : hexDigit left = hexDigit right)
    : left = right := by
  have values := congrArg hexValue same
  rw [hexValue_hexDigit leftDigit, hexValue_hexDigit rightDigit] at values
  exact Option.some.inj values

variable {fuel : Nat} {point : CodePoint} {tail : Text}

/-- An escape that is read back. -/
theorem scanString_of_scanEscape {slash : CodePoint} {body : Text} (isSlash : slash.val = 0x5C)
    (escaped : scanEscape body = some (point, tail))
    : scanString (fuel + 1) (slash :: body)
      = (scanString fuel tail).map fun (text, rest) => (point :: text, rest) := by
  cases found : scanString fuel tail with
  | none => simp [scanString, isSlash, escaped, found]
  | some read => simp [scanString, isSlash, escaped, found]

variable {letter : CodePoint}

theorem scanEscape_short (other : letter.val ≠ 0x75) (known : unescape letter = some point.val)
    : scanEscape (letter :: tail) = some (point, tail) := by
  simp only [scanEscape, other, if_false, known, Option.bind_eq_bind, Option.bind_some]
  rw [point_ofNat _ rfl]

variable {first : CodePoint}

theorem scanEscape_unicode {second third fourth : CodePoint} {a b c d : Nat}
    (isLetter : letter.val = 0x75) (firstDigit : hexValue first = some a)
    (secondDigit : hexValue second = some b) (thirdDigit : hexValue third = some c)
    (fourthDigit : hexValue fourth = some d) (value : ((a * 16 + b) * 16 + c) * 16 + d = point.val)
    (small : point.val < 0xD800)
    : scanEscape (letter :: first :: second :: third :: fourth :: tail) = some (point, tail) := by
  have scalar : ¬(0xD800 ≤ point.val ∧ point.val ≤ 0xDBFF) := by omega
  simp only [scanEscape, isLetter, if_true, scanUnicode, scanFourHex, firstDigit, secondDigit,
    thirdDigit, fourthDigit, Option.bind_eq_bind, Option.bind_some, value, scalar, if_false]
  rw [point_ofNat _ rfl]

/-- Reading back one character of a string, by the cases of the escape table. -/
theorem scanString_escape (fuel : Nat) (point : CodePoint) (tail : Text)
    : scanString (fuel + 1) (escape point ++ tail)
      = (scanString fuel tail).map fun (text, rest) => (point :: text, rest) := by
  unfold escape
  split_ifs with quotation slash newline feed tab page back control
  · exact scanString_of_scanEscape rfl (scanEscape_short (by decide) (by rw [quotation]; rfl))
  · exact scanString_of_scanEscape rfl (scanEscape_short (by decide) (by rw [slash]; rfl))
  · exact scanString_of_scanEscape rfl (scanEscape_short (by decide) (by rw [newline]; rfl))
  · exact scanString_of_scanEscape rfl (scanEscape_short (by decide) (by rw [feed]; rfl))
  · exact scanString_of_scanEscape rfl (scanEscape_short (by decide) (by rw [tab]; rfl))
  · exact scanString_of_scanEscape rfl (scanEscape_short (by decide) (by rw [page]; rfl))
  · exact scanString_of_scanEscape rfl (scanEscape_short (by decide) (by rw [back]; rfl))
  · have spelled : py "\\u00" = [Fin.ofNat 0x110000 0x5C, Fin.ofNat 0x110000 0x75, hexDigit 0,
        hexDigit 0] := by
      decide
    have zero : hexValue (hexDigit 0) = some 0 := hexValue_hexDigit (by omega)
    rw [spelled]
    exact scanString_of_scanEscape rfl (scanEscape_unicode rfl zero zero
      (hexValue_hexDigit (by omega)) (hexValue_hexDigit (by omega)) (by omega) (by omega))
  · simp only [List.singleton_append, scanString, quotation, slash, control, if_false]
    cases found : scanString fuel tail with
    | none => simp
    | some read => simp

variable {text : Text}

/-- A quoted string reads back, by induction on it. -/
theorem scanString_quoted (enough : text.length < fuel) {quotation : CodePoint}
    (isQuote : quotation.val = 0x22) (rest : Text)
    : scanString fuel (text.flatMap escape ++ quotation :: rest) = some (text, rest) := by
  induction text generalizing fuel with
  | nil =>
      obtain ⟨fuel, rfl⟩ := Nat.exists_eq_add_of_lt enough
      simp [scanString, isQuote]
  | cons point text ih =>
      cases fuel with
      | zero => simp at enough
      | succ fuel =>
          rw [List.flatMap_cons, List.append_assoc, scanString_escape,
            ih (Nat.lt_of_succ_lt_succ enough)]
          rfl

theorem decimal_eq (value : Nat)
    : decimal value
      = if value < 10 then [hexDigit value] else decimal (value / 10) ++ [hexDigit (value % 10)] := by
  have digit : ∀ digit < 10, (Fin.ofNat 0x110000 digit.digitChar.toNat : CodePoint) = hexDigit digit := by
    decide
  rw [decimal, Nat.toDigits_eq_if (by decide)]
  split
  next small => simp only [List.map_cons, List.map_nil, digit value small]
  next large =>
    have last : value % 10 < 10 := Nat.mod_lt _ (by decide)
    simp only [List.map_append, List.map_cons, List.map_nil, digit _ last, decimal]

theorem hexDigit_val {digit : Nat} (small : digit < 10) : (hexDigit digit).val = 0x30 + digit := by
  have table : ∀ digit < 10, (hexDigit digit).val = 0x30 + digit := by decide
  exact table digit small

/-- A numeral is digits; it starts with a zero only where it is one. By strong induction. -/
theorem decimal_shape (value : Nat)
    : (∀ point ∈ decimal value, IsDigit point)
      ∧ digitsValue (decimal value) = value
      ∧ ∃ first others, decimal value = first :: others
          ∧ (first.val = 0x30 → value = 0 ∧ others = []) := by
  induction value using Nat.strong_induction_on with
  | _ value ih =>
      rw [decimal_eq]
      split
      next small =>
        have spelled := hexDigit_val small
        refine ⟨?_, ?_, hexDigit value, [], rfl, fun zero => ⟨by omega, rfl⟩⟩
        · simp only [List.mem_singleton, forall_eq, IsDigit]
          omega
        · simp [digitsValue, spelled]
      next large =>
        have last : value % 10 < 10 := Nat.mod_lt _ (by decide)
        have spelled := hexDigit_val last
        obtain ⟨digits, total, first, others, same, zero⟩ := ih (value / 10) (by omega)
        refine ⟨fun point member => ?_, ?_, first, others ++ [hexDigit (value % 10)], by rw [same]; rfl,
          fun isZero => absurd (zero isZero).1 (by omega)⟩
        · rcases List.mem_append.mp member with front | back
          · exact digits point front
          · rw [List.mem_singleton.mp back, IsDigit]
            omega
        · have total' : (decimal (value / 10)).foldl
              (fun value point => value * 10 + (point.val - 0x30)) 0 = value / 10 := total
          simp only [digitsValue, List.foldl_append, total', List.foldl_cons, List.foldl_nil, spelled]
          omega

/-- What may follow a number without being taken for a part of it. -/
def EndsNumber (rest : Text) : Prop :=
  ¬StartsFloat rest ∧ ∀ point ∈ rest.head?, ¬IsDigit point

variable {rest : Text}

theorem scanNatural_decimal (value : Nat) (ends : EndsNumber rest)
    : scanNatural (decimal value ++ rest) = some (value, rest) := by
  obtain ⟨digits, total, first, others, same, zero⟩ := decimal_shape value
  have run : (decimal value ++ rest).takeWhile (fun point => IsDigit point) = first :: others := by
    rw [List.takeWhile_append_of_pos (by simpa using digits), ← same]
    cases rest with
    | nil => simp
    | cons point tail => simp [ends.2 point rfl]
  by_cases isZero : first.val = 0x30
  · obtain ⟨rfl, rfl⟩ := zero isZero
    simp only [scanNatural, run, isZero, if_true]
    simp [same, ends.1]
  · rw [same] at total
    simp only [scanNatural, run, isZero, if_false, total]
    simp [same, ends.1]

theorem scanNumber_numeral (value : Int) (ends : EndsNumber rest)
    : scanNumber (numeral value ++ rest) = some (value, rest) := by
  cases value with
  | ofNat value =>
      obtain ⟨digits, _, first, others, same, _⟩ := decimal_shape value
      have digit := digits first (by simp [same])
      have unsigned : first.val ≠ 0x2D := by
        have := digit.1
        omega
      have read := scanNatural_decimal value ends
      simp only [same, List.cons_append] at read
      simp [numeral, same, scanNumber, unsigned, read]
  | negSucc value =>
      have sign : py "-" = [Fin.ofNat 0x110000 0x2D] := by decide
      have isSign : (Fin.ofNat 0x110000 0x2D : CodePoint).val = 0x2D := rfl
      simp only [numeral, sign, List.cons_append, List.nil_append, scanNumber, isSign, if_true,
        scanNatural_decimal _ ends, Option.map_some]
      rfl

theorem scanLiteral_append (literal : Text) (value : Json) (rest : Text)
    : scanLiteral literal value (literal ++ rest) = some (value, rest) := by
  simp [scanLiteral]

theorem skipBlanks_cons (visible : ¬IsBlank point) (rest : Text)
    : skipBlanks (point :: rest) = point :: rest := by
  simp [skipBlanks, visible]

mutual

/-- The keys of every object are distinct and in order. -/
@[simp]
def Canonical : Json → Prop
  | .null | .bool _ | .int _ | .str _ => True
  | .arr items => CanonicalItems items
  | .obj members => (members.map Prod.fst).Pairwise (· < ·) ∧ CanonicalMembers members

@[simp]
def CanonicalItems : List Json → Prop
  | [] => True
  | item :: rest => Canonical item ∧ CanonicalItems rest

@[simp]
def CanonicalMembers : List (Text × Json) → Prop
  | [] => True
  | (_, value) :: rest => Canonical value ∧ CanonicalMembers rest

end

/-- The text of a member. -/
def dumpsMember (member : Text × Json) : Text :=
  quote member.1 ++ py ":" ++ dumps member.2

theorem dumpsMembers_eq (members : List (Text × Json))
    : dumpsMembers members = members.map fun member => (member.1, dumps member.2) := by
  induction members with
  | nil => rfl
  | cons member rest ih =>
      obtain ⟨key, value⟩ := member
      simp [dumpsMembers, ih]

theorem dumpsItems_eq (items : List Json) : dumpsItems items = items.map dumps := by
  induction items with
  | nil => rfl
  | cons item rest ih => simp [dumpsItems, ih]

variable {members : List (Text × Json)}

/-- Members in order are written as they are. -/
theorem dumps_obj (ordered : (members.map Prod.fst).Pairwise (· < ·))
    : dumps (.obj members) = py "\x7b" ++ commaSeparated (members.map dumpsMember) ++ py "\x7d" := by
  have keys : ((dumpsMembers members).map Prod.fst).Pairwise (· < ·) := by
    simpa [dumpsMembers_eq, Function.comp_def] using ordered
  rw [dumps, sortedBy_eq_self keys, dumpsMembers_eq, List.map_map]
  rfl

theorem dumps_arr (items : List Json)
    : dumps (.arr items) = py "[" ++ commaSeparated (items.map dumps) ++ py "]" := by
  rw [dumps, dumpsItems_eq]

theorem py_quote : py "\"" = [Fin.ofNat 0x110000 0x22] := by decide

theorem py_colon : py ":" = [Fin.ofNat 0x110000 0x3A] := by decide

theorem py_comma : py "," = [Fin.ofNat 0x110000 0x2C] := by decide

theorem py_brackets : py "[" = [Fin.ofNat 0x110000 0x5B] ∧ py "]" = [Fin.ofNat 0x110000 0x5D] := by
  decide

theorem py_braces
    : py "\x7b" = [Fin.ofNat 0x110000 0x7B] ∧ py "\x7d" = [Fin.ofNat 0x110000 0x7D] := by
  decide

theorem py_literals
    : py "null" = Fin.ofNat 0x110000 0x6E :: py "ull"
      ∧ py "true" = Fin.ofNat 0x110000 0x74 :: py "rue"
      ∧ py "false" = Fin.ofNat 0x110000 0x66 :: py "alse" := by
  decide

/-- What the text of a value starts with: nothing blank, and no closing bracket. -/
def StartsValue (point : CodePoint) : Prop :=
  ¬IsBlank point ∧ point.val ≠ 0x5D ∧ point.val ≠ 0x7D

instance (point : CodePoint) : Decidable (StartsValue point) :=
  inferInstanceAs (Decidable (_ ∧ _))

theorem dumps_head (value : Json)
    : ∃ first others, dumps value = first :: others ∧ StartsValue first := by
  cases value with
  | null => exact ⟨_, _, py_literals.1, by decide⟩
  | bool value =>
      cases value with
      | true => exact ⟨_, _, py_literals.2.1, by decide⟩
      | false => exact ⟨_, _, py_literals.2.2, by decide⟩
  | int value =>
      cases value with
      | ofNat value =>
          obtain ⟨digits, _, first, others, same, _⟩ := decimal_shape value
          have digit := digits first (by simp [same])
          refine ⟨first, others, same, ?_⟩
          unfold IsDigit at digit
          unfold StartsValue IsBlank
          omega
      | negSucc value =>
          have sign : py "-" = [Fin.ofNat 0x110000 0x2D] := by decide
          exact ⟨Fin.ofNat 0x110000 0x2D, decimal (value + 1), by rw [dumps, numeral, sign]; rfl,
            by decide⟩
  | str value =>
      exact ⟨Fin.ofNat 0x110000 0x22, value.flatMap escape ++ py "\"",
        by rw [dumps, quote, py_quote]; rfl, by decide⟩
  | arr items => 
      exact ⟨_, _, by rw [dumps, py_brackets.1, List.append_assoc]; rfl, by decide⟩
  | obj members =>
      exact ⟨_, _, by rw [dumps, py_braces.1, List.append_assoc]; rfl, by decide⟩

theorem skipBlanks_dumps (value : Json) (rest : Text)
    : skipBlanks (dumps value ++ rest) = dumps value ++ rest := by
  obtain ⟨first, others, same, visible, _⟩ := dumps_head value
  rw [same, List.cons_append, skipBlanks_cons visible]

-- Values read back

section RoundTrip

variable {ε : Type} {hook : List (Text × Json) → Except ε (List (Text × Json))} {invalid : ε}

/-- The hook keeps members with distinct keys as they are. -/
def KeepsDistinct (hook : List (Text × Json) → Except ε (List (Text × Json))) : Prop :=
  ∀ members, (members.map Prod.fst).Nodup → hook members = .ok members

theorem scanValue_string (isQuote : point.val = 0x22) {value : Text}
    (read : scanString (text.length + 1) text = some (value, rest))
    : scanValue hook invalid (fuel + 1) (point :: text) = .ok (.str value, rest) := by
  simp [scanValue, isQuote, read, expect, ok_bind]

variable {value : Json} {others : Text}

theorem scanValue_literal {literal : Text} (same : literal = first :: others)
    (known : first.val = 0x6E ∧ literal = py "null" ∧ value = .null
      ∨ first.val = 0x74 ∧ literal = py "true" ∧ value = .bool true
      ∨ first.val = 0x66 ∧ literal = py "false" ∧ value = .bool false)
    : scanValue hook invalid (fuel + 1) (literal ++ rest) = .ok (value, rest) := by
  have read := scanLiteral_append literal value rest
  rw [same, List.cons_append] at read ⊢
  rcases known with ⟨isFirst, spelled, rfl⟩ | ⟨isFirst, spelled, rfl⟩ | ⟨isFirst, spelled, rfl⟩ <;>
    simp [scanValue, isFirst, ← spelled, same, read, expect]

theorem scanValue_number (value : Int) (ends : EndsNumber rest)
    : scanValue hook invalid (fuel + 1) (numeral value ++ rest) = .ok (.int value, rest) := by
  have read := scanNumber_numeral value ends
  have head : ∃ first others, numeral value = first :: others
      ∧ (first.val = 0x2D ∨ IsDigit first) := by
    cases value with
    | ofNat value =>
        obtain ⟨digits, _, first, others, same, _⟩ := decimal_shape value
        exact ⟨first, others, same, .inr (digits first (by simp [same]))⟩
    | negSucc value =>
        have sign : py "-" = [Fin.ofNat 0x110000 0x2D] := by decide
        exact ⟨Fin.ofNat 0x110000 0x2D, decimal (value + 1), by rw [numeral, sign]; rfl, .inl rfl⟩
  obtain ⟨first, others, same, numeric⟩ := head
  rw [same, List.cons_append] at read ⊢
  unfold IsDigit at numeric
  have other : first.val ≠ 0x22 ∧ first.val ≠ 0x7B ∧ first.val ≠ 0x5B ∧ first.val ≠ 0x6E
      ∧ first.val ≠ 0x74 ∧ first.val ≠ 0x66 := by
    omega
  simp [scanValue, other, read, expect, ok_bind]

theorem endsNumber_cons (closing : point.val = 0x2C ∨ point.val = 0x5D ∨ point.val = 0x7D)
    (rest : Text)
    : EndsNumber (point :: rest) := by
  constructor
  · unfold StartsFloat
    omega
  · intro other found
    cases found
    unfold IsDigit
    omega

theorem length_le_flatMap_escape (text : Text) : text.length ≤ (text.flatMap escape).length := by
  induction text with
  | nil => exact Nat.le_refl 0
  | cons point rest ih =>
      have written : 0 < (escape point).length := by
        unfold escape
        split_ifs <;> first | decide | simp
      simp only [List.flatMap_cons, List.length_append, List.length_cons]
      omega

/-- A quoted text is read by the allowance that the decoder gives. -/
theorem scanString_quote (text : Text) (rest : Text)
    : ∃ first body, quote text ++ rest = first :: body ∧ first.val = 0x22
        ∧ scanString (body.length + 1) body = some (text, rest) := by
  refine ⟨Fin.ofNat 0x110000 0x22, text.flatMap escape ++ Fin.ofNat 0x110000 0x22 :: rest, ?_, rfl,
    scanString_quoted ?_ rfl rest⟩
  · simp only [quote, py_quote, List.append_assoc, List.cons_append, List.nil_append]
  · have bound := length_le_flatMap_escape text
    simp only [List.length_append, List.length_cons]
    omega

theorem scanPoint_cons {value : Nat} (same : point.val = value) (rest : Text)
    : scanPoint value (point :: rest) = some rest := by
  simp [scanPoint, same]

theorem scanPoint_other {value : Nat} (other : point.val ≠ value) (rest : Text)
    : scanPoint value (point :: rest) = none := by
  simp [scanPoint, other]

theorem visible_of_closing
    (closing : point.val = 0x2C ∨ point.val = 0x3A ∨ point.val = 0x5D ∨ point.val = 0x7D)
    : ¬IsBlank point := by
  unfold IsBlank
  omega

/-- The separator of a list: what comes behind an item that is not the last. -/
theorem commaSeparated_cons_cons (item next : Text) (rest : List Text)
    : commaSeparated (item :: next :: rest)
      = item ++ Fin.ofNat 0x110000 0x2C :: commaSeparated (next :: rest) := by
  rw [commaSeparated, py_comma]
  · simp
  · simp

theorem length_dumpsMember (key : Text) (value : Json)
    : (dumps value).length < (dumpsMember (key, value)).length := by
  simp only [dumpsMember, py_colon, List.length_append, List.length_cons]
  omega

theorem commaSeparated_head {item : Text} (items : List Text) (same : item = first :: others)
    : ∃ tail, commaSeparated (item :: items) = first :: tail := by
  cases items with
  | nil => exact ⟨others, same⟩
  | cons next items => exact ⟨_, by rw [commaSeparated_cons_cons, same]; rfl⟩

variable {items : List Json}

theorem scanValue_array {bracket : CodePoint} (isBracket : bracket.val = 0x5B)
    (starts : StartsValue first)
    (read : scanItems hook invalid fuel (first :: text) = .ok (items, rest))
    : scanValue hook invalid (fuel + 1) (bracket :: first :: text) = .ok (.arr items, rest) := by
  simp [scanValue, isBracket, skipBlanks_cons starts.1, scanPoint_other starts.2.1, read, ok_bind]

theorem scanValue_object {brace : CodePoint} (isBrace : brace.val = 0x7B)
    (starts : StartsValue first)
    (read : scanMembers hook invalid fuel (first :: text) = .ok (members, rest))
    (kept : hook members = .ok members)
    : scanValue hook invalid (fuel + 1) (brace :: first :: text) = .ok (.obj members, rest) := by
  simp [scanValue, isBrace, skipBlanks_cons starts.1, scanPoint_other starts.2.2, read, ok_bind, kept]

variable {item : Json} {close : CodePoint}

theorem scanItems_last (read : scanValue hook invalid fuel text = .ok (item, close :: rest))
    (closing : close.val = 0x5D)
    : scanItems hook invalid (fuel + 1) text = .ok ([item], rest) := by
  have visible : ¬IsBlank close := visible_of_closing (by omega)
  simp [scanItems, read, ok_bind, skipBlanks_cons visible, scanPoint_cons closing]

variable {comma : CodePoint}

theorem scanItems_more
    (read : scanValue hook invalid fuel text = .ok (item, comma :: first :: others))
    (isComma : comma.val = 0x2C) (starts : StartsValue first)
    (more : scanItems hook invalid fuel (first :: others) = .ok (items, rest))
    : scanItems hook invalid (fuel + 1) text = .ok (item :: items, rest) := by
  have visible : ¬IsBlank comma := visible_of_closing (by omega)
  have unclosed : comma.val ≠ 0x5D := by omega
  simp [scanItems, read, ok_bind, skipBlanks_cons visible, scanPoint_other unclosed,
    scanPoint_cons isComma, expect, skipBlanks_cons starts.1, more]

theorem scanKey_dumpsMember (key : Text) (value : Json) (rest : Text)
    : scanKey invalid (dumpsMember (key, value) ++ rest) = .ok (key, dumps value ++ rest) := by
  obtain ⟨first, body, same, isQuote, read⟩ := scanString_quote key (py ":" ++ (dumps value ++ rest))
  have visible : ¬IsBlank (Fin.ofNat 0x110000 0x3A) := by decide
  have colon : scanPoint 0x3A (Fin.ofNat 0x110000 0x3A :: (dumps value ++ rest))
      = some (dumps value ++ rest) :=
    scanPoint_cons rfl _
  rw [dumpsMember, List.append_assoc, List.append_assoc, same]
  simp only [scanKey, scanPoint_cons isQuote, expect, ok_bind, read, py_colon, List.cons_append,
    List.nil_append, skipBlanks_cons visible, colon, skipBlanks_dumps]

variable {key after : Text}

theorem scanMembers_last (named : scanKey invalid text = .ok (key, after))
    (read : scanValue hook invalid fuel after = .ok (value, close :: rest))
    (closing : close.val = 0x7D)
    : scanMembers hook invalid (fuel + 1) text = .ok ([(key, value)], rest) := by
  have visible : ¬IsBlank close := visible_of_closing (by omega)
  simp [scanMembers, named, read, ok_bind, skipBlanks_cons visible, scanPoint_cons closing]

theorem scanMembers_more (named : scanKey invalid text = .ok (key, after))
    (read : scanValue hook invalid fuel after = .ok (value, comma :: first :: others))
    (isComma : comma.val = 0x2C) (starts : StartsValue first)
    (more : scanMembers hook invalid fuel (first :: others) = .ok (members, rest))
    : scanMembers hook invalid (fuel + 1) text = .ok ((key, value) :: members, rest) := by
  have visible : ¬IsBlank comma := visible_of_closing (by omega)
  have unclosed : comma.val ≠ 0x7D := by omega
  simp [scanMembers, named, read, ok_bind, skipBlanks_cons visible, scanPoint_other unclosed,
    scanPoint_cons isComma, expect, skipBlanks_cons starts.1, more]

theorem dumpsMember_head (key : Text) (value : Json)
    : ∃ first others, dumpsMember (key, value) = first :: others ∧ StartsValue first := by
  obtain ⟨first, body, same, isQuote, _⟩ := scanString_quote key (py ":" ++ dumps value)
  refine ⟨first, body, by rw [dumpsMember, List.append_assoc, same], ?_⟩
  unfold StartsValue IsBlank
  omega

mutual

/-- A canonical value reads back, by induction on it. The fuel is the length of the text. -/
theorem scanValue_dumps (keeps : KeepsDistinct hook) : (value : Json) → value.Canonical → (fuel : Nat)
    → (dumps value).length < fuel → (rest : Text) → EndsNumber rest
    → scanValue hook invalid fuel (dumps value ++ rest) = .ok (value, rest)
  | _, _, 0, enough, _, _ => absurd enough (Nat.not_lt_zero _)
  | .null, _, fuel + 1, _, rest, _ =>
      scanValue_literal py_literals.1 (.inl ⟨rfl, rfl, rfl⟩)
  | .bool true, _, fuel + 1, _, rest, _ =>
      scanValue_literal py_literals.2.1 (.inr (.inl ⟨rfl, rfl, rfl⟩))
  | .bool false, _, fuel + 1, _, rest, _ =>
      scanValue_literal py_literals.2.2 (.inr (.inr ⟨rfl, rfl, rfl⟩))
  | .int value, _, fuel + 1, _, rest, ends => scanValue_number value ends
  | .str value, _, fuel + 1, _, rest, _ => by
      obtain ⟨first, body, same, isQuote, read⟩ := scanString_quote value rest
      rw [dumps, same]
      exact scanValue_string isQuote read
  | .arr [], _, fuel + 1, _, rest, _ => by
      have visible : ¬IsBlank (Fin.ofNat 0x110000 0x5D) := by decide
      have isOpen : (Fin.ofNat 0x110000 0x5B : CodePoint).val = 0x5B := rfl
      rw [dumps_arr, py_brackets.1, py_brackets.2]
      simp only [List.map_nil, commaSeparated, List.cons_append, List.nil_append, scanValue, isOpen,
        skipBlanks_cons visible]
      rfl
  | .arr (item :: items), canonical, fuel + 1, enough, rest, _ => by
      rw [dumps_arr, py_brackets.1, py_brackets.2] at enough ⊢
      obtain ⟨first, others, same, starts⟩ := dumps_head item
      obtain ⟨tail, spelled⟩ := commaSeparated_head (items.map dumps) same
      have read := scanItems_dumps keeps (item :: items) canonical (by simp) fuel (by
        simp only [List.length_append, List.length_cons, List.length_nil] at enough
        omega) (Fin.ofNat 0x110000 0x5D) rfl rest
      rw [List.map_cons, spelled] at read ⊢
      simpa using scanValue_array rfl starts read
  | .obj [], _, fuel + 1, _, rest, _ => by
      have visible : ¬IsBlank (Fin.ofNat 0x110000 0x7D) := by decide
      have isOpen : (Fin.ofNat 0x110000 0x7B : CodePoint).val = 0x7B := rfl
      have kept := keeps [] List.nodup_nil
      rw [dumps_obj (by simp), py_braces.1, py_braces.2]
      simp only [List.map_nil, commaSeparated, List.cons_append, List.nil_append, scanValue, isOpen,
        skipBlanks_cons visible, kept]
      rfl
  | .obj ((key, value) :: members), canonical, fuel + 1, enough, rest, _ => by
      rw [dumps_obj canonical.1, py_braces.1, py_braces.2] at enough ⊢
      obtain ⟨first, others, same, starts⟩ := dumpsMember_head key value
      obtain ⟨tail, spelled⟩ := commaSeparated_head (members.map dumpsMember) same
      have read := scanMembers_dumps keeps ((key, value) :: members) canonical.2 (by simp) fuel (by
        simp only [List.length_append, List.length_cons, List.length_nil] at enough
        omega) (Fin.ofNat 0x110000 0x7D) rfl rest
      have kept := keeps ((key, value) :: members) (canonical.1.imp ne_of_lt)
      rw [List.map_cons, spelled] at read ⊢
      simpa using scanValue_object rfl starts read kept

theorem scanItems_dumps (keeps : KeepsDistinct hook) : (items : List Json) → CanonicalItems items → items ≠ [] → (fuel : Nat)
    → (commaSeparated (items.map dumps)).length + 1 < fuel → (close : CodePoint)
    → close.val = 0x5D → (rest : Text)
    → scanItems hook invalid fuel (commaSeparated (items.map dumps) ++ close :: rest)
      = .ok (items, rest)
  | _, _, _, 0, enough, _, _, _ => absurd enough (Nat.not_lt_zero _)
  | [], _, present, _, _, _, _, _ => absurd rfl present
  | [item], ⟨canonical, _⟩, _, fuel + 1, enough, close, closing, rest => by
      refine scanItems_last (scanValue_dumps keeps item canonical fuel (Nat.lt_of_succ_lt_succ enough)
        (close :: rest) (endsNumber_cons (by omega) rest)) closing
  | item :: next :: items, ⟨canonical, others⟩, _, fuel + 1, enough, close, closing, rest => by
      simp only [List.map_cons, commaSeparated_cons_cons, List.length_append, List.length_cons]
        at enough ⊢
      have more := scanItems_dumps keeps (next :: items) others (by simp) fuel (by
        simp only [List.map_cons]
        omega) close closing rest
      obtain ⟨point, _, same, starts⟩ := dumps_head next
      obtain ⟨tail, spelled⟩ := commaSeparated_head (items.map dumps) same
      rw [List.map_cons, spelled] at more
      rw [spelled, List.append_assoc, List.cons_append]
      refine scanItems_more (scanValue_dumps keeps item canonical fuel (by omega) _
        (endsNumber_cons (.inl rfl) _)) rfl starts more

theorem scanMembers_dumps (keeps : KeepsDistinct hook) : (members : List (Text × Json)) → CanonicalMembers members
    → members ≠ [] → (fuel : Nat)
    → (commaSeparated (members.map dumpsMember)).length + 1 < fuel → (close : CodePoint)
    → close.val = 0x7D → (rest : Text)
    → scanMembers hook invalid fuel (commaSeparated (members.map dumpsMember) ++ close :: rest)
      = .ok (members, rest)
  | _, _, _, 0, enough, _, _, _ => absurd enough (Nat.not_lt_zero _)
  | [], _, present, _, _, _, _, _ => absurd rfl present
  | [(key, value)], ⟨canonical, _⟩, _, fuel + 1, enough, close, closing, rest => by
      have short := length_dumpsMember key value
      simp only [List.map_cons, List.map_nil, commaSeparated] at enough ⊢
      refine scanMembers_last (scanKey_dumpsMember key value _) (scanValue_dumps keeps value canonical fuel
        (by omega) _ (endsNumber_cons (by omega) rest)) closing
  | (key, value) :: (nextKey, next) :: members, ⟨canonical, others⟩, _, fuel + 1, enough, close,
      closing, rest => by
      have short := length_dumpsMember key value
      simp only [List.map_cons, commaSeparated_cons_cons, List.length_append, List.length_cons]
        at enough ⊢
      have more := scanMembers_dumps keeps ((nextKey, next) :: members) others (by simp) fuel (by
        simp only [List.map_cons]
        omega) close closing rest
      obtain ⟨point, _, same, starts⟩ := dumpsMember_head nextKey next
      obtain ⟨tail, spelled⟩ := commaSeparated_head (members.map dumpsMember) same
      rw [List.map_cons, spelled] at more
      rw [spelled, List.append_assoc, List.cons_append]
      refine scanMembers_more (scanKey_dumpsMember key value _) (scanValue_dumps keeps value canonical fuel
        (by omega) _ (endsNumber_cons (.inl rfl) _)) rfl starts more

end
/-- `json.loads` inverts `json.dumps` on canonical values; blanks may follow. -/
theorem loads_dumps (keeps : KeepsDistinct hook) (canonical : value.Canonical) {blanks : Text}
    (ends : EndsNumber blanks) (blank : skipBlanks blanks = [])
    : loads hook invalid (dumps value ++ blanks) = .ok value := by
  have enough : (dumps value).length < (dumps value ++ blanks).length + 1 := by
    rw [List.length_append]
    omega
  simp only [loads, skipBlanks_dumps,
    scanValue_dumps keeps value canonical _ enough blanks ends, ok_bind, blank, if_true]

end RoundTrip

theorem endsNumber_nil : EndsNumber [] :=
  ⟨id, fun _ found => nomatch found⟩

/-- Canonical values with one text are one. -/
theorem dumps_injective {left right : Json} (leftCanonical : left.Canonical)
    (rightCanonical : right.Canonical) (same : dumps left = dumps right)
    : left = right := by
  have read {value : Json} (canonical : value.Canonical)
      : loads (.ok : List (Text × Json) → Except Unit _) () (dumps value ++ []) = .ok value :=
    loads_dumps (fun _ _ => rfl) canonical endsNumber_nil rfl
  have first := read leftCanonical
  rw [same, read rightCanonical] at first
  exact (Except.ok.inj first).symm

end Json

end Scanipy.Python

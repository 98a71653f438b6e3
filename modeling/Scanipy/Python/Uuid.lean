import Scanipy.Python.Datetime

/-! `bytes.hex` determines its bytes, and the text of a `uuid.UUID` determines the identifier. -/

namespace Scanipy.Python

open Library

theorem hexByte_selfDelimiting : SelfDelimiting Set.univ hexByte := by
  have injective : Set.InjOn hexByte Set.univ := by
    intro left _ right _ same
    have leftBound := left.isLt
    have rightBound := right.isLt
    obtain ⟨high, tail⟩ := List.cons.inj same
    have highs := Json.hexDigit_inj (by omega) (by omega) high
    have lows := Json.hexDigit_inj (by omega) (by omega) (List.cons.inj tail).1
    exact Fin.ext (by omega)
  have length : ∀ byte ∈ Set.univ, (hexByte byte).length = 2 := fun _ _ => rfl
  intro left right
  exact SelfDelimiting.of_length injective length

/-- Bytes are determined by their digits. -/
theorem hex_injective : Function.Injective hex := by
  intro left right same
  exact SelfDelimiting.flatMap_inj hexByte_selfDelimiting (fun _ _ => List.cons_ne_nil _ _)
    (fun _ _ => Set.mem_univ _) (fun _ _ => Set.mem_univ _) same

@[simp]
theorem length_hex (data : Bytes) : (hex data).length = 2 * data.length := by
  induction data with
  | nil => rfl
  | cons byte rest ih =>
      have step : (hex (byte :: rest)).length = (hexByte byte).length + (hex rest).length :=
        List.length_append
      have two : (hexByte byte).length = 2 := rfl
      rw [step, two, ih, List.length_cons]
      omega

theorem hex_ascii (data : Bytes) : ∀ point ∈ hex data, point.val < 0x80 := by
  intro point member
  obtain ⟨byte, _, inside⟩ := List.mem_flatMap.mp member
  rcases List.mem_pair.mp inside with rfl | rfl
  · exact Json.hexDigit_val_lt (by omega)
  · exact Json.hexDigit_val_lt (by omega)

/-- `uuid.UUID`, by its 128-bit `int`. -/
abbrev Uuid := Fin (2 ^ 128)

instance Uuid.count_neZero : NeZero (2 ^ 128) :=
  ⟨by decide⟩

/-- `uuid.hex`. -/
def Uuid.hex (id : Uuid) : Text :=
  Python.hex (toBytes 16 id.val)

/-- The texts with dashes between them. -/
def dashed : List Text → Text
  | [] => []
  | [part] => part
  | part :: rest => part ++ py "-" ++ dashed rest

/-- `str(id)`. -/
def Uuid.text (id : Uuid) : Text :=
  dashed [id.hex.take 8, (id.hex.drop 8).take 4, (id.hex.drop 12).take 4, (id.hex.drop 16).take 4,
    id.hex.drop 20]

@[simp]
theorem Uuid.length_hex (id : Uuid) : id.hex.length = 32 := by
  rw [Uuid.hex, Python.length_hex, length_toBytes]

theorem Uuid.hex_injective : Function.Injective Uuid.hex := by
  intro left right same
  have bytes := Python.hex_injective same
  have bound (id : Uuid) : id.val < 256 ^ 16 := lt_of_lt_of_le id.isLt (by decide)
  exact Fin.ext (SelfDelimiting.injOn (toBytes_selfDelimiting 16) (bound left) (bound right) bytes)

/-- The groups of an identifier put together again. -/
theorem take_drop_groups {digits : Text}
    : digits.take 8 ++ ((digits.drop 8).take 4 ++ ((digits.drop 12).take 4
        ++ ((digits.drop 16).take 4 ++ digits.drop 20)))
      = digits := by
  have join (start count : Nat)
      : (digits.drop start).take count ++ digits.drop (start + count) = digits.drop start := by
    rw [← List.drop_drop, List.take_append_drop]
  have first := join 0 8
  rw [List.drop_zero] at first
  rw [join 16 4, join 12 4, join 8 4, first]

/-- Identifiers are determined by their texts.
Witness: the dashes stand at fixed places, so the groups of digits are equal.
-/
theorem Uuid.text_injective : Function.Injective Uuid.text := by
  intro left right same
  simp only [Uuid.text, dashed, List.append_assoc] at same
  obtain ⟨first, same⟩ := List.append_inj same (by simp)
  obtain ⟨second, same⟩ := List.append_inj (List.append_cancel_left same) (by simp)
  obtain ⟨third, same⟩ := List.append_inj (List.append_cancel_left same) (by simp)
  obtain ⟨fourth, same⟩ := List.append_inj (List.append_cancel_left same) (by simp)
  have fifth := List.append_cancel_left same
  refine Uuid.hex_injective ?_
  rw [← @take_drop_groups left.hex, ← @take_drop_groups right.hex, first, second, third, fourth,
    fifth]

theorem Uuid.text_ascii (id : Uuid) : ∀ point ∈ id.text, point.val < 0x80 := by
  have dash {point : CodePoint} (member : point ∈ py "-") : point.val < 0x80 := by
    have same : py "-" = [Fin.ofNat 0x110000 0x2D] := by decide
    rw [same, List.mem_singleton] at member
    rw [member]
    decide
  have digit {point : CodePoint} {start count : Nat}
      (member : point ∈ (id.hex.drop start).take count)
      : point.val < 0x80 :=
    hex_ascii _ point (List.mem_of_mem_drop (List.mem_of_mem_take member))
  intro point member
  simp only [Uuid.text, dashed, List.mem_append] at member
  rcases member with (first | mark) | (second | mark) | (third | mark) | (fourth | mark) | fifth
  · exact hex_ascii _ point (List.mem_of_mem_take first)
  · exact dash mark
  · exact digit second
  · exact dash mark
  · exact digit third
  · exact dash mark
  · exact digit fourth
  · exact dash mark
  · exact hex_ascii _ point (List.mem_of_mem_drop fifth)

/-- `int(digits, 16)`. -/
def hexNumber (digits : Text) : Nat :=
  digits.foldl (fun total point => total * 16 + (Json.hexValue point).getD 0) 0

/-- `UUID(value)` where `str` gives `value` again; every other spelling is refused. -/
def Uuid.ofText (value : Text) : Option Uuid :=
  let id : Uuid := Fin.ofNat (2 ^ 128) (hexNumber (value.filter fun point => point.val ≠ 0x2D))
  if id.text = value then some id else none

/-- The digits of fixed-width bytes stand for the number, by induction on the width. -/
theorem foldl_hex_toBytes (width value total : Nat)
    : (hex (toBytes width value)).foldl
        (fun total point => total * 16 + (Json.hexValue point).getD 0) total
      = total * 256 ^ width + value % 256 ^ width := by
  induction width generalizing total with
  | zero => simp [toBytes, hex, Nat.mod_one]
  | succ width ih =>
      have head : hex (toBytes (width + 1) value)
          = hexByte (Fin.ofNat 256 (value / 256 ^ width)) ++ hex (toBytes width value) := rfl
      have digit : (Fin.ofNat 256 (value / 256 ^ width)).val = value / 256 ^ width % 256 := rfl
      have power : value % (256 ^ width * 256)
          = value % 256 ^ width + 256 ^ width * (value / 256 ^ width % 256) := Nat.mod_mul
      have small : value / 256 ^ width % 256 < 256 := Nat.mod_lt _ (by decide)
      rw [head, List.foldl_append, ih, hexByte, digit, pow_succ, power]
      generalize value / 256 ^ width % 256 = byte at small
      simp only [List.foldl_cons, List.foldl_nil, Option.getD_some,
        Json.hexValue_hexDigit (show byte / 16 < 16 by omega),
        Json.hexValue_hexDigit (show byte % 16 < 16 by omega)]
      have split : byte / 16 * 16 + byte % 16 = byte := by omega
      calc ((total * 16 + byte / 16) * 16 + byte % 16) * 256 ^ width + value % 256 ^ width
          = (total * 256 + (byte / 16 * 16 + byte % 16)) * 256 ^ width + value % 256 ^ width := by ring
        _ = total * (256 ^ width * 256) + (value % 256 ^ width + 256 ^ width * byte) := by
            rw [split]
            ring

theorem Uuid.hexNumber_hex (id : Uuid) : hexNumber id.hex = id.val := by
  have total := foldl_hex_toBytes 16 id.val 0
  have small : id.val < 256 ^ 16 := lt_of_lt_of_le id.isLt (by decide)
  rw [Nat.zero_mul, Nat.zero_add, Nat.mod_eq_of_lt small] at total
  exact total

theorem hex_dashless (data : Bytes) : ∀ point ∈ hex data, point.val ≠ 0x2D := by
  intro point member
  obtain ⟨byte, _, inside⟩ := List.mem_flatMap.mp member
  have table : ∀ digit < 16, (Json.hexDigit digit).val ≠ 0x2D := by decide
  rcases List.mem_pair.mp inside with rfl | rfl
  · exact table _ (by omega)
  · exact table _ (by omega)

theorem Uuid.filter_text (id : Uuid)
    : (id.text.filter fun point => point.val ≠ 0x2D) = id.hex := by
  have dash : (py "-").filter (fun point : CodePoint => decide (point.val ≠ 0x2D)) = [] := by decide
  have digits {part : Text} (inside : part ⊆ id.hex)
      : part.filter (fun point : CodePoint => decide (point.val ≠ 0x2D)) = part := by
    rw [List.filter_eq_self]
    intro point member
    exact decide_eq_true (hex_dashless _ point (inside member))
  have cut (start count : Nat) : (id.hex.drop start).take count ⊆ id.hex :=
    List.Subset.trans (List.take_subset _ _) (List.drop_subset _ _)
  simp only [Uuid.text, dashed, List.filter_append, dash, digits (cut _ _),
    digits (List.take_subset _ _), digits (List.drop_subset _ _), List.append_assoc]
  exact take_drop_groups

/-- An identifier is read from its text, and from no other text. -/
theorem Uuid.ofText_eq_some {value : Text} {id : Uuid}
    : Uuid.ofText value = some id ↔ id.text = value := by
  unfold Uuid.ofText
  constructor
  · intro read
    dsimp only at read
    split at read
    next same =>
      cases read
      exact same
    next => cases read
  · rintro rfl
    have same : (Fin.ofNat (2 ^ 128)
        (hexNumber (id.text.filter fun point => point.val ≠ 0x2D)) : Uuid) = id := by
      rw [Uuid.filter_text, Uuid.hexNumber_hex]
      exact Fin.ext (Nat.mod_eq_of_lt id.isLt)
    simp only [same, if_true]

-- The pattern of an identifier

theorem fullmatch_append_iff {classes others : List (CodePoint → Bool)} {text : Text}
    : fullmatch (classes ++ others) text = true
      ↔ ∃ first rest, text = first ++ rest ∧ fullmatch classes first = true
        ∧ fullmatch others rest = true := by
  constructor
  · intro matched
    induction classes generalizing text with
    | nil => exact ⟨[], text, rfl, rfl, matched⟩
    | cons accepts classes ih =>
        cases text with
        | nil => cases matched
        | cons point text =>
            simp only [List.cons_append, fullmatch, Bool.and_eq_true] at matched
            obtain ⟨first, rest, rfl, head, tail⟩ := ih matched.2
            refine ⟨point :: first, rest, rfl, ?_, tail⟩
            simp only [fullmatch, matched.1, head, Bool.and_self]
  · intro parts
    obtain ⟨first, rest, same, head, tail⟩ := parts
    rw [same, fullmatch_append head, tail]

theorem fullmatch_replicate_iff {accepts : CodePoint → Bool} {count : Nat} {text : Text}
    : fullmatch (List.replicate count accepts) text = true
      ↔ text.length = count ∧ ∀ point ∈ text, accepts point = true := by
  induction count generalizing text with
  | zero => cases text <;> simp [fullmatch]
  | succ count ih =>
      cases text with
      | nil => simp [List.replicate_succ, fullmatch]
      | cons point rest =>
          simp only [List.replicate_succ, fullmatch, Bool.and_eq_true, ih, List.length_cons,
            Nat.add_right_cancel_iff, List.mem_cons, forall_eq_or_imp]
          exact and_left_comm

theorem fullmatch_literally_iff {literal : String} {text : Text}
    : fullmatch (literally literal) text = true ↔ text = py literal := by
  unfold literally
  induction py literal generalizing text with
  | nil => cases text <;> simp [fullmatch]
  | cons point rest ih => cases text <;> simp [fullmatch, ih]

theorem hexDigit_of_isHex {point : CodePoint} (digit : isHex point = true)
    : ∃ value < 16, point = Json.hexDigit value ∧ Json.hexValue point = some value := by
  simp only [isHex, isDigit, between, Bool.or_eq_true, Bool.and_eq_true, decide_eq_true_eq] at digit
  have bound := point.isLt
  rcases digit with decimal | letter
  · have value : point = Json.hexDigit (point.val - 0x30) :=
      (point_ofNat point (by rw [if_pos (by omega)]; omega)).symm
    refine ⟨point.val - 0x30, by omega, value, ?_⟩
    rw [value, Json.hexValue_hexDigit (by omega), ← value]
  · have value : point = Json.hexDigit (point.val - 0x57) :=
      (point_ofNat point (by rw [if_neg (by omega)]; omega)).symm
    refine ⟨point.val - 0x57, by omega, value, ?_⟩
    rw [value, Json.hexValue_hexDigit (by omega), ← value]

theorem isHex_hexDigit {value : Nat} (digit : value < 16)
    : isHex (Json.hexDigit value) = true := by
  have table : ∀ value < 16, isHex (Json.hexDigit value) = true := by decide
  exact table value digit

theorem isHex_of_mem_hex {data : Bytes} : ∀ point ∈ hex data, isHex point = true := by
  intro point member
  obtain ⟨byte, _, inside⟩ := List.mem_flatMap.mp member
  rcases List.mem_pair.mp inside with rfl | rfl
  · exact isHex_hexDigit (by omega)
  · exact isHex_hexDigit (by omega)

/-- A run of digits is the hexadecimal text of bytes, by induction on their number. -/
theorem exists_hex_of_isHex {count : Nat} {digits : Text} (length : digits.length = 2 * count)
    (each : ∀ point ∈ digits, isHex point = true)
    : ∃ data : Bytes, data.length = count ∧ hex data = digits := by
  induction count generalizing digits with
  | zero =>
      rw [List.eq_nil_of_length_eq_zero length]
      exact ⟨[], rfl, rfl⟩
  | succ count ih =>
      match digits, length, each with
      | high :: low :: rest, length, each =>
          have shorter : rest.length = 2 * count := by
            simp only [List.length_cons] at length
            omega
          obtain ⟨data, sized, read⟩ := ih shorter fun point member =>
            each point (List.mem_cons_of_mem _ (List.mem_cons_of_mem _ member))
          obtain ⟨first, firstDigit, rfl, _⟩ := hexDigit_of_isHex (each high List.mem_cons_self)
          obtain ⟨second, secondDigit, rfl, _⟩ :=
            hexDigit_of_isHex (each low (List.mem_cons_of_mem _ List.mem_cons_self))
          have byte : (Fin.ofNat 256 (first * 16 + second)).val = first * 16 + second :=
            Nat.mod_eq_of_lt (by omega)
          refine ⟨Fin.ofNat 256 (first * 16 + second) :: data, by rw [List.length_cons, sized], ?_⟩
          have head : hex (Fin.ofNat 256 (first * 16 + second) :: data)
              = hexByte (Fin.ofNat 256 (first * 16 + second)) ++ hex data := rfl
          rw [head, read, hexByte, byte, show (first * 16 + second) / 16 = first by omega,
            show (first * 16 + second) % 16 = second by omega]
          rfl

/-- The bytes do not see what stands above them, by induction on their number. -/
theorem toBytes_add_mul (width extra high low : Nat)
    : toBytes width (high * 256 ^ (width + extra) + low) = toBytes width low := by
  induction width generalizing extra with
  | zero => rfl
  | succ width ih =>
      have power : 256 ^ (width + 1 + extra) = 256 ^ width * (256 * 256 ^ extra) := by ring
      have quotient : (high * 256 ^ (width + 1 + extra) + low) / 256 ^ width
          = 256 * (high * 256 ^ extra) + low / 256 ^ width := by
        rw [power, show high * (256 ^ width * (256 * 256 ^ extra))
          = 256 ^ width * (256 * (high * 256 ^ extra)) by ring,
          Nat.mul_add_div (Nat.pow_pos (by decide))]
      have tail : high * 256 ^ (width + 1 + extra) = high * 256 ^ (width + (extra + 1)) := by
        rw [Nat.add_right_comm, Nat.add_assoc]
      rw [toBytes, toBytes, quotient, tail, ih]
      exact congrArg (· :: toBytes width low) (Fin.ext (Nat.mul_add_mod _ _ _))

/-- Bytes are the big-endian form of a number, by list induction. -/
theorem exists_toBytes (data : Bytes)
    : ∃ value < 256 ^ data.length, toBytes data.length value = data := by
  induction data with
  | nil => exact ⟨0, by decide, rfl⟩
  | cons byte rest ih =>
      obtain ⟨value, bound, written⟩ := ih
      have positive : 0 < 256 ^ rest.length := Nat.pow_pos (by decide)
      have small := byte.isLt
      refine ⟨byte.val * 256 ^ rest.length + value, ?_, ?_⟩
      · rw [List.length_cons, pow_succ]
        calc byte.val * 256 ^ rest.length + value
            < byte.val * 256 ^ rest.length + 256 ^ rest.length := Nat.add_lt_add_left bound _
          _ = (byte.val + 1) * 256 ^ rest.length := by ring
          _ ≤ 256 * 256 ^ rest.length := Nat.mul_le_mul_right _ (by omega)
          _ = 256 ^ rest.length * 256 := Nat.mul_comm _ _
      · have head : (byte.val * 256 ^ rest.length + value) / 256 ^ rest.length = byte.val := by
          rw [Nat.mul_comm, Nat.mul_add_div positive, Nat.div_eq_of_lt bound, Nat.add_zero]
        have tail : toBytes rest.length (byte.val * 256 ^ rest.length + value)
            = toBytes rest.length value := toBytes_add_mul rest.length 0 byte.val value
        rw [List.length_cons, toBytes, head, tail, written]
        exact congrArg (· :: rest) (Fin.ext (Nat.mod_eq_of_lt small))

/-- The pattern matches the texts of identifiers, and no others. -/
theorem Uuid.fullmatch_iff {token : Text}
    : fullmatch uuidPattern token = true ↔ ∃ id : Uuid, id.text = token := by
  simp only [uuidPattern, List.append_assoc, fullmatch_append_iff, fullmatch_replicate_iff,
    fullmatch_literally_iff]
  constructor
  · rintro ⟨first, _, rfl, ⟨firstLength, firstDigits⟩, _, _, rfl, rfl, second, _, rfl,
      ⟨secondLength, secondDigits⟩, _, _, rfl, rfl, third, _, rfl, ⟨thirdLength, thirdDigits⟩,
      _, _, rfl, rfl, fourth, _, rfl, ⟨fourthLength, fourthDigits⟩, _, fifth, rfl, rfl,
      fifthLength, fifthDigits⟩
    have length : (first ++ (second ++ (third ++ (fourth ++ fifth)))).length = 2 * 16 := by
      simp only [List.length_append]
      omega
    obtain ⟨data, sized, digits⟩ := exists_hex_of_isHex length (by
      simp only [List.mem_append]
      rintro point (member | member | member | member | member)
      · exact firstDigits point member
      · exact secondDigits point member
      · exact thirdDigits point member
      · exact fourthDigits point member
      · exact fifthDigits point member)
    obtain ⟨value, bound, written⟩ := exists_toBytes data
    rw [sized] at bound written
    refine ⟨⟨value, lt_of_lt_of_le bound (by decide)⟩, ?_⟩
    have same : Uuid.hex ⟨value, lt_of_lt_of_le bound (by decide)⟩
        = first ++ (second ++ (third ++ (fourth ++ fifth))) := by
      rw [Uuid.hex, written, digits]
    have cut {part : Text} {count : Nat} (sized : part.length = count) (rest : Text)
        : (part ++ rest).take count = part ∧ (part ++ rest).drop count = rest :=
      ⟨List.take_left' sized, List.drop_left' sized⟩
    have eight := (cut firstLength (second ++ (third ++ (fourth ++ fifth)))).2
    have twelve := (cut secondLength (third ++ (fourth ++ fifth))).2
    rw [← eight, List.drop_drop] at twelve
    have sixteen := (cut thirdLength (fourth ++ fifth)).2
    rw [← twelve, List.drop_drop] at sixteen
    have twenty := (cut fourthLength fifth).2
    rw [← sixteen, List.drop_drop] at twenty
    simp only [Uuid.text, dashed, same, eight, twelve, sixteen, twenty, (cut firstLength _).1,
      (cut secondLength _).1, (cut thirdLength _).1, (cut fourthLength _).1, List.append_assoc]
  · rintro ⟨id, rfl⟩
    have digits {part : Text} (inside : part ⊆ id.hex) : ∀ point ∈ part, isHex point = true :=
      fun point member => isHex_of_mem_hex point (inside member)
    have cut (start count : Nat) : (id.hex.drop start).take count ⊆ id.hex :=
      List.Subset.trans (List.take_subset _ _) (List.drop_subset _ _)
    refine ⟨_, _, by simp only [Uuid.text, dashed, List.append_assoc]; rfl,
      ⟨by simp, digits (List.take_subset _ _)⟩, _, _, rfl, rfl, _, _, rfl,
      ⟨by simp, digits (cut _ _)⟩, _, _, rfl, rfl, _, _, rfl, ⟨by simp, digits (cut _ _)⟩, _, _, rfl,
      rfl, _, _, rfl, ⟨by simp, digits (cut _ _)⟩, _, _, rfl, rfl, by simp,
      digits (List.drop_subset _ _)⟩

theorem Uuid.isSome_ofText {token : Text}
    : (Uuid.ofText token).isSome = true ↔ fullmatch uuidPattern token = true := by
  rw [Uuid.fullmatch_iff, Option.isSome_iff_exists]
  exact exists_congr fun id => Uuid.ofText_eq_some

end Scanipy.Python

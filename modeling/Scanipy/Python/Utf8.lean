import Scanipy.Python.Text

/-! Strict UTF-8 decoding, the inverse of strict encoding. -/

namespace Scanipy.Python

/-- A continuation byte. -/
def Byte.IsTail (byte : Byte) : Prop :=
  0x80 ≤ byte.val ∧ byte.val ≤ 0xBF

instance (byte : Byte) : Decidable byte.IsTail :=
  inferInstanceAs (Decidable (_ ∧ _))

/-- The scalar value at the start of the data, and the rest; overlong forms, surrogates and
truncated sequences are refused.
-/
def decodePoint : Bytes → Option (CodePoint × Bytes)
  | [] => none
  | first :: rest =>
      if first.val < 0x80 then
        some (Fin.ofNat 0x110000 first.val, rest)
      else if first.val < 0xE0 then
        match rest with
        | second :: rest =>
            let scalar := (first.val - 0xC0) * 0x40 + (second.val - 0x80)
            if 0xC2 ≤ first.val ∧ second.IsTail then
              some (Fin.ofNat 0x110000 scalar, rest)
            else none
        | _ => none
      else if first.val < 0xF0 then
        match rest with
        | second :: third :: rest =>
            let scalar := ((first.val - 0xE0) * 0x40 + (second.val - 0x80)) * 0x40
              + (third.val - 0x80)
            if second.IsTail ∧ third.IsTail ∧ 0x800 ≤ scalar
                ∧ ¬(0xD800 ≤ scalar ∧ scalar < 0xE000) then
              some (Fin.ofNat 0x110000 scalar, rest)
            else none
        | _ => none
      else
        match rest with
        | second :: third :: fourth :: rest =>
            let scalar := (((first.val - 0xF0) * 0x40 + (second.val - 0x80)) * 0x40
              + (third.val - 0x80)) * 0x40 + (fourth.val - 0x80)
            if second.IsTail ∧ third.IsTail ∧ fourth.IsTail ∧ 0x10000 ≤ scalar
                ∧ scalar < 0x110000 then
              some (Fin.ofNat 0x110000 scalar, rest)
            else none
        | _ => none

/-- The texts of a number of scalar values. -/
def decodePoints : Nat → Bytes → Option Text
  | _, [] => some []
  | 0, _ :: _ => none
  | fuel + 1, byte :: rest => do
      let (point, rest) ← decodePoint (byte :: rest)
      let text ← decodePoints fuel rest
      some (point :: text)

/-- `data.decode("utf-8", errors="strict")`; `none` is a `UnicodeDecodeError`. -/
def Text.decode (data : Bytes) : Option Text :=
  decodePoints data.length data

variable {value : Nat}

theorem val_ofNat_lt (small : value < 256) : (Fin.ofNat 256 value).val = value :=
  Nat.mod_eq_of_lt small

variable {point : CodePoint}

/-- A scalar value is decoded from its own bytes. Witness: the four widths. -/
theorem decodePoint_utf8 (scalar : ¬point.IsSurrogate) (rest : Bytes)
    : decodePoint (point.utf8 ++ rest) = some (point, rest) := by
  have bound := point.isLt
  simp only [CodePoint.IsSurrogate] at scalar
  unfold CodePoint.utf8
  dsimp only
  split_ifs with one two three
  · have lead : (Fin.ofNat 256 point.val).val = point.val := val_ofNat_lt (by omega)
    simp only [List.cons_append, List.nil_append, decodePoint, lead, one, if_true]
    rw [point_ofNat point rfl]
  · have lead : (Fin.ofNat 256 (0xC0 + point.val / 0x40)).val = 0xC0 + point.val / 0x40 :=
      val_ofNat_lt (by omega)
    have tail : (Fin.ofNat 256 (0x80 + point.val % 0x40)).val = 0x80 + point.val % 0x40 :=
      val_ofNat_lt (by omega)
    simp only [List.cons_append, List.nil_append, decodePoint, Byte.IsTail, lead, tail]
    rw [if_neg (by omega), if_pos (by omega), if_pos (by omega), point_ofNat point (by omega)]
  · have lead : (Fin.ofNat 256 (0xE0 + point.val / 0x1000)).val = 0xE0 + point.val / 0x1000 :=
      val_ofNat_lt (by omega)
    have middle : (Fin.ofNat 256 (0x80 + point.val / 0x40 % 0x40)).val
        = 0x80 + point.val / 0x40 % 0x40 := val_ofNat_lt (by omega)
    have tail : (Fin.ofNat 256 (0x80 + point.val % 0x40)).val = 0x80 + point.val % 0x40 :=
      val_ofNat_lt (by omega)
    simp only [List.cons_append, List.nil_append, decodePoint, Byte.IsTail, lead, middle, tail]
    rw [if_neg (by omega), if_neg (by omega), if_pos (by omega), if_pos (by omega),
      point_ofNat point (by omega)]
  · have lead : (Fin.ofNat 256 (0xF0 + point.val / 0x40000)).val = 0xF0 + point.val / 0x40000 :=
      val_ofNat_lt (by omega)
    have second : (Fin.ofNat 256 (0x80 + point.val / 0x1000 % 0x40)).val
        = 0x80 + point.val / 0x1000 % 0x40 := val_ofNat_lt (by omega)
    have third : (Fin.ofNat 256 (0x80 + point.val / 0x40 % 0x40)).val
        = 0x80 + point.val / 0x40 % 0x40 := val_ofNat_lt (by omega)
    have tail : (Fin.ofNat 256 (0x80 + point.val % 0x40)).val = 0x80 + point.val % 0x40 :=
      val_ofNat_lt (by omega)
    simp only [List.cons_append, List.nil_append, decodePoint, Byte.IsTail, lead, second, third,
      tail]
    rw [if_neg (by omega), if_neg (by omega), if_neg (by omega), if_pos (by omega),
      point_ofNat point (by omega)]

variable {text : Text} {fuel : Nat}

/-- The bytes of a text are decoded point by point, by list induction. -/
theorem decodePoints_utf8 (encodable : text.Encodable) (enough : text.length ≤ fuel)
    : decodePoints fuel text.utf8 = some text := by
  induction text generalizing fuel with
  | nil => cases fuel <;> rfl
  | cons point rest ih =>
      obtain ⟨lead, others, bytes⟩ := List.exists_cons_of_ne_nil point.utf8_ne_nil
      cases fuel with
      | zero => simp at enough
      | succ fuel =>
          have first := decodePoint_utf8 (encodable point List.mem_cons_self) (Text.utf8 rest)
          have later := ih (fun other member => encodable other (List.mem_cons_of_mem _ member))
            (Nat.le_of_succ_le_succ enough)
          simp only [Text.utf8, List.flatMap_cons] at first ⊢
          rw [bytes] at first ⊢
          simp only [List.cons_append, decodePoints] at first ⊢
          rw [Text.utf8] at later
          rw [first]
          simp [later]

/-- Strict decoding undoes strict encoding. -/
theorem Text.decode_utf8 (encodable : text.Encodable)
    : Text.decode text.utf8 = some text :=
  decodePoints_utf8 encodable text.length_le_utf8

theorem byte_ofNat (byte : Byte) (same : value = byte.val)
    : (Fin.ofNat 256 value : Byte) = byte := by
  subst same
  exact Fin.ext (Nat.mod_eq_of_lt byte.isLt)

variable {data : Bytes}

/-- A decoded point is a scalar value, and its own bytes were read. Witness: the four widths. -/
theorem utf8_of_decodePoint {rest : Bytes} (decoded : decodePoint data = some (point, rest))
    : ¬point.IsSurrogate ∧ data = point.utf8 ++ rest := by
  have small {value : Nat} (fits : value < 0x110000)
      : (Fin.ofNat 0x110000 value : CodePoint).val = value :=
    Nat.mod_eq_of_lt fits
  cases data with
  | nil => cases decoded
  | cons first tail =>
      have bound := first.isLt
      simp only [decodePoint] at decoded
      split_ifs at decoded with one two three
      · obtain ⟨rfl, rfl⟩ := Prod.mk.inj (Option.some.inj decoded)
        have scalar := small (show first.val < 0x110000 by omega)
        refine ⟨by simp only [CodePoint.IsSurrogate, scalar]; omega, ?_⟩
        simp only [CodePoint.utf8, scalar, if_pos one, byte_ofNat first rfl]
        rfl
      · split at decoded
        next second others =>
          split_ifs at decoded with accepted
          have tail := accepted.2
          unfold Byte.IsTail at tail
          obtain ⟨rfl, rfl⟩ := Prod.mk.inj (Option.some.inj decoded)
          have scalar := small
            (show (first.val - 0xC0) * 0x40 + (second.val - 0x80) < 0x110000 by omega)
          refine ⟨by simp only [CodePoint.IsSurrogate, scalar]; omega, ?_⟩
          simp only [CodePoint.utf8, scalar]
          rw [if_neg (by omega), if_pos (by omega), byte_ofNat first (by omega),
            byte_ofNat second (by omega)]
          rfl
        next => cases decoded
      · split at decoded
        next second third others =>
          split_ifs at decoded with accepted
          obtain ⟨tail, last, wide, plain⟩ := accepted
          unfold Byte.IsTail at tail last
          obtain ⟨rfl, rfl⟩ := Prod.mk.inj (Option.some.inj decoded)
          have scalar := small (show ((first.val - 0xE0) * 0x40 + (second.val - 0x80)) * 0x40
            + (third.val - 0x80) < 0x110000 by omega)
          refine ⟨by simp only [CodePoint.IsSurrogate, scalar]; omega, ?_⟩
          simp only [CodePoint.utf8, scalar]
          rw [if_neg (by omega), if_neg (by omega), if_pos (by omega),
            byte_ofNat first (by omega), byte_ofNat second (by omega),
            byte_ofNat third (by omega)]
          rfl
        next => cases decoded
      · split at decoded
        next second third fourth others =>
          split_ifs at decoded with accepted
          obtain ⟨tail, middle, last, wide, fits⟩ := accepted
          unfold Byte.IsTail at tail middle last
          obtain ⟨rfl, rfl⟩ := Prod.mk.inj (Option.some.inj decoded)
          have scalar := small fits
          refine ⟨by simp only [CodePoint.IsSurrogate, scalar]; omega, ?_⟩
          simp only [CodePoint.utf8, scalar]
          rw [if_neg (by omega), if_neg (by omega), if_neg (by omega),
            byte_ofNat first (by omega), byte_ofNat second (by omega),
            byte_ofNat third (by omega), byte_ofNat fourth (by omega)]
          rfl
        next => cases decoded

/-- Decoded bytes are those of the text, by induction on the fuel. -/
theorem utf8_of_decodePoints (decoded : decodePoints fuel data = some text)
    : text.Encodable ∧ data = text.utf8 := by
  induction fuel generalizing data text with
  | zero =>
      cases data with
      | nil =>
          cases decoded
          exact ⟨fun _ member => absurd member List.not_mem_nil, rfl⟩
      | cons byte rest => cases decoded
  | succ fuel ih =>
      cases data with
      | nil =>
          cases decoded
          exact ⟨fun _ member => absurd member List.not_mem_nil, rfl⟩
      | cons byte rest =>
          simp only [decodePoints, Option.bind_eq_bind, Option.bind_eq_some_iff] at decoded
          obtain ⟨⟨point, others⟩, first, tail, later, same⟩ := decoded
          cases same
          obtain ⟨scalar, read⟩ := utf8_of_decodePoint first
          obtain ⟨encodable, remaining⟩ := ih later
          dsimp only at remaining
          refine ⟨?_, by rw [read, remaining, Text.utf8, Text.utf8, List.flatMap_cons]⟩
          intro other member
          rcases List.mem_cons.mp member with rfl | among
          · exact scalar
          · exact encodable other among

/-- Strict decoding reads exactly the bytes that strict encoding writes. -/
theorem Text.decode_eq_some
    : Text.decode data = some text ↔ text.Encodable ∧ data = text.utf8 := by
  constructor
  · exact utf8_of_decodePoints
  · intro written
    rw [written.2]
    exact Text.decode_utf8 written.1

end Scanipy.Python

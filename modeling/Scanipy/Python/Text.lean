import Mathlib.Data.List.Lex
import Mathlib.Order.Fin.Basic
import Mathlib.Tactic.IntervalCases
import Scanipy.Library.SelfDelimiting

/-! Python `bytes` and `str`: fixed-width big-endian integers and strict UTF-8.
A `str` is a sequence of code points, lone surrogates included, so that strict encoding
can fail as it does in Python. Both types compare lexicographically, as Python's do.
-/

namespace Scanipy.Python

open Library

abbrev Byte := Fin 256

abbrev Bytes := List Byte

abbrev CodePoint := Fin 0x110000

abbrev Text := List CodePoint

instance Byte.count_neZero : NeZero 256 :=
  ⟨by decide⟩

instance CodePoint.count_neZero : NeZero 0x110000 :=
  ⟨by decide⟩

instance Text.lawfulBEq : LawfulBEq Text :=
  inferInstance

/-- A literal of the source as a `str`. -/
def py (literal : String) : Text :=
  literal.toList.map fun char => Fin.ofNat 0x110000 char.toNat

/-- An ASCII literal of the source as `bytes`. -/
def pyb (literal : String) : Bytes :=
  literal.toList.map fun char => Fin.ofNat 256 char.toNat

/-- The characters of a literal. They are slow to decide from its bytes, so that a table of literals
is rewritten with this first.
-/
theorem toList_literal (characters : List Char)
    : (no_index (String.ofList characters)).toList = characters :=
  String.toList_ofList

/-- `value.to_bytes(width, "big")` for a value below `256 ^ width`. -/
def toBytes : Nat → Nat → Bytes
  | 0, _ => []
  | width + 1, value => Fin.ofNat 256 (value / 256 ^ width) :: toBytes width value

@[simp]
theorem length_toBytes (width value : Nat) : (toBytes width value).length = width := by
  induction width with
  | zero => rfl
  | succ width ih => simp [toBytes, ih]

/-- Equal digits mean equal residues, by induction on the width. -/
theorem mod_eq_of_toBytes_eq {width left right : Nat}
    (same : toBytes width left = toBytes width right)
    : left % 256 ^ width = right % 256 ^ width := by
  induction width with
  | zero => simp [Nat.mod_one]
  | succ width ih =>
      simp only [toBytes, List.cons.injEq] at same
      have digit : left / 256 ^ width % 256 = right / 256 ^ width % 256 :=
        congrArg Fin.val same.1
      rw [pow_succ, Nat.mod_mul, Nat.mod_mul, digit, ih same.2]

/-- Eight big-endian bytes delimit every unsigned 64-bit integer. -/
theorem toBytes_selfDelimiting (width : Nat)
    : SelfDelimiting {value : Nat | value < 256 ^ width} (toBytes width) := by
  refine SelfDelimiting.of_length ?_ (fun value _ => length_toBytes width value)
  intro left leftBound right rightBound same
  have residues := mod_eq_of_toBytes_eq same
  rwa [Nat.mod_eq_of_lt leftBound, Nat.mod_eq_of_lt rightBound] at residues

/-- UTF-16 surrogates have no strict UTF-8 form. -/
def CodePoint.IsSurrogate (point : CodePoint) : Prop :=
  0xD800 ≤ point.val ∧ point.val < 0xE000

instance (point : CodePoint) : Decidable point.IsSurrogate :=
  inferInstanceAs (Decidable (_ ∧ _))

/-- The UTF-8 bytes of one scalar value. -/
def CodePoint.utf8 (point : CodePoint) : Bytes :=
  let scalar := point.val
  if scalar < 0x80 then
    [Fin.ofNat 256 scalar]
  else if scalar < 0x800 then
    [Fin.ofNat 256 (0xC0 + scalar / 0x40), Fin.ofNat 256 (0x80 + scalar % 0x40)]
  else if scalar < 0x10000 then
    [Fin.ofNat 256 (0xE0 + scalar / 0x1000), Fin.ofNat 256 (0x80 + scalar / 0x40 % 0x40),
      Fin.ofNat 256 (0x80 + scalar % 0x40)]
  else
    [Fin.ofNat 256 (0xF0 + scalar / 0x40000), Fin.ofNat 256 (0x80 + scalar / 0x1000 % 0x40),
      Fin.ofNat 256 (0x80 + scalar / 0x40 % 0x40), Fin.ofNat 256 (0x80 + scalar % 0x40)]

theorem point_ofNat (point : CodePoint) {value : Nat} (same : value = point.val)
    : (Fin.ofNat 0x110000 value : CodePoint) = point := by
  subst same
  exact Fin.ext (Nat.mod_eq_of_lt point.isLt)

/-- The text has no lone surrogate, so strict encoding succeeds. -/
def Text.Encodable (text : Text) : Prop :=
  ∀ point ∈ text, ¬CodePoint.IsSurrogate point

instance (text : Text) : Decidable text.Encodable :=
  List.decidableBAll (fun point => ¬CodePoint.IsSurrogate point) text

/-- The bytes of an encodable text. -/
def Text.utf8 (text : Text) : Bytes :=
  text.flatMap CodePoint.utf8

/-- `text.encode("utf-8", errors="strict")`; `none` is a `UnicodeEncodeError`. -/
def Text.encode (text : Text) : Option Bytes :=
  if text.Encodable then some text.utf8 else none

private theorem val_ofNat (value : Nat) : (Fin.ofNat 256 value).val = value % 256 :=
  rfl

/-- The lead byte's range fixes the number of bytes, which then fix the scalar.
Witness: the sixteen pairs of widths; unequal widths disagree on the lead byte's range.
-/
theorem CodePoint.utf8_selfDelimiting : SelfDelimiting Set.univ CodePoint.utf8 := by
  intro left right _ _ rest more same
  have leftBound := left.isLt
  have rightBound := right.isLt
  unfold CodePoint.utf8 at same
  dsimp only at same
  split_ifs at same <;>
    simp only [List.cons_append, List.nil_append, List.cons.injEq, Fin.ext_iff,
      val_ofNat] at same <;>
    first
    | (exfalso; omega)
    | (refine ⟨Fin.ext ?_, ?_⟩
       · omega
       · simp_all only)

theorem CodePoint.utf8_ne_nil (point : CodePoint) : point.utf8 ≠ [] := by
  unfold CodePoint.utf8
  dsimp only
  split_ifs <;> simp

theorem CodePoint.length_utf8_le (point : CodePoint) : point.utf8.length ≤ 4 := by
  unfold CodePoint.utf8
  dsimp only
  split_ifs <;> simp

/-- A text takes at least a byte a code point, by list induction. -/
theorem Text.length_le_utf8 (text : Text) : text.length ≤ text.utf8.length := by
  induction text with
  | nil => simp
  | cons point rest ih =>
      have first := List.length_pos_of_ne_nil point.utf8_ne_nil
      simp only [Text.utf8, List.flatMap_cons, List.length_append, List.length_cons] at ih ⊢
      omega

/-- A text takes at most four bytes a code point, by list induction. -/
theorem Text.length_utf8_le (text : Text) : text.utf8.length ≤ 4 * text.length := by
  induction text with
  | nil => simp [Text.utf8]
  | cons point rest ih =>
      have first := point.length_utf8_le
      simp only [Text.utf8, List.flatMap_cons, List.length_append, List.length_cons] at ih ⊢
      omega

@[simp]
theorem Text.utf8_append (left right : Text)
    : Text.utf8 (left ++ right) = left.utf8 ++ right.utf8 := by
  simp [Text.utf8]

/-- Strict UTF-8 loses nothing, by equality of the runs of self-delimiting code points. -/
theorem Text.utf8_injective : Function.Injective Text.utf8 := by
  intro left right same
  exact SelfDelimiting.flatMap_inj CodePoint.utf8_selfDelimiting (fun point _ => point.utf8_ne_nil)
    (fun _ _ => Set.mem_univ _) (fun _ _ => Set.mem_univ _) same

theorem Text.Encodable.of_subset {part text : Text} (encodable : text.Encodable)
    (subset : part ⊆ text)
    : part.Encodable :=
  fun point member => encodable point (subset member)

theorem Text.Encodable.append {left right : Text} (leftEncodable : left.Encodable)
    (rightEncodable : right.Encodable)
    : Text.Encodable (left ++ right) := by
  intro point member
  rcases List.mem_append.mp member with first | second
  · exact leftEncodable point first
  · exact rightEncodable point second

theorem scalar_of_char (char : Char)
    : char.toNat < 0xD800 ∨ 0xDFFF < char.toNat ∧ char.toNat < 0x110000 :=
  char.valid

/-- Characters are scalar values, so they always encode. -/
theorem chars_encodable (chars : List Char)
    : Text.Encodable (chars.map fun char => Fin.ofNat 0x110000 char.toNat) := by
  intro point member
  obtain ⟨char, _, rfl⟩ := List.mem_map.mp member
  have scalar := scalar_of_char char
  simp only [CodePoint.IsSurrogate, Fin.val_ofNat]
  omega

@[simp]
theorem py_encodable (literal : String) : (py literal).Encodable :=
  chars_encodable _

/-- `str(value)` of a non-negative integer. -/
def decimal (value : Nat) : Text :=
  (Nat.toDigits 10 value).map fun char => Fin.ofNat 0x110000 char.toNat

theorem charPoint_injective
    : Function.Injective (fun char : Char => (Fin.ofNat 0x110000 char.toNat : CodePoint)) := by
  intro left right same
  have values : left.toNat % 0x110000 = right.toNat % 0x110000 := congrArg Fin.val same
  apply Char.toNat_inj.mp
  have leftScalar := scalar_of_char left
  have rightScalar := scalar_of_char right
  omega

theorem decimal_injective : Function.Injective decimal := by
  intro left right same
  have digits := List.map_injective_iff.mpr charPoint_injective same
  have values := congrArg (fun run => Nat.ofDigitChars 10 run 0) digits
  simpa only [Nat.ofDigitChars_toDigits (show 1 < 10 by decide) (le_refl 10)] using values

@[simp]
theorem decimal_encodable (value : Nat) : (decimal value).Encodable :=
  chars_encodable _

theorem length_decimal_le {value width : Nat} (positive : 0 < width)
    (bound : value < 10 ^ width)
    : (decimal value).length ≤ width := by
  rw [decimal, List.length_map]
  exact (Nat.length_toDigits_le_iff (by decide) positive).mpr bound

/-- A hash that agrees with a table of digests; elsewhere it is longer than any digest. -/
def tableHash (table : List (Bytes × Nat)) : Bytes → Bytes := fun input =>
  match table.find? fun entry => entry.1 = input with
  | some entry => toBytes 32 entry.2
  | none => toBytes 33 0 ++ input

theorem tableHash_head (key : Bytes) (digest : Nat) (rest : List (Bytes × Nat))
    : tableHash ((key, digest) :: rest) key = toBytes 32 digest := by
  simp [tableHash]

theorem tableHash_tail {key input : Bytes} (other : key ≠ input) (digest : Nat)
    (rest : List (Bytes × Nat))
    : tableHash ((key, digest) :: rest) input = tableHash rest input := by
  simp [tableHash, other]

end Scanipy.Python

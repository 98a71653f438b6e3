import Scanipy.Library.Ranking
import Scanipy.Python.Text

/-! The `json` module on values without floats: minified output, keys sorted, and text that is
not ASCII kept as it is.
-/

namespace Scanipy.Python

open Library

/-- A value that `json` reads or writes. The members of an object are in insertion order. -/
inductive Json where
  | null
  | bool (value : Bool)
  | int (value : Int)
  | str (value : Text)
  | arr (items : List Json)
  | obj (members : List (Text × Json))
  deriving Repr

namespace Json

mutual

/-- Equality is decided along the values. -/
def decEq : (left right : Json) → Decidable (left = right)
  | .null, .null => isTrue rfl
  | .bool left, .bool right =>
      decidable_of_iff (left = right) (by simp)
  | .int left, .int right =>
      decidable_of_iff (left = right) (by simp)
  | .str left, .str right =>
      decidable_of_iff (left = right) (by simp)
  | .arr left, .arr right =>
      have := decEqItems left right
      decidable_of_iff (left = right) (by simp)
  | .obj left, .obj right =>
      have := decEqMembers left right
      decidable_of_iff (left = right) (by simp)
  | .null, .bool _ | .null, .int _ | .null, .str _ | .null, .arr _ | .null, .obj _
  | .bool _, .null | .bool _, .int _ | .bool _, .str _ | .bool _, .arr _ | .bool _, .obj _
  | .int _, .null | .int _, .bool _ | .int _, .str _ | .int _, .arr _ | .int _, .obj _
  | .str _, .null | .str _, .bool _ | .str _, .int _ | .str _, .arr _ | .str _, .obj _
  | .arr _, .null | .arr _, .bool _ | .arr _, .int _ | .arr _, .str _ | .arr _, .obj _
  | .obj _, .null | .obj _, .bool _ | .obj _, .int _ | .obj _, .str _ | .obj _, .arr _ =>
      isFalse nofun

def decEqItems : (left right : List Json) → Decidable (left = right)
  | [], [] => isTrue rfl
  | [], _ :: _ | _ :: _, [] => isFalse nofun
  | left :: lefts, right :: rights =>
      have := decEq left right
      have := decEqItems lefts rights
      decidable_of_iff (left = right ∧ lefts = rights) (by simp)

def decEqMembers : (left right : List (Text × Json)) → Decidable (left = right)
  | [], [] => isTrue rfl
  | [], _ :: _ | _ :: _, [] => isFalse nofun
  | (key, left) :: lefts, (other, right) :: rights =>
      have := decEq left right
      have := decEqMembers lefts rights
      decidable_of_iff ((key = other ∧ left = right) ∧ lefts = rights) (by simp)

end

instance : DecidableEq Json :=
  decEq

/-- The lowercase digit of a value below sixteen. -/
def hexDigit (value : Nat) : CodePoint :=
  Fin.ofNat 0x110000 (if value < 10 then 0x30 + value else 0x57 + value)

/-- `ESCAPE_DCT`: quotes, backslashes and control characters. -/
def escape (point : CodePoint) : Text :=
  if point.val = 0x22 then py "\\\""
  else if point.val = 0x5C then py "\\\\"
  else if point.val = 0x0A then py "\\n"
  else if point.val = 0x0D then py "\\r"
  else if point.val = 0x09 then py "\\t"
  else if point.val = 0x0C then py "\\f"
  else if point.val = 0x08 then py "\\b"
  else if point.val < 0x20 then
    py "\\u00" ++ [hexDigit (point.val / 16), hexDigit (point.val % 16)]
  else [point]

/-- `py_encode_basestring`. -/
def quote (text : Text) : Text :=
  py "\"" ++ text.flatMap escape ++ py "\""

/-- `int.__repr__`. -/
def numeral : Int → Text
  | .ofNat value => decimal value
  | .negSucc value => py "-" ++ decimal (value + 1)

/-- Items with commas between them. -/
def commaSeparated : List Text → Text
  | [] => []
  | [item] => item
  | item :: rest => item ++ py "," ++ commaSeparated rest

mutual

/-- `json.dumps(value, sort_keys=True, separators=(",", ":"), ensure_ascii=False)`. -/
def dumps : Json → Text
  | .null => py "null"
  | .bool true => py "true"
  | .bool false => py "false"
  | .int value => numeral value
  | .str value => quote value
  | .arr items => py "[" ++ commaSeparated (dumpsItems items) ++ py "]"
  | .obj members =>
      py "\x7b"
      ++ commaSeparated ((sortedBy Prod.fst (dumpsMembers members)).map fun member =>
        quote member.1 ++ py ":" ++ member.2)
      ++ py "\x7d"

def dumpsItems : List Json → List Text
  | [] => []
  | item :: rest => dumps item :: dumpsItems rest

def dumpsMembers : List (Text × Json) → List (Text × Text)
  | [] => []
  | (key, value) :: rest => (key, dumps value) :: dumpsMembers rest

end

mutual

/-- The keys and strings of a value encode. -/
@[simp]
def Encodable : Json → Prop
  | .null | .bool _ | .int _ => True
  | .str value => value.Encodable
  | .arr items => EncodableItems items
  | .obj members => EncodableMembers members

@[simp]
def EncodableItems : List Json → Prop
  | [] => True
  | item :: rest => Encodable item ∧ EncodableItems rest

@[simp]
def EncodableMembers : List (Text × Json) → Prop
  | [] => True
  | (key, value) :: rest => key.Encodable ∧ Encodable value ∧ EncodableMembers rest

end

/-- Characters below the surrogates are written as they are encoded. -/
theorem ascii_encodable {text : Text} (ascii : ∀ point ∈ text, point.val < 0x80) : text.Encodable :=
  fun point member surrogate => by
    have low := ascii point member
    have high := surrogate.1
    omega

theorem hexDigit_val_lt {value : Nat} (digit : value < 16) : (hexDigit value).val < 0x80 := by
  have small : (if value < 10 then 0x30 + value else 0x57 + value) < 0x80 := by
    split <;> omega
  exact lt_of_le_of_lt (Nat.mod_le _ _) small

theorem escape_encodable {point : CodePoint} (scalar : ¬point.IsSurrogate)
    : (escape point).Encodable := by
  unfold escape
  split_ifs with _ _ _ _ _ _ _ low
  all_goals try exact py_encodable _
  · refine Text.Encodable.append (py_encodable _) (ascii_encodable ?_)
    intro digit member
    have first : point.val / 16 < 16 := by omega
    have second : point.val % 16 < 16 := by omega
    rcases List.mem_pair.mp member with rfl | rfl
    · exact hexDigit_val_lt first
    · exact hexDigit_val_lt second
  · intro other member
    rw [List.mem_singleton.mp member]
    exact scalar

theorem quote_encodable {text : Text} (encodable : text.Encodable) : (quote text).Encodable := by
  refine Text.Encodable.append (Text.Encodable.append (py_encodable _) ?_)
    (py_encodable _)
  intro point member
  obtain ⟨source, among, escaped⟩ := List.mem_flatMap.mp member
  exact escape_encodable (encodable source among) point escaped

theorem numeral_encodable (value : Int) : (numeral value).Encodable := by
  cases value with
  | ofNat value => exact decimal_encodable value
  | negSucc value =>
      exact Text.Encodable.append (py_encodable _) (decimal_encodable _)

theorem commaSeparated_encodable {items : List Text} (each : ∀ item ∈ items, item.Encodable)
    : (commaSeparated items).Encodable := by
  induction items with
  | nil => exact fun _ member => absurd member List.not_mem_nil
  | cons item rest ih =>
      cases rest with
      | nil => exact each item List.mem_cons_self
      | cons next others =>
          refine Text.Encodable.append (Text.Encodable.append (each item List.mem_cons_self)
            (py_encodable _)) (ih fun other member => ?_)
          exact each other (List.mem_cons_of_mem _ member)

mutual

/-- What is written encodes when the keys and strings do. -/
theorem dumps_encodable : (value : Json) → value.Encodable → value.dumps.Encodable
  | .null, _ => py_encodable _
  | .bool true, _ => py_encodable _
  | .bool false, _ => py_encodable _
  | .int value, _ => numeral_encodable value
  | .str _, encodable => quote_encodable encodable
  | .arr items, encodable => by
      refine Text.Encodable.append (Text.Encodable.append (py_encodable _) ?_)
        (py_encodable _)
      exact commaSeparated_encodable (dumpsItems_encodable items encodable)
  | .obj members, encodable => by
      refine Text.Encodable.append (Text.Encodable.append (py_encodable _) ?_)
        (py_encodable _)
      refine commaSeparated_encodable fun written member => ?_
      obtain ⟨pair, among, rfl⟩ := List.mem_map.mp member
      obtain ⟨key, value⟩ := dumpsMembers_encodable members encodable pair (mem_sortedBy.mp among)
      exact Text.Encodable.append (Text.Encodable.append (quote_encodable key)
        (py_encodable _)) value

theorem dumpsItems_encodable : (items : List Json) → EncodableItems items
    → ∀ written ∈ dumpsItems items, written.Encodable
  | [], _, _, member => absurd member List.not_mem_nil
  | item :: rest, ⟨first, others⟩, written, member => by
      rcases List.mem_cons.mp member with rfl | later
      · exact dumps_encodable item first
      · exact dumpsItems_encodable rest others written later

theorem dumpsMembers_encodable : (members : List (Text × Json)) → EncodableMembers members
    → ∀ written ∈ dumpsMembers members, written.1.Encodable ∧ written.2.Encodable
  | [], _, _, member => absurd member List.not_mem_nil
  | (_, value) :: rest, ⟨key, first, others⟩, written, member => by
      rcases List.mem_cons.mp member with rfl | later
      · exact ⟨key, dumps_encodable value first⟩
      · exact dumpsMembers_encodable rest others written later

end

end Json

/-- The two digits of a byte, as in `bytes.hex`. -/
def hexByte (byte : Byte) : Text :=
  [Json.hexDigit (byte.val / 16), Json.hexDigit (byte.val % 16)]

/-- `data.hex()`. -/
def hex (data : Bytes) : Text :=
  data.flatMap hexByte

@[simp]
theorem hex_encodable (data : Bytes) : (hex data).Encodable := by
  apply Json.ascii_encodable
  intro point member
  obtain ⟨byte, _, inside⟩ := List.mem_flatMap.mp member
  rcases List.mem_pair.mp inside with rfl | rfl
  · exact Json.hexDigit_val_lt (by omega)
  · exact Json.hexDigit_val_lt (by omega)

end Scanipy.Python

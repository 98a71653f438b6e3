import Scanipy.Python.JsonRoundTrip

/-! The tokens of a JSON value: its scalars, keys and containers with their depths. The length of
the written text is the sum of their costs, and sorting the keys of the objects only permutes
them.
-/

namespace Scanipy.Python

open Library

namespace Json

-- Lengths of written parts

variable {text : Text}

theorem length_utf8_ascii (ascii : ∀ point ∈ text, point.val < 0x80)
    : text.utf8.length = text.length := by
  induction text with
  | nil => rfl
  | cons point rest ih =>
      have one : point.utf8.length = 1 := by
        simp [CodePoint.utf8, ascii point List.mem_cons_self]
      have others := ih fun other member => ascii other (List.mem_cons_of_mem _ member)
      rw [Text.utf8] at others ⊢
      simp only [List.flatMap_cons, List.length_append, List.length_cons, one, others]
      omega

/-- The bytes that quoting adds to a character. -/
def escapeCost (point : CodePoint) : Nat :=
  if point.val ∈ [0x22, 0x5C, 0x08, 0x0C, 0x0A, 0x0D, 0x09] then 1
  else if point.val < 32 then 5
  else 0

/-- Quoting adds what the escape table adds. Witness: the branches of the table. -/
theorem length_utf8_escape (point : CodePoint)
    : (escape point).utf8.length = point.utf8.length + escapeCost point := by
  have single : ¬point.val < 0x20 → point.val ≠ 0x22 → point.val ≠ 0x5C → escapeCost point = 0 := by
    intro visible quotation slash
    have listed : point.val ∉ [0x22, 0x5C, 0x08, 0x0C, 0x0A, 0x0D, 0x09] := by
      simp only [List.mem_cons, List.not_mem_nil, or_false]
      omega
    simp [escapeCost, listed, visible]
  have narrow : point.val < 0x80 → point.utf8.length = 1 := by
    intro small
    simp [CodePoint.utf8, small]
  unfold escape
  split_ifs with quotation slash newline feed tab page back control
  · simp [narrow (by omega), escapeCost, quotation, show (py "\\\"").utf8.length = 2 by decide]
  · simp [narrow (by omega), escapeCost, slash, show (py "\\\\").utf8.length = 2 by decide]
  · simp [narrow (by omega), escapeCost, newline, show (py "\\n").utf8.length = 2 by decide]
  · simp [narrow (by omega), escapeCost, feed, show (py "\\r").utf8.length = 2 by decide]
  · simp [narrow (by omega), escapeCost, tab, show (py "\\t").utf8.length = 2 by decide]
  · simp [narrow (by omega), escapeCost, page, show (py "\\f").utf8.length = 2 by decide]
  · simp [narrow (by omega), escapeCost, back, show (py "\\b").utf8.length = 2 by decide]
  · have digits : (Text.utf8 [hexDigit (point.val / 16), hexDigit (point.val % 16)]).length
        = 2 := by
      apply length_utf8_ascii
      intro digit member
      rcases List.mem_pair.mp member with rfl | rfl
      · exact hexDigit_val_lt (by omega)
      · exact hexDigit_val_lt (by omega)
    have listed : point.val ∉ [0x22, 0x5C, 0x08, 0x0C, 0x0A, 0x0D, 0x09] := by
      simp only [List.mem_cons, List.not_mem_nil, or_false]
      omega
    simp only [Text.utf8_append, List.length_append, digits,
      show (py "\\u00").utf8.length = 4 by decide, narrow (by omega), escapeCost, if_neg listed,
      if_pos control]
  · rw [single control quotation slash]
    simp [Text.utf8]

theorem length_utf8_escaped (text : Text)
    : (Text.utf8 (text.flatMap escape)).length
      = text.utf8.length + (text.map escapeCost).sum := by
  induction text with
  | nil => rfl
  | cons point rest ih =>
      have head := length_utf8_escape point
      have tail : Text.utf8 (point :: rest) = point.utf8 ++ Text.utf8 rest := by
        simp [Text.utf8]
      simp only [List.flatMap_cons, Text.utf8_append, List.length_append, ih, head, tail,
        List.map_cons, List.sum_cons]
      omega

/-- A byte that stands in a string as it is. -/
def PlainByte (byte : Byte) : Prop :=
  byte.val ≠ 34 ∧ byte.val ≠ 92 ∧ 32 ≤ byte.val

instance (byte : Byte) : Decidable (PlainByte byte) :=
  inferInstanceAs (Decidable (_ ∧ _))

/-- The bytes of a character that is no control character and needs no escape. -/
theorem plainByte_utf8 {point : CodePoint} (visible : 32 ≤ point.val) (quotation : point.val ≠ 34)
    (slash : point.val ≠ 92)
    : ∀ byte ∈ point.utf8, PlainByte byte := by
  have bound := point.isLt
  have small (value : Nat) : (Fin.ofNat 256 value).val = value % 256 := rfl
  intro byte member
  unfold PlainByte
  unfold CodePoint.utf8 at member
  dsimp only at member
  split_ifs at member with one two three <;>
    simp only [List.mem_cons, List.not_mem_nil, or_false] at member
  · rw [member, small]
    omega
  · rcases member with rfl | rfl <;> rw [small] <;> omega
  · rcases member with rfl | rfl | rfl <;> rw [small] <;> omega
  · rcases member with rfl | rfl | rfl | rfl <;> rw [small] <;> omega

/-- Bytes between quotation marks: plain ones, and pairs that begin with a backslash. -/
inductive Quotable : Bytes → Prop where
  | nil : Quotable []
  | plain {byte : Byte} {rest : Bytes} : PlainByte byte → Quotable rest → Quotable (byte :: rest)
  | pair (letter : Byte) {rest : Bytes}
      : Quotable rest → Quotable (Fin.ofNat 256 92 :: letter :: rest)

theorem Quotable.append {first second : Bytes} (one : Quotable first) (two : Quotable second)
    : Quotable (first ++ second) := by
  induction one with
  | nil => exact two
  | plain byte _ ih => exact .plain byte ih
  | pair letter _ ih => exact .pair letter ih

theorem quotable_plains {data : Bytes} (each : ∀ byte ∈ data, PlainByte byte) : Quotable data := by
  induction data with
  | nil => exact .nil
  | cons byte rest ih =>
      obtain ⟨first, others⟩ := List.forall_mem_cons.mp each
      exact .plain first (ih others)

theorem utf8_punctuation
    : (py "[").utf8 = [Fin.ofNat 256 91] ∧ (py "]").utf8 = [Fin.ofNat 256 93]
      ∧ (py "\x7b").utf8 = [Fin.ofNat 256 123] ∧ (py "\x7d").utf8 = [Fin.ofNat 256 125]
      ∧ (py ",").utf8 = [Fin.ofNat 256 44] ∧ (py ":").utf8 = [Fin.ofNat 256 58] := by
  decide

/-- Witness: the branches of the escape table. -/
theorem quotable_escape (point : CodePoint) : Quotable (escape point).utf8 := by
  unfold escape
  split_ifs with quotation slash newline feed tab page back control
  · exact .pair _ .nil
  · exact .pair _ .nil
  · exact .pair _ .nil
  · exact .pair _ .nil
  · exact .pair _ .nil
  · exact .pair _ .nil
  · exact .pair _ .nil
  · have spelled : (py "\\u00").utf8
        = [Fin.ofNat 256 92, Fin.ofNat 256 117] ++ [Fin.ofNat 256 48, Fin.ofNat 256 48] := by decide
    have digit : ∀ value < 16, 32 ≤ (hexDigit value).val
        ∧ (hexDigit value).val ≠ 34 ∧ (hexDigit value).val ≠ 92 := by
      decide
    rw [Text.utf8_append, spelled]
    simp only [List.cons_append, List.nil_append]
    refine .pair _ (.plain (by decide) (.plain (by decide) (quotable_plains ?_)))
    intro byte member
    simp only [Text.utf8, List.flatMap_cons, List.flatMap_nil, List.append_nil, List.mem_append]
      at member
    rcases member with high | low
    · obtain ⟨visible, quotation, slash⟩ := digit _ (by omega : point.val / 16 < 16)
      exact plainByte_utf8 visible quotation slash byte high
    · obtain ⟨visible, quotation, slash⟩ := digit _ (by omega : point.val % 16 < 16)
      exact plainByte_utf8 visible quotation slash byte low
  · have single : Text.utf8 [point] = point.utf8 := by simp [Text.utf8]
    rw [single]
    exact quotable_plains (plainByte_utf8 (by omega) quotation slash)

/-- The text of a string does not end it early, by list induction. -/
theorem quotable_escaped (text : Text) : Quotable (Text.utf8 (text.flatMap escape)) := by
  induction text with
  | nil => exact .nil
  | cons point rest ih =>
      rw [List.flatMap_cons, Text.utf8_append]
      exact (quotable_escape point).append ih

/-- The bytes of a quoted text. -/
def quoteCost (text : Text) : Nat :=
  2 + text.utf8.length + (text.map escapeCost).sum

theorem length_utf8_quote (text : Text) : (quote text).utf8.length = quoteCost text := by
  simp only [quote, Text.utf8_append, List.length_append, length_utf8_escaped, quoteCost,
    show (py "\"").utf8.length = 1 by decide]
  omega

/-- Visible ASCII text without quotes and backslashes is quoted as it is. -/
theorem quoteCost_plain
    (plain : ∀ point ∈ text, 32 ≤ point.val ∧ point.val < 0x80 ∧ point.val ≠ 0x22
      ∧ point.val ≠ 0x5C)
    : quoteCost text = text.length + 2 := by
  have free : ∀ point ∈ text, escapeCost point = 0 := by
    intro point member
    obtain ⟨visible, _, quotation, slash⟩ := plain point member
    have listed : point.val ∉ [0x22, 0x5C, 0x08, 0x0C, 0x0A, 0x0D, 0x09] := by
      simp only [List.mem_cons, List.not_mem_nil, or_false]
      omega
    rw [escapeCost, if_neg listed, if_neg (by omega)]
  have ascii := length_utf8_ascii fun point member => (plain point member).2.1
  rw [quoteCost, ascii, List.map_congr_left free, List.map_const', List.sum_replicate_nat]
  omega

theorem length_utf8_numeral (value : Int)
    : (numeral value).utf8.length = (numeral value).length := by
  have digits (value : Nat) : ∀ point ∈ decimal value, point.val < 0x80 := by
    intro point member
    have digit := (decimal_shape value).1 point member
    unfold IsDigit at digit
    omega
  apply length_utf8_ascii
  cases value with
  | ofNat value => exact digits value
  | negSucc value =>
      intro point member
      have spelled : py "-" = [Fin.ofNat 0x110000 0x2D] := by decide
      rcases List.mem_append.mp member with sign | digit
      · rw [spelled, List.mem_singleton] at sign
        rw [sign]
        decide
      · exact digits _ point digit

/-- The numerals of signed 64-bit integers. -/
theorem length_numeral_le {value : Int} (low : -(2 ^ 63) ≤ value) (high : value < 2 ^ 63)
    : (numeral value).length ≤ 20 := by
  cases value with
  | ofNat value =>
      have small : value < 2 ^ 63 := Int.ofNat_lt.mp high
      exact length_decimal_le (by decide) (lt_trans small (by decide))
  | negSucc value =>
      have digits : (decimal (value + 1)).length ≤ 19 :=
        length_decimal_le (by decide)
          (lt_of_le_of_lt (show value + 1 ≤ 2 ^ 63 by omega) (by decide))
      have sign : (py "-").length = 1 := by decide
      rw [numeral, List.length_append, sign]
      omega

theorem length_utf8_commaSeparated (texts : List Text)
    : (commaSeparated texts).utf8.length
      = (texts.map fun text => text.utf8.length).sum + (texts.length - 1) := by
  induction texts with
  | nil => rfl
  | cons text rest ih =>
      cases rest with
      | nil => simp [commaSeparated]
      | cons next others =>
          simp only [commaSeparated, Text.utf8_append, List.length_append, ih, List.map_cons,
            List.sum_cons, List.length_cons, show (py ",").utf8.length = 1 by decide]
          omega

-- Tokens

/-- A scalar, a key, or a container with the number of its items or members. -/
inductive Token where
  | null
  | bool (value : Bool)
  | int (value : Int)
  | str (value : Text)
  | arr (count : Nat)
  | obj (count : Nat)
  deriving DecidableEq, Repr

/-- The bytes that a token writes, commas, colons and brackets included. -/
def Token.cost : Token → Nat
  | .null => 4
  | .bool value => if value then 4 else 5
  | .int value => (numeral value).length
  | .str value => quoteCost value
  | .arr count => 2 + (count - 1)
  | .obj count => 2 + count + (count - 1)

mutual

/-- The tokens of a value with their depths; a container stands above its parts. -/
def tokens (depth : Nat) : Json → List (Token × Nat)
  | .null => [(.null, depth)]
  | .bool value => [(.bool value, depth)]
  | .int value => [(.int value, depth)]
  | .str value => [(.str value, depth)]
  | .arr items => (.arr items.length, depth) :: tokensItems (depth + 1) items
  | .obj members => (.obj members.length, depth) :: tokensMembers (depth + 1) members

def tokensItems (depth : Nat) : List Json → List (Token × Nat)
  | [] => []
  | item :: rest => tokens depth item ++ tokensItems depth rest

def tokensMembers (depth : Nat) : List (Text × Json) → List (Token × Nat)
  | [] => []
  | (key, value) :: rest => (.str key, depth) :: (tokens depth value ++ tokensMembers depth rest)

end

theorem tokensItems_eq (depth : Nat) (items : List Json)
    : tokensItems depth items = items.flatMap (tokens depth) := by
  induction items with
  | nil => rfl
  | cons item rest ih => rw [tokensItems, ih, List.flatMap_cons]

/-- The tokens of a member. -/
def memberTokens (depth : Nat) (member : Text × Json) : List (Token × Nat) :=
  (.str member.1, depth) :: tokens depth member.2

theorem tokensMembers_eq (depth : Nat) (members : List (Text × Json))
    : tokensMembers depth members = members.flatMap (memberTokens depth) := by
  induction members with
  | nil => rfl
  | cons member rest ih =>
      obtain ⟨key, value⟩ := member
      rw [tokensMembers, ih, List.flatMap_cons, memberTokens, List.cons_append]

/-- The tokens without their depths. -/
def leaves (value : Json) : List Token :=
  (tokens 0 value).map Prod.fst

mutual

theorem map_fst_tokens (depth : Nat)
    : (value : Json) → (tokens depth value).map Prod.fst = leaves value
  | .null | .bool _ | .int _ | .str _ => rfl
  | .arr items => by
      simp only [tokens, leaves, List.map_cons, map_fst_tokensItems (depth + 1) (0 + 1) items]
  | .obj members => by
      simp only [tokens, leaves, List.map_cons, map_fst_tokensMembers (depth + 1) (0 + 1) members]

theorem map_fst_tokensItems (depth other : Nat)
    : (items : List Json)
      → (tokensItems depth items).map Prod.fst = (tokensItems other items).map Prod.fst
  | [] => rfl
  | item :: rest => by
      rw [tokensItems, tokensItems, List.map_append, List.map_append, map_fst_tokens depth item,
        map_fst_tokens other item, map_fst_tokensItems depth other rest]

theorem map_fst_tokensMembers (depth other : Nat)
    : (members : List (Text × Json))
      → (tokensMembers depth members).map Prod.fst = (tokensMembers other members).map Prod.fst
  | [] => rfl
  | (key, value) :: rest => by
      rw [tokensMembers, tokensMembers, List.map_cons, List.map_cons, List.map_append,
        List.map_append, map_fst_tokens depth value, map_fst_tokens other value,
        map_fst_tokensMembers depth other rest]

end

theorem leaves_arr (items : List Json)
    : leaves (.arr items) = .arr items.length :: items.flatMap leaves := by
  rw [leaves, tokens, List.map_cons, tokensItems_eq, List.map_flatMap]
  simp only [map_fst_tokens]

theorem leaves_obj (members : List (Text × Json))
    : leaves (.obj members)
      = .obj members.length :: members.flatMap fun member => .str member.1 :: leaves member.2 := by
  rw [leaves, tokens, List.map_cons, tokensMembers_eq, List.map_flatMap]
  simp only [memberTokens, List.map_cons, map_fst_tokens]

theorem length_leaves (depth : Nat) (value : Json)
    : (leaves value).length = (tokens depth value).length := by
  rw [← map_fst_tokens depth, List.length_map]

variable {value : Json}

/-- What holds of every token, whatever its depth. -/
theorem forall_leaves_iff {holds : Token → Prop} (depth : Nat)
    : (∀ token ∈ leaves value, holds token) ↔ ∀ entry ∈ tokens depth value, holds entry.1 := by
  rw [← map_fst_tokens depth, List.forall_mem_map]

theorem length_tokens_pos (depth : Nat) (value : Json) : 0 < (tokens depth value).length := by
  cases value <;> simp [tokens]

theorem length_le_tokensItems (depth : Nat) (items : List Json)
    : items.length ≤ (tokensItems depth items).length := by
  induction items with
  | nil => exact Nat.zero_le _
  | cons item rest ih =>
      have positive := length_tokens_pos depth item
      simp only [List.length_cons, tokensItems, List.length_append]
      omega

theorem length_le_tokensMembers (depth : Nat) (members : List (Text × Json))
    : 2 * members.length ≤ (tokensMembers depth members).length := by
  induction members with
  | nil => exact Nat.zero_le _
  | cons member rest ih =>
      obtain ⟨key, value⟩ := member
      have positive := length_tokens_pos depth value
      simp only [List.length_cons, tokensMembers, List.length_append]
      omega

/-- The bytes of a list of tokens. -/
def cost (found : List (Token × Nat)) : Nat :=
  (found.map fun entry => entry.1.cost).sum

@[simp]
theorem cost_nil : cost [] = 0 :=
  rfl

@[simp]
theorem cost_cons (entry : Token × Nat) (rest : List (Token × Nat))
    : cost (entry :: rest) = entry.1.cost + cost rest :=
  rfl

@[simp]
theorem cost_append (first second : List (Token × Nat))
    : cost (first ++ second) = cost first + cost second := by
  simp [cost]

theorem cost_perm {first second : List (Token × Nat)} (perm : first.Perm second)
    : cost first = cost second :=
  (perm.map _).sum_nat

theorem cost_le_of_mem {entry : Token × Nat} {found : List (Token × Nat)} (member : entry ∈ found)
    : entry.1.cost ≤ cost found := by
  induction found with
  | nil => cases member
  | cons head rest ih =>
      rw [cost_cons]
      rcases List.mem_cons.mp member with rfl | later
      · omega
      · have := ih later
        omega

/-- The bytes of a member that has been written. -/
def writtenMember (member : Text × Text) : Nat :=
  quoteCost member.1 + 1 + member.2.utf8.length

mutual

/-- The text of a value has the length of its tokens, at any depth. By recursion on the value. -/
theorem length_utf8_dumps (depth : Nat) : (value : Json)
    → value.dumps.utf8.length = cost (tokens depth value)
  | .null => rfl
  | .bool true => rfl
  | .bool false => rfl
  | .int value => by
      rw [dumps, length_utf8_numeral]
      rfl
  | .str value => by
      rw [dumps, length_utf8_quote]
      rfl
  | .arr items => by
      have each := length_utf8_dumpsItems (depth + 1) items
      rw [dumpsItems_eq] at each
      simp only [dumps, Text.utf8_append, List.length_append, length_utf8_commaSeparated, tokens,
        cost_cons, Token.cost, show (py "[").utf8.length = 1 by decide,
        show (py "]").utf8.length = 1 by decide, dumpsItems_eq, each, List.length_map]
      omega
  | .obj members => by
      have each := length_utf8_dumpsMembers (depth + 1) members
      have sorted := sortedBy_perm Prod.fst (dumpsMembers members)
      have total := (sorted.map writtenMember).sum_nat
      have count := sorted.length_eq
      rw [each] at total
      rw [dumpsMembers_eq members, List.length_map] at count
      have written : (fun text => List.length (Text.utf8 text))
            ∘ (fun member : Text × Text => quote member.1 ++ py ":" ++ member.2)
          = writtenMember := by
        funext member
        simp only [Function.comp_apply, Text.utf8_append, List.length_append, length_utf8_quote,
          writtenMember, show (py ":").utf8.length = 1 by decide]
      rw [dumps, Text.utf8_append, Text.utf8_append, List.length_append, List.length_append,
        length_utf8_commaSeparated, List.map_map, List.length_map, written, total, tokens,
        cost_cons, dumpsMembers_eq, count]
      simp only [Token.cost, show (py "\x7b").utf8.length = 1 by decide,
        show (py "\x7d").utf8.length = 1 by decide]
      omega

theorem length_utf8_dumpsItems (depth : Nat) : (items : List Json)
    → ((dumpsItems items).map fun text => text.utf8.length).sum = cost (tokensItems depth items)
  | [] => rfl
  | item :: rest => by
      simp only [dumpsItems, List.map_cons, List.sum_cons, tokensItems, cost_append,
        length_utf8_dumps depth item, length_utf8_dumpsItems depth rest]

theorem length_utf8_dumpsMembers (depth : Nat) : (members : List (Text × Json))
    → ((dumpsMembers members).map writtenMember).sum
      = cost (tokensMembers depth members) + members.length
  | [] => rfl
  | (key, value) :: rest => by
      simp only [dumpsMembers, List.map_cons, List.sum_cons, tokensMembers, cost_cons, cost_append,
        Token.cost, writtenMember, length_utf8_dumps depth value, length_utf8_dumpsMembers depth rest,
        List.length_cons]
      omega

end

-- Sorting the keys

mutual

/-- The value with the members of every object in the order of their keys. Dictionaries compare
without their order, so it is the same value to Python.
-/
def sortKeys : Json → Json
  | .null => .null
  | .bool value => .bool value
  | .int value => .int value
  | .str value => .str value
  | .arr items => .arr (sortKeysItems items)
  | .obj members => .obj (sortedBy Prod.fst (sortKeysMembers members))

def sortKeysItems : List Json → List Json
  | [] => []
  | item :: rest => sortKeys item :: sortKeysItems rest

def sortKeysMembers : List (Text × Json) → List (Text × Json)
  | [] => []
  | (key, value) :: rest => (key, sortKeys value) :: sortKeysMembers rest

end

mutual

/-- No object has a key twice, as in every dictionary. -/
@[simp]
def Distinct : Json → Prop
  | .null | .bool _ | .int _ | .str _ => True
  | .arr items => DistinctItems items
  | .obj members => (members.map Prod.fst).Nodup ∧ DistinctMembers members

@[simp]
def DistinctItems : List Json → Prop
  | [] => True
  | item :: rest => Distinct item ∧ DistinctItems rest

@[simp]
def DistinctMembers : List (Text × Json) → Prop
  | [] => True
  | (_, value) :: rest => Distinct value ∧ DistinctMembers rest

end

theorem sortKeysItems_eq (items : List Json) : sortKeysItems items = items.map sortKeys := by
  induction items with
  | nil => rfl
  | cons item rest ih => rw [sortKeysItems, ih, List.map_cons]

theorem sortKeysMembers_eq (members : List (Text × Json))
    : sortKeysMembers members = members.map fun member => (member.1, sortKeys member.2) := by
  induction members with
  | nil => rfl
  | cons member rest ih =>
      obtain ⟨key, value⟩ := member
      rw [sortKeysMembers, ih, List.map_cons]

theorem keys_sortKeysMembers (members : List (Text × Json))
    : (sortKeysMembers members).map Prod.fst = members.map Prod.fst := by
  simp [sortKeysMembers_eq, Function.comp_def]

mutual

/-- Sorting the keys does not change the text. By recursion on the value. -/
theorem dumps_sortKeys : (value : Json) → dumps (sortKeys value) = dumps value
  | .null | .bool _ | .int _ | .str _ => rfl
  | .arr items => by
      rw [sortKeys, dumps, dumps, dumpsItems_sortKeys items]
  | .obj members => by
      have written := dumpsMembers_sortKeys members
      rw [dumpsMembers_eq] at written
      rw [sortKeys, dumps, dumps, ← written, dumpsMembers_eq, sortedBy_map, sortedBy_map,
        sortedBy_sortedBy]

theorem dumpsItems_sortKeys
    : (items : List Json) → dumpsItems (sortKeysItems items) = dumpsItems items
  | [] => rfl
  | item :: rest => by
      rw [sortKeysItems, dumpsItems, dumpsItems, dumps_sortKeys item, dumpsItems_sortKeys rest]

theorem dumpsMembers_sortKeys
    : (members : List (Text × Json))
      → dumpsMembers (sortKeysMembers members) = dumpsMembers members
  | [] => rfl
  | (key, value) :: rest => by
      rw [sortKeysMembers, dumpsMembers, dumpsMembers, dumps_sortKeys value,
        dumpsMembers_sortKeys rest]

end

variable {items : List Json}

theorem canonicalItems_iff
    : CanonicalItems items ↔ ∀ item ∈ items, item.Canonical := by
  induction items with
  | nil => simp
  | cons item rest ih => simp [ih]

variable {members : List (Text × Json)}

theorem canonicalMembers_iff
    : CanonicalMembers members ↔ ∀ member ∈ members, member.2.Canonical := by
  induction members with
  | nil => simp
  | cons member rest ih =>
      obtain ⟨key, value⟩ := member
      simp [ih]

theorem distinctItems_iff
    : DistinctItems items ↔ ∀ item ∈ items, item.Distinct := by
  induction items with
  | nil => simp
  | cons item rest ih => simp [ih]

theorem distinctMembers_iff
    : DistinctMembers members ↔ ∀ member ∈ members, member.2.Distinct := by
  induction members with
  | nil => simp
  | cons member rest ih =>
      obtain ⟨key, value⟩ := member
      simp [ih]

mutual

/-- A dictionary has one sorted form. By recursion on the value. -/
theorem canonical_sortKeys : (value : Json) → value.Distinct → (sortKeys value).Canonical
  | .null, _ | .bool _, _ | .int _, _ | .str _, _ => trivial
  | .arr items, distinct => canonicalItems_sortKeys items distinct
  | .obj members, ⟨distinct, nested⟩ => by
      have perm := sortedBy_perm Prod.fst (sortKeysMembers members)
      have keys : ((sortedBy Prod.fst (sortKeysMembers members)).map Prod.fst).Nodup := by
        rw [(perm.map Prod.fst).nodup_iff, keys_sortKeysMembers]
        exact distinct
      have ordered := List.pairwise_map.mpr (sortedBy_pairwise Prod.fst (sortKeysMembers members))
      refine ⟨(ordered.and keys).imp fun below => lt_of_le_of_ne below.1 below.2, ?_⟩
      have each := canonicalMembers_sortKeys members nested
      rw [canonicalMembers_iff] at each ⊢
      exact fun member listed => each member (perm.mem_iff.mp listed)

theorem canonicalItems_sortKeys
    : (items : List Json) → DistinctItems items → CanonicalItems (sortKeysItems items)
  | [], _ => trivial
  | item :: rest, ⟨head, tail⟩ => ⟨canonical_sortKeys item head, canonicalItems_sortKeys rest tail⟩

theorem canonicalMembers_sortKeys
    : (members : List (Text × Json)) → DistinctMembers members
      → CanonicalMembers (sortKeysMembers members)
  | [], _ => trivial
  | (_, value) :: rest, ⟨head, tail⟩ =>
      ⟨canonical_sortKeys value head, canonicalMembers_sortKeys rest tail⟩

end

mutual

/-- Sorted keys stay as they are. By recursion on the value. -/
theorem sortKeys_of_canonical : (value : Json) → value.Canonical → sortKeys value = value
  | .null, _ | .bool _, _ | .int _, _ | .str _, _ => rfl
  | .arr items, canonical => by rw [sortKeys, sortKeysItems_of_canonical items canonical]
  | .obj members, ⟨ordered, canonical⟩ => by
      rw [sortKeys, sortKeysMembers_of_canonical members canonical, sortedBy_eq_self ordered]

theorem sortKeysItems_of_canonical
    : (items : List Json) → CanonicalItems items → sortKeysItems items = items
  | [], _ => rfl
  | item :: rest, ⟨head, tail⟩ => by
      rw [sortKeysItems, sortKeys_of_canonical item head, sortKeysItems_of_canonical rest tail]

theorem sortKeysMembers_of_canonical
    : (members : List (Text × Json)) → CanonicalMembers members
      → sortKeysMembers members = members
  | [], _ => rfl
  | (key, value) :: rest, ⟨head, tail⟩ => by
      rw [sortKeysMembers, sortKeys_of_canonical value head, sortKeysMembers_of_canonical rest tail]

end

mutual

/-- Sorting the keys permutes the tokens. By recursion on the value. -/
theorem tokens_sortKeys (depth : Nat)
    : (value : Json) → (tokens depth (sortKeys value)).Perm (tokens depth value)
  | .null | .bool _ | .int _ | .str _ => .refl _
  | .arr items => by
      rw [sortKeys, tokens, tokens, sortKeysItems_eq, List.length_map, ← sortKeysItems_eq]
      exact (tokensItems_sortKeys (depth + 1) items).cons _
  | .obj members => by
      have perm := sortedBy_perm Prod.fst (sortKeysMembers members)
      have count : (sortedBy Prod.fst (sortKeysMembers members)).length = members.length := by
        rw [perm.length_eq, sortKeysMembers_eq, List.length_map]
      rw [sortKeys, tokens, tokens, count]
      refine .cons _ (.trans ?_ (tokensMembers_sortKeys (depth + 1) members))
      rw [tokensMembers_eq, tokensMembers_eq]
      exact perm.flatMap_right _

theorem tokensItems_sortKeys (depth : Nat)
    : (items : List Json)
      → (tokensItems depth (sortKeysItems items)).Perm (tokensItems depth items)
  | [] => .refl _
  | item :: rest => by
      rw [sortKeysItems, tokensItems, tokensItems]
      exact (tokens_sortKeys depth item).append (tokensItems_sortKeys depth rest)

theorem tokensMembers_sortKeys (depth : Nat)
    : (members : List (Text × Json))
      → (tokensMembers depth (sortKeysMembers members)).Perm (tokensMembers depth members)
  | [] => .refl _
  | (key, value) :: rest => by
      rw [sortKeysMembers, tokensMembers, tokensMembers]
      exact ((tokens_sortKeys depth value).append (tokensMembers_sortKeys depth rest)).cons _

end

/-- Permuted dictionaries with their distinct keys in the same order are equal, by list
induction.
-/
theorem eq_of_perm_of_keys {β : Type} {left right : List (Text × β)}
    (keys : left.map Prod.fst = right.map Prod.fst) (distinct : (left.map Prod.fst).Nodup)
    (perm : left.Perm right)
    : left = right := by
  induction left generalizing right with
  | nil => exact (List.perm_nil.mp perm.symm).symm
  | cons member rest ih =>
      cases right with
      | nil => exact absurd perm.length_eq (by simp)
      | cons other others =>
          obtain ⟨key, tail⟩ := List.cons.inj keys
          obtain ⟨fresh, distinct⟩ := List.nodup_cons.mp distinct
          have head : member = other := by
            rcases List.mem_cons.mp (perm.mem_iff.mp List.mem_cons_self) with same | later
            · exact same
            · exact absurd (tail ▸ List.mem_map_of_mem later) fresh
          subst head
          rw [ih tail distinct (List.Perm.cons_inv perm)]

mutual

/-- By recursion on the value. -/
theorem distinct_of_canonical : (value : Json) → value.Canonical → value.Distinct
  | .null, _ | .bool _, _ | .int _, _ | .str _, _ => trivial
  | .arr items, canonical => distinctItems_of_canonical items canonical
  | .obj members, ⟨ordered, canonical⟩ =>
      ⟨ordered.imp ne_of_lt, distinctMembers_of_canonical members canonical⟩

theorem distinctItems_of_canonical
    : (items : List Json) → CanonicalItems items → DistinctItems items
  | [], _ => trivial
  | item :: rest, ⟨head, tail⟩ =>
      ⟨distinct_of_canonical item head, distinctItems_of_canonical rest tail⟩

theorem distinctMembers_of_canonical
    : (members : List (Text × Json)) → CanonicalMembers members → DistinctMembers members
  | [], _ => trivial
  | (_, value) :: rest, ⟨head, tail⟩ =>
      ⟨distinct_of_canonical value head, distinctMembers_of_canonical rest tail⟩

end

variable {left right : List (Text × Json)}

/-- Objects with the same sorted form list as many members. -/
theorem length_eq_of_sortKeys (same : sortKeys (.obj left) = sortKeys (.obj right))
    : left.length = right.length := by
  have lengths := congrArg List.length (Json.obj.inj same)
  rwa [(sortedBy_perm _ _).length_eq, (sortedBy_perm _ _).length_eq, sortKeysMembers_eq,
    sortKeysMembers_eq, List.length_map, List.length_map] at lengths

/-- Objects with the same sorted form and the same keys in the same order have the same members,
up to the order inside them.
-/
theorem members_eq_of_sortKeys (keys : left.map Prod.fst = right.map Prod.fst)
    (distinct : (left.map Prod.fst).Nodup) (same : sortKeys (.obj left) = sortKeys (.obj right))
    : left.map (fun member => (member.1, sortKeys member.2))
      = right.map fun member => (member.1, sortKeys member.2) := by
  have perm : (left.map fun member => (member.1, sortKeys member.2)).Perm
      (right.map fun member => (member.1, sortKeys member.2)) := by
    rw [← sortKeysMembers_eq, ← sortKeysMembers_eq]
    have sorted := sortedBy_perm Prod.fst (sortKeysMembers left)
    rw [Json.obj.inj same] at sorted
    exact sorted.symm.trans (sortedBy_perm Prod.fst (sortKeysMembers right))
  refine eq_of_perm_of_keys ?_ ?_ perm
  · simpa [Function.comp_def] using keys
  · simpa [Function.comp_def] using distinct

/-- The text has no control character. -/
def Uncontrolled (text : Text) : Prop :=
  ∀ point ∈ text, 0x20 ≤ point.val

theorem Uncontrolled.append {left right : Text} (first : Uncontrolled left)
    (second : Uncontrolled right)
    : Uncontrolled (left ++ right) := by
  intro point member
  rcases List.mem_append.mp member with inLeft | inRight
  · exact first point inLeft
  · exact second point inRight

theorem uncontrolled_hexDigit {value : Nat} (digit : value < 16) : 0x20 ≤ (hexDigit value).val := by
  have table : ∀ value < 16, 0x20 ≤ (hexDigit value).val := by decide
  exact table value digit

theorem uncontrolled_py {literal : String}
    (printable : (literal.toList.all fun char => 0x20 ≤ char.toNat) = true)
    : Uncontrolled (py literal) := by
  intro point member
  obtain ⟨char, among, rfl⟩ := List.mem_map.mp member
  have visible := of_decide_eq_true (List.all_eq_true.mp printable char among)
  have scalar := scalar_of_char char
  simp only [Fin.val_ofNat]
  omega

/-- Control characters are escaped. Witness: the branches of the table. -/
theorem uncontrolled_escape (point : CodePoint) : Uncontrolled (escape point) := by
  unfold escape
  split_ifs with _ _ _ _ _ _ _ low
  all_goals try exact uncontrolled_py rfl
  · refine (uncontrolled_py rfl).append fun digit member => ?_
    rcases List.mem_pair.mp member with rfl | rfl
    · exact uncontrolled_hexDigit (by omega)
    · exact uncontrolled_hexDigit (by omega)
  · intro other member
    rw [List.mem_singleton.mp member]
    omega

theorem uncontrolled_quote (text : Text) : Uncontrolled (quote text) := by
  have mark : Uncontrolled (py "\"") := uncontrolled_py rfl
  refine (mark.append fun point member => ?_).append mark
  obtain ⟨source, _, escaped⟩ := List.mem_flatMap.mp member
  exact uncontrolled_escape source point escaped

theorem uncontrolled_numeral (value : Int) : Uncontrolled (numeral value) := by
  have digits (value : Nat) : Uncontrolled (decimal value) := by
    intro point member
    have digit := (decimal_shape value).1 point member
    unfold IsDigit at digit
    omega
  have sign : Uncontrolled (py "-") := uncontrolled_py rfl
  cases value with
  | ofNat value => exact digits value
  | negSucc value => exact sign.append (digits _)

theorem uncontrolled_commaSeparated {texts : List Text} (each : ∀ text ∈ texts, Uncontrolled text)
    : Uncontrolled (commaSeparated texts) := by
  have comma : Uncontrolled (py ",") := uncontrolled_py rfl
  induction texts with
  | nil => exact fun _ member => absurd member List.not_mem_nil
  | cons text rest ih =>
      cases rest with
      | nil => exact each text List.mem_cons_self
      | cons next others =>
          refine ((each text List.mem_cons_self).append comma).append (ih fun other member => ?_)
          exact each other (List.mem_cons_of_mem _ member)

mutual

/-- No control character is written, by recursion on the value. -/
theorem uncontrolled_dumps : (value : Json) → Uncontrolled value.dumps
  | .null | .bool true | .bool false => uncontrolled_py rfl
  | .int value => uncontrolled_numeral value
  | .str text => uncontrolled_quote text
  | .arr items => by
      have inside := uncontrolled_commaSeparated (uncontrolled_dumpsItems items)
      exact ((uncontrolled_py rfl).append inside).append (uncontrolled_py rfl)
  | .obj members => by
      refine ((uncontrolled_py rfl).append (uncontrolled_commaSeparated fun text listed => ?_)).append
        (uncontrolled_py rfl)
      obtain ⟨member, among, rfl⟩ := List.mem_map.mp listed
      exact ((uncontrolled_quote _).append (uncontrolled_py rfl)).append
        (uncontrolled_dumpsMembers members member (mem_sortedBy.mp among))

theorem uncontrolled_dumpsItems : (items : List Json)
    → ∀ text ∈ dumpsItems items, Uncontrolled text
  | [], _, listed => absurd listed List.not_mem_nil
  | item :: rest, text, listed => by
      rcases List.mem_cons.mp listed with rfl | later
      · exact uncontrolled_dumps item
      · exact uncontrolled_dumpsItems rest text later

theorem uncontrolled_dumpsMembers : (members : List (Text × Json))
    → ∀ member ∈ dumpsMembers members, Uncontrolled member.2
  | [], _, listed => absurd listed List.not_mem_nil
  | (_, value) :: rest, member, listed => by
      rcases List.mem_cons.mp listed with rfl | later
      · exact uncontrolled_dumps value
      · exact uncontrolled_dumpsMembers rest member later

end

mutual

/-- A value encodes when its strings and keys do. By recursion on the value. -/
theorem encodable_of_leaves
    : (value : Json) → (∀ text, .str text ∈ value.leaves → text.Encodable) → value.Encodable
  | .null, _ | .bool _, _ | .int _, _ => trivial
  | .str text, each => each text List.mem_cons_self
  | .arr items, each => by
      refine encodableItems_of_leaves items fun text listed => each text ?_
      rw [leaves_arr]
      exact List.mem_cons_of_mem _ listed
  | .obj members, each => by
      refine encodableMembers_of_leaves members fun text listed => each text ?_
      rw [leaves_obj]
      exact List.mem_cons_of_mem _ listed

theorem encodableItems_of_leaves
    : (items : List Json) → (∀ text, .str text ∈ items.flatMap leaves → text.Encodable)
      → EncodableItems items
  | [], _ => trivial
  | item :: rest, each => by
      rw [List.flatMap_cons] at each
      exact ⟨encodable_of_leaves item fun text listed => each text (List.mem_append_left _ listed),
        encodableItems_of_leaves rest fun text listed => each text (List.mem_append_right _ listed)⟩

theorem encodableMembers_of_leaves
    : (members : List (Text × Json))
      → (∀ text, .str text ∈ (members.flatMap fun member => .str member.1 :: leaves member.2)
          → text.Encodable)
      → EncodableMembers members
  | [], _ => trivial
  | (key, value) :: rest, each => by
      rw [List.flatMap_cons, List.cons_append] at each
      exact ⟨each key List.mem_cons_self,
        encodable_of_leaves value fun text listed =>
          each text (List.mem_cons_of_mem _ (List.mem_append_left _ listed)),
        encodableMembers_of_leaves rest fun text listed =>
          each text (List.mem_cons_of_mem _ (List.mem_append_right _ listed))⟩

end

-- Dictionaries that are read

section Reading

variable {ε : Type} {hook : List (Text × Json) → Except ε (List (Text × Json))} {invalid : ε}

/-- The hook returns its members, and only where no key repeats. -/
def RefusesRepeated (hook : List (Text × Json) → Except ε (List (Text × Json))) : Prop :=
  ∀ members result, hook members = .ok result
    → result = members ∧ (members.map Prod.fst).Nodup

theorem expect_ok {α : Type} {found : Option α} {value : α}
    : expect invalid found = .ok value ↔ found = some value := by
  cases found <;> simp [expect]

theorem distinct_literal {literal rest : Text} {found : Json}
    (ran : expect invalid (scanLiteral literal value text) = .ok (found, rest))
    (distinct : value.Distinct)
    : found.Distinct := by
  rw [expect_ok, scanLiteral] at ran
  split at ran
  · cases ran
    exact distinct
  · cases ran

/-- What is scanned is distinct, by induction on the fuel. -/
theorem distinct_of_scan (refuses : RefusesRepeated hook) (fuel : Nat)
    : (∀ text value rest, scanValue hook invalid fuel text = .ok (value, rest) → value.Distinct)
      ∧ (∀ text items rest, scanItems hook invalid fuel text = .ok (items, rest)
        → DistinctItems items)
      ∧ ∀ text members rest, scanMembers hook invalid fuel text = .ok (members, rest)
        → DistinctMembers members := by
  induction fuel with
  | zero =>
      refine ⟨?_, ?_, ?_⟩ <;> intro text value rest ran <;>
        simp [scanValue, scanItems, scanMembers] at ran
  | succ fuel ih =>
      obtain ⟨ofValue, ofItems, ofMembers⟩ := ih
      have distinct_obj {members result : List (Text × Json)} (kept : hook members = .ok result)
          (nested : DistinctMembers members) : (Json.obj result).Distinct := by
        obtain ⟨rfl, distinct⟩ := refuses _ _ kept
        exact ⟨distinct, nested⟩
      refine ⟨?_, ?_, ?_⟩
      · intro text value rest ran
        cases text with
        | nil => simp [scanValue] at ran
        | cons point tail =>
            rw [scanValue] at ran
            split_ifs at ran with quotation brace bracket isNull isTrue isFalse
            · obtain ⟨⟨string, after⟩, _, done⟩ := bind_ok.mp ran
              cases done
              trivial
            · split at ran
              · obtain ⟨members, kept, done⟩ := bind_ok.mp ran
                cases done
                exact distinct_obj kept trivial
              · obtain ⟨⟨members, after⟩, scanned, ran⟩ := bind_ok.mp ran
                obtain ⟨result, kept, done⟩ := bind_ok.mp ran
                cases done
                exact distinct_obj kept (ofMembers _ _ _ scanned)
            · split at ran
              · cases ran
                trivial
              · obtain ⟨⟨items, after⟩, scanned, done⟩ := bind_ok.mp ran
                cases done
                exact ofItems _ _ _ scanned
            · exact distinct_literal ran trivial
            · exact distinct_literal ran trivial
            · exact distinct_literal ran trivial
            · obtain ⟨⟨number, after⟩, _, done⟩ := bind_ok.mp ran
              cases done
              trivial
      · intro text items rest ran
        rw [scanItems] at ran
        obtain ⟨⟨item, after⟩, scanned, ran⟩ := bind_ok.mp ran
        dsimp only at ran
        split at ran
        · cases ran
          exact ⟨ofValue _ _ _ scanned, trivial⟩
        · obtain ⟨next, _, ran⟩ := bind_ok.mp ran
          obtain ⟨⟨others, last⟩, more, done⟩ := bind_ok.mp ran
          cases done
          exact ⟨ofValue _ _ _ scanned, ofItems _ _ _ more⟩
      · intro text members rest ran
        rw [scanMembers] at ran
        obtain ⟨⟨key, afterKey⟩, _, ran⟩ := bind_ok.mp ran
        obtain ⟨⟨item, after⟩, scanned, ran⟩ := bind_ok.mp ran
        dsimp only at ran
        split at ran
        · cases ran
          exact ⟨ofValue _ _ _ scanned, trivial⟩
        · obtain ⟨next, _, ran⟩ := bind_ok.mp ran
          obtain ⟨⟨others, last⟩, more, done⟩ := bind_ok.mp ran
          cases done
          exact ⟨ofValue _ _ _ scanned, ofMembers _ _ _ more⟩

theorem distinct_of_loads (refuses : RefusesRepeated hook)
    (read : loads hook invalid text = .ok value)
    : value.Distinct := by
  obtain ⟨⟨found, rest⟩, scanned, done⟩ := bind_ok.mp read
  dsimp only at done
  split at done
  · cases done
    exact (distinct_of_scan refuses _).1 _ _ _ scanned
  · cases done

/-- A distinct value that is read from its own text has its keys in order. -/
theorem canonical_of_distinct (keeps : KeepsDistinct hook) (distinct : value.Distinct)
    (read : loads hook invalid value.dumps = .ok value)
    : value.Canonical := by
  have canonical := canonical_sortKeys value distinct
  have again : loads hook invalid ((sortKeys value).dumps ++ []) = .ok (sortKeys value) :=
    loads_dumps keeps canonical endsNumber_nil rfl
  rw [List.append_nil, dumps_sortKeys, read] at again
  rw [Except.ok.inj again]
  exact canonical

/-- A canonical value is read from its own text. -/
theorem loads_self (keeps : KeepsDistinct hook) (canonical : value.Canonical)
    : loads hook invalid value.dumps = .ok value := by
  have read : loads hook invalid (value.dumps ++ []) = .ok value :=
    loads_dumps keeps canonical endsNumber_nil rfl
  rwa [List.append_nil] at read

/-- A dictionary whose text is the text that was read is read in the order of its keys. -/
theorem canonical_of_loads (refuses : RefusesRepeated hook) (keeps : KeepsDistinct hook)
    (read : loads hook invalid value.dumps = .ok value)
    : value.Canonical :=
  canonical_of_distinct keeps (distinct_of_loads refuses read) read

end Reading

end Json

end Scanipy.Python

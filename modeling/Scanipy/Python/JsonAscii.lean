import Scanipy.Python.JsonTokens

/-! `json.dumps` with `ensure_ascii`: what lies beyond `~` is written as the escapes of its
UTF-16 code units, so a character beyond U+FFFF and the pair of its surrogates are written
alike. What is written determines the value up to that spelling.
-/

namespace Scanipy.Python

open Library

/-- The UTF-16 code units of a character. -/
def CodePoint.units (point : CodePoint) : Text :=
  if point.val < 0x10000 then
    [point]
  else
    [Fin.ofNat 0x110000 (0xD800 + (point.val - 0x10000) / 0x400),
      Fin.ofNat 0x110000 (0xDC00 + (point.val - 0x10000) % 0x400)]

/-- The UTF-16 code units of a text. -/
def Text.units (text : Text) : Text :=
  text.flatMap CodePoint.units

variable {point : CodePoint}

theorem CodePoint.units_of_lt (basic : point.val < 0x10000)
    : point.units = [point] :=
  if_pos basic

/-- A character beyond U+FFFF is a pair of surrogates. -/
theorem CodePoint.units_of_le (astral : 0x10000 ≤ point.val)
    : ∃ high low : CodePoint,
        point.units = [high, low]
        ∧ (0xD800 ≤ high.val ∧ high.val < 0x10000)
        ∧ 0xD800 ≤ low.val
        ∧ low.val < 0x10000 := by
  have bound := point.isLt
  have highest : 0xD800 + (point.val - 0x10000) / 0x400 < 0xDC00 := by omega
  have lowest : 0xDC00 + (point.val - 0x10000) % 0x400 < 0xE000 := by omega
  refine ⟨_, _, if_neg (by omega), ⟨?_, ?_⟩, ?_, ?_⟩
  all_goals
    rw [Fin.ofNat_eq_cast, Fin.val_natCast, Nat.mod_eq_of_lt (by omega)]
    omega

variable {unit : CodePoint}

theorem CodePoint.unit_lt (member : unit ∈ point.units)
    : unit.val < 0x10000 := by
  by_cases basic : point.val < 0x10000
  · rw [units_of_lt basic, List.mem_singleton] at member
    exact member ▸ basic
  · obtain ⟨high, low, same, ⟨_, highBasic⟩, _, lowBasic⟩ := units_of_le (Nat.le_of_not_lt basic)
    rw [same] at member
    rcases List.mem_pair.mp member with rfl | rfl
    · exact highBasic
    · exact lowBasic

@[simp]
theorem Text.units_append (left right : Text) : (left ++ right).units = left.units ++ right.units :=
  List.flatMap_append

theorem Text.units_of_lt {text : Text} (basic : ∀ point ∈ text, point.val < 0x10000)
    : text.units = text := by
  induction text with
  | nil => rfl
  | cons point rest ih =>
      rw [Text.units, List.flatMap_cons, CodePoint.units_of_lt (basic point List.mem_cons_self)]
      exact congrArg (List.cons point)
        (ih fun other member => basic other (List.mem_cons_of_mem _ member))

theorem Text.units_of_ascii {text : Text} (ascii : ∀ point ∈ text, point.val < 0x80)
    : text.units = text :=
  Text.units_of_lt fun point member => lt_trans (ascii point member) (by omega)

theorem Text.unit_lt {text : Text} (member : unit ∈ text.units)
    : unit.val < 0x10000 := by
  obtain ⟨point, _, inside⟩ := List.mem_flatMap.mp member
  exact CodePoint.unit_lt inside

namespace Json

/-- The escape of a code unit. -/
def unicodeEscape (unit : CodePoint) : Text :=
  py "\\u"
  ++ [hexDigit (unit.val / 4096), hexDigit (unit.val / 256 % 16),
      hexDigit (unit.val / 16 % 16), hexDigit (unit.val % 16)]

/-- `ESCAPE_ASCII` on what is not yet escaped. -/
def escapeAscii (point : CodePoint) : Text :=
  if point.val < 0x7F then [point] else point.units.flatMap unicodeEscape

/-- `json.dumps(value, sort_keys=True, separators=(",", ":"))`. -/
def dumpsAscii (value : Json) : Text :=
  (dumps value).flatMap escapeAscii

-- Words of the output

/-- What a string is written with: a code unit, a short escape, or the escape of a control
character.
-/
inductive Word where
  | plain (unit : CodePoint)
  | short (letter : CodePoint)
  | control (value : Nat)

def backslash : CodePoint := Fin.ofNat 0x110000 0x5C

def Word.text : Word → Text
  | .plain unit => [unit]
  | .short letter => [backslash, letter]
  | .control value => py "\\u00" ++ [hexDigit (value / 16), hexDigit (value % 16)]

def Word.ascii (word : Word) : Text :=
  word.text.flatMap escapeAscii

def Word.Valid : Word → Prop
  | .plain unit => unit ≠ backslash ∧ unit.val < 0x10000
  | .short letter => letter.val ≠ 0x75 ∧ letter.val < 0x7F
  | .control value => value < 0x20

theorem py_unicodeEscape : py "\\u" = [backslash, Fin.ofNat 0x110000 0x75] := by
  decide

theorem py_controlEscape
    : py "\\u00" = [backslash, Fin.ofNat 0x110000 0x75, hexDigit 0, hexDigit 0] := by
  decide

theorem escapeAscii_of_lt (ascii : point.val < 0x7F)
    : escapeAscii point = [point] :=
  if_pos ascii

variable {value : Nat}

theorem hexDigit_val_lt_del (digit : value < 16) : (hexDigit value).val < 0x7F := by
  have small : (if value < 10 then 0x30 + value else 0x57 + value) < 0x7F := by
    split <;> omega
  exact lt_of_le_of_lt (Nat.mod_le _ _) small

theorem Word.ascii_plain (basic : unit.val < 0x10000)
    : (Word.plain unit).ascii = if unit.val < 0x7F then [unit] else unicodeEscape unit := by
  simp only [Word.ascii, Word.text, List.flatMap_cons, List.flatMap_nil, List.append_nil,
    escapeAscii, CodePoint.units_of_lt basic]

variable {letter : CodePoint}

theorem Word.ascii_short (ascii : letter.val < 0x7F)
    : (Word.short letter).ascii = [backslash, letter] := by
  have slash : backslash.val < 0x7F := by decide
  simp only [Word.ascii, Word.text, List.flatMap_cons, List.flatMap_nil, List.append_nil,
    escapeAscii_of_lt slash, escapeAscii_of_lt ascii, List.singleton_append]

theorem Word.ascii_control (control : value < 0x20)
    : (Word.control value).ascii
      = py "\\u00" ++ [hexDigit (value / 16), hexDigit (value % 16)] := by
  have first := hexDigit_val_lt_del (show value / 16 < 16 by omega)
  have second := hexDigit_val_lt_del (show value % 16 < 16 by omega)
  have literal : (py "\\u00").flatMap escapeAscii = py "\\u00" := by decide
  simp only [Word.ascii, Word.text, List.flatMap_append, literal, List.flatMap_cons,
    List.flatMap_nil, List.append_nil, escapeAscii_of_lt first, escapeAscii_of_lt second,
    List.singleton_append]

theorem length_unicodeEscape (unit : CodePoint) : (unicodeEscape unit).length = 6 := by
  rw [unicodeEscape, py_unicodeEscape]
  rfl

theorem unicodeEscape_inj {left right : CodePoint} (leftBasic : left.val < 0x10000)
    (rightBasic : right.val < 0x10000) (same : unicodeEscape left = unicodeEscape right)
    : left = right := by
  have digits := List.append_cancel_left same
  simp only [List.cons.injEq, and_true] at digits
  obtain ⟨first, second, third, fourth⟩ := digits
  have first := hexDigit_inj (by omega) (by omega) first
  have second := hexDigit_inj (by omega) (by omega) second
  have third := hexDigit_inj (by omega) (by omega) third
  have fourth := hexDigit_inj (by omega) (by omega) fourth
  exact Fin.ext (by omega)

theorem unicodeEscape_selfDelimiting
    : SelfDelimiting {unit : CodePoint | unit.val < 0x10000} unicodeEscape := by
  refine SelfDelimiting.of_length ?_ fun unit _ => length_unicodeEscape unit
  intro left leftBasic right rightBasic same
  exact unicodeEscape_inj leftBasic rightBasic same

/-- The escape of a control character is the escape of a unit. -/
theorem Word.ascii_control_eq (control : value < 0x20)
    : (Word.control value).ascii = unicodeEscape (Fin.ofNat 0x110000 value) := by
  have same : (Fin.ofNat 0x110000 value : CodePoint).val = value := by
    rw [Fin.ofNat_eq_cast, Fin.val_natCast, Nat.mod_eq_of_lt (by omega)]
  rw [Word.ascii_control control, unicodeEscape, same, py_unicodeEscape, py_controlEscape,
    Nat.div_eq_of_lt (show value < 4096 by omega), Nat.div_eq_of_lt (show value < 256 by omega),
    Nat.mod_eq_of_lt (show value / 16 < 16 by omega)]
  rfl

/-- How a valid word looks in the output. -/
theorem Word.ascii_cases {word : Word} (valid : word.Valid)
    : (∃ unit, word = .plain unit ∧ unit ≠ backslash ∧ word.ascii = [unit])
      ∨ (∃ letter, word = .short letter ∧ letter.val ≠ 0x75 ∧ word.ascii = [backslash, letter])
      ∨ ∃ unit : CodePoint,
          unit.val < 0x10000
          ∧ word = (if unit.val < 0x20 then .control unit.val else .plain unit)
          ∧ word.ascii = unicodeEscape unit := by
  cases word with
  | plain unit =>
      by_cases low : unit.val < 0x7F
      · exact .inl ⟨unit, rfl, valid.1, by rw [Word.ascii_plain valid.2, if_pos low]⟩
      · refine .inr (.inr ⟨unit, valid.2, ?_, by rw [Word.ascii_plain valid.2, if_neg low]⟩)
        rw [if_neg (by omega)]
  | short letter => exact .inr (.inl ⟨letter, rfl, valid.1, Word.ascii_short valid.2⟩)
  | control value =>
      have small : value < 0x20 := valid
      have same : (Fin.ofNat 0x110000 value : CodePoint).val = value := by
        rw [Fin.ofNat_eq_cast, Fin.val_natCast, Nat.mod_eq_of_lt (by omega)]
      refine .inr (.inr ⟨Fin.ofNat 0x110000 value, ?_, ?_, Word.ascii_control_eq small⟩)
      · rw [same]
        omega
      · rw [same, if_pos small]

theorem unicodeEscape_eq (unit : CodePoint)
    : ∃ digits, unicodeEscape unit = backslash :: Fin.ofNat 0x110000 0x75 :: digits := by
  rw [unicodeEscape, py_unicodeEscape]
  exact ⟨_, rfl⟩

theorem letter_ne (other : letter.val ≠ 0x75)
    : letter ≠ Fin.ofNat 0x110000 0x75 := by
  intro same
  subst same
  exact other (by decide)

/-- The words of the output are read off its front. -/
theorem Word.ascii_selfDelimiting : SelfDelimiting {word : Word | word.Valid} Word.ascii := by
  intro left right leftValid rightValid rest more same
  rcases Word.ascii_cases leftValid with
    ⟨unit, rfl, unitOther, leftText⟩ | ⟨letter, rfl, letterOther, leftText⟩
    | ⟨unit, unitBasic, rfl, leftText⟩ <;>
  rcases Word.ascii_cases rightValid with
    ⟨other, rfl, otherOther, rightText⟩ | ⟨second, rfl, secondOther, rightText⟩
    | ⟨other, otherBasic, rfl, rightText⟩ <;>
  rw [leftText, rightText] at same
  · obtain ⟨rfl, tails⟩ := List.cons.inj same
    exact ⟨rfl, tails⟩
  · exact absurd (List.cons.inj same).1 unitOther
  · obtain ⟨digits, written⟩ := unicodeEscape_eq other
    rw [written] at same
    exact absurd (List.cons.inj same).1 unitOther
  · exact absurd (List.cons.inj same).1.symm otherOther
  · obtain ⟨rfl, tails⟩ := List.cons.inj (List.cons.inj same).2
    exact ⟨rfl, tails⟩
  · obtain ⟨digits, written⟩ := unicodeEscape_eq other
    rw [written] at same
    exact absurd (List.cons.inj (List.cons.inj same).2).1 (letter_ne letterOther)
  · obtain ⟨digits, written⟩ := unicodeEscape_eq unit
    rw [written] at same
    exact absurd (List.cons.inj same).1.symm otherOther
  · obtain ⟨digits, written⟩ := unicodeEscape_eq unit
    rw [written] at same
    exact absurd (List.cons.inj (List.cons.inj same).2).1.symm (letter_ne secondOther)
  · obtain ⟨rfl, tails⟩ := unicodeEscape_selfDelimiting unitBasic otherBasic same
    exact ⟨rfl, tails⟩

theorem Word.ascii_ne_nil (word : Word) (valid : word.Valid) : word.ascii ≠ [] := by
  rcases Word.ascii_cases valid with ⟨_, _, _, same⟩ | ⟨_, _, _, same⟩ | ⟨unit, _, _, same⟩
  · rw [same]
    exact List.cons_ne_nil _ _
  · rw [same]
    exact List.cons_ne_nil _ _
  · obtain ⟨digits, written⟩ := unicodeEscape_eq unit
    rw [same, written]
    exact List.cons_ne_nil _ _

-- The output as words

/-- The code units of the text are a run of valid words. -/
def Worded (text : Text) : Prop :=
  ∃ words : List Word, (∀ word ∈ words, word.Valid) ∧ text.units = words.flatMap Word.text

theorem Worded.nil : Worded [] :=
  ⟨[], fun _ member => absurd member List.not_mem_nil, rfl⟩

variable {left right : Text}

theorem Worded.append (leftWords : Worded left) (rightWords : Worded right)
    : Worded (left ++ right) := by
  obtain ⟨words, valid, same⟩ := leftWords
  obtain ⟨others, otherValid, otherSame⟩ := rightWords
  refine ⟨words ++ others, ?_, ?_⟩
  · intro word member
    rcases List.mem_append.mp member with first | second
    · exact valid word first
    · exact otherValid word second
  · rw [Text.units_append, same, otherSame, List.flatMap_append]

variable {texts : List Text}

theorem Worded.flatten (each : ∀ text ∈ texts, Worded text)
    : Worded texts.flatten := by
  induction texts with
  | nil => exact Worded.nil
  | cons text rest ih =>
      rw [List.flatten_cons]
      exact (each text List.mem_cons_self).append
        (ih fun other member => each other (List.mem_cons_of_mem _ member))

/-- A text without a backslash is its own units. -/
theorem Worded.of_not_mem {text : Text} (free : backslash ∉ text) : Worded text := by
  refine ⟨text.units.map Word.plain, ?_, ?_⟩
  · intro word member
    obtain ⟨unit, inside, rfl⟩ := List.mem_map.mp member
    refine ⟨?_, Text.unit_lt inside⟩
    rintro rfl
    obtain ⟨point, listed, within⟩ := List.mem_flatMap.mp inside
    by_cases basic : point.val < 0x10000
    · rw [CodePoint.units_of_lt basic, List.mem_singleton] at within
      exact free (within ▸ listed)
    · obtain ⟨high, low, same, ⟨highLarge, _⟩, lowLarge, _⟩ :=
        CodePoint.units_of_le (Nat.le_of_not_lt basic)
      have small : backslash.val < 0xD800 := by decide
      rw [same] at within
      rcases List.mem_pair.mp within with rfl | rfl <;> omega
  · rw [List.flatMap_map]
    exact (List.flatMap_singleton' _).symm

/-- How a character is escaped in a string. -/
theorem escape_cases (point : CodePoint)
    : (∃ letter : CodePoint, (Word.short letter).Valid ∧ escape point = (Word.short letter).text)
      ∨ (point.val < 0x20 ∧ escape point = (Word.control point.val).text)
      ∨ (point ≠ backslash ∧ escape point = [point]) := by
  unfold escape
  split_ifs with _ slash _ _ _ _ _ low
  · exact .inl ⟨Fin.ofNat 0x110000 0x22, ⟨by decide, by decide⟩, by decide⟩
  · exact .inl ⟨Fin.ofNat 0x110000 0x5C, ⟨by decide, by decide⟩, by decide⟩
  · exact .inl ⟨Fin.ofNat 0x110000 0x6E, ⟨by decide, by decide⟩, by decide⟩
  · exact .inl ⟨Fin.ofNat 0x110000 0x72, ⟨by decide, by decide⟩, by decide⟩
  · exact .inl ⟨Fin.ofNat 0x110000 0x74, ⟨by decide, by decide⟩, by decide⟩
  · exact .inl ⟨Fin.ofNat 0x110000 0x66, ⟨by decide, by decide⟩, by decide⟩
  · exact .inl ⟨Fin.ofNat 0x110000 0x62, ⟨by decide, by decide⟩, by decide⟩
  · exact .inr (.inl ⟨low, rfl⟩)
  · refine .inr (.inr ⟨?_, rfl⟩)
    rintro rfl
    exact slash rfl

/-- An escape is ASCII, so its units are its characters. -/
theorem Word.basic_escape {word : Word} (valid : word.Valid)
    : ∀ point ∈ word.text, point.val < 0x10000 := by
  have slash : backslash.val < 0x10000 := by decide
  have letterU : (Fin.ofNat 0x110000 0x75 : CodePoint).val < 0x10000 := by decide
  have digit {value : Nat} (small : value < 16) : (hexDigit value).val < 0x10000 :=
    lt_trans (hexDigit_val_lt small) (by omega)
  cases word with
  | plain unit =>
      intro point member
      rw [List.mem_singleton.mp member]
      exact valid.2
  | short letter =>
      intro point member
      rcases List.mem_pair.mp member with rfl | rfl
      · exact slash
      · exact lt_trans valid.2 (by omega)
  | control value =>
      have small : value < 0x20 := valid
      intro point member
      simp only [Word.text, py_controlEscape, List.cons_append, List.nil_append, List.mem_cons,
        List.not_mem_nil, or_false] at member
      rcases member with rfl | rfl | rfl | rfl | rfl | rfl
      · exact slash
      · exact letterU
      · exact digit (by omega)
      · exact digit (by omega)
      · exact digit (by omega)
      · exact digit (by omega)

theorem Worded.word {word : Word} (valid : word.Valid) : Worded word.text := by
  refine ⟨[word], fun other member => List.mem_singleton.mp member ▸ valid, ?_⟩
  rw [Text.units_of_lt (Word.basic_escape valid), List.flatMap_cons, List.flatMap_nil,
    List.append_nil]

theorem worded_escape (point : CodePoint) : Worded (escape point) := by
  rcases escape_cases point with ⟨letter, valid, same⟩ | ⟨low, same⟩ | ⟨other, same⟩
  · rw [same]
    exact Worded.word valid
  · rw [same]
    exact Worded.word (show (Word.control point.val).Valid from low)
  · rw [same]
    exact Worded.of_not_mem fun member => other (List.mem_singleton.mp member).symm

theorem worded_quote (text : Text) : Worded (quote text) := by
  have mark : Worded (py "\"") := Worded.of_not_mem (by decide)
  refine (mark.append ?_).append mark
  rw [List.flatMap_def]
  refine Worded.flatten fun written member => ?_
  obtain ⟨point, _, rfl⟩ := List.mem_map.mp member
  exact worded_escape point

theorem worded_decimal (value : Nat) : Worded (decimal value) := by
  refine Worded.of_not_mem fun member => ?_
  have digit : IsDigit backslash := (decimal_shape value).1 _ member
  exact absurd digit (by decide)

theorem worded_numeral (value : Int) : Worded (numeral value) := by
  cases value with
  | ofNat value => exact worded_decimal value
  | negSucc value => exact (Worded.of_not_mem (by decide)).append (worded_decimal _)

theorem worded_commaSeparated (each : ∀ text ∈ texts, Worded text)
    : Worded (commaSeparated texts) := by
  induction texts with
  | nil => exact Worded.nil
  | cons text rest ih =>
      cases rest with
      | nil => exact each text List.mem_cons_self
      | cons next others =>
          change Worded (text ++ py "," ++ commaSeparated (next :: others))
          refine ((each text List.mem_cons_self).append (Worded.of_not_mem (by decide))).append
            (ih fun other member => ?_)
          exact each other (List.mem_cons_of_mem _ member)

mutual

/-- Every output is a run of words. By recursion on the value. -/
theorem worded_dumps : (value : Json) → Worded (dumps value)
  | .null => Worded.of_not_mem (by decide)
  | .bool true => Worded.of_not_mem (by decide)
  | .bool false => Worded.of_not_mem (by decide)
  | .int value => worded_numeral value
  | .str value => worded_quote value
  | .arr items => by
      rw [dumps]
      refine (Worded.append (Worded.of_not_mem (by decide)) ?_).append
        (Worded.of_not_mem (by decide))
      exact worded_commaSeparated (worded_dumpsItems items)
  | .obj members => by
      rw [dumps]
      refine (Worded.append (Worded.of_not_mem (by decide)) ?_).append
        (Worded.of_not_mem (by decide))
      refine worded_commaSeparated fun written member => ?_
      obtain ⟨pair, among, rfl⟩ := List.mem_map.mp member
      refine ((worded_quote pair.1).append (Worded.of_not_mem (by decide))).append ?_
      exact worded_dumpsMembers members pair (mem_sortedBy.mp among)

theorem worded_dumpsItems : (items : List Json) → ∀ written ∈ dumpsItems items, Worded written
  | [], _, member => absurd member List.not_mem_nil
  | item :: rest, written, member => by
      rcases List.mem_cons.mp member with rfl | later
      · exact worded_dumps item
      · exact worded_dumpsItems rest written later

theorem worded_dumpsMembers
    : (members : List (Text × Json)) → ∀ written ∈ dumpsMembers members, Worded written.2
  | [], _, member => absurd member List.not_mem_nil
  | (_, value) :: rest, written, member => by
      rcases List.mem_cons.mp member with rfl | later
      · exact worded_dumps value
      · exact worded_dumpsMembers rest written later

end

/-- Escaping goes over the code units. -/
theorem flatMap_escapeAscii_units (text : Text)
    : text.units.flatMap escapeAscii = text.flatMap escapeAscii := by
  rw [Text.units, List.flatMap_assoc]
  refine List.flatMap_congr fun point _ => ?_
  by_cases basic : point.val < 0x10000
  · rw [CodePoint.units_of_lt basic, List.flatMap_singleton]
  · obtain ⟨high, low, same, ⟨highLarge, highBasic⟩, lowLarge, lowBasic⟩ :=
      CodePoint.units_of_le (Nat.le_of_not_lt basic)
    rw [escapeAscii, if_neg (by omega), same]
    simp only [List.flatMap_cons, List.flatMap_nil, List.append_nil, escapeAscii,
      if_neg (show ¬high.val < 0x7F by omega), if_neg (show ¬low.val < 0x7F by omega),
      CodePoint.units_of_lt highBasic, CodePoint.units_of_lt lowBasic]

/-- Equal outputs come from texts with equal code units.
Witness: both texts are runs of words, and a run of words is read off its escapes.
-/
theorem units_eq_of_escapeAscii (leftWords : Worded left) (rightWords : Worded right)
    (same : left.flatMap escapeAscii = right.flatMap escapeAscii)
    : left.units = right.units := by
  obtain ⟨words, valid, leftUnits⟩ := leftWords
  obtain ⟨others, otherValid, rightUnits⟩ := rightWords
  rw [← flatMap_escapeAscii_units left, ← flatMap_escapeAscii_units right, leftUnits, rightUnits,
    List.flatMap_assoc, List.flatMap_assoc] at same
  rw [leftUnits, rightUnits,
    Word.ascii_selfDelimiting.flatMap_inj Word.ascii_ne_nil valid otherValid same]

-- Values up to their spelling

mutual

/-- Every string value by its code units. Keys stay as they are. -/
def units : Json → Json
  | .null => .null
  | .bool value => .bool value
  | .int value => .int value
  | .str value => .str (Text.units value)
  | .arr items => .arr (unitsItems items)
  | .obj members => .obj (unitsMembers members)

def unitsItems : List Json → List Json
  | [] => []
  | item :: rest => units item :: unitsItems rest

def unitsMembers : List (Text × Json) → List (Text × Json)
  | [] => []
  | (key, value) :: rest => (key, units value) :: unitsMembers rest

end

mutual

/-- No key has a character beyond U+FFFF. -/
@[simp]
def BasicKeys : Json → Prop
  | .null | .bool _ | .int _ | .str _ => True
  | .arr items => BasicKeysItems items
  | .obj members => BasicKeysMembers members

@[simp]
def BasicKeysItems : List Json → Prop
  | [] => True
  | item :: rest => BasicKeys item ∧ BasicKeysItems rest

@[simp]
def BasicKeysMembers : List (Text × Json) → Prop
  | [] => True
  | (key, value) :: rest =>
      (∀ point ∈ key, point.val < 0x10000) ∧ BasicKeys value ∧ BasicKeysMembers rest

end

theorem unitsMembers_eq (members : List (Text × Json))
    : unitsMembers members = members.map fun member => (member.1, units member.2) := by
  induction members with
  | nil => rfl
  | cons member rest ih =>
      obtain ⟨key, value⟩ := member
      rw [unitsMembers, ih, List.map_cons]

variable {members : List (Text × Json)}

theorem basicKeysMembers_iff
    : BasicKeysMembers members
      ↔ ∀ member ∈ members, (∀ point ∈ member.1, point.val < 0x10000) ∧ member.2.BasicKeys := by
  induction members with
  | nil => simp
  | cons member rest ih =>
      obtain ⟨key, value⟩ := member
      simp [ih, and_assoc]

mutual

/-- By recursion on the value. -/
theorem canonical_units : (value : Json) → value.Canonical → (units value).Canonical
  | .null, _ | .bool _, _ | .int _, _ | .str _, _ => trivial
  | .arr items, canonical => canonicalItems_units items canonical
  | .obj members, ⟨ordered, canonical⟩ => by
      refine ⟨?_, canonicalMembers_units members canonical⟩
      simpa [unitsMembers_eq, Function.comp_def] using ordered

theorem canonicalItems_units
    : (items : List Json) → CanonicalItems items → CanonicalItems (unitsItems items)
  | [], _ => trivial
  | item :: rest, ⟨head, tail⟩ => ⟨canonical_units item head, canonicalItems_units rest tail⟩

theorem canonicalMembers_units
    : (members : List (Text × Json)) → CanonicalMembers members
      → CanonicalMembers (unitsMembers members)
  | [], _ => trivial
  | (_, value) :: rest, ⟨head, tail⟩ =>
      ⟨canonical_units value head, canonicalMembers_units rest tail⟩

end

mutual

/-- By recursion on the value. -/
theorem distinct_units : (value : Json) → value.Distinct → (units value).Distinct
  | .null, _ | .bool _, _ | .int _, _ | .str _, _ => trivial
  | .arr items, distinct => distinctItems_units items distinct
  | .obj members, ⟨keys, distinct⟩ => by
      refine ⟨?_, distinctMembers_units members distinct⟩
      simpa [unitsMembers_eq, Function.comp_def] using keys

theorem distinctItems_units
    : (items : List Json) → DistinctItems items → DistinctItems (unitsItems items)
  | [], _ => trivial
  | item :: rest, ⟨head, tail⟩ => ⟨distinct_units item head, distinctItems_units rest tail⟩

theorem distinctMembers_units
    : (members : List (Text × Json)) → DistinctMembers members
      → DistinctMembers (unitsMembers members)
  | [], _ => trivial
  | (_, value) :: rest, ⟨head, tail⟩ =>
      ⟨distinct_units value head, distinctMembers_units rest tail⟩

end

theorem escape_of_le (high : 0x80 ≤ point.val) : escape point = [point] := by
  unfold escape
  split_ifs <;> first | rfl | omega

theorem units_escape (point : CodePoint)
    : Text.units (escape point) = point.units.flatMap escape := by
  by_cases basic : point.val < 0x10000
  · rw [CodePoint.units_of_lt basic, List.flatMap_singleton]
    rcases escape_cases point with ⟨letter, valid, same⟩ | ⟨low, same⟩ | ⟨_, same⟩
    · rw [same, Text.units_of_lt (Word.basic_escape valid)]
    · rw [same, Text.units_of_lt
        (Word.basic_escape (show (Word.control point.val).Valid from low))]
    · rw [same, Text.units, List.flatMap_singleton, CodePoint.units_of_lt basic]
  · obtain ⟨high, low, same, ⟨highLarge, highBasic⟩, lowLarge, lowBasic⟩ :=
      CodePoint.units_of_le (Nat.le_of_not_lt basic)
    rw [same, escape_of_le (by omega), Text.units, List.flatMap_singleton, same]
    simp only [List.flatMap_cons, List.flatMap_nil, List.append_nil, escape_of_le
      (show 0x80 ≤ high.val by omega), escape_of_le (show 0x80 ≤ low.val by omega),
      List.singleton_append]

theorem units_quote (text : Text) : (quote text).units = quote text.units := by
  have mark : Text.units (py "\"") = py "\"" := by decide
  have inner : Text.units (text.flatMap escape) = text.units.flatMap escape := by
    rw [Text.units, Text.units, List.flatMap_assoc, List.flatMap_assoc]
    exact List.flatMap_congr fun point _ => units_escape point
  rw [quote, quote, Text.units_append, Text.units_append, mark, inner]

theorem units_decimal (value : Nat) : (decimal value).units = decimal value := by
  refine Text.units_of_lt fun point member => ?_
  have digit := (decimal_shape value).1 point member
  exact lt_of_le_of_lt digit.2 (by omega)

theorem units_numeral (value : Int) : (numeral value).units = numeral value := by
  have sign : Text.units (py "-") = py "-" := by decide
  cases value with
  | ofNat value => exact units_decimal value
  | negSucc value => rw [numeral, Text.units_append, sign, units_decimal]

theorem units_commaSeparated (texts : List Text)
    : (commaSeparated texts).units = commaSeparated (texts.map Text.units) := by
  have comma : Text.units (py ",") = py "," := by decide
  induction texts with
  | nil => rfl
  | cons text rest ih =>
      cases rest with
      | nil => rfl
      | cons next others =>
          change Text.units (text ++ py "," ++ commaSeparated (next :: others)) = _
          rw [Text.units_append, Text.units_append, comma, ih]
          rfl

theorem keys_of_dumpsMembers (basic : BasicKeysMembers members) {written : Text × Text}
    (member : written ∈ dumpsMembers members)
    : ∀ point ∈ written.1, point.val < 0x10000 := by
  rw [dumpsMembers_eq] at member
  obtain ⟨source, listed, rfl⟩ := List.mem_map.mp member
  exact (basicKeysMembers_iff.mp basic source listed).1

mutual

/-- The code units of the output are the output of the code units. By recursion on the value. -/
theorem units_dumps : (value : Json) → value.BasicKeys → (dumps value).units = dumps (units value)
  | .null, _ => by decide
  | .bool true, _ => by decide
  | .bool false, _ => by decide
  | .int value, _ => units_numeral value
  | .str value, _ => units_quote value
  | .arr items, basic => by
      have opening : Text.units (py "[") = py "[" := by decide
      have closing : Text.units (py "]") = py "]" := by decide
      rw [dumps, units, dumps, Text.units_append, Text.units_append, opening, closing,
        units_commaSeparated, units_dumpsItems items basic]
  | .obj members, basic => by
      have opening : Text.units (py "\x7b") = py "\x7b" := by decide
      have closing : Text.units (py "\x7d") = py "\x7d" := by decide
      have colon : Text.units (py ":") = py ":" := by decide
      rw [dumps, units, dumps, Text.units_append, Text.units_append, opening, closing,
        units_commaSeparated, ← units_dumpsMembers members basic, sortedBy_map, List.map_map,
        List.map_map]
      refine congrArg (fun texts => py "\x7b" ++ commaSeparated texts ++ py "\x7d")
        (List.map_congr_left fun member among => ?_)
      have key := keys_of_dumpsMembers basic (mem_sortedBy.mp among)
      rw [Function.comp_apply, Function.comp_apply, Text.units_append, Text.units_append, colon,
        units_quote, Text.units_of_lt key]

theorem units_dumpsItems
    : (items : List Json) → BasicKeysItems items
      → (dumpsItems items).map Text.units = dumpsItems (unitsItems items)
  | [], _ => rfl
  | item :: rest, ⟨head, tail⟩ => by
      rw [dumpsItems, unitsItems, dumpsItems, List.map_cons, units_dumps item head,
        units_dumpsItems rest tail]

theorem units_dumpsMembers
    : (members : List (Text × Json)) → BasicKeysMembers members
      → (dumpsMembers members).map (fun member => (member.1, Text.units member.2))
        = dumpsMembers (unitsMembers members)
  | [], _ => rfl
  | (key, value) :: rest, ⟨_, head, tail⟩ => by
      rw [dumpsMembers, unitsMembers, dumpsMembers, List.map_cons, units_dumps value head,
        units_dumpsMembers rest tail]

end

/-- The ASCII output determines a dictionary up to the spelling of its strings. -/
theorem dumpsAscii_eq_iff {left right : Json} (leftDistinct : left.Distinct)
    (rightDistinct : right.Distinct) (leftKeys : left.BasicKeys) (rightKeys : right.BasicKeys)
    : dumpsAscii left = dumpsAscii right
      ↔ sortKeys (units left) = sortKeys (units right) := by
  constructor
  · intro same
    have texts := units_eq_of_escapeAscii (worded_dumps left) (worded_dumps right) same
    rw [units_dumps left leftKeys, units_dumps right rightKeys, ← dumps_sortKeys (units left),
      ← dumps_sortKeys (units right)] at texts
    exact dumps_injective (canonical_sortKeys _ (distinct_units left leftDistinct))
      (canonical_sortKeys _ (distinct_units right rightDistinct)) texts
  · intro same
    have texts := congrArg dumps same
    rw [dumps_sortKeys, dumps_sortKeys, ← units_dumps left leftKeys,
      ← units_dumps right rightKeys] at texts
    rw [dumpsAscii, dumpsAscii, ← flatMap_escapeAscii_units, texts, flatMap_escapeAscii_units]

end Json

end Scanipy.Python

import Scanipy.Library.Outcome
import Scanipy.Python.Dict
import Scanipy.Python.Json

/-! `json.loads` on texts without floats. -/

namespace Scanipy.Python

open Library

namespace Json

/-- `WHITESPACE`. -/
def IsBlank (point : CodePoint) : Prop :=
  point.val = 0x20 ∨ point.val = 0x09 ∨ point.val = 0x0A ∨ point.val = 0x0D

instance (point : CodePoint) : Decidable (IsBlank point) :=
  inferInstanceAs (Decidable (_ ∨ _))

def skipBlanks (text : Text) : Text :=
  text.dropWhile fun point => IsBlank point

def IsDigit (point : CodePoint) : Prop :=
  0x30 ≤ point.val ∧ point.val ≤ 0x39

instance (point : CodePoint) : Decidable (IsDigit point) :=
  inferInstanceAs (Decidable (_ ∧ _))

/-- The value of a hexadecimal digit of either case. -/
def hexValue (point : CodePoint) : Option Nat :=
  if IsDigit point then some (point.val - 0x30)
  else if 0x61 ≤ point.val ∧ point.val ≤ 0x66 then some (point.val - 0x57)
  else if 0x41 ≤ point.val ∧ point.val ≤ 0x46 then some (point.val - 0x37)
  else none

/-- `_decode_uXXXX`: the value of four digits, and the rest. -/
def scanFourHex : Text → Option (Nat × Text)
  | first :: second :: third :: fourth :: rest => do
      let a ← hexValue first
      let b ← hexValue second
      let c ← hexValue third
      let d ← hexValue fourth
      some (((a * 16 + b) * 16 + c) * 16 + d, rest)
  | _ => none

/-- A second escape that completes a surrogate pair. -/
def scanLowSurrogate : Text → Option (Nat × Text)
  | slash :: letter :: rest =>
      if slash.val = 0x5C ∧ letter.val = 0x75 then do
        let (low, rest) ← scanFourHex rest
        if 0xDC00 ≤ low ∧ low ≤ 0xDFFF then some (low, rest) else none
      else none
  | _ => none

/-- The character of a `\u` escape; a surrogate pair is joined. -/
def scanUnicode (text : Text) : Option (CodePoint × Text) := do
  let (value, rest) ← scanFourHex text
  if 0xD800 ≤ value ∧ value ≤ 0xDBFF then
    match scanLowSurrogate rest with
    | some (low, rest) =>
        some (Fin.ofNat 0x110000 (0x10000 + (value - 0xD800) * 0x400 + (low - 0xDC00)), rest)
    | none => some (Fin.ofNat 0x110000 value, rest)
  else
    some (Fin.ofNat 0x110000 value, rest)

/-- `BACKSLASH`. -/
def unescape (point : CodePoint) : Option Nat :=
  if point.val = 0x22 ∨ point.val = 0x5C ∨ point.val = 0x2F then some point.val
  else if point.val = 0x62 then some 0x08
  else if point.val = 0x66 then some 0x0C
  else if point.val = 0x6E then some 0x0A
  else if point.val = 0x72 then some 0x0D
  else if point.val = 0x74 then some 0x09
  else none

/-- The character of an escape, after its backslash. -/
def scanEscape : Text → Option (CodePoint × Text)
  | [] => none
  | point :: rest =>
      if point.val = 0x75 then
        scanUnicode rest
      else do
        let value ← unescape point
        some (Fin.ofNat 0x110000 value, rest)

/-- `py_scanstring`, after the opening quote: the string, and the rest. -/
def scanString : Nat → Text → Option (Text × Text)
  | 0, _ | _, [] => none
  | fuel + 1, point :: rest =>
      if point.val = 0x22 then
        some ([], rest)
      else if point.val = 0x5C then do
        let (value, rest) ← scanEscape rest
        let (tail, rest) ← scanString fuel rest
        some (value :: tail, rest)
      else if point.val < 0x20 then
        none
      else do
        let (tail, rest) ← scanString fuel rest
        some (point :: tail, rest)

/-- The number that decimal digits stand for. -/
def digitsValue (digits : Text) : Nat :=
  digits.foldl (fun value point => value * 10 + (point.val - 0x30)) 0

/-- A fraction or an exponent follows: the number is a float. -/
def StartsFloat : Text → Prop
  | [] => False
  | point :: _ => point.val = 0x2E ∨ point.val = 0x65 ∨ point.val = 0x45

instance (rest : Text) : Decidable (StartsFloat rest) :=
  match rest with
  | [] => isFalse id
  | _ :: _ => inferInstanceAs (Decidable (_ ∨ _))

/-- `NUMBER_RE` without fraction and exponent: a zero stands alone. -/
def scanNatural (text : Text) : Option (Nat × Text) :=
  match text.takeWhile fun point => IsDigit point with
  | [] => none
  | first :: others =>
      let (value, rest) :=
        if first.val = 0x30 then (0, text.drop 1)
        else (digitsValue (first :: others), text.drop (others.length + 1))
      if StartsFloat rest then none else some (value, rest)

/-- An integer, with its sign. -/
def scanNumber : Text → Option (Int × Text)
  | [] => none
  | point :: rest =>
      if point.val = 0x2D then
        (scanNatural rest).map fun (value, rest) => (-(value : Int), rest)
      else
        (scanNatural (point :: rest)).map fun (value, rest) => ((value : Int), rest)

/-- The literal, where the text starts with it. -/
def scanLiteral (literal : Text) (value : Json) (text : Text) : Option (Json × Text) :=
  if text.take literal.length = literal then some (value, text.drop literal.length) else none

section Values

variable {ε : Type} (hook : List (Text × Json) → Except ε (List (Text × Json))) (invalid : ε)

/-- A token, or the error of the decoder. -/
def expect {α : Type} : Option α → Except ε α
  | none => .error invalid
  | some found => .ok found

/-- The rest behind one character, where the text starts with it. -/
def scanPoint (value : Nat) : Text → Option Text
  | [] => none
  | point :: rest => if point.val = value then some rest else none

/-- The key of a member, its colon, and the rest. -/
def scanKey (text : Text) : Except ε (Text × Text) := do
  let quoted ← expect invalid (scanPoint 0x22 text)
  let (key, rest) ← expect invalid (scanString (quoted.length + 1) quoted)
  let rest ← expect invalid (scanPoint 0x3A (skipBlanks rest))
  .ok (key, skipBlanks rest)

mutual

/-- `scan_once`: a value, and the rest. -/
def scanValue : Nat → Text → Except ε (Json × Text)
  | 0, _ | _, [] => .error invalid
  | fuel + 1, point :: rest =>
      if point.val = 0x22 then do
        let (value, rest) ← expect invalid (scanString (rest.length + 1) rest)
        .ok (.str value, rest)
      else if point.val = 0x7B then
        match scanPoint 0x7D (skipBlanks rest) with
        | some rest => do
            let members ← hook []
            .ok (.obj members, rest)
        | none => do
            let (members, rest) ← scanMembers fuel (skipBlanks rest)
            let members ← hook members
            .ok (.obj members, rest)
      else if point.val = 0x5B then
        match scanPoint 0x5D (skipBlanks rest) with
        | some rest => .ok (.arr [], rest)
        | none => do
            let (items, rest) ← scanItems fuel (skipBlanks rest)
            .ok (.arr items, rest)
      else if point.val = 0x6E then
        expect invalid (scanLiteral (py "null") .null (point :: rest))
      else if point.val = 0x74 then
        expect invalid (scanLiteral (py "true") (.bool true) (point :: rest))
      else if point.val = 0x66 then
        expect invalid (scanLiteral (py "false") (.bool false) (point :: rest))
      else do
        let (value, rest) ← expect invalid (scanNumber (point :: rest))
        .ok (.int value, rest)

/-- The items of an array, up to its bracket. -/
def scanItems : Nat → Text → Except ε (List Json × Text)
  | 0, _ => .error invalid
  | fuel + 1, text => do
      let (item, rest) ← scanValue fuel text
      match scanPoint 0x5D (skipBlanks rest) with
      | some rest => .ok ([item], rest)
      | none => do
          let rest ← expect invalid (scanPoint 0x2C (skipBlanks rest))
          let (items, rest) ← scanItems fuel (skipBlanks rest)
          .ok (item :: items, rest)

/-- The members of an object, up to its brace. -/
def scanMembers : Nat → Text → Except ε (List (Text × Json) × Text)
  | 0, _ => .error invalid
  | fuel + 1, text => do
      let (key, rest) ← scanKey invalid text
      let (value, rest) ← scanValue fuel rest
      match scanPoint 0x7D (skipBlanks rest) with
      | some rest => .ok ([(key, value)], rest)
      | none => do
          let rest ← expect invalid (scanPoint 0x2C (skipBlanks rest))
          let (members, rest) ← scanMembers fuel (skipBlanks rest)
          .ok ((key, value) :: members, rest)

end

/-- `json.loads(text, object_pairs_hook=hook)`; `invalid` is its `JSONDecodeError`. Floats are
not among the values.
-/
def loads (text : Text) : Except ε Json := do
  let (value, rest) ← scanValue hook invalid (text.length + 1) (skipBlanks text)
  if skipBlanks rest = [] then .ok value else .error invalid

end Values

end Json

end Scanipy.Python

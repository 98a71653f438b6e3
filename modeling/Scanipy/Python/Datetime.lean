import Mathlib.Tactic.Ring
import Scanipy.Python.JsonRoundTrip

/-! Patterns of fixed shape, and the calendar: texts of UTC instants and the points of time that
they stand for.
-/

namespace Scanipy.Python

/-- A run of character classes, as a regular expression of fixed length lists them. -/
def fullmatch : List (CodePoint → Bool) → Text → Bool
  | [], [] => true
  | accepts :: classes, point :: rest => accepts point && fullmatch classes rest
  | _, _ => false

/-- `[low-high]`. -/
def between (low high : Nat) (point : CodePoint) : Bool :=
  low ≤ point.val && point.val ≤ high

/-- `[0-9]`. -/
def isDigit : CodePoint → Bool :=
  between 0x30 0x39

/-- `[0-9a-f]`. -/
def isHex (point : CodePoint) : Bool :=
  isDigit point || between 0x61 0x66 point

/-- `[A-Za-z0-9]`. -/
def isAlphanumeric (point : CodePoint) : Bool :=
  isDigit point || between 0x41 0x5A point || between 0x61 0x7A point

/-- The classes of a literal. -/
def literally (literal : String) : List (CodePoint → Bool) :=
  (py literal).map fun expected point => point == expected

/-- `_HEX`. -/
def hexPattern : List (CodePoint → Bool) :=
  List.replicate 64 isHex

/-- `_UUID`. -/
def uuidPattern : List (CodePoint → Bool) :=
  List.replicate 8 isHex ++ literally "-" ++ List.replicate 4 isHex ++ literally "-"
  ++ List.replicate 4 isHex ++ literally "-" ++ List.replicate 4 isHex ++ literally "-"
  ++ List.replicate 12 isHex

/-- `_UTC`. -/
def utcPattern : List (CodePoint → Bool) :=
  List.replicate 4 isDigit ++ literally "-" ++ List.replicate 2 isDigit ++ literally "-"
  ++ List.replicate 2 isDigit ++ literally "T" ++ List.replicate 2 isDigit ++ literally ":"
  ++ List.replicate 2 isDigit ++ literally ":" ++ List.replicate 2 isDigit ++ literally "."
  ++ List.replicate 6 isDigit ++ literally "Z"

/-- The number that a run of digits stands for. -/
def digitsAt (text : Text) (start count : Nat) : Nat :=
  Json.digitsValue ((text.drop start).take count)

def IsLeap (year : Nat) : Prop :=
  year % 4 = 0 ∧ (year % 100 ≠ 0 ∨ year % 400 = 0)

instance (year : Nat) : Decidable (IsLeap year) :=
  inferInstanceAs (Decidable (_ ∧ _))

/-- `_days_in_month`. -/
def daysInMonth (year month : Nat) : Nat :=
  if month = 2 then (if IsLeap year then 29 else 28)
  else if month ∈ [4, 6, 9, 11] then 30
  else 31

/-- `datetime.toordinal`: days since the first of January of the year one. -/
def toOrdinal (year month day : Nat) : Nat :=
  let before := year - 1
  before * 365 + before / 4 - before / 100 + before / 400
  + ((List.range month).drop 1).foldl (fun days earlier => days + daysInMonth year earlier) 0
  + day

/-- A date and a time of day that exist. -/
structure Datetime where
  year : Nat
  month : Nat
  day : Nat
  hour : Nat
  minute : Nat
  second : Nat
  microsecond : Nat
  date : 1 ≤ year ∧ year ≤ 9999 ∧ 1 ≤ month ∧ month ≤ 12 ∧ 1 ≤ day ∧ day ≤ daysInMonth year month
  time : hour < 24 ∧ minute < 60 ∧ second < 60 ∧ microsecond < 1000000
  deriving DecidableEq

namespace Datetime

/-- Microseconds since the day before the first of January of the year one. -/
def micros (moment : Datetime) : Nat :=
  (((toOrdinal moment.year moment.month moment.day * 24 + moment.hour) * 60 + moment.minute) * 60
    + moment.second) * 1000000 + moment.microsecond

/-- `min`, which keeps the first of equal moments. -/
def earlier (first second : Datetime) : Datetime :=
  if second.micros < first.micros then second else first

/-- `datetime(…)`; a date or a time that does not exist is refused. -/
def make (year month day hour minute second microsecond : Nat) : Option Datetime :=
  if date : 1 ≤ year ∧ year ≤ 9999 ∧ 1 ≤ month ∧ month ≤ 12 ∧ 1 ≤ day
      ∧ day ≤ daysInMonth year month then
    if time : hour < 24 ∧ minute < 60 ∧ second < 60 ∧ microsecond < 1000000 then
      some { year, month, day, hour, minute, second, microsecond, date, time }
    else none
  else none

/-- `datetime.fromisoformat` of a text that the pattern admits. -/
def ofText (text : Text) (microseconds : Bool) : Option Datetime :=
  make (digitsAt text 0 4) (digitsAt text 5 2) (digitsAt text 8 2) (digitsAt text 11 2)
    (digitsAt text 14 2) (digitsAt text 17 2) (if microseconds then digitsAt text 20 6 else 0)

end Datetime

theorem fullmatch_append {classes others : List (CodePoint → Bool)} {text rest : Text}
    (first : fullmatch classes text = true)
    : fullmatch (classes ++ others) (text ++ rest) = fullmatch others rest := by
  induction classes generalizing text with
  | nil =>
      cases text with
      | nil => rfl
      | cons point text => cases first
  | cons accepts classes ih =>
      cases text with
      | nil => cases first
      | cons point text =>
          simp only [fullmatch, Bool.and_eq_true] at first
          simp only [List.cons_append, fullmatch, first.1, Bool.true_and]
          exact ih first.2

namespace Datetime

end Datetime

end Scanipy.Python

import Scanipy.Python.Datetime

/-! Patterns of bounded texts: identifiers and versions. -/

namespace Scanipy.Python

/-- `[A-Za-z]`. -/
def isLetter (point : CodePoint) : Bool :=
  between 0x41 0x5A point || between 0x61 0x7A point

/-- `[marks]`. -/
def isMark (marks : String) (point : CodePoint) : Bool :=
  (py marks).contains point

/-- The first point is of one class and the others are of another. -/
def startsWith (first rest : CodePoint → Bool) : Text → Bool
  | [] => false
  | point :: others => first point && others.all rest

/-- A letter, and then letters, digits and marks of names. -/
def isIdentifier : Text → Bool :=
  startsWith isLetter fun point => isAlphanumeric point || isMark "_.:/-" point

/-- `0|[1-9][0-9]{0,9}`. -/
def isNumeral (part : Text) : Bool :=
  part == py "0" || (part.length ≤ 10 && startsWith (between 0x31 0x39) isDigit part)

/-- A version: three numerals below two to the thirty-first. -/
def isVersion (value : Text) : Bool :=
  let parts := value.splitOn (Fin.ofNat 0x110000 0x2E)
  parts.length == 3 && parts.all isNumeral
  && parts.all fun part => Json.digitsValue part ≤ 2147483647

end Scanipy.Python

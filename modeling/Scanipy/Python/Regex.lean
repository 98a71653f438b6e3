import Scanipy.Python.Strings

/-! Patterns of `re` over texts: where a match can end, and whether a search finds one. A match may
look at the character before it and at the text behind it.
-/

namespace Scanipy.Python

/-- A place in a text: the character before it, and the text behind it. -/
structure Place where
  before : Option CodePoint
  rest : Text

/-- A pattern. What is repeated is one character of a class, as in `\s*`. -/
inductive Regex where
  | empty
  | one (accepts : CodePoint → Bool)
  | many (accepts : CodePoint → Bool)
  | seq (first second : Regex)
  | alt (left right : Regex)
  /-- `\b` -/
  | boundary
  /-- `(?!pattern)` -/
  | notAhead (pattern : Regex)

namespace Regex

/-- Where a run of characters of a class can end. -/
def runEnds (accepts : CodePoint → Bool) : Option CodePoint → Text → List Place
  | before, [] => [⟨before, []⟩]
  | before, point :: rest =>
      if accepts point then
        ⟨before, point :: rest⟩ :: runEnds accepts (some point) rest
      else
        [⟨before, point :: rest⟩]

variable (isWord : CodePoint → Bool)

/-- There is a word character on exactly one side. -/
def atBoundary (place : Place) : Bool :=
  place.before.any isWord != place.rest.head?.any isWord

/-- Where a match that starts at a place can end. -/
def ends : Regex → Place → List Place
  | empty, place => [place]
  | one accepts, place =>
      match place.rest with
      | [] => []
      | point :: rest => if accepts point then [⟨some point, rest⟩] else []
  | many accepts, place => runEnds accepts place.before place.rest
  | seq first second, place => (ends first place).flatMap (ends second)
  | alt left right, place => ends left place ++ ends right place
  | boundary, place => if atBoundary isWord place then [place] else []
  | notAhead pattern, place => if (ends pattern place).isEmpty then [place] else []

/-- Some match starts at the place or behind it. -/
def searchFrom (pattern : Regex) : Option CodePoint → Text → Bool
  | before, [] => !(ends isWord pattern ⟨before, []⟩).isEmpty
  | before, point :: rest =>
      !(ends isWord pattern ⟨before, point :: rest⟩).isEmpty
      || searchFrom pattern (some point) rest

/-- `pattern.search(text)` finds a match. -/
def search (pattern : Regex) (text : Text) : Bool :=
  searchFrom isWord pattern none text

/-- The characters of a literal, one after another. -/
def literal (text : String) : Regex :=
  (py text).foldr (fun point rest => seq (one (· == point)) rest) empty

/-- The patterns one after another. -/
def inOrder (patterns : List Regex) : Regex :=
  patterns.foldr seq empty

/-- One of the patterns. -/
def oneOf (patterns : List Regex) : Regex :=
  patterns.foldr alt (one fun _ => false)

/-- One of the literals. -/
def oneLiteral (literals : List String) : Regex :=
  oneOf (literals.map literal)

def optional (pattern : Regex) : Regex :=
  alt pattern empty

/-- `\s*` -/
def spaces : Regex :=
  many isSpace

/-- `\s+` -/
def someSpace : Regex :=
  seq (one isSpace) spaces

end Regex

end Scanipy.Python

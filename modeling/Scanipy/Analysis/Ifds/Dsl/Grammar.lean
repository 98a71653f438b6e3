import Scanipy.Analysis.Ifds.Dsl.Parser

/-! The grammar of detector specs, as relations between a text and what it derives. A production
is read as a derivation, without the order that a PEG tries its alternatives in. Blanks may stand
around the parts of a line, and a terminal of the header may be in quotes, as the examples of the
grammar have them.
-/

namespace Scanipy.Analysis.Ifds.Dsl

open Library Python

/-- Spaces and tabs. -/
def Blank (text : Text) : Prop :=
  ∀ point ∈ text, isMark " \t" point = true

/-- `Identifier`, and with it `FieldName`, `ParameterName` and `MethodName`. -/
def Identifier (text : Text) : Prop :=
  startsWith isNameStart isNameRest text = true

/-- `ArgIndex` -/
def ArgIndex (text : Text) : Prop :=
  text ≠ [] ∧ text.all isDigit = true

/-- `FQN` -/
inductive FQN : Text → Prop where
  | name {name : Text} : Identifier name → FQN name
  | dotted {name rest : Text} : Identifier name → FQN rest → FQN (name ++ py "." ++ rest)

/-- `Receiver` -/
inductive Receiver : Text → Prop where
  | fqn {name : Text} : FQN name → Receiver name
  /-- `TypePattern` -/
  | typePattern {name bound : Text} : Identifier name → FQN bound
      → Receiver (py "?" ++ name ++ py "<:" ++ bound)
  | wildcard : Receiver (py "*")

/-- `ArgSelector` -/
inductive ArgSelector : Text → Prop where
  | any : ArgSelector (py "*")
  | index {index : Text} : ArgIndex index → ArgSelector index
  | parameter {name : Text} : Identifier name → ArgSelector name
  | both {first second : Text} : ArgSelector first → ArgSelector second
      → ArgSelector (first ++ py "," ++ second)

/-- `MemberSelector` -/
inductive MemberSelector : Text → Prop where
  | field {name : Text} : Identifier name → MemberSelector name
  | method {name args : Text} : Identifier name → ArgSelector args
      → MemberSelector (name ++ py "(" ++ args ++ py ")")

/-- `MemberAccessPath` -/
inductive MemberAccessPath : Text → Prop where
  | last {member : Text} : MemberSelector member → MemberAccessPath member
  | dotted {member rest : Text} : MemberSelector member → MemberAccessPath rest
      → MemberAccessPath (member ++ py "." ++ rest)

/-- `AccessPathPattern` -/
inductive DerivesPattern : Text → Prop where
  | access {receiver members : Text} : Receiver receiver → MemberAccessPath members
      → DerivesPattern (receiver ++ py "." ++ members)
  | receiver {receiver : Text} : Receiver receiver → DerivesPattern receiver

/-- `ArgRef` -/
def ArgRef (text : Text) : Prop :=
  ∃ inner, (ArgIndex inner ∨ Identifier inner) ∧ text = py "arg[" ++ inner ++ py "]"

/-- `FieldRef` -/
def FieldRef (text : Text) : Prop :=
  ∃ name, Identifier name ∧ (text = py "field[" ++ name ++ py "]" ∨ text = py "this." ++ name)

/-- The line `head(body)`. -/
def Written (head body line : Text) : Prop :=
  ∃ gap before behind, Blank gap ∧ Blank before ∧ Blank behind
    ∧ line = head ++ gap ++ py "(" ++ (before ++ body ++ behind) ++ py ")"

/-- `PropagateBody` -/
def PropagateBody (src tgt body : Text) : Prop :=
  (ArgRef src ∨ FieldRef src) ∧ (tgt = returnRef ∨ FieldRef tgt)
  ∧ ∃ before behind, Blank before ∧ Blank behind
    ∧ body = src ++ before ++ propagateArrow :: (behind ++ tgt)

/-- `Clause` -/
inductive DerivesClause (line : Text) : Clause → Prop where
  | source {pattern : Text} : DerivesPattern pattern → Written (py "source") pattern line
      → DerivesClause line (.source pattern)
  | sink {pattern : Text} : DerivesPattern pattern → Written (py "sink") pattern line
      → DerivesClause line (.sink pattern)
  | sanitize {pattern : Text} : DerivesPattern pattern → Written (py "sanitize") pattern line
      → DerivesClause line (.sanitize pattern)
  | propagate {src tgt body : Text} : PropagateBody src tgt body
      → Written (py "propagate") body line → DerivesClause line (.propagate src tgt)

/-- A terminal of the header, bare or in quotes. -/
def Terminal (text written : Text) : Prop :=
  written = text ∨ written = py "\"" ++ text ++ py "\""

/-- `StringLiteral` -/
def StringLiteral (content written : Text) : Prop :=
  (∀ point ∈ content, isQuote point = false) ∧ written = py "\"" ++ content ++ py "\""

/-- The languages between the brackets of `LanguageList`. -/
inductive LanguageItems : Text → List Language → Prop where
  | last {before written behind : Text} {language : Language} : Blank before → Blank behind
      → Terminal language.text written
      → LanguageItems (before ++ written ++ behind) [language]
  | more {before written behind rest : Text} {language : Language} {languages : List Language}
      : Blank before → Blank behind → Terminal language.text written
      → LanguageItems rest languages
      → LanguageItems (before ++ written ++ behind ++ py "," ++ rest) (language :: languages)

/-- A header line: the key, the colon and the value. -/
def HeaderLine (key value line : Text) : Prop :=
  ∃ gap, Blank gap ∧ line = key ++ py ":" ++ gap ++ value

/-- Lines without comments and the blanks at their ends, blank lines removed. -/
def contents (raws : List Text) : List Text :=
  (raws.map fun raw => (withoutComment raw).strip).filter (· ≠ [])

/-- The content of the lines of a text. -/
def contentLines (sourceText : Text) : List Text :=
  contents sourceText.splitlines

/-- `SpecHeader`, on its four lines. -/
def SpecHeader (lines : List Text) (spec : Spec) : Prop :=
  ∃ id className items engine idLine classLine languagesLine engineLine,
    lines = [idLine, classLine, languagesLine, engineLine]
    ∧ (StringLiteral spec.id id ∧ HeaderLine (py "id") id idLine)
    ∧ (Terminal spec.className.text className ∧ HeaderLine (py "class") className classLine)
    ∧ (LanguageItems items spec.languages
      ∧ HeaderLine (py "languages") (py "[" ++ items ++ py "]") languagesLine)
    ∧ (Terminal spec.engine.text engine ∧ HeaderLine (py "engine") engine engineLine)

/-- `Spec`: the header, and at least one clause. -/
def Derives (sourceText : Text) (spec : Spec) : Prop :=
  ∃ header clauses, contentLines sourceText = header ++ clauses
    ∧ SpecHeader header spec
    ∧ clauses ≠ []
    ∧ List.Forall₂ DerivesClause clauses spec.clauses

end Scanipy.Analysis.Ifds.Dsl

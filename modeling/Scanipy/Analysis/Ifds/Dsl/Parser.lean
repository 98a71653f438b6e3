import Scanipy.Analysis.Ifds.Solver
import Scanipy.Python.Patterns
import Scanipy.Python.Regex

/-! The parser of detector specs: header lines, and clauses screened by keywords and patterns. -/

namespace Scanipy.Analysis.Ifds.Dsl

open Library Python

/-- Python's character tables beyond ASCII. No character of a word is a space. -/
structure CharTables where
  wideWord : CodePoint → Bool
  wideDigit : CodePoint → Bool
  wideLower : Text → Text
  apart : ∀ point, wideWord point = true → isSpace point = false

/-- `[A-Za-z_]` -/
def isNameStart (point : CodePoint) : Bool :=
  isLetter point || isMark "_" point

/-- `[A-Za-z0-9_]` -/
def isNameRest (point : CodePoint) : Bool :=
  isAlphanumeric point || isMark "_" point

/-- `str.lower` of an ASCII character. -/
def asciiLower (point : CodePoint) : CodePoint :=
  if between 0x41 0x5A point then Fin.ofNat 0x110000 (point.val + 32) else point

namespace CharTables

variable (tables : CharTables)

/-- `\w` -/
def isWord (point : CodePoint) : Bool :=
  if point.val < 0x80 then isNameRest point else tables.wideWord point

/-- `\d` -/
def isDecimal (point : CodePoint) : Bool :=
  if point.val < 0x80 then isDigit point else tables.wideDigit point

/-- `str.lower` -/
def lower (text : Text) : Text :=
  if text.IsAscii then text.map asciiLower else tables.wideLower text

end CharTables

def hash : CodePoint := Fin.ofNat 0x110000 0x23

def openParen : CodePoint := Fin.ofNat 0x110000 0x28

def closeParen : CodePoint := Fin.ofNat 0x110000 0x29

def comma : CodePoint := Fin.ofNat 0x110000 0x2C

def colon : CodePoint := Fin.ofNat 0x110000 0x3A

def semicolon : CodePoint := Fin.ofNat 0x110000 0x3B

def lineFeed : CodePoint := Fin.ofNat 0x110000 0x0A

/-- `_PROPAGATE_ARROW` -/
def propagateArrow : CodePoint := Fin.ofNat 0x110000 0x2192

/-- `ClassName` -/
inductive ClassName where
  | injection
  | pathTraversal
  | ssrf
  | deserialization
  | xss
  | cryptoMisuse
  | authnAuthz
  | secrets
  | depCve
  | memorySafety
  deriving DecidableEq

namespace ClassName

def all : List ClassName :=
  [injection, pathTraversal, ssrf, deserialization, xss, cryptoMisuse, authnAuthz, secrets, depCve,
    memorySafety]

def text : ClassName → Text
  | injection => py "injection"
  | pathTraversal => py "path-traversal"
  | ssrf => py "ssrf"
  | deserialization => py "deserialization"
  | xss => py "xss"
  | cryptoMisuse => py "crypto-misuse"
  | authnAuthz => py "authn-authz"
  | secrets => py "secrets"
  | depCve => py "dep-cve"
  | memorySafety => py "memory-safety"

end ClassName

/-- `Language` -/
inductive Language where
  | java
  | python
  | javascript
  | typescript
  | go
  | ruby
  | php
  deriving DecidableEq

namespace Language

def all : List Language :=
  [java, python, javascript, typescript, go, ruby, php]

def text : Language → Text
  | java => py "java"
  | python => py "python"
  | javascript => py "javascript"
  | typescript => py "typescript"
  | go => py "go"
  | ruby => py "ruby"
  | php => py "php"

end Language

/-- `EngineTag` -/
inductive EngineTag where
  | ifds
  | ide
  deriving DecidableEq

namespace EngineTag

def all : List EngineTag :=
  [ifds, ide]

def text : EngineTag → Text
  | ifds => py "ifds"
  | ide => py "ide"

end EngineTag

/-- The value of an enumeration that a text stands for. -/
def ofText {α : Type} (all : List α) (text : α → Text) (written : Text) : Option α :=
  all.find? fun value => text value = written

/-- `Spec` -/
structure Spec where
  id : Text
  className : ClassName
  languages : List Language
  engine : EngineTag
  clauses : List Clause
  deriving DecidableEq

/-- `DSLErrorCode`: what a `DSLError` is told apart by. -/
inductive DSLErrorCode where
  | rawRegex
  | embeddedOracle
  | cpgQuery
  | callable
  | sequencing
  | conditional
  | fixpoint
  | malformed
  | oracleEngine
  deriving DecidableEq

/-- `_PRIMITIVE_HEADS` -/
def primitiveHeads : List Text :=
  [py "source", py "sink", py "sanitize", py "propagate"]

/-- `_CONDITIONAL_KW` -/
def conditionalKw : List Text :=
  [py "if", py "when", py "guard", py "else"]

/-- `_SEQUENCING_KW` -/
def sequencingKw : List Text :=
  [py "then", py "seq", py ";"]

/-- `_FIXPOINT_KW` -/
def fixpointKw : List Text :=
  [py "fixpoint", py "closure", py "rec"]

section Screens

variable (tables : CharTables)

/-- The matches of `[A-Za-z_]\w*|;`, from between two of them or from inside a word. -/
def scanTokens : Option Text → Text → List Text
  | none, [] => []
  | some word, [] => [word]
  | none, point :: rest =>
      if isNameStart point then
        scanTokens (some [point]) rest
      else if point = semicolon then
        [point] :: scanTokens none rest
      else
        scanTokens none rest
  | some word, point :: rest =>
      if tables.isWord point then
        scanTokens (some (word ++ [point])) rest
      else if point = semicolon then
        word :: [point] :: scanTokens none rest
      else
        word :: scanTokens none rest

/-- `_word_tokens` -/
def wordTokens (text : Text) : List Text :=
  (scanTokens tables none text).map tables.lower

/-- `_check_composition_keywords` -/
def checkCompositionKeywords (rawLine : Text) : Except DSLErrorCode Unit := do
  let tokens := wordTokens tables rawLine
  demand (∀ token ∈ tokens, token ∉ conditionalKw) .conditional
  demand (∀ token ∈ tokens, token ∉ sequencingKw) .sequencing
  demand (∀ token ∈ tokens, token ∉ fixpointKw) .fixpoint

open Regex

/-- A literal under `re.IGNORECASE`; no letter of the literals here has a case beyond ASCII. -/
def ignoringCase (text : String) : Regex :=
  (py text).foldr (fun point rest => seq (one fun found => asciiLower found == point) rest) empty

/-- `_RE_SEMGREP` -/
def reSemgrep : Regex :=
  inOrder [boundary, literal "semgrep", boundary]

/-- `_RE_CPG_QUERY` -/
def reCpgQuery : Regex :=
  oneOf
    [inOrder [boundary, ignoringCase "cpg."],
      inOrder [boundary, ignoringCase "cpg-query", boundary],
      inOrder [boundary, ignoringCase "codeql", boundary]]

/-- `_RE_LAMBDA` -/
def reLambda : Regex :=
  oneOf
    [inOrder [boundary, literal "lambda", boundary], inOrder [boundary, literal "def", boundary]]

/-- `_RE_RAW_REGEX` -/
def reRawRegex : Regex :=
  oneOf
    [inOrder [boundary, literal "re.compile", boundary],
      inOrder [boundary, literal "regex", spaces, literal "("],
      inOrder [literal "r", one (isMark "'\"")]]

/-- `_check_escape_hatches` -/
def checkEscapeHatches (body : Text) : Except DSLErrorCode Unit := do
  demand (reSemgrep.search tables.isWord body = false) .embeddedOracle
  demand (reCpgQuery.search tables.isWord body = false) .cpgQuery
  demand (reLambda.search tables.isWord body = false) .callable
  demand (reRawRegex.search tables.isWord body = false) .rawRegex

end Screens

section Clauses

variable (tables : CharTables)

/-- `[A-Za-z_]\w*` -/
def isName : Text → Bool :=
  startsWith isNameStart tables.isWord

/-- The text between a prefix and a last character. -/
def enclosed (before : Text) (last : CodePoint) (text : Text) : Option Text :=
  if before <+: text ∧ before.length < text.length ∧ text.getLast? = some last then
    some (text.drop before.length).dropLast
  else
    none

def closeBracket : CodePoint := Fin.ofNat 0x110000 0x5D

/-- `_ARG_REF`, over texts that end in no line feed. -/
def isArgRef (text : Text) : Bool :=
  (enclosed (py "arg[") closeBracket text).any fun inner =>
    (inner ≠ [] && inner.all tables.isDecimal) || isName tables inner

/-- `_FIELD_REF`, over texts that end in no line feed. -/
def isFieldRef (text : Text) : Bool :=
  (enclosed (py "field[") closeBracket text).any (isName tables)
  || (py "this.").isPrefixOf text && isName tables (text.drop 5)

/-- `_RETURN_REF` -/
def returnRef : Text :=
  py "ret"

/-- `_parse_propagate` -/
def parsePropagate (body : Text) : Except DSLErrorCode Clause :=
  match body.partition propagateArrow with
  | (_, none) => .error .malformed
  | (left, some right) => do
      let src := left.strip
      let tgt := right.strip
      demand (isArgRef tables src = true ∨ isFieldRef tables src = true) .malformed
      demand (tgt = returnRef ∨ isFieldRef tables tgt = true) .malformed
      .ok (.propagate src tgt)

/-- The groups of `^\s*([A-Za-z_]\w*)\s*\((.*)\)\s*$`. -/
def matchClause (rawLine : Text) : Option (Text × Text) := do
  let start := rawLine.dropWhile isSpace
  guard (start.head?.any isNameStart)
  let behind := (start.dropWhile tables.isWord).dropWhile isSpace
  guard (behind.head? = some openParen)
  let ending := behind.tail.reverse.dropWhile isSpace
  guard (ending.head? = some closeParen ∧ lineFeed ∉ ending.tail)
  some (start.takeWhile tables.isWord, ending.tail.reverse)

/-- `_parse_clause` -/
def parseClause (rawLine : Text) : Except DSLErrorCode Clause := do
  checkCompositionKeywords tables rawLine
  match matchClause tables rawLine with
  | none => .error .malformed
  | some (name, inner) =>
      let head := tables.lower name
      let body := inner.strip
      demand (head ∈ primitiveHeads) .malformed
      checkEscapeHatches tables body
      if head = py "propagate" then
        parsePropagate tables body
      else if head = py "source" then
        .ok (.source body)
      else if head = py "sink" then
        .ok (.sink body)
      else
        .ok (.sanitize body)

end Clauses

def isQuote (point : CodePoint) : Bool :=
  isMark "\"" point

/-- `value.strip().strip('"')` -/
def unquote (value : Text) : Text :=
  value.strip.trim isQuote

/-- `langs` of `_parse_header` -/
def languageNames (langsRaw : Text) : List Text :=
  let parts := (langsRaw.trim (isMark "[]")).splitOn comma
  (parts.filter fun part => Text.strip part ≠ []).map unquote

/-- A value, or the rejection where there is none. -/
def orReject {α : Type} (found : Option α) (code : DSLErrorCode) : Except DSLErrorCode α :=
  found.elim (.error code) .ok

/-- `_parse_header`, and the `Spec` around it. -/
def parseHeader (header : Dict Text Text) (clauses : List Clause) : Except DSLErrorCode Spec := do
  let engine ← orReject (ofText EngineTag.all EngineTag.text
    (unquote (header.getD (py "engine") []))) .oracleEngine
  let className ← orReject (ofText ClassName.all ClassName.text
    (unquote (header.getD (py "class") []))) .malformed
  let names := languageNames (header.getD (py "languages") []).strip
  let languages ← orReject (names.mapM (ofText Language.all Language.text)) .malformed
  demand (languages ≠ []) .malformed
  .ok { id := unquote (header.getD (py "id") []), className, languages, engine, clauses }

/-- The keys of header lines. -/
def headerKeys : List Text :=
  [py "id", py "class", py "languages", py "engine"]

/-- The groups of `^\s*(id|class|languages|engine)\s*:\s*(.*)$`. -/
def matchHeader (stripped : Text) : Option (Text × Text) := do
  let start := stripped.dropWhile isSpace
  let key ← headerKeys.find? fun key => key.isPrefixOf start
  let behind := (start.drop key.length).dropWhile isSpace
  guard (behind.head? = some colon)
  let value := behind.tail.dropWhile isSpace
  guard (lineFeed ∉ value)
  some (key, value)

/-- `raw.split("#", 1)[0].rstrip()` -/
def withoutComment (raw : Text) : Text :=
  Text.rstrip (raw.takeWhile (· ≠ hash))

/-- The body of the loop of `parse_spec`. -/
def parseLine (tables : CharTables) (state : Dict Text Text × List Clause) (raw : Text)
    : Except DSLErrorCode (Dict Text Text × List Clause) :=
  let stripped := withoutComment raw
  if stripped.strip = [] then
    .ok state
  else
    match matchHeader stripped with
    | some (key, value) => .ok (state.1.set key value.strip, state.2)
    | none => do
        let clause ← parseClause tables stripped.strip
        .ok (state.1, state.2 ++ [clause])

/-- The loop of `parse_spec`. -/
def parseLines (tables : CharTables)
    : List Text → Dict Text Text × List Clause → Except DSLErrorCode (Dict Text Text × List Clause)
  | [], state => .ok state
  | raw :: rest, state => do
      let next ← parseLine tables state raw
      parseLines tables rest next

/-- `parse_spec` -/
def parseSpec (tables : CharTables) (sourceText : Text) : Except DSLErrorCode Spec := do
  let state ← parseLines tables sourceText.splitlines ([], [])
  let spec ← parseHeader state.1 state.2
  demand (state.2 ≠ []) .malformed
  .ok spec

section Revalidation

variable (tables : CharTables)

/-- `_revalidate_propagate_endpoints`, over endpoints that end in no line feed. -/
def revalidatePropagateEndpoints (src tgt : Text) : Except DSLErrorCode Unit :=
  demand ((isArgRef tables src = true ∨ isFieldRef tables src = true)
    ∧ (tgt = returnRef ∨ isFieldRef tables tgt = true)) .malformed

/-- The body of the loop of `revalidate_spec`. -/
def revalidateClause : Clause → Except DSLErrorCode Unit
  | .source pattern | .sink pattern | .sanitize pattern => checkEscapeHatches tables pattern
  | .propagate src tgt => revalidatePropagateEndpoints tables src tgt

/-- `revalidate_spec` -/
def revalidateSpec (spec : Spec) : Except DSLErrorCode Unit :=
  Metered.visit (revalidateClause tables) spec.clauses

end Revalidation

end Scanipy.Analysis.Ifds.Dsl

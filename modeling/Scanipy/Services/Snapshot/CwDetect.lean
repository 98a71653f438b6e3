import Scanipy.Python.Patterns
import Scanipy.Python.Regex
import Scanipy.Python.Utf8

/-! The closed-world precondition of a source tree: which constructs of reflection its files hold,
and the verdict on it.
-/

namespace Scanipy.Services.Snapshot

open Python Library

inductive Verdict where
  | closedWorld
  | degraded
  | fullReparse
  deriving DecidableEq

inductive Confidence where
  | high
  | uncertain
  deriving DecidableEq

inductive ReflectionKind where
  | javaClassForname
  | javaMethodInvoke
  | javaProxyNewproxy
  | javaSpringDynamicProxy
  | pythonImportDunder
  | pythonGetattr
  | pythonEvalExec
  | rubySend
  | rubyMethodMissing
  | rubyDefineMethod
  | phpVariableFunction
  | phpCallUserFunc
  | jsRequireDynamic
  | jsFunctionConstructor
  | jsEval
  | goReflectCall
  | structuralUncertainty
  deriving DecidableEq

inductive Language where
  | java
  | python
  | ruby
  | php
  | js
  | ts
  | go
  deriving DecidableEq

namespace Language

def all : List Language :=
  [java, python, ruby, php, js, ts, go]

def name : Language → Text
  | java => py "java"
  | python => py "python"
  | ruby => py "ruby"
  | php => py "php"
  | js => py "js"
  | ts => py "ts"
  | go => py "go"

/-- `_LANG_EXTENSIONS` -/
def extensions : Language → List Text
  | java => [py ".java"]
  | python => [py ".py", py ".pyi"]
  | ruby => [py ".rb"]
  | php => [py ".php", py ".phtml"]
  | js => [py ".js", py ".jsx", py ".mjs", py ".cjs"]
  | ts => [py ".ts", py ".tsx"]
  | go => [py ".go"]

end Language

/-- `_INERT_EXTENSIONS` -/
def inertExtensions : List Text :=
  [py ".md", py ".markdown", py ".rst", py ".txt", py ".adoc", py ".png", py ".jpg", py ".jpeg",
    py ".gif", py ".svg", py ".ico", py ".webp", py ".bmp", py ".pdf", py ".csv", py ".tsv",
    py ".lock", py ".gitignore", py ".gitattributes", py ".editorconfig", py ".dockerignore"]

structure ReflectionSite where
  file : Text
  line : Nat
  kind : ReflectionKind
  snippet : Text
  deriving DecidableEq

structure CwDetectVerdict where
  verdict : Verdict
  cwDetectVersion : Text
  reflectionSites : List ReflectionSite
  decidedAt : Text
  confidence : Confidence

/-- A regular file of a tree: its path from the root, whether the directories above it can be
listed, and its bytes, where it can be read.
-/
structure SourceFile where
  path : Text
  listed : Bool
  bytes : Option Bytes

/-- What stands at the root. -/
inductive SourceTree where
  | missing
  | file (root : SourceFile)
  | directory (files : List SourceFile)

structure CwDetectRequest where
  sourceTreeRoot : Text
  sourceTree : SourceTree
  languageMix : List Text
  parentSnapshot : Option (List ReflectionSite)

namespace SourceFile

/-- The parts of the path, by which paths are ordered. -/
def parts (file : SourceFile) : List Text :=
  file.path.splitOn (Fin.ofNat 0x110000 0x2F)

def name (file : SourceFile) : Text :=
  file.parts.getLastD []

/-- `Path.suffix`: from the last dot of the name, where it is not the first or the last
character.
-/
def suffix (file : SourceFile) : Text :=
  let dot := Fin.ofNat 0x110000 0x2E
  let behind := (file.name.reverse.takeWhile (· ≠ dot)).reverse
  if behind = [] ∨ file.name.length ≤ behind.length + 1 then [] else dot :: behind

/-- `read_text(encoding="utf-8", errors="strict")`; `none` is an `OSError` or a
`UnicodeDecodeError`.
-/
def readText (file : SourceFile) : Option Text := do
  let data ← file.bytes
  let text ← Text.decode data
  some text.universalNewlines

end SourceFile

namespace SourceTree

def files : SourceTree → List SourceFile
  | .missing => []
  | .file root => [root]
  | .directory files => files

/-- `_iter_source_files`: the walk passes over what it cannot list. -/
def iterSourceFiles : SourceTree → List SourceFile
  | .missing => []
  | .file root => [root]
  | .directory files => sortedBy SourceFile.parts (files.filter SourceFile.listed)

end SourceTree

/-- Python's character tables beyond ASCII, and the clock. -/
structure CwRuntime where
  lower : Text → Text
  wideWord : CodePoint → Bool
  clock : Text

/-- `\w` -/
def CwRuntime.isWord (runtime : CwRuntime) (point : CodePoint) : Bool :=
  if point.val < 0x80 then
    isAlphanumeric point || isMark "_" point
  else
    runtime.wideWord point

section Patterns

open Regex

variable (runtime : CwRuntime)

/-- `\b(?:literals)` -/
def startingWord (literals : List String) : Regex :=
  seq boundary (oneLiteral literals)

/-- `\s*\(` -/
def openCall : Regex :=
  seq spaces (literal "(")

/-- `\b(?:literals)\s*\(` -/
def wordCall (literals : List String) : Regex :=
  seq (startingWord literals) openCall

/-- `\b(?:literals)\b` -/
def wholeWord (literals : List String) : Regex :=
  seq (startingWord literals) boundary

/-- `\$[A-Za-z_]\w*\s*\(` -/
def variableCall : Regex :=
  inOrder
    [literal "$", one fun point => isLetter point || isMark "_" point, many runtime.isWord,
      openCall]

/-- `\bnew\s+` -/
def newSpace : Regex :=
  seq (startingWord ["new"]) someSpace

/-- A quoted text of one line: the quote, other characters of the line, and the quote. -/
def quoted (quote : String) : Regex :=
  inOrder [literal quote, many fun point => !isMark quote point && !isMark "\n" point,
    literal quote]

/-- A call of `require` whose argument is not a single string literal. -/
def requireDynamic : Regex :=
  inOrder
    [wordCall ["require"], spaces,
      notAhead (inOrder [alt (quoted "'") (quoted "\""), spaces, literal ")"])]

/-- The patterns that `js` and `ts` share. -/
def scriptPatterns : List (ReflectionKind × Regex) :=
  [(.jsRequireDynamic, requireDynamic),
    (.jsFunctionConstructor, inOrder [newSpace, literal "Function", openCall]),
    (.jsEval, alt (wordCall ["eval"]) (wordCall ["Function"]))]

/-- `_LANG_PATTERNS` -/
def langPatterns : Language → List (ReflectionKind × Regex)
  | .java =>
      [(.javaClassForname, wordCall ["forName"]),
        (.javaMethodInvoke,
          wordCall ["invoke", "getMethod", "getDeclaredMethod", "getDeclaredMethods", "getMethods",
            "newInstance", "getConstructor", "getDeclaredConstructor", "getField",
            "getDeclaredField", "setAccessible"]),
        (.javaProxyNewproxy, wordCall ["newProxyInstance"]),
        (.javaSpringDynamicProxy,
          wholeWord ["ProxyFactory", "ProxyFactoryBean", "getProxy", "createAopProxy", "AopProxy",
            "ScopedProxyMode", "@EnableAspectJAutoProxy"])]
  | .python =>
      [(.pythonImportDunder, alt (wordCall ["__import__"]) (wordCall ["importlib.import_module"])),
        (.pythonGetattr,
          wordCall ["getattr", "setattr", "delattr", "hasattr", "vars", "globals", "locals"]),
        (.pythonEvalExec, wordCall ["eval", "exec", "compile"])]
  | .ruby =>
      [(.rubySend,
          alt (inOrder [literal ".", oneLiteral ["public_send", "__send__", "send"], boundary])
            (wordCall ["send"])),
        (.rubyMethodMissing, wholeWord ["method_missing", "respond_to_missing?"]),
        (.rubyDefineMethod,
          wholeWord ["define_method", "instance_eval", "class_eval", "module_eval", "const_get",
            "instance_variable_get", "instance_variable_set"])]
  | .php =>
      [(.phpVariableFunction,
          alt (variableCall runtime) (inOrder [literal "->", spaces, variableCall runtime])),
        (.phpCallUserFunc,
          alt
            (inOrder
              [boundary,
                oneOf
                  [seq (literal "call_user_func") (optional (literal "_array")),
                    literal "ReflectionClass", literal "ReflectionMethod",
                    seq (literal "forward_static_call") (optional (literal "_array")),
                    literal "eval"],
                openCall])
            (seq newSpace (literal "Reflection")))]
  | .js => scriptPatterns
  | .ts => scriptPatterns
  | .go =>
      [(.goReflectCall,
          inOrder
            [startingWord ["reflect"], spaces, literal ".", spaces,
              oneLiteral ["ValueOf", "TypeOf", "New", "Call", "MakeFunc", "Indirect", "NewAt"],
              boundary])]

end Patterns

namespace CwRuntime

variable (runtime : CwRuntime)

/-- `_detect_language` -/
def detectLanguage (file : SourceFile) : Option Language :=
  Language.all.find? fun lang => runtime.lower file.suffix ∈ lang.extensions

/-- `_scan_text` -/
def scanText (relPath : Text) (lang : Language) (text : Text) : List ReflectionSite :=
  (text.splitlines.zipIdx 1).flatMap fun numbered =>
    (langPatterns runtime lang).filterMap fun entry =>
      if entry.2.search runtime.isWord numbered.1 then
        some ⟨relPath, numbered.2, entry.1, numbered.1.strip.take 200⟩
      else
        none

end CwRuntime

structure ScanState where
  sites : List ReflectionSite
  confidence : Confidence

/-- `_add_uncertainty` -/
def ScanState.addUncertainty (state : ScanState) (relPath : Text) : ScanState :=
  ⟨state.sites ++ [⟨relPath, 0, .structuralUncertainty, []⟩], .uncertain⟩

/-- What one language of the request adds. -/
def ScanState.scanLanguage (state : ScanState) (lang : Text) : ScanState :=
  if lang ∈ Language.all.map Language.name then
    state
  else
    state.addUncertainty (py "<language:" ++ lang ++ py ">")

namespace CwRuntime

variable (runtime : CwRuntime)

/-- What one file adds. -/
def scanFile (state : ScanState) (file : SourceFile) : ScanState :=
  match runtime.detectLanguage file with
  | none =>
      if runtime.lower file.suffix ∈ inertExtensions then state else state.addUncertainty file.path
  | some lang =>
      match file.readText with
      | none => state.addUncertainty file.path
      | some text => { state with sites := state.sites ++ runtime.scanText file.path lang text }

/-- The sites of a request, with the confidence. -/
def scanRequest (request : CwDetectRequest) : ScanState :=
  let languages := request.languageMix.foldl ScanState.scanLanguage ⟨[], .high⟩
  let rooted :=
    match request.sourceTree with
    | .missing => languages.addUncertainty request.sourceTreeRoot
    | _ => languages
  let scanned := request.sourceTree.iterSourceFiles.foldl runtime.scanFile rooted
  { scanned with sites := scanned.sites ++ request.parentSnapshot.getD [] }

def detect (request : CwDetectRequest) : CwDetectVerdict :=
  let state := runtime.scanRequest request
  let version := py "0.1.1"
  if state.sites ≠ [] then
    ⟨.degraded, version, state.sites, runtime.clock, state.confidence⟩
  else if state.confidence = .uncertain then
    ⟨.degraded, version, [⟨[], 0, .structuralUncertainty, []⟩], runtime.clock, .uncertain⟩
  else
    ⟨.closedWorld, version, [], runtime.clock, .high⟩

end CwRuntime

-- What forces a verdict

namespace CwRuntime

variable (runtime : CwRuntime)

/-- The file cannot be vouched for: it is of no known kind, it cannot be read, or `reflects` holds
of its text.
-/
def Suspect (reflects : Language → Text → Prop) (file : SourceFile) : Prop :=
  match runtime.detectLanguage file with
  | none => runtime.lower file.suffix ∉ inertExtensions
  | some lang =>
      match file.readText with
      | none => True
      | some text => reflects lang text

/-- The text, read as a whole, holds a match of a pattern of the language. -/
def Reflects (lang : Language) (text : Text) : Prop :=
  ∃ entry ∈ langPatterns runtime lang, entry.2.search runtime.isWord text = true

/-- Some line, read by itself, holds a match of a pattern of the language. -/
def LineReflects (lang : Language) (text : Text) : Prop :=
  ∃ line ∈ text.splitlines, runtime.Reflects lang line

end CwRuntime

/-- A language of the request that no patterns exist for. -/
def CwDetectRequest.Unsupported (request : CwDetectRequest) : Prop :=
  ∃ lang ∈ request.languageMix, lang ∉ Language.all.map Language.name

namespace CwRuntime

variable {runtime : CwRuntime}

theorem scanText_eq_nil_iff {relPath : Text} {lang : Language} {text : Text}
    : runtime.scanText relPath lang text = [] ↔ ¬runtime.LineReflects lang text := by
  unfold scanText LineReflects Reflects
  simp only [List.flatMap_eq_nil_iff, List.filterMap_eq_nil_iff, ite_eq_right_iff, reduceCtorEq,
    imp_false, not_exists, not_and]
  constructor
  · intro none line member entry listed found
    obtain ⟨index, bound, rfl⟩ := List.getElem_of_mem member
    exact none (text.splitlines[index], 1 + index)
      (List.mk_add_mem_zipIdx_iff_getElem?.mpr (List.getElem?_eq_getElem bound)) entry listed found
  · intro none numbered member entry listed found
    exact none numbered.1 (List.fst_mem_of_mem_zipIdx member) entry listed found

/-- A file adds a site exactly where it cannot be vouched for line by line. -/
theorem scanFile_sites (state : ScanState) (file : SourceFile)
    : (runtime.scanFile state file).sites = []
      ↔ state.sites = [] ∧ ¬runtime.Suspect runtime.LineReflects file := by
  unfold scanFile Suspect
  cases runtime.detectLanguage file with
  | none =>
      dsimp only
      split
      next inert => simp [inert]
      next unknown => simp [unknown, ScanState.addUncertainty]
  | some lang =>
      dsimp only
      cases file.readText with
      | none => simp [ScanState.addUncertainty]
      | some text => simp [scanText_eq_nil_iff]

/-- By induction on the files. -/
theorem scanFiles_sites (files : List SourceFile) (state : ScanState)
    : (files.foldl runtime.scanFile state).sites = []
      ↔ state.sites = [] ∧ ∀ file ∈ files, ¬runtime.Suspect runtime.LineReflects file := by
  induction files generalizing state with
  | nil => simp
  | cons file rest ih =>
      rw [List.foldl_cons, ih, scanFile_sites, List.forall_mem_cons, and_assoc]

/-- By induction on the languages. -/
theorem scanLanguages_sites (languages : List Text) (state : ScanState)
    : (languages.foldl ScanState.scanLanguage state).sites = []
      ↔ state.sites = [] ∧ ∀ lang ∈ languages, lang ∈ Language.all.map Language.name := by
  induction languages generalizing state with
  | nil => simp
  | cons lang rest ih =>
      rw [List.foldl_cons, ih, List.forall_mem_cons, ← and_assoc]
      refine and_congr_left fun _ => ?_
      unfold ScanState.scanLanguage
      split
      next known => simp [known]
      next unknown => simp [unknown, ScanState.addUncertainty]

end CwRuntime

/-- Uncertainty always carries a site. -/
def ScanState.Carries (state : ScanState) : Prop :=
  state.confidence = .uncertain → state.sites ≠ []

theorem ScanState.addUncertainty_carries (state : ScanState) (relPath : Text)
    : (state.addUncertainty relPath).Carries := by
  simp [ScanState.Carries, ScanState.addUncertainty]

variable {state : ScanState}

theorem ScanState.Carries.append (carries : state.Carries) (sites : List ReflectionSite)
    : ScanState.Carries { state with sites := state.sites ++ sites } := by
  intro uncertain
  have some := carries uncertain
  simp [some]

theorem ScanState.Carries.scanLanguage (carries : state.Carries) (lang : Text)
    : (state.scanLanguage lang).Carries := by
  unfold ScanState.scanLanguage
  split
  · exact carries
  · exact state.addUncertainty_carries _

theorem ScanState.Carries.foldl {γ : Type} {step : ScanState → γ → ScanState}
    (each : ∀ state element, ScanState.Carries state → (step state element).Carries)
    {elements : List γ} (carries : state.Carries)
    : (elements.foldl step state).Carries := by
  induction elements generalizing state with
  | nil => exact carries
  | cons element rest ih => exact ih (each state element carries)

namespace SourceTree

/-- The walk comes to the file. -/
def Reaches (tree : SourceTree) (file : SourceFile) : Prop :=
  match tree with
  | .missing => False
  | .file root => file = root
  | .directory files => file ∈ files ∧ file.listed = true

theorem mem_iterSourceFiles_iff {tree : SourceTree} {file : SourceFile}
    : file ∈ tree.iterSourceFiles ↔ tree.Reaches file := by
  unfold iterSourceFiles Reaches
  split <;> simp

end SourceTree

namespace CwRuntime

variable {runtime : CwRuntime}

theorem scanFile_carries (file : SourceFile) (carries : state.Carries)
    : (runtime.scanFile state file).Carries := by
  unfold scanFile
  split
  · split
    · exact carries
    · exact state.addUncertainty_carries _
  · split
    · exact state.addUncertainty_carries _
    · exact carries.append _

theorem scanRequest_carries (request : CwDetectRequest)
    : (runtime.scanRequest request).Carries := by
  unfold scanRequest
  have languages : (request.languageMix.foldl ScanState.scanLanguage ⟨[], .high⟩).Carries :=
    ScanState.Carries.foldl (fun _ lang carries => carries.scanLanguage lang)
      (by simp [ScanState.Carries])
  refine ScanState.Carries.append (ScanState.Carries.foldl
    (fun _ file carries => scanFile_carries file carries) ?_) _
  split
  · exact ScanState.addUncertainty_carries _ _
  · exact languages

/-- What the walk sees without reading across a line break. -/
def Witnessed (runtime : CwRuntime) (request : CwDetectRequest) : Prop :=
  request.Unsupported ∨ request.sourceTree = .missing ∨ request.parentSnapshot.getD [] ≠ []
  ∨ ∃ file, request.sourceTree.Reaches file ∧ runtime.Suspect runtime.LineReflects file

theorem scanRequest_sites (request : CwDetectRequest)
    : (runtime.scanRequest request).sites ≠ [] ↔ runtime.Witnessed request := by
  unfold scanRequest Witnessed CwDetectRequest.Unsupported
  rw [← not_iff_not]
  simp only [ne_eq, not_not, List.append_eq_nil_iff, scanFiles_sites,
    SourceTree.mem_iterSourceFiles_iff, not_or, not_exists, not_and]
  cases request.sourceTree with
  | missing => simp [ScanState.addUncertainty]
  | file root => simp [scanLanguages_sites, and_comm, and_left_comm]
  | directory files => simp [scanLanguages_sites, and_comm, and_left_comm]

/-- The verdict is `degraded` exactly where the walk sees something. -/
theorem detect_degraded_iff (request : CwDetectRequest)
    : (runtime.detect request).verdict = .degraded ↔ runtime.Witnessed request := by
  rw [← scanRequest_sites]
  have carries := runtime.scanRequest_carries request
  unfold detect
  dsimp only
  split
  next found => exact iff_of_true rfl found
  next none =>
    split
    next uncertain => exact absurd (carries uncertain) none
    next => exact iff_of_false (by simp) none

end CwRuntime

/-- Lines are added to a file, and what could not be read still cannot. -/
structure SourceFile.Grows (before after : SourceFile) : Prop where
  path : after.path = before.path
  listed : before.listed = true → after.listed = true
  text : ∀ text, after.readText = some text →
    ∃ old, before.readText = some old ∧ old.splitlines ⊆ text.splitlines

/-- Files are added to a tree, and lines to its files. -/
def SourceTree.Grows : SourceTree → SourceTree → Prop
  | .missing, .missing => True
  | .file before, .file after => before.Grows after
  | .directory before, .directory after => ∀ file ∈ before, ∃ larger ∈ after, file.Grows larger
  | _, _ => False

/-- Files, lines, languages and cached sites are added to a request. -/
structure CwDetectRequest.Grows (before after : CwDetectRequest) : Prop where
  tree : before.sourceTree.Grows after.sourceTree
  languages : before.languageMix ⊆ after.languageMix
  sites : before.parentSnapshot.getD [] ⊆ after.parentSnapshot.getD []

namespace SourceTree

variable {before after : SourceTree}

theorem Grows.missing (grows : before.Grows after) (missing : before = .missing)
    : after = .missing := by
  subst missing
  cases after with
  | missing => rfl
  | file root => exact grows.elim
  | directory files => exact grows.elim

theorem Grows.reaches (grows : before.Grows after) {file : SourceFile}
    (reached : before.Reaches file)
    : ∃ larger, after.Reaches larger ∧ file.Grows larger := by
  cases before with
  | missing => exact reached.elim
  | file root =>
      cases after with
      | missing => exact grows.elim
      | directory files => exact grows.elim
      | file larger => exact ⟨larger, rfl, reached ▸ grows⟩
  | directory files =>
      cases after with
      | missing => exact grows.elim
      | file root => exact grows.elim
      | directory others =>
          obtain ⟨larger, member, extended⟩ := grows file reached.1
          exact ⟨larger, ⟨member, extended.listed reached.2⟩, extended⟩

end SourceTree

namespace CwRuntime

variable {runtime : CwRuntime}

theorem Suspect.grows {before after : SourceFile} (grows : before.Grows after)
    (suspect : runtime.Suspect runtime.LineReflects before)
    : runtime.Suspect runtime.LineReflects after := by
  have suffix : after.suffix = before.suffix := by
    unfold SourceFile.suffix SourceFile.name SourceFile.parts
    rw [grows.path]
  have language : runtime.detectLanguage after = runtime.detectLanguage before := by
    unfold detectLanguage
    rw [suffix]
  unfold Suspect at suspect ⊢
  rw [language, suffix]
  cases found : runtime.detectLanguage before with
  | none =>
      rw [found] at suspect
      exact suspect
  | some lang =>
      rw [found] at suspect
      dsimp only at suspect ⊢
      cases read : after.readText with
      | none => trivial
      | some text =>
          obtain ⟨old, readable, kept⟩ := grows.text text read
          rw [readable] at suspect
          obtain ⟨line, member, reflects⟩ := suspect
          exact ⟨line, kept member, reflects⟩

theorem Witnessed.grows {before after : CwDetectRequest} (grows : before.Grows after)
    (witnessed : runtime.Witnessed before)
    : runtime.Witnessed after := by
  rcases witnessed with ⟨lang, member, unknown⟩ | missing | sites | ⟨file, reached, suspect⟩
  · exact .inl ⟨lang, grows.languages member, unknown⟩
  · exact .inr (.inl (grows.tree.missing missing))
  · refine .inr (.inr (.inl fun empty => sites ?_))
    have kept := grows.sites
    rw [empty] at kept
    exact List.eq_nil_of_subset_nil kept
  · obtain ⟨larger, found, extended⟩ := grows.tree.reaches reached
    exact .inr (.inr (.inr ⟨larger, found, suspect.grows extended⟩))

/-- The walk does not come to the file, or its text matches only across line breaks. -/
def Escapes (runtime : CwRuntime) (tree : SourceTree) (file : SourceFile) : Prop :=
  runtime.Suspect runtime.Reflects file
  ∧ ¬(tree.Reaches file ∧ runtime.Suspect runtime.LineReflects file)

/-- One file of Java, with a call of `forName` whose bracket stands on the next line. -/
def splitCall : CwDetectRequest where
  sourceTreeRoot := py "/tree"
  sourceTree := .directory [⟨py "Load.java", true, some (pyb "Class.forName\n(name);\n")⟩]
  languageMix := [py "java"]
  parentSnapshot := none

end CwRuntime

end Scanipy.Services.Snapshot

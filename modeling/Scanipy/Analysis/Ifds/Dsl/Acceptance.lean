import Scanipy.Analysis.Ifds.Dsl.Grammar

/-! What the parser of detector specs accepts, as relations: the lines of the grammar with the
bodies of patterns left open, screened by reserved words.
-/

namespace Scanipy.Analysis.Ifds.Dsl

open Library Python

variable {text : Text}

section Characters

variable {tables : CharTables} {point : CodePoint}

theorem isSpace_of_isMark (blank : isMark " \t" point = true)
    : isSpace point = true := by
  have marks : py " \t" = [Fin.ofNat 0x110000 0x20, Fin.ofNat 0x110000 0x09] := by decide
  simp only [isMark, marks, List.contains_cons, List.contains_nil, Bool.or_false, Bool.or_eq_true,
    beq_iff_eq] at blank
  rcases blank with rfl | rfl <;> decide

theorem Blank.isSpace (blank : Blank text)
    : ∀ point ∈ text, isSpace point = true :=
  fun point member => isSpace_of_isMark (blank point member)

theorem isNameRest_iff
    : isNameRest point = true
      ↔ (0x30 ≤ point.val ∧ point.val ≤ 0x39) ∨ (0x41 ≤ point.val ∧ point.val ≤ 0x5A)
        ∨ (0x61 ≤ point.val ∧ point.val ≤ 0x7A) ∨ point.val = 0x5F := by
  have marks : py "_" = [Fin.ofNat 0x110000 0x5F] := by decide
  simp [isNameRest, isAlphanumeric, isDigit, between, isMark, marks, Fin.ext_iff, or_assoc]

theorem isNameRest_of_isNameStart (start : isNameStart point = true)
    : isNameRest point = true := by
  unfold isNameStart isLetter at start
  unfold isNameRest isAlphanumeric
  simp only [Bool.or_eq_true] at start ⊢
  tauto

/-- A visible ASCII character. -/
def IsPlain (point : CodePoint) : Prop :=
  0x21 ≤ point.val ∧ point.val < 0x7F

instance (point : CodePoint) : Decidable (IsPlain point) :=
  inferInstanceAs (Decidable (_ ∧ _))

theorem IsPlain.isSpace (plain : IsPlain point) : isSpace point = false := by
  obtain ⟨low, high⟩ := plain
  simp [Python.isSpace]
  omega

theorem isPlain_of_isNameRest (word : isNameRest point = true)
    : IsPlain point := by
  have ranges := isNameRest_iff.mp word
  unfold IsPlain
  omega

/-- A character of a name is one of a word. -/
theorem isWord_of_isNameRest (word : isNameRest point = true)
    : tables.isWord point = true := by
  have narrow : point.val < 0x80 := (isPlain_of_isNameRest word).2.trans (by decide)
  rw [CharTables.isWord, if_pos narrow, word]

/-- No character of a word is a space. -/
theorem isSpace_of_isWord (word : tables.isWord point = true)
    : isSpace point = false := by
  by_cases narrow : point.val < 0x80
  · rw [CharTables.isWord, if_pos narrow] at word
    exact (isPlain_of_isNameRest word).isSpace
  · rw [CharTables.isWord, if_neg narrow] at word
    exact tables.apart point word

theorem isWord_of_isSpace (space : isSpace point = true)
    : tables.isWord point = false := by
  by_contra word
  have apart := isSpace_of_isWord (Bool.eq_true_of_not_eq_false word)
  rw [space] at apart
  cases apart

end Characters

/-- A line that reads `name(inner)`, with spaces around the name and at the end. -/
def ClauseShape (tables : CharTables) (line name inner : Text) : Prop :=
  ∃ front gap behind, (∀ point ∈ front, isSpace point = true)
    ∧ (∀ point ∈ gap, isSpace point = true)
    ∧ (∀ point ∈ behind, isSpace point = true)
    ∧ isName tables name = true
    ∧ lineFeed ∉ inner
    ∧ line = front ++ (name ++ (gap ++ openParen :: (inner ++ closeParen :: behind)))

variable {tables : CharTables} {name : Text}

theorem isName_iff
    : isName tables name = true
      ↔ (∃ point ∈ name.head?, isNameStart point = true)
        ∧ ∀ point ∈ name, tables.isWord point = true := by
  cases name with
  | nil => simp [isName, startsWith]
  | cons point rest =>
      simp only [isName, startsWith, Bool.and_eq_true, List.all_eq_true, List.head?_cons,
        Option.mem_some_iff, List.mem_cons, forall_eq_or_imp]
      constructor
      · rintro ⟨start, others⟩
        exact ⟨⟨point, rfl, start⟩, isWord_of_isNameRest (isNameRest_of_isNameStart start), others⟩
      · rintro ⟨⟨_, rfl, start⟩, _, others⟩
        exact ⟨start, others⟩

variable {line : Text}

/-- The clause pattern matches exactly the lines of its shape, with their name and inner text. -/
theorem matchClause_eq_some {inner : Text}
    : matchClause tables line = some (name, inner) ↔ ClauseShape tables line name inner := by
  simp only [matchClause, Option.bind_eq_bind, Option.bind_eq_some_iff, Option.guard_eq_some',
    Option.some.injEq, Prod.mk.injEq, exists_const]
  constructor
  · rintro ⟨started, opened, ⟨closed, plain⟩, rfl, rfl⟩
    have front := List.takeWhile_append_dropWhile (p := isSpace) (l := line)
    generalize line.dropWhile isSpace = start at *
    have word := List.takeWhile_append_dropWhile (p := tables.isWord) (l := start)
    have gap := List.takeWhile_append_dropWhile (p := isSpace) (l := start.dropWhile tables.isWord)
    generalize (start.dropWhile tables.isWord).dropWhile isSpace = behind at *
    have last := List.takeWhile_append_dropWhile (p := isSpace) (l := behind.tail.reverse)
    generalize behind.tail.reverse.dropWhile isSpace = ending at *
    have inner : behind.tail
        = ending.tail.reverse ++ closeParen :: (behind.tail.reverse.takeWhile isSpace).reverse := by
      rw [List.eq_cons_of_mem_head? closed] at last
      simpa using (congrArg List.reverse last).symm
    refine ⟨line.takeWhile isSpace, (start.dropWhile tables.isWord).takeWhile isSpace,
      (behind.tail.reverse.takeWhile isSpace).reverse, fun _ member => List.mem_takeWhile_imp member,
      fun _ member => List.mem_takeWhile_imp member,
      fun _ member => List.mem_takeWhile_imp (List.mem_reverse.mp member), isName_iff.mpr ⟨?_, ?_⟩,
      mt List.mem_reverse.mp plain, ?_⟩
    · cases start with
      | nil => cases started
      | cons first rest =>
          have starts : isNameStart first = true := started
          rw [List.takeWhile_cons_of_pos (isWord_of_isNameRest (isNameRest_of_isNameStart starts))]
          exact ⟨first, rfl, starts⟩
    · exact fun _ member => List.mem_takeWhile_imp member
    · rw [← inner, ← List.eq_cons_of_mem_head? opened, gap, word, front]
  · rintro ⟨front, gap, behind, frontSpaces, gapSpaces, behindSpaces, named, plain, rfl⟩
    obtain ⟨⟨first, leads, starts⟩, words⟩ := isName_iff.mp named
    obtain ⟨rest, rfl⟩ : ∃ rest, name = first :: rest := ⟨_, List.eq_cons_of_mem_head? leads⟩
    have firstWord := words first List.mem_cons_self
    -- the word ends where the gap or the bracket begins
    have wordEnds : ∀ point ∈ (gap ++ openParen :: (inner ++ closeParen :: behind)).head?,
        tables.isWord point = false := by
      intro point leads
      cases gap with
      | nil =>
          obtain rfl := Option.mem_some_iff.mp leads
          rfl
      | cons space others =>
          obtain rfl := Option.mem_some_iff.mp leads
          exact isWord_of_isSpace (gapSpaces _ List.mem_cons_self)
    have start : (front ++ (first :: rest ++ (gap ++ openParen :: (inner ++ closeParen :: behind)))
          ).dropWhile isSpace
        = first :: rest ++ (gap ++ openParen :: (inner ++ closeParen :: behind)) :=
      Text.dropWhile_append frontSpaces fun point leads => by
        obtain rfl := Option.mem_some_iff.mp leads
        exact isSpace_of_isWord firstWord
    have opened : (gap ++ openParen :: (inner ++ closeParen :: behind)).dropWhile isSpace
        = openParen :: (inner ++ closeParen :: behind) :=
      Text.dropWhile_append gapSpaces fun point leads => by
        obtain rfl := Option.mem_some_iff.mp leads
        decide
    have ending : (inner ++ closeParen :: behind).reverse.dropWhile isSpace
        = closeParen :: inner.reverse := by
      rw [List.reverse_append, List.reverse_cons, List.append_assoc]
      refine Text.dropWhile_append (fun point member => ?_) fun point leads => ?_
      · exact behindSpaces point (List.mem_reverse.mp member)
      · obtain rfl := Option.mem_some_iff.mp leads
        decide
    rw [start, Text.dropWhile_append words wordEnds, Text.takeWhile_append words wordEnds, opened,
      List.tail_cons, ending]
    simp [starts, plain]

-- Clauses

/-- The patterns of `_check_escape_hatches`. -/
def escapeHatches : List Regex :=
  [reSemgrep, reCpgQuery, reLambda, reRawRegex]

/-- A clause line without composition keywords, whose body matches no escape hatch. -/
structure Screened (tables : CharTables) (line body : Text) : Prop where
  keywords : ∀ token ∈ wordTokens tables line,
    token ∉ conditionalKw ∧ token ∉ sequencingKw ∧ token ∉ fixpointKw
  hatches : ∀ hatch ∈ escapeHatches, hatch.search tables.isWord body = false

/-- The clause of a head and a body. The patterns of the first three heads are opaque. -/
inductive BodyReads (tables : CharTables) : Text → Text → Clause → Prop where
  | source {body : Text} : BodyReads tables (py "source") body (.source body)
  | sink {body : Text} : BodyReads tables (py "sink") body (.sink body)
  | sanitize {body : Text} : BodyReads tables (py "sanitize") body (.sanitize body)
  | propagate {left right : Text} : propagateArrow ∉ left
      → isArgRef tables left.strip = true ∨ isFieldRef tables left.strip = true
      → right.strip = returnRef ∨ isFieldRef tables right.strip = true
      → BodyReads tables (py "propagate") (left ++ propagateArrow :: right)
          (.propagate left.strip right.strip)

/-- A line that the parser reads as a clause: the grammar with its pattern bodies left open, and
without the reserved words.
-/
def Reads (tables : CharTables) (line : Text) (clause : Clause) : Prop :=
  ∃ name inner, ClauseShape tables line name inner
    ∧ Screened tables line inner.strip
    ∧ BodyReads tables (tables.lower name) inner.strip clause

theorem checkCompositionKeywords_ok
    : checkCompositionKeywords tables line = .ok ()
      ↔ ∀ token ∈ wordTokens tables line,
          token ∉ conditionalKw ∧ token ∉ sequencingKw ∧ token ∉ fixpointKw := by
  simp only [checkCompositionKeywords, bind_ok, demand_ok, exists_const]
  constructor
  · rintro ⟨conditional, sequencing, fixpoint⟩ token member
    exact ⟨conditional token member, sequencing token member, fixpoint token member⟩
  · intro clean
    exact ⟨fun token member => (clean token member).1, fun token member => (clean token member).2.1,
      fun token member => (clean token member).2.2⟩

variable {body : Text}

theorem checkEscapeHatches_ok
    : checkEscapeHatches tables body = .ok ()
      ↔ ∀ hatch ∈ escapeHatches, hatch.search tables.isWord body = false := by
  simp only [checkEscapeHatches, bind_ok, demand_ok, exists_const, escapeHatches,
    List.forall_mem_cons, List.not_mem_nil, false_imp_iff, implies_true, and_true]

/-- Splitting at the first arrow. -/
theorem partition_eq_some {separator : CodePoint} {left right : Text}
    : text.partition separator = (left, some right)
      ↔ separator ∉ left ∧ text = left ++ separator :: right := by
  have split := List.takeWhile_append_dropWhile (p := (· ≠ separator)) (l := text)
  unfold Text.partition
  constructor
  · intro found
    obtain ⟨rfl, behind⟩ := Prod.mk.inj found
    have unseparated : separator ∉ text.takeWhile (· ≠ separator) := fun member => by
      simpa using List.mem_takeWhile_imp member
    refine ⟨unseparated, ?_⟩
    cases rest : text.dropWhile (· ≠ separator) with
    | nil =>
        rw [rest] at behind
        cases behind
    | cons point others =>
        have stops : ∀ head ∈ (text.dropWhile (· ≠ separator)).head?,
            decide (head ≠ separator) = false :=
          Text.head?_dropWhile text
        rw [rest] at behind split stops
        cases behind
        obtain rfl : point = separator := by simpa using stops point rfl
        exact split.symm
  · rintro ⟨unseparated, rfl⟩
    have inside : ∀ point ∈ left, decide (point ≠ separator) = true :=
      fun point member => decide_eq_true fun same => unseparated (same ▸ member)
    have stops : ∀ point ∈ (separator :: right).head?, decide (point ≠ separator) = false := by
      intro point leads
      obtain rfl := Option.mem_some_iff.mp leads
      simp
    rw [Text.takeWhile_append inside stops, Text.dropWhile_append inside stops]

variable {clause : Clause}

theorem parsePropagate_ok
    : parsePropagate tables body = .ok clause
      ↔ BodyReads tables (py "propagate") body clause := by
  unfold parsePropagate
  constructor
  · intro parsed
    cases found : body.partition propagateArrow with
    | mk left rest =>
        cases rest with
        | none => simp [found] at parsed
        | some right =>
            obtain ⟨unarrowed, rfl⟩ := partition_eq_some.mp found
            simp only [found, bind_ok, demand_ok, exists_const, Except.ok.injEq]
              at parsed
            obtain ⟨src, tgt, rfl⟩ := parsed
            exact .propagate unarrowed src tgt
  · intro reads
    cases reads with
    | propagate unarrowed src tgt =>
        rw [partition_eq_some.mpr ⟨unarrowed, rfl⟩]
        simp only [bind_ok, demand_ok, exists_const]
        exact ⟨src, tgt, trivial⟩

/-- A line parses as a clause when it reads as one. -/
theorem parseClause_ok
    : parseClause tables line = .ok clause ↔ Reads tables line clause := by
  unfold parseClause Reads
  simp only [bind_ok, ← matchClause_eq_some]
  constructor
  · rintro ⟨_, keywords, parsed⟩
    cases found : matchClause tables line with
    | none => simp [found] at parsed
    | some groups =>
        obtain ⟨name, inner⟩ := groups
        simp only [found, bind_ok, demand_ok] at parsed
        obtain ⟨_, known, _, hatches, chosen⟩ := parsed
        refine ⟨name, inner, rfl, ⟨checkCompositionKeywords_ok.mp keywords,
          checkEscapeHatches_ok.mp hatches⟩, ?_⟩
        generalize tables.lower name = head at *
        split_ifs at chosen with propagates sources sinks
        · exact propagates ▸ parsePropagate_ok.mp chosen
        · cases chosen
          exact sources ▸ .source
        · cases chosen
          exact sinks ▸ .sink
        · cases chosen
          simp only [primitiveHeads, List.mem_cons, List.not_mem_nil, or_false] at known
          obtain rfl : head = py "sanitize" := by tauto
          exact .sanitize
  · rintro ⟨name, inner, matched, screened, reads⟩
    refine ⟨(), checkCompositionKeywords_ok.mpr screened.keywords, ?_⟩
    have hatches := checkEscapeHatches_ok.mpr screened.hatches
    simp only [matched, bind_ok, demand_ok]
    generalize tables.lower name = head at *
    generalize inner.strip = body at *
    cases reads with
    | source => exact ⟨(), by decide, (), hatches, rfl⟩
    | sink => exact ⟨(), by decide, (), hatches, rfl⟩
    | sanitize => exact ⟨(), by decide, (), hatches, rfl⟩
    | propagate unarrowed src tgt =>
        refine ⟨(), by decide, (), hatches, ?_⟩
        rw [if_pos rfl]
        exact parsePropagate_ok.mpr (.propagate unarrowed src tgt)

/-- The header entries of lines, in order. -/
def headerEntries (lines : List Text) : List (Text × Text) :=
  (lines.filterMap matchHeader).map fun entry => (entry.1, entry.2.strip)

/-- The lines that are no header lines. -/
def clauseLines (lines : List Text) : List Text :=
  lines.filter fun line => matchHeader line = none

theorem strip_withoutComment (raw : Text)
    : (withoutComment raw).strip = (withoutComment raw).dropWhile isSpace := by
  have ends : ∀ point ∈ (withoutComment raw).getLast?, isSpace point = false := by
    unfold withoutComment Text.rstrip
    rw [List.getLast?_reverse]
    exact Text.head?_dropWhile _
  have split := List.takeWhile_append_dropWhile (p := isSpace) (l := withoutComment raw)
  have last : ∀ point ∈ ((withoutComment raw).dropWhile isSpace).getLast?, isSpace point = false := by
    intro point member
    apply ends
    rw [← split, List.getLast?_append, Option.mem_def.mp member]
    rfl
  have front : ∀ point ∈ (withoutComment raw).takeWhile isSpace, isSpace point = true :=
    fun _ member => List.mem_takeWhile_imp member
  have stripped := Text.trim_append front (fun _ member => absurd member List.not_mem_nil)
    (Text.head?_dropWhile (withoutComment raw)) last
  rw [List.append_nil, split] at stripped
  exact stripped

theorem matchHeader_strip (raw : Text)
    : matchHeader (withoutComment raw).strip = matchHeader (withoutComment raw) := by
  rw [strip_withoutComment, matchHeader, matchHeader, List.dropWhile_idempotent]

/-- The loop of the parser reads the content of its lines, by list induction. -/
theorem parseLines_ok {raws : List Text} {state final : Dict Text Text × List Clause}
    : parseLines tables raws state = .ok final
      ↔ final.1 = (headerEntries (contents raws)).foldl
            (fun header entry => header.set entry.1 entry.2) state.1
        ∧ ∃ clauses, List.Forall₂ (Reads tables) (clauseLines (contents raws)) clauses
          ∧ final.2 = state.2 ++ clauses := by
  induction raws generalizing state with
  | nil =>
      simp [parseLines, clauseLines, contents, headerEntries, Prod.ext_iff, eq_comm]
  | cons raw rest ih =>
      simp only [parseLines, bind_ok, ih, parseLine]
      by_cases blank : (withoutComment raw).strip = []
      · have skipped : contents (raw :: rest) = contents rest := by
          simp [contents, blank]
        simp only [if_pos blank, Except.ok.injEq, exists_eq_left', skipped]
      · have kept : contents (raw :: rest) = (withoutComment raw).strip :: contents rest := by
          simp [contents, blank]
        simp only [if_neg blank, kept]
        cases header : matchHeader (withoutComment raw).strip with
        | some entry =>
            have entries : headerEntries ((withoutComment raw).strip :: contents rest)
                = (entry.1, entry.2.strip) :: headerEntries (contents rest) := by
              simp [headerEntries, header]
            have clauses : clauseLines ((withoutComment raw).strip :: contents rest)
                = clauseLines (contents rest) := by
              simp [clauseLines, header]
            rw [matchHeader_strip] at header
            simp only [header, Except.ok.injEq, exists_eq_left', entries, clauses, List.foldl_cons]
        | none =>
            have entries : headerEntries ((withoutComment raw).strip :: contents rest)
                = headerEntries (contents rest) := by
              simp [headerEntries, header]
            have clauses : clauseLines ((withoutComment raw).strip :: contents rest)
                = (withoutComment raw).strip :: clauseLines (contents rest) := by
              simp [clauseLines, header]
            rw [matchHeader_strip] at header
            simp only [header, bind_ok, parseClause_ok, Except.ok.injEq, entries,
              clauses, List.forall₂_cons_left_iff]
            constructor
            · rintro ⟨_, ⟨clause, reads, rfl⟩, same, others, read, appended⟩
              exact ⟨same, clause :: others, ⟨clause, others, reads, read, rfl⟩, by
                rw [appended, List.append_assoc, List.singleton_append]⟩
            · rintro ⟨same, _, ⟨clause, others, reads, read, rfl⟩, appended⟩
              exact ⟨_, ⟨clause, reads, rfl⟩, same, others, read, by
                rw [appended, List.append_assoc, List.singleton_append]⟩

variable {written : Text}

/-- An enumeration's own texts stand for its values. -/
theorem ofText_eq_some {α : Type} {all : List α} {text : α → Text}
    (complete : ∀ value, value ∈ all) (distinct : (all.map text).Nodup) {value : α}
    : ofText all text written = some value ↔ text value = written := by
  unfold ofText
  constructor
  · intro found
    simpa using List.find?_some found
  · rintro rfl
    cases found : all.find? fun other => text other = text value with
    | none => simpa using List.find?_eq_none.mp found value (complete value)
    | some other =>
        have same : text other = text value := by simpa using List.find?_some found
        rw [List.inj_on_of_nodup_map distinct (complete other) (complete value) same]

theorem ClassName.ofText_eq_some {className : ClassName}
    : ofText ClassName.all ClassName.text written = some className ↔ className.text = written :=
  Dsl.ofText_eq_some (fun className => by cases className <;> decide) (by decide)

theorem Language.ofText_eq_some {language : Language}
    : ofText Language.all Language.text written = some language ↔ language.text = written :=
  Dsl.ofText_eq_some (fun language => by cases language <;> decide) (by decide)

theorem EngineTag.ofText_eq_some {engine : EngineTag}
    : ofText EngineTag.all EngineTag.text written = some engine ↔ engine.text = written :=
  Dsl.ofText_eq_some (fun engine => by cases engine <;> decide) (by decide)

theorem orReject_ok {α : Type} {found : Option α} {code : DSLErrorCode} {value : α}
    : orReject found code = .ok value ↔ found = some value := by
  cases found <;> simp [orReject]

/-- What the header values stand for. -/
structure HeaderReads (header : Dict Text Text) (spec : Spec) : Prop where
  id : spec.id = unquote (header.getD (py "id") [])
  className : spec.className.text = unquote (header.getD (py "class") [])
  languages : List.Forall₂ (fun name language => language.text = name)
    (languageNames (header.getD (py "languages") []).strip) spec.languages
  someLanguage : spec.languages ≠ []
  engine : spec.engine.text = unquote (header.getD (py "engine") [])

theorem mapM_eq_some {α β : Type} {act : α → Option β} {elements : List α} {values : List β}
    : elements.mapM act = some values
      ↔ List.Forall₂ (fun element value => act element = some value) elements values := by
  induction elements generalizing values with
  | nil => simp [eq_comm]
  | cons element rest ih =>
      simp only [List.mapM_cons, Option.bind_eq_bind, Option.bind_eq_some_iff, ih, Option.pure_def,
        Option.some.injEq, List.forall₂_cons_left_iff]
      constructor
      · rintro ⟨value, first, others, read, rfl⟩
        exact ⟨value, others, first, read, rfl⟩
      · rintro ⟨value, others, first, read, rfl⟩
        exact ⟨value, first, others, read, rfl⟩

variable {spec : Spec}

theorem parseHeader_ok {header : Dict Text Text} {clauses : List Clause}
    : parseHeader header clauses = .ok spec ↔ HeaderReads header spec ∧ spec.clauses = clauses := by
  simp only [parseHeader, bind_ok, orReject_ok, demand_ok,
    EngineTag.ofText_eq_some, ClassName.ofText_eq_some, mapM_eq_some,
    Language.ofText_eq_some, exists_const, Except.ok.injEq]
  constructor
  · rintro ⟨engine, engineRead, className, classRead, languages, languagesRead, nonempty, rfl⟩
    exact ⟨⟨rfl, classRead, languagesRead, nonempty, engineRead⟩, rfl⟩
  · rintro ⟨reads, rfl⟩
    refine ⟨spec.engine, reads.engine, spec.className, reads.className, spec.languages,
      reads.languages, reads.someLanguage, ?_⟩
    rw [← reads.id]

/-- What the parser accepts. Header lines may stand anywhere, and the last one of a key counts. -/
structure Accepts (tables : CharTables) (sourceText : Text) (spec : Spec) : Prop where
  header : HeaderReads (Dict.ofPairs (headerEntries (contentLines sourceText))) spec
  clauses : List.Forall₂ (Reads tables) (clauseLines (contentLines sourceText)) spec.clauses
  someClause : spec.clauses ≠ []

/-- The parser returns a spec exactly for the texts that it accepts as that spec. -/
theorem parseSpec_ok_iff {sourceText : Text}
    : parseSpec tables sourceText = .ok spec ↔ Accepts tables sourceText spec := by
  simp only [parseSpec, bind_ok, parseLines_ok, parseHeader_ok,
    demand_ok, exists_const, Except.ok.injEq]
  constructor
  · rintro ⟨state, ⟨header, clauses, reads, appended⟩, _, ⟨headerReads, rest⟩, nonempty, rfl⟩
    rw [List.nil_append] at appended
    rw [header] at headerReads
    subst appended
    exact ⟨headerReads, rest ▸ reads, rest ▸ nonempty⟩
  · rintro ⟨header, clauses, nonempty⟩
    exact ⟨(_, spec.clauses), ⟨rfl, spec.clauses, clauses, rfl⟩, spec, ⟨header, rfl⟩, nonempty, rfl⟩

/-- What the parser reads as a clause passes the checks again. -/
theorem Reads.revalidates {line : Text} {clause : Clause} (reads : Reads tables line clause)
    : revalidateClause tables clause = .ok () := by
  obtain ⟨name, inner, _, screened, body⟩ := reads
  have hatches := checkEscapeHatches_ok.mpr screened.hatches
  generalize tables.lower name = head at body
  generalize inner.strip = content at body hatches
  cases body with
  | source => exact hatches
  | sink => exact hatches
  | sanitize => exact hatches
  | propagate _ src tgt => exact demand_ok.mpr ⟨src, tgt⟩

/-- Checking a parsed spec again neither refuses nor changes it. -/
theorem parsed_specs_revalidate (tables : CharTables) (sourceText : Text)
    : (do
        let spec ← parseSpec tables sourceText
        revalidateSpec tables spec
        .ok spec) = parseSpec tables sourceText := by
  cases parsed : parseSpec tables sourceText with
  | error code => rfl
  | ok spec =>
      have revalidated : revalidateSpec tables spec = .ok () := by
        refine visit_ok.mpr fun clause member => ?_
        obtain ⟨line, _, reads⟩ :=
          exists_related_of_mem (parseSpec_ok_iff.mp parsed).clauses.flip member
        exact Reads.revalidates reads
      rw [ok_bind, revalidated, ok_bind]

end Scanipy.Analysis.Ifds.Dsl

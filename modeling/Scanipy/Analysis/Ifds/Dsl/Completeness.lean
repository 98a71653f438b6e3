import Scanipy.Analysis.Ifds.Dsl.Acceptance

/-! Every text that derives from the grammar is accepted as the spec it derives, unless a clause of
it holds a reserved word.
-/

namespace Scanipy.Analysis.Ifds.Dsl

open Library Python

/-- A character of access paths. -/
def isPatternChar (point : CodePoint) : Bool :=
  isNameRest point || isMark ".*(),?<:" point

variable {name : Text}

theorem Identifier.chars (identifier : Identifier name)
    : name ≠ [] ∧ ∀ point ∈ name, isNameRest point = true := by
  cases name with
  | nil => simp [Identifier, startsWith] at identifier
  | cons first rest =>
      simp only [Identifier, startsWith, Bool.and_eq_true, List.all_eq_true] at identifier
      refine ⟨List.cons_ne_nil _ _, ?_⟩
      simp only [List.mem_cons, forall_eq_or_imp]
      exact ⟨isNameRest_of_isNameStart identifier.1, identifier.2⟩

variable {point : CodePoint}

theorem isNameRest_of_isDigit (digit : isDigit point = true)
    : isNameRest point = true := by
  simp [isNameRest, isAlphanumeric, digit]

/-- A nonempty text of characters of access paths. -/
structure IsPattern (text : Text) : Prop where
  nonempty : text ≠ []
  chars : ∀ point ∈ text, isPatternChar point = true

theorem IsPattern.append {left right : Text} (leftPattern : IsPattern left)
    (rightPattern : IsPattern right)
    : IsPattern (left ++ right) where
  nonempty := List.append_ne_nil_of_left_ne_nil leftPattern.nonempty right
  chars := List.forall_mem_append.mpr ⟨leftPattern.chars, rightPattern.chars⟩

/-- The terminals of access paths. -/
def patternMarks : List Text :=
  [py ".", py "?", py "<:", py "*", py ",", py "(", py ")"]

theorem patternMarks_isPattern {mark : Text} (known : mark ∈ patternMarks) : IsPattern mark := by
  have checked : patternMarks.all (fun mark => mark ≠ [] && mark.all isPatternChar) = true := by
    decide
  have fits := List.all_eq_true.mp checked mark known
  simp only [Bool.and_eq_true, decide_eq_true_eq, List.all_eq_true] at fits
  exact ⟨fits.1, fits.2⟩

theorem dot_isPattern : IsPattern (py ".") :=
  patternMarks_isPattern (by simp [patternMarks])

theorem Identifier.isPattern (identifier : Identifier name) : IsPattern name where
  nonempty := identifier.chars.1
  chars := fun point member => by
    rw [isPatternChar, identifier.chars.2 point member, Bool.true_or]

/-- By induction on the name. -/
theorem FQN.isPattern (fqn : FQN name) : IsPattern name := by
  induction fqn with
  | name identifier => exact identifier.isPattern
  | dotted identifier _ ih => exact (identifier.isPattern.append dot_isPattern).append ih

variable {text : Text}

theorem Receiver.isPattern (receiver : Receiver text) : IsPattern text := by
  cases receiver with
  | fqn name => exact name.isPattern
  | typePattern name bound =>
      have question : IsPattern (py "?") := patternMarks_isPattern (by simp [patternMarks])
      have below : IsPattern (py "<:") := patternMarks_isPattern (by simp [patternMarks])
      exact ((question.append name.isPattern).append below).append bound.isPattern
  | wildcard => exact patternMarks_isPattern (by simp [patternMarks])

/-- By induction on the selector. -/
theorem ArgSelector.isPattern (selector : ArgSelector text) : IsPattern text := by
  induction selector with
  | any => exact patternMarks_isPattern (by simp [patternMarks])
  | index index =>
      refine ⟨index.1, fun point member => ?_⟩
      rw [isPatternChar, isNameRest_of_isDigit (List.all_eq_true.mp index.2 point member),
        Bool.true_or]
  | parameter identifier => exact identifier.isPattern
  | both _ _ first second =>
      have comma : IsPattern (py ",") := patternMarks_isPattern (by simp [patternMarks])
      exact (first.append comma).append second

theorem MemberSelector.isPattern (selector : MemberSelector text)
    : IsPattern text := by
  cases selector with
  | field identifier => exact identifier.isPattern
  | method identifier args =>
      have opened : IsPattern (py "(") := patternMarks_isPattern (by simp [patternMarks])
      have closed : IsPattern (py ")") := patternMarks_isPattern (by simp [patternMarks])
      exact ((identifier.isPattern.append opened).append args.isPattern).append closed

/-- By induction on the path. -/
theorem MemberAccessPath.isPattern (path : MemberAccessPath text)
    : IsPattern text := by
  induction path with
  | last member => exact member.isPattern
  | dotted member _ ih => exact (member.isPattern.append dot_isPattern).append ih

theorem DerivesPattern.isPattern (pattern : DerivesPattern text)
    : IsPattern text := by
  cases pattern with
  | access receiver members =>
      exact (receiver.isPattern.append dot_isPattern).append members.isPattern
  | receiver receiver => exact receiver.isPattern

theorem isPlain_of_isPatternChar (char : isPatternChar point = true)
    : IsPlain point := by
  rcases Bool.or_eq_true_iff.mp char with name | mark
  · exact isPlain_of_isNameRest name
  · have checked : (py ".*(),?<:").all (fun mark => IsPlain mark) = true := by decide
    exact of_decide_eq_true (List.all_eq_true.mp checked point (List.contains_iff_mem.mp mark))

/-- A text that begins and ends with a visible character. -/
structure IsSolid (text : Text) : Prop where
  first : ∀ point ∈ text.head?, IsPlain point
  last : ∀ point ∈ text.getLast?, IsPlain point

theorem isSolid_of_plain (plain : ∀ point ∈ text, IsPlain point) : IsSolid text :=
  ⟨fun point leads => plain point (List.mem_of_mem_head? leads),
    fun point ends => plain point (List.mem_of_mem_getLast? ends)⟩

/-- Blanks around a solid text are stripped. -/
theorem IsSolid.strip {before behind : Text} (solid : IsSolid text) (front : Blank before)
    (back : Blank behind)
    : (before ++ text ++ behind).strip = text :=
  Text.trim_append front.isSpace back.isSpace (fun point leads => (solid.first point leads).isSpace)
    fun point ends => (solid.last point ends).isSpace

theorem blank_nil : Blank [] :=
  fun _ member => absurd member List.not_mem_nil

theorem lineFeed_not_mem_of_blank (blank : Blank text) : lineFeed ∉ text :=
  fun member => absurd (blank lineFeed member) (by decide)

theorem not_mem_of_plain (plain : ∀ point ∈ text, IsPlain point) (wide : ¬IsPlain point)
    : point ∉ text :=
  fun member => wide (plain point member)

section References

variable (tables : CharTables)

theorem Identifier.isName (identifier : Identifier name)
    : isName tables name = true := by
  cases name with
  | nil => simp [Identifier, startsWith] at identifier
  | cons first rest =>
      simp only [Identifier, startsWith, Dsl.isName, Bool.and_eq_true, List.all_eq_true]
        at identifier ⊢
      exact ⟨identifier.1, fun point member => isWord_of_isNameRest (identifier.2 point member)⟩

theorem isDecimal_of_isDigit (digit : isDigit point = true)
    : tables.isDecimal point = true := by
  have narrow : point.val < 0x80 :=
    (isPlain_of_isNameRest (isNameRest_of_isDigit digit)).2.trans (by decide)
  rw [CharTables.isDecimal, if_pos narrow, digit]

theorem enclosed_append (before inner : Text) (last : CodePoint)
    : enclosed before last (before ++ inner ++ [last]) = some inner := by
  have starts : before <+: before ++ inner ++ [last] := by
    rw [List.append_assoc]
    exact List.prefix_append _ _
  unfold enclosed
  rw [if_pos ⟨starts, by simp, by simp⟩, List.append_assoc, List.drop_left,
    List.dropLast_concat]

theorem ArgRef.isArgRef (ref : ArgRef text) : isArgRef tables text = true := by
  obtain ⟨inner, kind, rfl⟩ := ref
  have bracket : py "]" = [closeBracket] := by decide
  rw [Dsl.isArgRef, bracket, enclosed_append, Option.any_some]
  rcases kind with index | identifier
  · have digits : inner.all tables.isDecimal = true :=
      List.all_eq_true.mpr fun point member =>
        isDecimal_of_isDigit tables (List.all_eq_true.mp index.2 point member)
    simp [index.1, digits]
  · simp [identifier.isName tables]

theorem FieldRef.isFieldRef (ref : FieldRef text)
    : isFieldRef tables text = true := by
  obtain ⟨name, identifier, rfl | rfl⟩ := ref
  · have bracket : py "]" = [closeBracket] := by decide
    rw [Dsl.isFieldRef, bracket, enclosed_append, Option.any_some, identifier.isName tables,
      Bool.true_or]
  · have starts : (py "this.").isPrefixOf (py "this." ++ name) = true :=
      List.isPrefixOf_iff_prefix.mpr (List.prefix_append _ _)
    have rest : (py "this." ++ name).drop 5 = name :=
      List.drop_left' (by decide)
    rw [Dsl.isFieldRef, starts, rest, identifier.isName tables, Bool.true_and, Bool.or_true]

end References

-- Clauses

variable {head body line : Text} {clause : Clause}

section Clauses

variable {tables : CharTables}

theorem head_identifier (known : head ∈ primitiveHeads) : Identifier head := by
  have checked : primitiveHeads.all (startsWith isNameStart isNameRest) = true := by decide
  exact List.all_eq_true.mp checked head known

theorem lower_head (known : head ∈ primitiveHeads) : tables.lower head = head := by
  have checked : primitiveHeads.all (fun head => head.all (fun point => point.val < 0x80)
      && head.map asciiLower == head) = true := by
    decide
  have fits := List.all_eq_true.mp checked head known
  simp only [Bool.and_eq_true, List.all_eq_true, decide_eq_true_eq, beq_iff_eq] at fits
  have ascii : head.IsAscii := fits.1
  rw [CharTables.lower, if_pos ascii, fits.2]

/-- A written clause has the shape of one, and its body is stripped to what was written. -/
theorem Written.shape (written : Written head body line) (named : Identifier head)
    (solid : IsSolid body) (oneLine : lineFeed ∉ body)
    : ∃ inner, ClauseShape tables line head inner ∧ inner.strip = body := by
  obtain ⟨gap, before, behind, gapBlank, front, back, rfl⟩ := written
  have opened : py "(" = [openParen] := by decide
  have closed : py ")" = [closeParen] := by decide
  refine ⟨before ++ body ++ behind, ⟨[], gap, [], blank_nil.isSpace, gapBlank.isSpace,
    blank_nil.isSpace, named.isName tables, ?_, ?_⟩, solid.strip front back⟩
  · simp only [List.mem_append, not_or]
    exact ⟨⟨lineFeed_not_mem_of_blank front, oneLine⟩, lineFeed_not_mem_of_blank back⟩
  · simp only [opened, closed, List.append_assoc, List.nil_append, List.cons_append]

theorem DerivesPattern.solid {pattern : Text} (derives : DerivesPattern pattern)
    : IsSolid pattern ∧ lineFeed ∉ pattern := by
  have plain : ∀ point ∈ pattern, IsPlain point :=
    fun point member => isPlain_of_isPatternChar (derives.isPattern.chars point member)
  exact ⟨isSolid_of_plain plain, not_mem_of_plain plain (by decide)⟩

theorem plain_of_all (checked : text.all (fun point => IsPlain point) = true)
    : ∀ point ∈ text, IsPlain point :=
  fun point member => of_decide_eq_true (List.all_eq_true.mp checked point member)

theorem Identifier.plain {name : Text} (identifier : Identifier name)
    : ∀ point ∈ name, IsPlain point :=
  fun point member => isPlain_of_isNameRest (identifier.chars.2 point member)

theorem ArgRef.plain {text : Text} (ref : ArgRef text) : ∀ point ∈ text, IsPlain point := by
  obtain ⟨inner, kind, rfl⟩ := ref
  have innerPlain : ∀ point ∈ inner, IsPlain point := by
    rcases kind with index | identifier
    · intro point member
      exact isPlain_of_isNameRest
        (isNameRest_of_isDigit (List.all_eq_true.mp index.2 point member))
    · exact identifier.plain
  simp only [List.forall_mem_append]
  exact ⟨⟨plain_of_all (by decide), innerPlain⟩, plain_of_all (by decide)⟩

theorem FieldRef.plain {text : Text} (ref : FieldRef text) : ∀ point ∈ text, IsPlain point := by
  obtain ⟨name, identifier, rfl | rfl⟩ := ref
  · simp only [List.forall_mem_append]
    exact ⟨⟨plain_of_all (by decide), identifier.plain⟩, plain_of_all (by decide)⟩
  · simp only [List.forall_mem_append]
    exact ⟨plain_of_all (by decide), identifier.plain⟩

theorem ArgRef.nonempty (ref : ArgRef text) : text ≠ [] := by
  obtain ⟨inner, _, rfl⟩ := ref
  exact List.append_ne_nil_of_right_ne_nil _ (by decide)

theorem FieldRef.nonempty (ref : FieldRef text) : text ≠ [] := by
  obtain ⟨name, _, rfl | rfl⟩ := ref
  · exact List.append_ne_nil_of_right_ne_nil _ (by decide)
  · exact List.append_ne_nil_of_left_ne_nil (by decide) _

/-- A propagation between the two references that its derivation names. -/
theorem PropagateBody.reads (tables : CharTables) {src tgt : Text}
    (derives : PropagateBody src tgt body)
    : IsSolid body ∧ lineFeed ∉ body
      ∧ BodyReads tables (py "propagate") body (.propagate src tgt) := by
  obtain ⟨srcRef, tgtRef, before, behind, front, back, rfl⟩ := derives
  have srcPlain : ∀ point ∈ src, IsPlain point := srcRef.elim ArgRef.plain FieldRef.plain
  have srcNonempty : src ≠ [] := srcRef.elim ArgRef.nonempty FieldRef.nonempty
  obtain ⟨tgtPlain, tgtNonempty⟩ : (∀ point ∈ tgt, IsPlain point) ∧ tgt ≠ [] := by
    rcases tgtRef with rfl | field
    · exact ⟨plain_of_all (by decide), by decide⟩
    · exact ⟨field.plain, field.nonempty⟩
  have left : Text.strip (src ++ before) = src :=
    (isSolid_of_plain srcPlain).strip blank_nil front
  have right : Text.strip (behind ++ tgt) = tgt := by
    simpa using (isSolid_of_plain tgtPlain).strip back blank_nil
  have unarrowed : propagateArrow ∉ src ++ before := by
    simp only [List.mem_append, not_or]
    exact ⟨not_mem_of_plain srcPlain (by decide),
      fun member => absurd (front propagateArrow member) (by decide)⟩
  refine ⟨⟨?_, ?_⟩, ?_, ?_⟩
  · rw [List.append_assoc, List.head?_append_of_ne_nil _ srcNonempty]
    exact fun point leads => srcPlain point (List.mem_of_mem_head? leads)
  · have ends : src ++ before ++ propagateArrow :: (behind ++ tgt)
        = (src ++ before ++ propagateArrow :: behind) ++ tgt := by
      simp
    rw [ends, List.getLast?_append_of_ne_nil _ tgtNonempty]
    exact fun point last => tgtPlain point (List.mem_of_mem_getLast? last)
  · simp only [List.mem_append, List.mem_cons, not_or]
    exact ⟨⟨not_mem_of_plain srcPlain (by decide), lineFeed_not_mem_of_blank front⟩, by decide,
      lineFeed_not_mem_of_blank back, not_mem_of_plain tgtPlain (by decide)⟩
  · have srcReads : isArgRef tables (Text.strip (src ++ before)) = true
        ∨ isFieldRef tables (Text.strip (src ++ before)) = true := by
      rw [left]
      exact srcRef.imp (ArgRef.isArgRef tables) (FieldRef.isFieldRef tables)
    have tgtReads : Text.strip (behind ++ tgt) = returnRef
        ∨ isFieldRef tables (Text.strip (behind ++ tgt)) = true := by
      rw [right]
      exact tgtRef.imp id (FieldRef.isFieldRef tables)
    have reads := BodyReads.propagate unarrowed srcReads tgtReads
    rwa [left, right] at reads

/-- A line with an opaque body between its brackets. -/
theorem Written.reads (written : Written head body line) (known : head ∈ primitiveHeads)
    (solid : IsSolid body) (oneLine : lineFeed ∉ body) (reads : BodyReads tables head body clause)
    : ∃ name inner, ClauseShape tables line name inner
      ∧ BodyReads tables (tables.lower name) inner.strip clause := by
  obtain ⟨inner, shape, same⟩ := written.shape (head_identifier known) solid oneLine
  refine ⟨head, inner, shape, ?_⟩
  rw [lower_head known, same]
  exact reads

/-- A derived clause line has the shape of a clause, and its body reads as the clause. -/
theorem DerivesClause.reads (tables : CharTables) (derives : DerivesClause line clause)
    : ∃ name inner, ClauseShape tables line name inner
      ∧ BodyReads tables (tables.lower name) inner.strip clause := by
  cases derives with
  | source pattern written =>
      exact written.reads (by simp [primitiveHeads]) pattern.solid.1 pattern.solid.2 .source
  | sink pattern written =>
      exact written.reads (by simp [primitiveHeads]) pattern.solid.1 pattern.solid.2 .sink
  | sanitize pattern written =>
      exact written.reads (by simp [primitiveHeads]) pattern.solid.1 pattern.solid.2 .sanitize
  | propagate body written =>
      obtain ⟨solid, oneLine, reads⟩ := body.reads tables
      exact written.reads (by simp [primitiveHeads]) solid oneLine reads

end Clauses

/-- No line of a text holds a line feed, by induction on the text. -/
theorem lineFeed_not_mem_splitlinesFrom {started : Text} (clean : lineFeed ∉ started)
    : ∀ line ∈ Text.splitlinesFrom started text, lineFeed ∉ line := by
  induction text generalizing started with
  | nil =>
      intro line member
      unfold Text.splitlinesFrom at member
      split_ifs at member with empty
      · cases member
      · exact List.mem_singleton.mp member ▸ clean
  | cons point rest ih =>
      intro line member
      unfold Text.splitlinesFrom at member
      split_ifs at member with paired breaks
      · exact ih clean line member
      · rcases List.mem_cons.mp member with rfl | later
        · exact clean
        · exact ih List.not_mem_nil line later
      · refine ih ?_ line member
        simp only [List.mem_append, List.mem_singleton, not_or]
        refine ⟨clean, ?_⟩
        rintro rfl
        exact breaks (by decide)

theorem mem_of_mem_strip (member : point ∈ text.strip)
    : point ∈ text := by
  obtain ⟨front, behind, same, _, _⟩ := Text.exists_eq_trim isSpace text
  rw [same]
  exact List.mem_append_left _ (List.mem_append_right _ member)

variable {sourceText : Text}

/-- No line of content holds a line feed. -/
theorem lineFeed_not_mem_content (listed : line ∈ contentLines sourceText)
    : lineFeed ∉ line := by
  obtain ⟨raw, member, rfl⟩ := List.mem_map.mp (List.mem_filter.mp listed).1
  intro held
  have kept : lineFeed ∈ raw.takeWhile (· ≠ hash) := by
    have inside := mem_of_mem_strip held
    unfold withoutComment Text.rstrip at inside
    exact List.mem_reverse.mp (List.dropWhile_subset _ (List.mem_reverse.mp inside))
  exact lineFeed_not_mem_splitlinesFrom List.not_mem_nil raw member
    (List.takeWhile_subset _ kept)

variable {key : Text}

/-- A line that begins with a key of the header begins with no other key. -/
theorem find?_headerKeys (known : key ∈ headerKeys) (rest : Text)
    : headerKeys.find? (fun other => other.isPrefixOf (key ++ rest)) = some key := by
  simp only [headerKeys, List.mem_cons, List.not_mem_nil, or_false] at known
  rcases known with rfl | rfl | rfl | rfl <;> rfl

/-- A head of a clause begins with no key of the header. -/
theorem find?_headerKeys_head (known : head ∈ primitiveHeads) (rest : Text)
    : headerKeys.find? (fun key => key.isPrefixOf (head ++ rest)) = none := by
  simp only [primitiveHeads, List.mem_cons, List.not_mem_nil, or_false] at known
  rcases known with rfl | rfl | rfl | rfl <;> rfl

theorem headerKeys_identifier (known : key ∈ headerKeys) : Identifier key := by
  have checked : headerKeys.all (startsWith isNameStart isNameRest) = true := by decide
  exact List.all_eq_true.mp checked key known

/-- A line that begins with a name has no blanks to drop. -/
theorem Identifier.dropWhile_append (identifier : Identifier name) (rest : Text)
    : (name ++ rest).dropWhile isSpace = name ++ rest := by
  apply Text.dropWhile_eq_self
  rw [List.head?_append_of_ne_nil _ identifier.chars.1]
  exact fun point leads => (identifier.plain point (List.mem_of_mem_head? leads)).isSpace

/-- A header line with a key of the header, read back. -/
theorem HeaderLine.matchHeader {value : Text} (written : HeaderLine key value line)
    (known : key ∈ headerKeys) (first : ∀ point ∈ value.head?, isSpace point = false)
    (oneLine : lineFeed ∉ line)
    : matchHeader line = some (key, value) := by
  obtain ⟨gap, blank, rfl⟩ := written
  have marked : py ":" = [colon] := by decide
  have behind : (colon :: (gap ++ value)).dropWhile isSpace = colon :: (gap ++ value) := by
    apply Text.dropWhile_eq_self
    intro point leads
    obtain rfl := Option.mem_some_iff.mp leads
    decide
  have valued : (gap ++ value).dropWhile isSpace = value :=
    Text.dropWhile_append blank.isSpace first
  have start : key ++ py ":" ++ gap ++ value = key ++ colon :: (gap ++ value) := by
    simp [marked]
  rw [start] at oneLine ⊢
  simp only [Dsl.matchHeader, (headerKeys_identifier known).dropWhile_append,
    find?_headerKeys known, Option.bind_eq_bind, Option.bind_eq_some_iff, Option.guard_eq_some',
    Option.some.injEq, exists_eq_left', List.drop_left, behind, List.head?_cons, List.tail_cons,
    valued, exists_const, true_and, and_true]
  exact fun held => oneLine (List.mem_append_right _ (List.mem_cons_of_mem _
    (List.mem_append_right _ held)))

/-- A written clause line is no header line. -/
theorem Written.matchHeader (written : Written head body line) (known : head ∈ primitiveHeads)
    : matchHeader line = none := by
  obtain ⟨gap, before, behind, _, _, _, rfl⟩ := written
  simp only [Dsl.matchHeader, List.append_assoc, (head_identifier known).dropWhile_append,
    find?_headerKeys_head known]
  rfl

theorem DerivesClause.matchHeader (derives : DerivesClause line clause)
    : matchHeader line = none := by
  cases derives with
  | source _ written => exact written.matchHeader (by simp [primitiveHeads])
  | sink _ written => exact written.matchHeader (by simp [primitiveHeads])
  | sanitize _ written => exact written.matchHeader (by simp [primitiveHeads])
  | propagate _ written => exact written.matchHeader (by simp [primitiveHeads])

-- Header values

/-- `[A-Za-z0-9_-]`: the characters of the terminals of the header. -/
def isTerminalChar (point : CodePoint) : Bool :=
  isNameRest point || isMark "-" point

/-- A nonempty text of characters of terminals. -/
structure IsTerminal (text : Text) : Prop where
  nonempty : text ≠ []
  chars : text.all isTerminalChar = true

theorem ClassName.isTerminal (className : ClassName) : IsTerminal className.text := by
  cases className <;> exact ⟨by decide, by decide⟩

theorem Language.isTerminal (language : Language) : IsTerminal language.text := by
  cases language <;> exact ⟨by decide, by decide⟩

theorem EngineTag.isTerminal (engine : EngineTag) : IsTerminal engine.text := by
  cases engine <;> exact ⟨by decide, by decide⟩

/-- No character of a list of marks is one of terminals. -/
theorem isMark_of_isTerminalChar {marks : String}
    (checked : (py marks).all (fun mark => !isTerminalChar mark) = true)
    (char : isTerminalChar point = true)
    : isMark marks point = false := by
  by_contra marked
  have member := List.contains_iff_mem.mp (Bool.eq_true_of_not_eq_false marked)
  have apart := List.all_eq_true.mp checked point member
  rw [char] at apart
  cases apart

theorem isPlain_of_isTerminalChar (char : isTerminalChar point = true)
    : IsPlain point := by
  rcases Bool.or_eq_true_iff.mp char with name | mark
  · exact isPlain_of_isNameRest name
  · have checked : (py "-").all (fun mark => IsPlain mark) = true := by decide
    exact of_decide_eq_true (List.all_eq_true.mp checked point (List.contains_iff_mem.mp mark))

theorem IsTerminal.unquoted (terminal : IsTerminal text)
    : ∀ point ∈ text, isQuote point = false :=
  fun point member => isMark_of_isTerminalChar (by decide)
    (List.all_eq_true.mp terminal.chars point member)

theorem quote_eq : py "\"" = [Fin.ofNat 0x110000 0x22] := by
  decide

variable {written : Text}

/-- Quotes around a text without quotes are trimmed. -/
theorem Terminal.trim (wrote : Terminal text written)
    (unquoted : ∀ point ∈ text, isQuote point = false)
    : written.trim isQuote = text := by
  have first : ∀ point ∈ text.head?, isQuote point = false :=
    fun point leads => unquoted point (List.mem_of_mem_head? leads)
  have last : ∀ point ∈ text.getLast?, isQuote point = false :=
    fun point ends => unquoted point (List.mem_of_mem_getLast? ends)
  have quotes : ∀ point ∈ py "\"", isQuote point = true :=
    fun point member => List.all_eq_true.mp (by decide : (py "\"").all isQuote = true)
      point member
  rcases wrote with rfl | rfl
  · exact Text.trim_eq_self first last
  · exact Text.trim_append quotes quotes first last

theorem quoted_solid (text : Text) : IsSolid (py "\"" ++ text ++ py "\"") := by
  rw [quote_eq]
  refine ⟨fun point leads => ?_, fun point ends => ?_⟩
  · obtain rfl := Option.mem_some_iff.mp leads
    decide
  · rw [List.getLast?_concat] at ends
    obtain rfl := Option.mem_some_iff.mp ends
    decide

/-- A terminal begins and ends with a visible character, in quotes or not. -/
theorem Terminal.solid (wrote : Terminal text written) (terminal : IsTerminal text)
    : IsSolid written ∧ written ≠ [] := by
  rcases wrote with rfl | rfl
  · exact ⟨isSolid_of_plain fun point member =>
      isPlain_of_isTerminalChar (List.all_eq_true.mp terminal.chars point member), terminal.nonempty⟩
  · exact ⟨quoted_solid text, List.append_ne_nil_of_right_ne_nil _ (by decide)⟩

/-- A solid text is not stripped. -/
theorem IsSolid.strip_self (solid : IsSolid text) : text.strip = text :=
  Text.trim_eq_self (fun point leads => (solid.first point leads).isSpace)
    fun point ends => (solid.last point ends).isSpace

theorem IsSolid.unquote (solid : IsSolid text)
    : unquote text = text.trim isQuote := by
  rw [Dsl.unquote, solid.strip_self]

theorem Terminal.mem (wrote : Terminal text written) (terminal : IsTerminal text)
    (member : point ∈ written)
    : isTerminalChar point = true ∨ point = Fin.ofNat 0x110000 0x22 := by
  have chars := List.all_eq_true.mp terminal.chars
  rcases wrote with rfl | rfl
  · exact .inl (chars point member)
  · rw [quote_eq] at member
    simp only [List.mem_append, List.mem_singleton] at member
    rcases member with (quote | inside) | quote
    · exact .inr quote
    · exact .inl (chars point inside)
    · exact .inr quote

variable {mark : CodePoint}

/-- A terminal holds none of the marks that are neither quotes nor characters of terminals. -/
theorem Terminal.not_mem (wrote : Terminal text written) (terminal : IsTerminal text)
    (other : isTerminalChar mark = false) (unquoted : mark ≠ Fin.ofNat 0x110000 0x22)
    : mark ∉ written := by
  intro member
  rcases wrote.mem terminal member with char | quote
  · rw [other] at char
    cases char
  · exact unquoted quote

theorem Blank.not_mem (blank : Blank text) (other : isMark " \t" mark = false)
    : mark ∉ text := by
  intro member
  have marked := blank mark member
  rw [other] at marked
  cases marked

variable {items : Text} {languages : List Language}

/-- The languages of a list hold none of the marks that separate or enclose them, by induction on
the list.
-/
theorem LanguageItems.not_mem (derives : LanguageItems items languages)
    (other : isTerminalChar mark = false) (unquoted : mark ≠ Fin.ofNat 0x110000 0x22)
    (unblank : isMark " \t" mark = false) (apart : mark ≠ comma)
    : mark ∉ items := by
  have comma_eq : py "," = [comma] := by decide
  induction derives with
  | last front back wrote =>
      simp only [List.mem_append, not_or]
      exact ⟨⟨front.not_mem unblank, wrote.not_mem (Language.isTerminal _) other unquoted⟩,
        back.not_mem unblank⟩
  | more front back wrote _ ih =>
      simp only [comma_eq, List.mem_append, List.mem_singleton, not_or]
      exact ⟨⟨⟨⟨front.not_mem unblank, wrote.not_mem (Language.isTerminal _) other unquoted⟩,
        back.not_mem unblank⟩, apart⟩, ih⟩

/-- The languages are read off their list, by induction on it. -/
theorem LanguageItems.names (derives : LanguageItems items languages)
    : List.Forall₂ (fun name language => Language.text language = name)
        (((items.splitOn comma).filter fun part => Text.strip part ≠ []).map unquote) languages := by
  have comma_eq : py "," = [comma] := by decide
  -- one part of the list, between blanks
  have part {before written behind : Text} {language : Language} (front : Blank before)
      (back : Blank behind) (wrote : Terminal language.text written)
      : comma ∉ before ++ written ++ behind
        ∧ Text.strip (before ++ written ++ behind) ≠ []
        ∧ language.text = unquote (before ++ written ++ behind) := by
    obtain ⟨solid, nonempty⟩ := wrote.solid (Language.isTerminal language)
    have stripped : Text.strip (before ++ written ++ behind) = written := solid.strip front back
    refine ⟨?_, by rwa [stripped], ?_⟩
    · simp only [List.mem_append, not_or]
      exact ⟨⟨front.not_mem (by decide), wrote.not_mem (Language.isTerminal _)
        (by decide) (by decide)⟩, back.not_mem (by decide)⟩
    · rw [unquote, stripped, wrote.trim (Language.isTerminal language).unquoted]
  induction derives with
  | last front back wrote =>
      obtain ⟨whole, nonblank, named⟩ := part front back wrote
      rw [List.splitOn_eq_singleton whole, List.filter_cons, if_pos (decide_eq_true nonblank)]
      exact .cons named .nil
  | more front back wrote _ ih =>
      obtain ⟨whole, nonblank, named⟩ := part front back wrote
      rw [comma_eq, List.append_assoc _ [comma], List.singleton_append,
        List.splitOn_append_cons_self_of_not_mem whole, List.filter_cons,
        if_pos (decide_eq_true nonblank)]
      exact .cons named ih

theorem LanguageItems.nonempty (derives : LanguageItems items languages)
    : languages ≠ [] := by
  cases derives <;> exact List.cons_ne_nil _ _

/-- The brackets around a list of languages are trimmed. -/
theorem LanguageItems.trim (derives : LanguageItems items languages)
    : (py "[" ++ items ++ py "]").trim (isMark "[]") = items := by
  have free : ∀ point ∈ items, isMark "[]" point = false := by
    intro point member
    by_contra marked
    have checked : (py "[]").all (fun mark => !isTerminalChar mark && !isMark " \t" mark
        && mark ≠ Fin.ofNat 0x110000 0x22 && mark ≠ comma) = true := by
      decide
    have apart := List.all_eq_true.mp checked point
      (List.contains_iff_mem.mp (Bool.eq_true_of_not_eq_false marked))
    simp only [Bool.and_eq_true, Bool.not_eq_true', decide_eq_true_eq] at apart
    exact derives.not_mem apart.1.1.1 apart.1.2 apart.1.1.2 apart.2 member
  have brackets : (py "[" ++ py "]").all (isMark "[]") = true := by decide
  have marked := List.forall_mem_append.mp (List.all_eq_true.mp brackets)
  exact Text.trim_append marked.1 marked.2
    (fun point leads => free point (List.mem_of_mem_head? leads))
    fun point ends => free point (List.mem_of_mem_getLast? ends)

theorem bracketed_solid (items : Text) : IsSolid (py "[" ++ items ++ py "]") := by
  have opened : py "[" = [Fin.ofNat 0x110000 0x5B] := by decide
  have closed : py "]" = [Fin.ofNat 0x110000 0x5D] := by decide
  rw [opened, closed]
  refine ⟨fun point leads => ?_, fun point ends => ?_⟩
  · obtain rfl := Option.mem_some_iff.mp leads
    decide
  · rw [List.getLast?_concat] at ends
    obtain rfl := Option.mem_some_iff.mp ends
    decide

-- The header and the whole text

/-- A header line with a solid value is an entry of the header. -/
theorem HeaderLine.entries {value : Text} (written : HeaderLine key value line)
    (known : key ∈ headerKeys) (solid : IsSolid value) (oneLine : lineFeed ∉ line)
    (rest : List Text)
    : headerEntries (line :: rest) = (key, value) :: headerEntries rest
      ∧ clauseLines (line :: rest) = clauseLines rest := by
  have matched := written.matchHeader known (fun point leads => (solid.first point leads).isSpace)
    oneLine
  simp [headerEntries, clauseLines, matched, solid.strip_self]

/-- Derived clause lines give no header entries. -/
theorem clauseLines_derived {lines : List Text} {clauses : List Clause}
    (derives : List.Forall₂ DerivesClause lines clauses)
    : headerEntries lines = [] ∧ clauseLines lines = lines := by
  have none : ∀ line ∈ lines, matchHeader line = none := by
    intro line member
    obtain ⟨clause, _, derived⟩ := exists_related_of_mem derives member
    exact derived.matchHeader
  constructor
  · simp only [headerEntries, List.map_eq_nil_iff, List.filterMap_eq_nil_iff]
    exact none
  · exact List.filter_eq_self.mpr fun line member => decide_eq_true (none line member)

variable {spec : Spec}

/-- The entries and the clause lines of a derived text. -/
theorem Derives.lines (derives : Derives sourceText spec)
    : ∃ id className items engine, headerEntries (contentLines sourceText)
        = [(py "id", id), (py "class", className), (py "languages", py "[" ++ items ++ py "]"),
            (py "engine", engine)]
      ∧ StringLiteral spec.id id
      ∧ Terminal spec.className.text className
      ∧ LanguageItems items spec.languages
      ∧ Terminal spec.engine.text engine
      ∧ List.Forall₂ DerivesClause (clauseLines (contentLines sourceText)) spec.clauses
      ∧ spec.clauses ≠ [] := by
  obtain ⟨_, clauses, lines, ⟨id, className, items, engine, idLine, classLine, languagesLine,
    engineLine, rfl, ⟨idWrote, idWritten⟩, ⟨classWrote, classWritten⟩,
    ⟨itemsDerive, languagesWritten⟩, engineWrote, engineWritten⟩, nonempty, clausesDerive⟩ := derives
  have oneLine : ∀ line ∈ contentLines sourceText, lineFeed ∉ line :=
    fun line listed => lineFeed_not_mem_content listed
  rw [lines] at oneLine ⊢
  have idSolid : IsSolid id := idWrote.2 ▸ quoted_solid spec.id
  obtain ⟨idEntry, idRest⟩ := idWritten.entries (by simp [headerKeys]) idSolid
    (oneLine _ (by simp)) (classLine :: languagesLine :: engineLine :: clauses)
  obtain ⟨classEntry, classRest⟩ := classWritten.entries (by simp [headerKeys])
    (classWrote.solid spec.className.isTerminal).1 (oneLine _ (by simp))
    (languagesLine :: engineLine :: clauses)
  obtain ⟨languagesEntry, languagesRest⟩ := languagesWritten.entries (by simp [headerKeys])
    (bracketed_solid items) (oneLine _ (by simp)) (engineLine :: clauses)
  obtain ⟨engineEntry, engineRest⟩ := engineWritten.entries (by simp [headerKeys])
    (engineWrote.solid spec.engine.isTerminal).1 (oneLine _ (by simp)) clauses
  obtain ⟨noEntries, all⟩ := clauseLines_derived clausesDerive
  refine ⟨id, className, items, engine, ?_, idWrote, classWrote, itemsDerive, engineWrote, ?_, ?_⟩
  · simp only [List.cons_append, List.nil_append, idEntry, classEntry, languagesEntry, engineEntry,
      noEntries]
  · simp only [List.cons_append, List.nil_append, idRest, classRest, languagesRest, engineRest, all]
    exact clausesDerive
  · intro empty
    rw [empty] at clausesDerive
    exact nonempty (List.forall₂_nil_right_iff.mp clausesDerive)

/-- A derived header reads as the header of its spec. -/
theorem Derives.header (derives : Derives sourceText spec)
    : HeaderReads (Dict.ofPairs (headerEntries (contentLines sourceText))) spec := by
  obtain ⟨id, className, items, engine, entries, idWrote, classWrote, itemsDerive, engineWrote, _⟩ :=
    derives.lines
  have keys : headerKeys.Nodup := by decide
  have distinct : ((headerEntries (contentLines sourceText)).map Prod.fst).Nodup := by
    rw [entries]
    exact keys
  rw [Dict.ofPairs_eq_self distinct, entries]
  have idQuoted : Terminal spec.id id := .inr idWrote.2
  have idSolid : IsSolid id := idWrote.2 ▸ quoted_solid spec.id
  refine ⟨?_, ?_, ?_, itemsDerive.nonempty, ?_⟩
  · show spec.id = unquote id
    rw [idSolid.unquote, idQuoted.trim idWrote.1]
  · show spec.className.text = unquote className
    rw [(classWrote.solid spec.className.isTerminal).1.unquote,
      classWrote.trim spec.className.isTerminal.unquoted]
  · show List.Forall₂ _ (languageNames (Text.strip (py "[" ++ items ++ py "]"))) spec.languages
    rw [(bracketed_solid items).strip_self, languageNames, itemsDerive.trim]
    exact itemsDerive.names
  · show spec.engine.text = unquote engine
    rw [(engineWrote.solid spec.engine.isTerminal).1.unquote,
      engineWrote.trim spec.engine.isTerminal.unquoted]

/-- No clause line of a text holds a composition keyword or a body that matches an escape hatch. -/
def Unreserved (tables : CharTables) (sourceText : Text) : Prop :=
  ∀ line ∈ clauseLines (contentLines sourceText), ∀ name inner,
    ClauseShape tables line name inner → Screened tables line inner.strip

/-- A text that derives a spec is accepted as that spec exactly when it is unreserved. -/
theorem Derives.accepts_iff {tables : CharTables} (derives : Derives sourceText spec)
    : Accepts tables sourceText spec ↔ Unreserved tables sourceText := by
  obtain ⟨_, _, _, _, _, _, _, _, _, clauses, nonempty⟩ := derives.lines
  constructor
  · intro accepts line member name inner shape
    obtain ⟨clause, _, other, otherInner, otherShape, screened, _⟩ :=
      exists_related_of_mem accepts.clauses member
    have same := (matchClause_eq_some.mpr shape).symm.trans
      (matchClause_eq_some.mpr otherShape)
    cases same
    exact screened
  · intro unreserved
    refine ⟨derives.header, ?_, nonempty⟩
    refine List.forall₂_iff_get.mpr ⟨clauses.length_eq, fun index left right => ?_⟩
    obtain ⟨name, inner, shape, reads⟩ := (clauses.get left right).reads tables
    exact ⟨name, inner, shape, unreserved _ (List.get_mem _ _) name inner shape, reads⟩

/-- The parser decides the grammar down to the bodies of its patterns, which it leaves opaque, and
up to its reserved words: it returns a spec exactly for the texts that it accepts as that spec, and
a text that derives a spec is accepted as that spec exactly when it is unreserved.
-/
theorem parseSpec_grammar (tables : CharTables) (sourceText : Text) (spec : Spec)
    : (parseSpec tables sourceText = .ok spec ↔ Accepts tables sourceText spec)
      ∧ (Derives sourceText spec
        → (parseSpec tables sourceText = .ok spec ↔ Unreserved tables sourceText)) :=
  ⟨parseSpec_ok_iff, fun derives => parseSpec_ok_iff.trans derives.accepts_iff⟩

/-- The tables of a runtime without characters beyond ASCII. -/
def asciiTables : CharTables :=
  ⟨fun _ => false, fun _ => false, id, fun _ wide => absurd wide Bool.false_ne_true⟩

/-- A spec of two clauses. -/
def apiSpec : Text :=
  Text.join (py "\n")
    [py "id: \"api\"", py "class: \"ssrf\"", py "languages: [\"go\", ruby]", py "engine: ide", [],
      py "source(pkg.api(*))  # every argument", py "propagate(arg[0] → ret)"]

/-- What it derives. -/
def apiParsed : Spec where
  id := py "api"
  className := .ssrf
  languages := [.go, .ruby]
  engine := .ide
  clauses := [.source (py "pkg.api(*)"), .propagate (py "arg[0]") (py "ret")]

theorem apiSpec_derives : Derives apiSpec apiParsed := by
  have blank : Blank (py " ") :=
    List.all_eq_true.mp (by decide : (py " ").all (isMark " \t") = true)
  have unquoted : ∀ point ∈ apiParsed.id, isQuote point = false := by
    have checked : apiParsed.id.all (fun point => !isQuote point) = true := by decide
    exact fun point member => by simpa using List.all_eq_true.mp checked point member
  have items : LanguageItems ([] ++ py "\"go\"" ++ [] ++ py "," ++ (py " " ++ py "ruby" ++ []))
      [.go, .ruby] :=
    .more blank_nil blank_nil (.inr (by decide))
      (.last blank blank_nil (.inl (by decide)))
  have header : SpecHeader
      [py "id: \"api\"", py "class: \"ssrf\"", py "languages: [\"go\", ruby]", py "engine: ide"]
      apiParsed :=
    ⟨_, py "\"ssrf\"", _, py "ide", _, _, _, _, rfl,
      ⟨⟨unquoted, rfl⟩, py " ", blank, by decide⟩,
      ⟨.inr (by decide), py " ", blank, by decide⟩,
      ⟨items, py " ", blank, by decide⟩, .inl (by decide), py " ", blank,
      by decide⟩
  have name {text : Text} (checked : startsWith isNameStart isNameRest text = true)
      : Identifier text :=
    checked
  have pattern : DerivesPattern (py "pkg" ++ py "." ++ (py "api" ++ py "(" ++ py "*" ++ py ")")) :=
    .access (.fqn (.name (name (by decide))))
      (.last (.method (name (by decide)) .any))
  have source : DerivesClause (py "source(pkg.api(*))") (.source (py "pkg.api(*)")) := by
    have same : py "pkg" ++ py "." ++ (py "api" ++ py "(" ++ py "*" ++ py ")")
        = py "pkg.api(*)" := by
      decide
    rw [same] at pattern
    exact .source pattern ⟨[], [], [], blank_nil, blank_nil, blank_nil, by decide⟩
  have body : PropagateBody (py "arg[0]") (py "ret") (py "arg[0] → ret") :=
    ⟨.inl ⟨py "0", .inl ⟨by decide, by decide⟩, by decide⟩, .inl rfl, py " ", py " ",
      blank, blank, by decide⟩
  have propagate : DerivesClause (py "propagate(arg[0] → ret)")
      (.propagate (py "arg[0]") (py "ret")) :=
    .propagate body ⟨[], [], [], blank_nil, blank_nil, blank_nil, by decide⟩
  exact ⟨_, _, by decide, header, List.cons_ne_nil _ _, .cons source (.cons propagate .nil)⟩

/-- It derives from the grammar and is accepted, so it holds no reserved word. -/
theorem parseSpec_grammar_api
    : parseSpec asciiTables apiSpec = .ok apiParsed ∧ Unreserved asciiTables apiSpec := by
  have parsed : parseSpec asciiTables apiSpec = .ok apiParsed := by decide +kernel
  exact ⟨parsed, ((parseSpec_grammar asciiTables apiSpec apiParsed).2 apiSpec_derives).mp parsed⟩

def openBracket : CodePoint := Fin.ofNat 0x110000 0x5B

/-- No character of an access path is a bracket. -/
theorem DerivesPattern.unbracketed {pattern : Text} (derives : DerivesPattern pattern)
    : openBracket ∉ pattern := by
  intro member
  have char := derives.isPattern.chars openBracket member
  have other : isPatternChar openBracket = false := by decide
  rw [other] at char
  cases char

/-- A line around a body without brackets holds none. -/
theorem Written.unbracketed (written : Written head body line) (known : head ∈ primitiveHeads)
    (unbracketed : openBracket ∉ body)
    : openBracket ∉ line := by
  obtain ⟨gap, before, behind, gapBlank, front, back, rfl⟩ := written
  have other : isNameRest openBracket = false := by decide
  have outside : openBracket ∉ head := fun member => by
    have name := (head_identifier known).chars.2 openBracket member
    rw [other] at name
    cases name
  have unblank : isMark " \t" openBracket = false := by decide
  simp only [List.mem_append, not_or]
  exact ⟨⟨⟨⟨outside, gapBlank.not_mem unblank⟩, by decide⟩,
    ⟨front.not_mem unblank, unbracketed⟩, back.not_mem unblank⟩, by decide⟩

/-- Only a propagation holds brackets, and it begins with its head. -/
theorem DerivesClause.propagates (derives : DerivesClause line clause)
    (bracketed : openBracket ∈ line)
    : py "propagate" <+: line := by
  cases derives with
  | source pattern written =>
      exact absurd bracketed (written.unbracketed (by simp [primitiveHeads]) pattern.unbracketed)
  | sink pattern written =>
      exact absurd bracketed (written.unbracketed (by simp [primitiveHeads]) pattern.unbracketed)
  | sanitize pattern written =>
      exact absurd bracketed (written.unbracketed (by simp [primitiveHeads]) pattern.unbracketed)
  | propagate _ written =>
      obtain ⟨gap, before, behind, _, _, _, rfl⟩ := written
      simp only [List.append_assoc]
      exact List.prefix_append _ _

/-- The header of the shipped path traversal spec, and one of its sinks. -/
def shippedSink : Text :=
  Text.join (py "\n")
    [py "id: \"python-os-path-traversal\"", py "class: \"path-traversal\"",
      py "languages: [\"python\"]", py "engine: \"ifds\"", py "# Sinks: file-system entry points.",
      py "sink(builtins.open(arg[0]))"]

/-- The shipped spec is accepted, but `arg[0]` is no argument selector of the grammar. -/
theorem shippedSink_is_underivable
    : ¬∀ (tables : CharTables) (sourceText : Text),
        (∃ spec, parseSpec tables sourceText = .ok spec) ↔ ∃ spec, Derives sourceText spec := by
  intro claimed
  have parsed : parseSpec asciiTables shippedSink = .ok {
      id := py "python-os-path-traversal", className := .pathTraversal, languages := [.python],
      engine := .ifds, clauses := [.sink (py "builtins.open(arg[0])")] } := by
    decide +kernel
  obtain ⟨spec, derives⟩ := (claimed asciiTables shippedSink).mp ⟨_, parsed⟩
  obtain ⟨_, _, _, _, _, _, _, _, _, clauses, _⟩ := derives.lines
  have lines : clauseLines (contentLines shippedSink) = [py "sink(builtins.open(arg[0]))"] := by
    decide +kernel
  rw [lines] at clauses
  obtain ⟨clause, _, derived⟩ := exists_related_of_mem clauses (List.mem_singleton_self _)
  have propagates := derived.propagates (by decide)
  exact absurd propagates (by decide)

end Scanipy.Analysis.Ifds.Dsl

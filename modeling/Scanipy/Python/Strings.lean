import Mathlib.Data.List.DropRight
import Scanipy.Python.Text

/-! Methods of `str` that look for characters. -/

namespace Scanipy.Python

/-- `str.isspace` of one character. -/
def isSpace (point : CodePoint) : Bool :=
  (0x09 ≤ point.val && point.val ≤ 0x0D) || (0x1C ≤ point.val && point.val ≤ 0x20)
  || point.val = 0x85 || point.val = 0xA0 || point.val = 0x1680
  || (0x2000 ≤ point.val && point.val ≤ 0x200A) || point.val = 0x2028 || point.val = 0x2029
  || point.val = 0x202F || point.val = 0x205F || point.val = 0x3000

/-- The characters at which `str.splitlines` ends a line. -/
def isLineBreak (point : CodePoint) : Bool :=
  (0x0A ≤ point.val && point.val ≤ 0x0D) || (0x1C ≤ point.val && point.val ≤ 0x1E)
  || point.val = 0x85 || point.val = 0x2028 || point.val = 0x2029

namespace Text

/-- `text.strip()`. -/
def strip (text : Text) : Text :=
  ((text.dropWhile isSpace).reverse.dropWhile isSpace).reverse

/-- `text.rstrip()`. -/
def rstrip (text : Text) : Text :=
  (text.reverse.dropWhile isSpace).reverse

/-- `text.strip(marks)`, for the characters of a class. -/
def trim (accepts : CodePoint → Bool) (text : Text) : Text :=
  ((text.dropWhile accepts).reverse.dropWhile accepts).reverse

/-- `text.partition(separator)` for one character: what stands before the first one, and what
stands behind it; `none` where there is none.
-/
def partition (separator : CodePoint) (text : Text) : Text × Option Text :=
  (text.takeWhile (· ≠ separator),
    match text.dropWhile (· ≠ separator) with
    | [] => none
    | _ :: rest => some rest)

/-- `separator.join(parts)`. -/
def join (separator : Text) : List Text → Text
  | [] => []
  | [part] => part
  | part :: rest => part ++ separator ++ join separator rest

/-- The lines of a text behind the start of a line. -/
def splitlinesFrom (line : Text) : Text → List Text
  | [] => if line = [] then [] else [line]
  | point :: rest =>
      -- a carriage return with its line feed ends one line
      if point.val = 0x0D ∧ rest.head? = some 0x0A then
        splitlinesFrom line rest
      else if isLineBreak point then
        line :: splitlinesFrom [] rest
      else
        splitlinesFrom (line ++ [point]) rest

/-- `text.splitlines()`. -/
def splitlines (text : Text) : List Text :=
  splitlinesFrom [] text

/-- The universal newlines of a file that is read as text. -/
def universalNewlines : Text → Text
  | [] => []
  | point :: rest =>
      if point.val = 0x0D then
        if rest.head? = some 0x0A then universalNewlines rest else 0x0A :: universalNewlines rest
      else
        point :: universalNewlines rest

/-- `text.isascii()`. -/
def IsAscii (text : Text) : Prop :=
  ∀ point ∈ text, point.val < 0x80

instance (text : Text) : Decidable text.IsAscii :=
  List.decidableBAll (fun point : CodePoint => point.val < 0x80) text

section Ends

variable {accepts : CodePoint → Bool} {front rest : Text}

/-- Dropping stops at the first character that is not of the class. -/
theorem dropWhile_append (inside : ∀ point ∈ front, accepts point = true)
    (stops : ∀ point ∈ rest.head?, accepts point = false)
    : (front ++ rest).dropWhile accepts = rest := by
  rw [List.dropWhile_append_of_pos inside]
  cases rest with
  | nil => rfl
  | cons point others => simp [stops point rfl]

variable {text : Text}

/-- Nothing is dropped off a text that does not begin with the class. -/
theorem dropWhile_eq_self (stops : ∀ point ∈ text.head?, accepts point = false)
    : text.dropWhile accepts = text := by
  have kept : ([] ++ text).dropWhile accepts = text :=
    dropWhile_append (fun _ member => absurd member List.not_mem_nil) stops
  exact kept

/-- Taking stops there, too. -/
theorem takeWhile_append (inside : ∀ point ∈ front, accepts point = true)
    (stops : ∀ point ∈ rest.head?, accepts point = false)
    : (front ++ rest).takeWhile accepts = front := by
  rw [List.takeWhile_append_of_pos inside]
  cases rest with
  | nil => simp
  | cons point others => simp [stops point rfl]

/-- What is left does not begin with the class. -/
theorem head?_dropWhile (text : Text)
    : ∀ point ∈ (text.dropWhile accepts).head?, accepts point = false := by
  intro point first
  have stops := List.head?_dropWhile_not accepts text
  rw [Option.mem_def.mp first] at stops
  exact stops

/-- A text that neither begins nor ends with the class, between texts of the class. -/
theorem trim_append {core behind : Text} (inside : ∀ point ∈ front, accepts point = true)
    (outside : ∀ point ∈ behind, accepts point = true)
    (first : ∀ point ∈ core.head?, accepts point = false)
    (last : ∀ point ∈ core.getLast?, accepts point = false)
    : trim accepts (front ++ core ++ behind) = core := by
  unfold trim
  cases core with
  | nil =>
      have all : ∀ point ∈ front ++ [] ++ behind, accepts point = true := by
        simpa [or_imp, forall_and] using And.intro inside outside
      rw [List.dropWhile_eq_nil_iff.mpr all]
      rfl
  | cons point others =>
      have stops : ∀ head ∈ (point :: others ++ behind).head?, accepts head = false := first
      rw [List.append_assoc, dropWhile_append inside stops, List.reverse_append,
        dropWhile_append, List.reverse_reverse]
      · simpa using outside
      · simpa only [List.head?_reverse] using last

/-- A text is what is trimmed off its ends around what is left, which neither begins nor ends with
the class.
-/
theorem exists_eq_trim (accepts : CodePoint → Bool) (text : Text)
    : ∃ front behind, text = front ++ trim accepts text ++ behind
      ∧ (∀ point ∈ front, accepts point = true) ∧ ∀ point ∈ behind, accepts point = true := by
  refine ⟨text.takeWhile accepts, ((text.dropWhile accepts).reverse.takeWhile accepts).reverse,
    ?_, ?_, ?_⟩
  · have behind := congrArg List.reverse
      (List.takeWhile_append_dropWhile (p := accepts) (l := (text.dropWhile accepts).reverse))
    rw [List.reverse_append, List.reverse_reverse] at behind
    rw [trim, List.append_assoc, behind, List.takeWhile_append_dropWhile]
  · exact fun point member => List.mem_takeWhile_imp member
  · exact fun point member => List.mem_takeWhile_imp (List.mem_reverse.mp member)

/-- A text that neither begins nor ends with the class stays as it is. -/
theorem trim_eq_self (first : ∀ point ∈ text.head?, accepts point = false)
    (last : ∀ point ∈ text.getLast?, accepts point = false)
    : trim accepts text = text := by
  have whole : trim accepts ([] ++ text ++ []) = text :=
    trim_append (fun _ member => absurd member List.not_mem_nil)
      (fun _ member => absurd member List.not_mem_nil) first last
  simpa using whole

end Ends

end Text

end Scanipy.Python

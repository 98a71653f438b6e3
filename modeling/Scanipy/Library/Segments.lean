import Mathlib.Data.List.Basic

/-! Sequences that are joined by a separator which none of them contains: the parts can be told from
the whole, and what does not contain the separator lies within one part.
-/

namespace Scanipy.Library.Segments

variable {α : Type} {separator : α}

/-- No part contains the separator. -/
def Free (separator : α) (parts : List (List α)) : Prop :=
  ∀ part ∈ parts, separator ∉ part

/-- The parts of a whole are determined by it. -/
theorem eq_of_intercalate_eq [DecidableEq α] {left right : List (List α)}
    (leftFree : Free separator left) (rightFree : Free separator right) (leftSome : left ≠ [])
    (rightSome : right ≠ []) (same : [separator].intercalate left = [separator].intercalate right)
    : left = right := by
  have split := congrArg (List.splitOn separator) same
  rwa [List.splitOn_intercalate separator leftFree leftSome,
    List.splitOn_intercalate separator rightFree rightSome] at split

/-- What begins a sequence and does not contain a member ends before it. -/
theorem prefix_of_append_cons {token : List α} (left : List α) {right : List α}
    (begins : token <+: left ++ separator :: right) (free : separator ∉ token)
    : token <+: left := by
  rcases List.prefix_or_prefix_of_prefix begins (List.prefix_append left _) with shorter | longer
  · exact shorter
  · obtain ⟨rest, rfl⟩ := longer
    cases rest with
    | nil => simp
    | cons first others =>
        have next := (List.prefix_append_right_inj left).mp begins
        obtain ⟨rfl, _⟩ := List.cons_prefix_cons.mp next
        simp at free

/-- The part before the first separator is determined by the whole. -/
theorem eq_of_append_cons_eq {left right rest others : List α} (leftFree : separator ∉ left)
    (rightFree : separator ∉ right) (same : left ++ separator :: rest = right ++ separator :: others)
    : left = right := by
  have leftFirst : left <+: right := prefix_of_append_cons right ⟨separator :: rest, same⟩ leftFree
  have rightFirst : right <+: left :=
    prefix_of_append_cons left ⟨separator :: others, same.symm⟩ rightFree
  exact leftFirst.eq_of_length_le rightFirst.length_le

/-- The parts around the last separator are determined by the whole. Witness: reversed, it is the
first.
-/
theorem eq_of_append_cons_eq_last {left right rest others : List α} (restFree : separator ∉ rest)
    (othersFree : separator ∉ others)
    (same : left ++ separator :: rest = right ++ separator :: others)
    : left = right ∧ rest = others := by
  have reversed : rest.reverse ++ separator :: left.reverse
      = others.reverse ++ separator :: right.reverse := by
    simpa using congrArg List.reverse same
  have ends : rest.reverse = others.reverse :=
    eq_of_append_cons_eq (by simpa using restFree) (by simpa using othersFree) reversed
  obtain rfl := List.reverse_injective ends
  exact ⟨List.append_cancel_right same, rfl⟩

/-- What lies in two sequences with the separator between lies in one of them, by induction on the
first.
-/
theorem infix_append_cons {token left right : List α} (within : token <:+: left ++ separator :: right)
    (free : separator ∉ token)
    : token <:+: left ∨ token <:+: right := by
  induction left with
  | nil =>
      rcases List.infix_cons_iff.mp within with begins | later
      · exact .inl (prefix_of_append_cons [] begins free).isInfix
      · exact .inr later
  | cons first rest ih =>
      rcases List.infix_cons_iff.mp within with begins | later
      · exact .inl (prefix_of_append_cons (first :: rest) begins free).isInfix
      · exact (ih later).imp_left fun inside => inside.trans (List.suffix_cons _ _).isInfix

/-- No window of the sequence is the token. -/
def lacks [BEq α] (token whole : List α) : Bool :=
  (List.range (whole.length + 1)).all fun start => (whole.drop start).take token.length != token

/-- What no window shows does not lie in the sequence. -/
theorem not_infix_of_lacks [BEq α] [LawfulBEq α] {token whole : List α}
    (lacking : lacks token whole = true)
    : ¬token <:+: whole := by
  rintro ⟨front, back, rfl⟩
  have place : front.length ∈ List.range ((front ++ token ++ back).length + 1) := by
    apply List.mem_range.mpr
    simp only [List.length_append]
    omega
  have window := List.all_eq_true.mp lacking _ place
  rw [List.append_assoc, List.drop_left, List.take_left, bne_self_eq_false] at window
  cases window

/-- What lies in a whole and does not contain the separator lies in one of the parts, by induction
on the parts.
-/
theorem infix_intercalate {token : List α} {parts : List (List α)} (nonempty : parts ≠ [])
    (within : token <:+: [separator].intercalate parts) (free : separator ∉ token)
    : ∃ part ∈ parts, token <:+: part := by
  induction parts with
  | nil => exact absurd rfl nonempty
  | cons head rest ih =>
      cases rest with
      | nil => exact ⟨head, List.mem_cons_self, by simpa using within⟩
      | cons next others =>
          rw [List.intercalate_cons_cons, List.append_assoc, List.singleton_append] at within
          rcases infix_append_cons within free with first | later
          · exact ⟨head, List.mem_cons_self, first⟩
          · obtain ⟨part, listed, inside⟩ := ih (List.cons_ne_nil _ _) later
            exact ⟨part, List.mem_cons_of_mem _ listed, inside⟩

/-- A whole whose parts are mapped, where the separator stands for itself. -/
theorem flatMap_intercalate {change : α → List α} (kept : change separator = [separator])
    (parts : List (List α))
    : ([separator].intercalate parts).flatMap change
      = [separator].intercalate (parts.map (List.flatMap change)) := by
  induction parts with
  | nil => rfl
  | cons head rest ih =>
      cases rest with
      | nil => simp
      | cons next others =>
          rw [List.intercalate_cons_cons, List.flatMap_append, List.flatMap_append, ih,
            List.flatMap_singleton, kept, List.map_cons, List.map_cons, List.map_cons,
            List.intercalate_cons_cons]

end Scanipy.Library.Segments

import Mathlib.Data.List.Basic
import Mathlib.Data.Set.Basic

/-! Codes whose words can be read off the front of a stream without a separator.
A self-delimiting code stays injective when arbitrary further words follow it, which is
what length-prefixed and counted framings are for.
-/

namespace Scanipy.Library

variable {α β σ : Type}

/-- On `domain`, the word of a value is recognised whatever follows it. -/
def SelfDelimiting (domain : Set α) (encode : α → List σ) : Prop :=
  ∀ {left right : α},
    left ∈ domain
    → right ∈ domain
    → ∀ {rest more : List σ},
        encode left ++ rest = encode right ++ more → left = right ∧ rest = more

namespace SelfDelimiting

variable {domain : Set α} {encode : α → List σ}

/-- A self-delimiting code is injective on its domain. -/
theorem injOn (code : SelfDelimiting domain encode) : Set.InjOn encode domain := by
  intro left leftMember right rightMember same
  have padded : encode left ++ [] = encode right ++ [] := by rw [same]
  exact (code leftMember rightMember padded).1

/-- Words of one length delimit themselves. -/
theorem of_length {width : Nat} (injective : Set.InjOn encode domain)
    (length : ∀ value ∈ domain, (encode value).length = width)
    : SelfDelimiting domain encode := by
  intro left right leftMember rightMember rest more same
  have sameLength : (encode left).length = (encode right).length := by
    rw [length left leftMember, length right rightMember]
  obtain ⟨words, tails⟩ := List.append_inj same sameLength
  exact ⟨injective leftMember rightMember words, tails⟩

/-- Reading a value through an injective map keeps the code self-delimiting. -/
theorem comap {source : Set β} {view : β → α} (code : SelfDelimiting domain encode)
    (maps : ∀ value ∈ source, view value ∈ domain) (injective : Set.InjOn view source)
    : SelfDelimiting source (fun value => encode (view value)) := by
  intro left right leftMember rightMember rest more same
  obtain ⟨views, tails⟩ := code (maps left leftMember) (maps right rightMember) same
  exact ⟨injective leftMember rightMember views, tails⟩

/-- Two self-delimiting words in a row delimit the pair. -/
theorem pair {second : Set β} {encodeSecond : β → List σ}
    (code : SelfDelimiting domain encode) (secondCode : SelfDelimiting second encodeSecond)
    : SelfDelimiting (domain ×ˢ second)
        (fun value => encode value.1 ++ encodeSecond value.2) := by
  rintro ⟨a, b⟩ ⟨c, d⟩ ⟨aMember, bMember⟩ ⟨cMember, dMember⟩ rest more same
  simp only [List.append_assoc] at same
  obtain ⟨rfl, tails⟩ := code aMember cMember same
  obtain ⟨rfl, final⟩ := secondCode bMember dMember tails
  exact ⟨rfl, final⟩

/-- Equally long runs of self-delimiting words are equal word by word.
Witness: induction on the run, peeling one word from both streams.
-/
theorem flatMap_eq (code : SelfDelimiting domain encode) {left right : List α}
    (sameLength : left.length = right.length) (leftDomain : ∀ value ∈ left, value ∈ domain)
    (rightDomain : ∀ value ∈ right, value ∈ domain) {rest more : List σ}
    (same : left.flatMap encode ++ rest = right.flatMap encode ++ more)
    : left = right ∧ rest = more := by
  induction left generalizing right with
  | nil =>
      obtain rfl := List.length_eq_zero_iff.mp sameLength.symm
      exact ⟨rfl, by simpa using same⟩
  | cons head tail ih =>
      cases right with
      | nil => simp at sameLength
      | cons other others =>
          simp only [List.flatMap_cons, List.append_assoc] at same
          obtain ⟨rfl, tails⟩ := code (leftDomain head List.mem_cons_self)
            (rightDomain other List.mem_cons_self) same
          obtain ⟨rfl, final⟩ := ih (Nat.succ.inj sameLength)
            (fun value member => leftDomain value (List.mem_cons_of_mem _ member))
            (fun value member => rightDomain value (List.mem_cons_of_mem _ member)) tails
          exact ⟨rfl, final⟩

/-- Runs of nonempty self-delimiting words are injective without a count.
Witness: an exhausted run has no first symbol left for another word.
-/
theorem flatMap_inj (code : SelfDelimiting domain encode)
    (nonempty : ∀ value ∈ domain, encode value ≠ []) {left right : List α}
    (leftDomain : ∀ value ∈ left, value ∈ domain)
    (rightDomain : ∀ value ∈ right, value ∈ domain)
    (same : left.flatMap encode = right.flatMap encode)
    : left = right := by
  induction left generalizing right with
  | nil =>
      cases right with
      | nil => rfl
      | cons other others =>
          have empty := List.append_eq_nil_iff.mp same.symm
          exact (nonempty other (rightDomain other List.mem_cons_self) empty.1).elim
  | cons head tail ih =>
      cases right with
      | nil =>
          have empty := List.append_eq_nil_iff.mp same
          exact (nonempty head (leftDomain head List.mem_cons_self) empty.1).elim
      | cons other others =>
          obtain ⟨rfl, tails⟩ := code (leftDomain head List.mem_cons_self)
            (rightDomain other List.mem_cons_self) same
          rw [ih (fun value member => leftDomain value (List.mem_cons_of_mem _ member))
            (fun value member => rightDomain value (List.mem_cons_of_mem _ member)) tails]

/-- A length prefix delimits arbitrary raw content. -/
theorem framed {lengths : Set Nat} {encodeLength : Nat → List σ}
    (lengthCode : SelfDelimiting lengths encodeLength)
    : SelfDelimiting {content : List σ | content.length ∈ lengths}
        (fun content => encodeLength content.length ++ content) := by
  intro left right leftLength rightLength rest more same
  simp only [List.append_assoc] at same
  obtain ⟨sameLength, contents⟩ := lengthCode leftLength rightLength same
  exact List.append_inj contents sameLength

/-- Runs that end at the first occurrence of one value delimit themselves.
Witness: induction on what stands before that value; both streams read the same words.
-/
theorem terminated (code : SelfDelimiting domain encode) (last : α)
    : SelfDelimiting
        {run : List α |
          (∃ front, run = front ++ [last] ∧ last ∉ front) ∧ ∀ value ∈ run, value ∈ domain}
        (fun run => run.flatMap encode) := by
  rintro left right ⟨⟨front, rfl, before⟩, leftDomain⟩ ⟨⟨other, rfl, first⟩, rightDomain⟩ rest more
    same
  induction front generalizing other with
  | nil =>
      cases other with
      | nil =>
          refine ⟨rfl, ?_⟩
          simpa using same
      | cons value others =>
          simp only [List.nil_append, List.cons_append, List.flatMap_cons, List.flatMap_nil,
            List.append_assoc] at same
          obtain ⟨rfl, _⟩ := code (leftDomain last List.mem_cons_self)
            (rightDomain value List.mem_cons_self) same
          exact absurd List.mem_cons_self first
  | cons head tail ih =>
      cases other with
      | nil =>
          simp only [List.nil_append, List.cons_append, List.flatMap_cons, List.flatMap_nil,
            List.append_assoc] at same
          obtain ⟨rfl, _⟩ := code (leftDomain head List.mem_cons_self)
            (rightDomain last List.mem_cons_self) same
          exact absurd List.mem_cons_self before
      | cons value others =>
          simp only [List.cons_append, List.flatMap_cons, List.append_assoc] at same
          obtain ⟨rfl, tails⟩ := code (leftDomain head List.mem_cons_self)
            (rightDomain value List.mem_cons_self) same
          obtain ⟨runs, final⟩ := ih (fun listed => before (List.mem_cons_of_mem _ listed))
            (fun value member => leftDomain value (List.mem_cons_of_mem _ member)) others
            (fun listed => first (List.mem_cons_of_mem _ listed))
            (fun value member => rightDomain value (List.mem_cons_of_mem _ member)) tails
          exact ⟨congrArg (head :: ·) runs, final⟩

end SelfDelimiting

end Scanipy.Library

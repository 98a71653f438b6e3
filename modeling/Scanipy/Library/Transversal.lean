import Mathlib.Data.List.Nodup
import Mathlib.Data.List.Perm.Basic

/-! Representatives of an equivalence relation, kept greedily from a list.
Two systems of representatives of matching classes correspond one to one, whichever members
were kept; that is all a choice of representatives by an arbitrary order may change.
-/

namespace Scanipy.Library

variable {α β : Type}

/-- Keep each item that is related to no item kept before it. -/
def greedy (related : α → α → Bool) : List α → List α → List α
  | [], kept => kept
  | item :: rest, kept =>
      greedy related rest (if kept.any (related item) then kept else kept ++ [item])

variable {related : α → α → Bool}

theorem mem_greedy {items kept : List α} {item : α} (member : item ∈ greedy related items kept)
    : item ∈ kept ∨ item ∈ items := by
  induction items generalizing kept with
  | nil => exact .inl member
  | cons head rest ih =>
      rcases ih member with keptMember | later
      · split at keptMember
        · exact .inl keptMember
        · rcases List.mem_append.mp keptMember with old | new
          · exact .inl old
          · exact .inr (List.mem_singleton.mp new ▸ List.mem_cons_self)
      · exact .inr (List.mem_cons_of_mem _ later)

theorem subset_greedy (items kept : List α) : kept ⊆ greedy related items kept := by
  induction items generalizing kept with
  | nil => exact List.Subset.refl _
  | cons head rest ih =>
      intro item member
      refine ih _ ?_
      split
      · exact member
      · exact List.mem_append_left _ member

/-- Every item is related to a kept one. -/
theorem greedy_covers {items : List α} (reflexive : ∀ item ∈ items, related item item = true)
    (kept : List α) {item : α} (member : item ∈ items)
    : ∃ chosen ∈ greedy related items kept, related item chosen = true := by
  induction items generalizing kept with
  | nil => simp at member
  | cons head rest ih =>
      rcases List.mem_cons.mp member with rfl | later
      · by_cases covered : kept.any (related item)
        · obtain ⟨chosen, chosenMember, same⟩ := List.any_eq_true.mp covered
          rw [greedy, if_pos covered]
          exact ⟨chosen, subset_greedy _ _ chosenMember, same⟩
        · rw [greedy, if_neg covered]
          exact ⟨item, subset_greedy _ _ (List.mem_append_right _ List.mem_cons_self),
            reflexive item List.mem_cons_self⟩
      · exact ih (fun other otherMember => reflexive other (List.mem_cons_of_mem _ otherMember)) _
          later

/-- Relations that agree on the items keep the same ones, by list induction. -/
theorem greedy_congr {other : α → α → Bool} {items kept : List α}
    (same : ∀ first ∈ kept ++ items, ∀ second ∈ kept ++ items,
      related first second = other first second)
    : greedy related items kept = greedy other items kept := by
  induction items generalizing kept with
  | nil => rfl
  | cons head rest ih =>
      have covered : kept.any (related head) = kept.any (other head) := by
        rw [Bool.eq_iff_iff, List.any_eq_true, List.any_eq_true]
        refine exists_congr fun item => and_congr_right fun member => ?_
        rw [same head (by simp) item (List.mem_append_left _ member)]
      rw [greedy, greedy, covered]
      refine ih fun first firstMember second secondMember => ?_
      have listed {item : α}
          (member : item ∈ (if kept.any (other head) then kept else kept ++ [head]) ++ rest)
          : item ∈ kept ++ head :: rest := by
        split at member <;> simp at member ⊢ <;> tauto
      exact same first (listed firstMember) second (listed secondMember)

/-- No two kept items are related, given symmetry.
Witness: list induction; an item is only appended when it is related to nothing kept.
-/
theorem greedy_pairwise {items kept : List α}
    (symmetric : ∀ first second, related first second = true → related second first = true)
    (apart : kept.Pairwise fun first second => related first second = false)
    : (greedy related items kept).Pairwise fun first second => related first second = false := by
  induction items generalizing kept with
  | nil => exact apart
  | cons head rest ih =>
      refine ih ?_
      split
      · exact apart
      next fresh =>
        refine List.pairwise_append.mpr ⟨apart, List.pairwise_singleton _ _, ?_⟩
        intro first firstMember second secondMember
        rw [List.mem_singleton.mp secondMember]
        by_contra found
        refine fresh (List.any_eq_true.mpr ⟨first, firstMember, symmetric _ _ ?_⟩)
        simpa using found

/-- Lists without repetition whose members correspond one to one can be aligned by
permuting the second.
Witness: map the first list along a choice of partners.
-/
theorem exists_perm_forall₂ {partner : α → β → Prop} {left : List α} {right : List β}
    (leftDistinct : left.Nodup) (rightDistinct : right.Nodup)
    (forward : ∀ item ∈ left, ∃ image ∈ right, partner item image)
    (backward : ∀ image ∈ right, ∃ item ∈ left, partner item image)
    (unique : ∀ item ∈ left, ∀ first ∈ right, ∀ second ∈ right,
      partner item first → partner item second → first = second)
    (injective : ∀ image ∈ right, ∀ first ∈ left, ∀ second ∈ left,
      partner first image → partner second image → first = second)
    : ∃ listed, listed.Perm right ∧ List.Forall₂ partner left listed := by
  by_cases inhabited : Nonempty β
  case neg =>
    have noImage (image : β) : False := inhabited ⟨image⟩
    have leftEmpty : left = [] := List.eq_nil_iff_forall_not_mem.mpr fun item itemMember =>
      noImage (forward item itemMember).choose
    have rightEmpty : right = [] := List.eq_nil_iff_forall_not_mem.mpr fun image _ => noImage image
    exact ⟨[], by rw [rightEmpty], by rw [leftEmpty]; exact .nil⟩
  choose! image member pairs using forward
  refine ⟨left.map image, ?_, ?_⟩
  · have imagesDistinct : (left.map image).Nodup := by
      refine List.Nodup.map_on ?_ leftDistinct
      intro first firstMember second secondMember same
      exact injective _ (member first firstMember) first firstMember second secondMember
        (pairs first firstMember) (same ▸ pairs second secondMember)
    rw [List.perm_ext_iff_of_nodup imagesDistinct rightDistinct]
    intro target
    constructor
    · intro listed
      obtain ⟨item, itemMember, rfl⟩ := List.mem_map.mp listed
      exact member item itemMember
    · intro targetMember
      obtain ⟨item, itemMember, pair⟩ := backward target targetMember
      have same := unique item itemMember _ (member item itemMember) _ targetMember
        (pairs item itemMember) pair
      exact List.mem_map.mpr ⟨item, itemMember, same⟩
  · rw [List.forall₂_map_right_iff, List.forall₂_same]
    exact pairs

end Scanipy.Library

import Mathlib.Order.MinMax
import Mathlib.Data.List.Dedup
import Mathlib.Data.List.Perm.Basic
import Mathlib.Data.List.NodupEquivFin

/-! Sorting as a function of a multiset, and dense ranks as a function of a set.
Both forget the order in which their input was listed; that is all an order-independent
numbering needs to know about them.
-/

namespace Scanipy.Library

variable {α β γ : Type} [LinearOrder α]

/-- Python's `sorted` without a key. -/
def sorted (values : List α) : List α :=
  values.insertionSort (· ≤ ·)

/-- Python's `sorted` with a key; equal keys keep their order. -/
def sortedBy (key : γ → α) (items : List γ) : List γ :=
  items.insertionSort fun left right => key left ≤ key right

theorem sorted_perm (values : List α) : (sorted values).Perm values :=
  List.perm_insertionSort _ values

theorem sorted_pairwise (values : List α) : (sorted values).Pairwise (· ≤ ·) :=
  List.pairwise_insertionSort _ values

@[simp]
theorem mem_sorted {values : List α} {value : α} : value ∈ sorted values ↔ value ∈ values :=
  (sorted_perm values).mem_iff

@[simp]
theorem length_sorted (values : List α) : (sorted values).length = values.length :=
  (sorted_perm values).length_eq

/-- Sorting identifies exactly the permutations of a list. -/
theorem sorted_eq_sorted {left right : List α}
    : sorted left = sorted right ↔ left.Perm right := by
  constructor
  · intro same
    exact (sorted_perm left).symm.trans (same ▸ sorted_perm right)
  · intro perm
    exact (((sorted_perm left).trans perm).trans (sorted_perm right).symm).eq_of_pairwise'
      (sorted_pairwise left) (sorted_pairwise right)

theorem sortedBy_perm (key : γ → α) (items : List γ) : (sortedBy key items).Perm items :=
  List.perm_insertionSort _ items

@[simp]
theorem mem_sortedBy {key : γ → α} {items : List γ} {item : γ}
    : item ∈ sortedBy key items ↔ item ∈ items :=
  (sortedBy_perm key items).mem_iff

theorem sortedBy_pairwise (key : γ → α) (items : List γ)
    : (sortedBy key items).Pairwise fun left right => key left ≤ key right := by
  have total : Std.Total (fun left right : γ => key left ≤ key right) :=
    ⟨fun left right => le_total (key left) (key right)⟩
  have trans : IsTrans γ (fun left right => key left ≤ key right) :=
    ⟨fun _ _ _ => le_trans⟩
  exact List.pairwise_insertionSort _ items

/-- With distinct keys, sorting by key forgets the listing order. -/
theorem sortedBy_eq_of_perm {key : γ → α} {left right : List γ} (perm : left.Perm right)
    (distinct : Set.InjOn key {item | item ∈ left})
    : sortedBy key left = sortedBy key right := by
  have joined := ((sortedBy_perm key left).trans perm).trans (sortedBy_perm key right).symm
  refine joined.eq_of_pairwise ?_ (sortedBy_pairwise key left) (sortedBy_pairwise key right)
  intro first second firstMember secondMember below above
  refine distinct (mem_sortedBy.mp firstMember) ?_ (le_antisymm below above)
  exact perm.mem_iff.mpr (mem_sortedBy.mp secondMember)

/-- Items in order stay as they are. -/
theorem sortedBy_eq_self {key : γ → α} {items : List γ}
    (ordered : (items.map key).Pairwise (· < ·))
    : sortedBy key items = items := by
  apply List.Pairwise.insertionSort_eq
  exact (List.pairwise_map.mp ordered).imp le_of_lt

/-- Sorting again changes nothing. -/
theorem sortedBy_sortedBy (key : γ → α) (items : List γ)
    : sortedBy key (sortedBy key items) = sortedBy key items :=
  (sortedBy_pairwise key items).insertionSort_eq

/-- Sorting commutes with a map that keeps the keys. -/
theorem sortedBy_map (key : γ → α) (view : β → γ) (items : List β)
    : sortedBy key (items.map view) = (sortedBy (fun item => key (view item)) items).map view := by
  unfold sortedBy
  exact (List.map_insertionSort _ _ view items (fun _ _ _ _ => Iff.rfl)).symm

/-- Only the keys of the listed items matter. -/
theorem sortedBy_congr {key other : γ → α} {items : List γ}
    (same : ∀ item ∈ items, key item = other item)
    : sortedBy key items = sortedBy other items := by
  have mapped := List.map_insertionSort (fun left right => key left ≤ key right)
    (fun left right => other left ≤ other right) id items
    (fun left leftMember right rightMember => by
      rw [same left leftMember, same right rightMember, id, id])
  simpa [sortedBy] using mapped

/-- Popping takes an item with the least key and leaves the others. -/
theorem of_sortedBy_cons {key : γ → α} {items rest : List γ} {head : γ}
    (distinct : items.Nodup) (popped : sortedBy key items = head :: rest)
    : head ∈ items
      ∧ (∀ item ∈ items, key head ≤ key item)
      ∧ rest.Nodup
      ∧ ∀ item, item ∈ rest ↔ item ∈ items ∧ item ≠ head := by
  have perm := sortedBy_perm key items
  have ascending := sortedBy_pairwise key items
  rw [popped] at perm ascending
  have listed := perm.nodup_iff.mpr distinct
  obtain ⟨notLater, restDistinct⟩ := List.nodup_cons.mp listed
  obtain ⟨least, _⟩ := List.pairwise_cons.mp ascending
  have members (item : γ) : item ∈ items ↔ item = head ∨ item ∈ rest := by
    rw [← perm.mem_iff, List.mem_cons]
  refine ⟨(members head).mpr (.inl rfl), fun item member => ?_, restDistinct, fun item => ?_⟩
  · rcases (members item).mp member with rfl | later
    · exact le_rfl
    · exact least item later
  · rw [members]
    constructor
    · intro later
      exact ⟨.inr later, fun same => notLater (same ▸ later)⟩
    · rintro ⟨rfl | later, apart⟩
      · exact absurd rfl apart
      · exact later

/-- The least member depends only on which members there are. -/
theorem min?_eq_of_mem_iff {left right : List α}
    (members : ∀ value, value ∈ left ↔ value ∈ right)
    : left.min? = right.min? := by
  have lawful : Std.LawfulOrderMin α :=
    { min_eq_or := min_choice, le_min_iff := fun _ _ _ => le_min_iff }
  cases least : right.min? with
  | none =>
      have empty := List.min?_eq_none_iff.mp least
      rw [List.min?_eq_none_iff, List.eq_nil_iff_forall_not_mem]
      intro value member
      rw [members, empty] at member
      exact List.not_mem_nil member
  | some value =>
      rw [List.min?_eq_some_iff] at least ⊢
      exact ⟨(members value).mpr least.1,
        fun other member => least.2 other ((members other).mp member)⟩

/-- The running minimum of a loop that starts without a value. -/
def keepLeast (best : Option α) (candidate : α) : Option α :=
  match best with
  | none => some candidate
  | some found => if candidate < found then some candidate else some found

/-- A running minimum over a list ends with its least member, by list induction. -/
theorem foldl_keepLeast (values : List α) : values.foldl keepLeast none = values.min? := by
  have running (found : α) (rest : List α)
      : rest.foldl keepLeast (some found) = some (rest.foldl min found) := by
    induction rest generalizing found with
    | nil => rfl
    | cons head rest ih =>
        have kept : keepLeast (some found) head = some (min found head) := by
          rcases lt_or_ge head found with below | above
          · rw [keepLeast, if_pos below, min_eq_right below.le]
          · rw [keepLeast, if_neg (not_lt.mpr above), min_eq_left above]
        rw [List.foldl_cons, List.foldl_cons, kept, ih]
  cases values with
  | nil => rfl
  | cons head rest => exact running head rest

theorem min?_isLeast {values : List α} {least : α} (found : values.min? = some least)
    : least ∈ values ∧ ∀ value ∈ values, least ≤ value := by
  have lawful : Std.LawfulOrderMin α :=
    { min_eq_or := min_choice, le_min_iff := fun _ _ _ => le_min_iff }
  exact List.min?_eq_some_iff.mp found

/-- The position of `value` among the distinct members of `values` in ascending order. -/
def denseRank (values : List α) (value : α) : Nat :=
  (sorted values.dedup).idxOf value

theorem dedup_perm_of_mem_iff {left right : List α}
    (members : ∀ value, value ∈ left ↔ value ∈ right)
    : left.dedup.Perm right.dedup := by
  rw [List.perm_ext_iff_of_nodup (List.nodup_dedup left) (List.nodup_dedup right)]
  intro value
  rw [List.mem_dedup, List.mem_dedup, members]

/-- Ranks depend only on which values occur. -/
theorem denseRank_congr {left right : List α} (members : ∀ value, value ∈ left ↔ value ∈ right)
    : denseRank left = denseRank right := by
  funext value
  unfold denseRank
  rw [sorted_eq_sorted.mpr (dedup_perm_of_mem_iff members)]

/-- Equal ranks of occurring values are equal values. -/
theorem denseRank_inj {values : List α} {left right : α} (member : left ∈ values)
    : denseRank values left = denseRank values right ↔ left = right := by
  refine ⟨fun same => ?_, fun same => same ▸ rfl⟩
  exact (List.idxOf_inj (by simpa using member)).mp same

theorem denseRank_lt {values : List α} {value : α} (member : value ∈ values)
    : denseRank values value < values.length := by
  have bound := List.idxOf_lt_length_of_mem
    (show value ∈ sorted values.dedup by simpa using member)
  rw [length_sorted] at bound
  exact lt_of_lt_of_le bound (List.dedup_sublist values).length_le

/-- A finer labelling has at least as many distinct labels.
Witness: the coarse labels are the image of the fine ones.
-/
theorem length_dedup_map_le [DecidableEq β] {items : List γ} {coarse : γ → α} {fine : γ → β}
    (factors : ∀ first ∈ items, ∀ second ∈ items,
      fine first = fine second → coarse first = coarse second)
    : (items.map coarse).dedup.length ≤ (items.map fine).dedup.length := by
  induction items with
  | nil => simp
  | cons head rest ih =>
      have smaller := ih fun first firstMember second secondMember =>
        factors first (List.mem_cons_of_mem _ firstMember) second
          (List.mem_cons_of_mem _ secondMember)
      by_cases seen : fine head ∈ rest.map fine
      · obtain ⟨twin, member, same⟩ := List.mem_map.mp seen
        have coarseSeen : coarse head ∈ rest.map coarse :=
          List.mem_map.mpr ⟨twin, member, factors twin (List.mem_cons_of_mem _ member) head
            List.mem_cons_self same⟩
        rw [List.map_cons, List.map_cons, List.dedup_cons_of_mem coarseSeen,
          List.dedup_cons_of_mem seen]
        exact smaller
      · have bound : ((coarse head :: rest.map coarse).dedup).length
            ≤ (rest.map coarse).dedup.length + 1 := by
          by_cases coarseSeen : coarse head ∈ rest.map coarse
          · rw [List.dedup_cons_of_mem coarseSeen]
            omega
          · rw [List.dedup_cons_of_notMem coarseSeen, List.length_cons]
        rw [List.map_cons, List.map_cons, List.dedup_cons_of_notMem seen, List.length_cons]
        omega

end Scanipy.Library

import Mathlib.Data.List.Infix
import Mathlib.Data.List.Nodup

/-! Expanding a rooted graph with labelled entries into the list of its paths. The entries of a
node have distinct labels, an entry may lead into another node, and nodes may be shared. The
paths of the expansion are distinct, a path that leads nowhere is no prefix of another, and the
expansion lists exactly the entries that following labels reaches.
-/

namespace Scanipy.Library

/-- A graph by the entries of each node, with the label of an entry and the node it leads into. -/
structure Listing (ν α ε : Type) where
  entries : ν → List ε
  label : ε → α
  inner : ε → Option ν

namespace Listing

variable {ν α ε : Type} (graph : Listing ν α ε)

/-- The labels of every node are distinct. -/
def Distinct : Prop :=
  ∀ node, ((graph.entries node).map graph.label).Nodup

/-- An entry that is reached from a node along a path of labels. -/
inductive Follows : ν → List α → ε → Prop where
  | here {node : ν} {entry : ε} (listed : entry ∈ graph.entries node)
      : Follows node [graph.label entry] entry
  | inside {node child : ν} {entry last : ε} {path : List α}
      (listed : entry ∈ graph.entries node) (into : graph.inner entry = some child)
      (more : Follows child path last)
      : Follows node (graph.label entry :: path) last

/-- All entries below a node with their paths, each before those that it leads to, down to a
depth.
-/
def expand : Nat → ν → List α → List (List α × ε)
  | 0, _, _ => []
  | depth + 1, node, parent =>
      (graph.entries node).flatMap fun entry =>
        let path := parent ++ [graph.label entry]
        (path, entry)
          :: match graph.inner entry with
            | some child => expand depth child path
            | none => []

/-- The expansion of a node ends before the depth does. -/
def Closed : Nat → ν → Prop
  | 0, _ => False
  | depth + 1, node =>
      ∀ entry ∈ graph.entries node, ∀ child ∈ graph.inner entry, Closed depth child

variable {graph} {depth : Nat} {node : ν}

theorem mem_expand_succ {parent path : List α} {found : ε}
    : (path, found) ∈ graph.expand (depth + 1) node parent
      ↔ ∃ entry ∈ graph.entries node,
          (path = parent ++ [graph.label entry] ∧ found = entry)
          ∨ ∃ child ∈ graph.inner entry,
              (path, found) ∈ graph.expand depth child (parent ++ [graph.label entry]) := by
  simp only [expand, List.mem_flatMap, List.mem_cons, Prod.mk.injEq]
  refine exists_congr fun entry => and_congr_right fun _ => or_congr_right ?_
  cases graph.inner entry with
  | none => simp
  | some child => simp

/-- What is expanded is reached, by induction on the depth. -/
theorem follows_of_mem_expand {parent path : List α} {found : ε}
    (member : (path, found) ∈ graph.expand depth node parent)
    : ∃ below, path = parent ++ below ∧ graph.Follows node below found := by
  induction depth generalizing node parent with
  | zero => cases member
  | succ depth ih =>
      obtain ⟨entry, listed, ⟨rfl, rfl⟩ | ⟨child, into, within⟩⟩ := mem_expand_succ.mp member
      · exact ⟨_, rfl, .here listed⟩
      · obtain ⟨below, rfl, more⟩ := ih within
        exact ⟨graph.label entry :: below, by simp, .inside listed into more⟩

/-- What is reached is expanded where the expansion ends, by induction on the path. -/
theorem mem_expand_of_follows {below : List α} {found : ε} (closed : graph.Closed depth node)
    (reached : graph.Follows node below found) (parent : List α)
    : (parent ++ below, found) ∈ graph.expand depth node parent := by
  induction reached generalizing depth parent with
  | here listed =>
      cases depth with
      | zero => exact closed.elim
      | succ depth => exact mem_expand_succ.mpr ⟨_, listed, .inl ⟨rfl, rfl⟩⟩
  | @inside node child entry last path listed into _ ih =>
      cases depth with
      | zero => exact closed.elim
      | succ depth =>
          have within := ih (closed _ listed _ into) (parent ++ [graph.label entry])
          rw [List.append_assoc] at within
          exact mem_expand_succ.mpr ⟨_, listed, .inr ⟨_, into, within⟩⟩

theorem mem_expand_iff {depth : Nat} {node : ν} {path : List α} {found : ε}
    (closed : graph.Closed depth node)
    : (path, found) ∈ graph.expand depth node [] ↔ graph.Follows node path found := by
  constructor
  · intro member
    obtain ⟨below, rfl, reached⟩ := follows_of_mem_expand member
    exact reached
  · exact fun reached => mem_expand_of_follows closed reached []

theorem Follows.ne_nil {path : List α} {found : ε} (reached : graph.Follows node path found)
    : path ≠ [] := by
  cases reached <;> exact List.cons_ne_nil _ _

/-- Entries of a node with one label are one entry. -/
theorem Distinct.entry_eq (distinct : graph.Distinct) {left right : ε}
    (leftListed : left ∈ graph.entries node) (rightListed : right ∈ graph.entries node)
    (same : graph.label left = graph.label right)
    : left = right :=
  List.inj_on_of_nodup_map (distinct node) leftListed rightListed same

/-- An entry that leads nowhere has no path beyond its own, by induction on its path. -/
theorem Distinct.eq_of_prefix (distinct : graph.Distinct) {path other : List α} {leaf found : ε}
    (reached : graph.Follows node path leaf) (last : graph.inner leaf = none)
    (otherReached : graph.Follows node other found) (below : path <+: other)
    : path = other ∧ leaf = found := by
  induction reached generalizing other with
  | here listed =>
      cases otherReached with
      | here otherListed =>
          obtain ⟨same, _⟩ := List.cons_prefix_cons.mp below
          obtain rfl := distinct.entry_eq listed otherListed same
          exact ⟨rfl, rfl⟩
      | inside otherListed into _ =>
          obtain ⟨same, _⟩ := List.cons_prefix_cons.mp below
          obtain rfl := distinct.entry_eq listed otherListed same
          rw [last] at into
          cases into
  | inside listed into more ih =>
      cases otherReached with
      | here otherListed =>
          obtain ⟨_, short⟩ := List.cons_prefix_cons.mp below
          exact absurd (List.prefix_nil.mp short) more.ne_nil
      | inside otherListed otherInto otherMore =>
          obtain ⟨same, rest⟩ := List.cons_prefix_cons.mp below
          obtain rfl := distinct.entry_eq listed otherListed same
          cases into.symm.trans otherInto
          obtain ⟨rfl, rfl⟩ := ih last otherMore rest
          exact ⟨rfl, rfl⟩

/-- The entries below an entry. -/
def expandInner (graph : Listing ν α ε) (depth : Nat) (entry : ε) (path : List α)
    : List (List α × ε) :=
  match graph.inner entry with
  | some child => graph.expand depth child path
  | none => []

/-- Below an entry the paths are longer than its own. -/
theorem expandInner_longer {entry found : ε} {parent path : List α}
    (member : (path, found) ∈ graph.expandInner depth entry parent)
    : ∃ below, path = parent ++ below ∧ below ≠ [] := by
  unfold expandInner at member
  split at member
  · obtain ⟨below, same, reached⟩ := follows_of_mem_expand member
    exact ⟨below, same, reached.ne_nil⟩
  · cases member

/-- The paths of an expansion are distinct.
Witness: induction on the depth; the blocks of two entries differ in the label after the parent.
-/
theorem Distinct.nodup_expand (distinct : graph.Distinct) (depth : Nat) (node : ν)
    (parent : List α)
    : ((graph.expand depth node parent).map Prod.fst).Nodup := by
  induction depth generalizing node parent with
  | zero => exact List.nodup_nil
  | succ depth ih =>
      have starts {entry : ε} {path : List α}
          (member : path ∈ (parent ++ [graph.label entry])
            :: (graph.expandInner depth entry (parent ++ [graph.label entry])).map Prod.fst)
          : parent ++ [graph.label entry] <+: path := by
        rcases List.mem_cons.mp member with rfl | later
        · exact List.prefix_rfl
        · obtain ⟨found, within, rfl⟩ := List.mem_map.mp later
          obtain ⟨below, same, _⟩ := expandInner_longer within
          exact ⟨below, same.symm⟩
      rw [expand, List.map_flatMap, List.nodup_flatMap]
      refine ⟨?_, ?_⟩
      · intro entry _
        refine List.nodup_cons.mpr ⟨?_, ?_⟩
        · intro member
          obtain ⟨found, within, same⟩ := List.mem_map.mp member
          obtain ⟨below, path, nonempty⟩ := expandInner_longer within
          rw [same] at path
          exact nonempty (List.self_eq_append_right.mp path)
        · split
          · exact ih _ _
          · exact List.nodup_nil
      · refine (List.pairwise_map.mp (distinct node)).imp fun {left right} apart => ?_
        intro path leftMember rightMember
        have leftStart := starts leftMember
        have rightStart := starts rightMember
        have same := List.prefix_of_prefix_length_le leftStart rightStart (by simp)
        have equal := same.eq_of_length (by simp)
        exact apart (List.cons.inj (List.append_cancel_left equal)).1

end Listing

end Scanipy.Library

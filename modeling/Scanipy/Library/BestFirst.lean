import Mathlib.Data.List.Chain
import Scanipy.Library.Ranking

/-! Worklist search that always expands the pending item with the least key and keeps the
first discoverer of every item.
-/

namespace Scanipy.Library

variable {α κ : Type}

/-- Items found so far, each with the item that found it first, and the items among them that
are still to be expanded.
-/
structure Frontier (α : Type) where
  found : List (α × Option α) := []
  pending : List α := []

namespace Frontier

/-- The items found so far. -/
def known (frontier : Frontier α) : List α :=
  frontier.found.map Prod.fst

theorem mem_known {frontier : Frontier α} {item : α}
    : item ∈ frontier.known ↔ ∃ parent, (item, parent) ∈ frontier.found := by
  simp [known]

variable [DecidableEq α]

/-- Record an item with its discoverer, unless it was found before. -/
def discover (parent : Option α) (frontier : Frontier α) (item : α) : Frontier α :=
  if item ∈ frontier.known then
    frontier
  else
    {
      found := frontier.found ++ [(item, parent)]
      pending := frontier.pending ++ [item]
    }

/-- Record items in turn. -/
def discoverAll (parent : Option α) (items : List α) (frontier : Frontier α) : Frontier α :=
  items.foldl (discover parent) frontier

/-- Expand pending items, least key first, until none is left. -/
def search [LinearOrder κ] (key : α → κ) (next : α → List α)
    : Nat → Frontier α → Option (Frontier α)
  | fuel, frontier =>
      match fuel, sortedBy key frontier.pending with
      | _, [] => some frontier
      | 0, _ :: _ => none
      | fuel + 1, item :: rest =>
          search key next fuel
            (discoverAll (some item) (next item) { frontier with pending := rest })

end Frontier

/-- The chain of discoverers of an item, from a root to the item. -/
inductive Traced (found : List (α × Option α)) : α → List α → Prop where
  | root {item : α} (listed : (item, none) ∈ found) : Traced found item [item]
  | step {item parent : α} {path : List α} (listed : (item, some parent) ∈ found)
      (before : Traced found parent path)
      : Traced found item (path ++ [item])

namespace Traced

variable {found more : List (α × Option α)} {item : α} {path other : List α}

theorem mono (traced : Traced found item path) (subset : found ⊆ more) : Traced more item path := by
  induction traced with
  | root listed => exact .root (subset listed)
  | step listed _ ih => exact .step (subset listed) ih

theorem mem_found (traced : Traced found item path) : item ∈ found.map Prod.fst := by
  cases traced with
  | root listed => exact List.mem_map_of_mem listed
  | step listed _ => exact List.mem_map_of_mem listed

/-- With one discoverer for each item there is one chain. -/
theorem unique (distinct : (found.map Prod.fst).Nodup) (traced : Traced found item path)
    (again : Traced found item other)
    : path = other := by
  have parents {item : α} {first second : Option α} (left : (item, first) ∈ found)
      (right : (item, second) ∈ found)
      : first = second := by
    have same := List.inj_on_of_nodup_map distinct left right rfl
    exact congrArg Prod.snd same
  induction traced generalizing other with
  | root listed =>
      cases again with
      | root _ => rfl
      | step otherListed _ => cases parents listed otherListed
  | step listed before ih =>
      cases again with
      | root otherListed => cases parents listed otherListed
      | step otherListed otherBefore =>
          cases parents listed otherListed
          rw [ih otherBefore]

/-- Every item of a chain ends a chain of its own. -/
theorem of_mem (traced : Traced found item path) {earlier : α} (member : earlier ∈ path)
    : ∃ front, Traced found earlier front ∧ front.length ≤ path.length := by
  induction traced with
  | root listed =>
      rw [List.mem_singleton.mp member]
      exact ⟨_, .root listed, le_rfl⟩
  | step listed before ih =>
      rcases List.mem_append.mp member with inside | last
      · obtain ⟨front, ends, shorter⟩ := ih inside
        rw [List.length_append, List.length_singleton]
        exact ⟨front, ends, by omega⟩
      · rw [List.mem_singleton.mp last]
        exact ⟨_, .step listed before, le_rfl⟩

/-- A chain has no repetition: a repeated item would end chains of two lengths. -/
theorem nodup (distinct : (found.map Prod.fst).Nodup) (traced : Traced found item path)
    : path.Nodup := by
  induction traced with
  | root _ => exact List.nodup_singleton _
  | step listed before ih =>
      rw [List.nodup_append]
      refine ⟨ih, List.nodup_singleton _, fun earlier member other last same => ?_⟩
      subst same
      rw [List.mem_singleton] at last
      subst last
      obtain ⟨front, ends, shorter⟩ := before.of_mem member
      have lengths := congrArg List.length (ends.unique distinct (.step listed before))
      rw [List.length_append, List.length_singleton] at lengths
      omega

/-- A chain ends in its item. -/
theorem getLast? (traced : Traced found item path) : path.getLast? = some item := by
  cases traced with
  | root _ => rfl
  | step _ _ => rw [List.getLast?_append, List.getLast?_singleton, Option.some_or]

/-- A chain starts at a root. -/
theorem exists_head (traced : Traced found item path)
    : ∃ root, path.head? = some root ∧ (root, none) ∈ found := by
  induction traced with
  | root listed => exact ⟨_, rfl, listed⟩
  | step _ _ ih =>
      obtain ⟨root, head, listed⟩ := ih
      exact ⟨root, by rw [List.head?_append, head, Option.some_or], listed⟩

/-- Every item of a chain was discovered by the one before it. -/
theorem isChain (traced : Traced found item path)
    : path.IsChain fun parent child => (child, some parent) ∈ found := by
  induction traced with
  | root _ => exact List.isChain_singleton _
  | step listed before ih =>
      refine ih.append (List.isChain_singleton _) fun parent last child head => ?_
      rw [before.getLast?] at last
      cases last
      cases head
      exact listed

end Traced

/-- All but the last element of a chain are related to a next one, by list induction. -/
theorem exists_next_of_isChain {related : α → α → Prop} {path : List α}
    (chain : path.IsChain related)
    : ∀ element ∈ path.dropLast, ∃ next, related element next := by
  induction path with
  | nil => simp
  | cons first rest ih =>
      cases rest with
      | nil => simp
      | cons second rest =>
          obtain ⟨step, later⟩ := List.isChain_cons_cons.mp chain
          intro element listed
          rw [List.dropLast_cons_cons] at listed
          rcases List.mem_cons.mp listed with rfl | among
          · exact ⟨second, step⟩
          · exact ih later element among

namespace Frontier

variable [DecidableEq α]

-- One expansion

/-- What recording an item adds. -/
theorem mem_discover {parent : Option α} {frontier : Frontier α} {item : α}
    : (∀ entry, entry ∈ (frontier.discover parent item).found
        ↔ entry ∈ frontier.found ∨ (item ∉ frontier.known ∧ entry = (item, parent)))
      ∧ (∀ other, other ∈ (frontier.discover parent item).pending
        ↔ other ∈ frontier.pending ∨ (item ∉ frontier.known ∧ other = item)) := by
  unfold discover
  split
  next present => simp [present]
  next absent => simp [absent]

theorem discover_distinct {parent : Option α} {frontier : Frontier α} {item : α}
    (distinct : frontier.known.Nodup) (pendingDistinct : frontier.pending.Nodup)
    (pendingKnown : frontier.pending ⊆ frontier.known)
    : (frontier.discover parent item).known.Nodup
      ∧ (frontier.discover parent item).pending.Nodup
      ∧ (frontier.discover parent item).pending ⊆ (frontier.discover parent item).known := by
  unfold discover
  split
  next => exact ⟨distinct, pendingDistinct, pendingKnown⟩
  next absent =>
    have fresh : item ∉ frontier.pending := fun waiting => absent (pendingKnown waiting)
    refine ⟨?_, ?_, ?_⟩
    · have grown := List.Nodup.concat absent distinct
      simpa only [known, List.map_append, List.map_cons, List.map_nil, List.concat_eq_append]
        using grown
    · have grown := List.Nodup.concat fresh pendingDistinct
      simpa only [List.concat_eq_append] using grown
    · intro other waiting
      rw [known, List.map_append, List.mem_append]
      rcases List.mem_append.mp waiting with before | last
      · exact .inl (pendingKnown before)
      · exact .inr (by simpa using last)

/-- What recording items adds, by list induction. -/
theorem mem_discoverAll (parent : Option α) (items : List α) (frontier : Frontier α)
    : (∀ entry, entry ∈ (frontier.discoverAll parent items).found
        ↔ entry ∈ frontier.found
          ∨ (entry.1 ∉ frontier.known ∧ entry.1 ∈ items ∧ entry.2 = parent))
      ∧ (∀ other, other ∈ (frontier.discoverAll parent items).pending
        ↔ other ∈ frontier.pending ∨ (other ∉ frontier.known ∧ other ∈ items)) := by
  induction items generalizing frontier with
  | nil => simp [discoverAll]
  | cons item rest ih =>
      obtain ⟨found, pending⟩ := ih (frontier.discover parent item)
      have knownAfter (other : α)
          : other ∈ (frontier.discover parent item).known ↔ other ∈ frontier.known ∨ other = item := by
        simp only [mem_known, mem_discover.1, Prod.mk.injEq]
        constructor
        · rintro ⟨origin, before | ⟨_, rfl, _⟩⟩
          · exact .inl ⟨origin, before⟩
          · exact .inr rfl
        · rintro (⟨origin, before⟩ | rfl)
          · exact ⟨origin, .inl before⟩
          · by_cases present : ∃ origin, (other, origin) ∈ frontier.found
            · obtain ⟨origin, before⟩ := present
              exact ⟨origin, .inl before⟩
            · exact ⟨parent, .inr ⟨present, rfl, rfl⟩⟩
      constructor
      · rintro ⟨other, origin⟩
        refine (found (other, origin)).trans ?_
        rw [mem_discover.1, knownAfter, List.mem_cons, Prod.mk.injEq]
        constructor
        · rintro ((before | ⟨absent, rfl, rfl⟩) | ⟨absent, later, same⟩)
          · exact .inl before
          · exact .inr ⟨absent, .inl rfl, rfl⟩
          · exact .inr ⟨fun present => absent (.inl present), .inr later, same⟩
        · rintro (before | ⟨absent, rfl | later, rfl⟩)
          · exact .inl (.inl before)
          · exact .inl (.inr ⟨absent, rfl, rfl⟩)
          · by_cases same : other = item
            · exact .inl (.inr ⟨same ▸ absent, same, rfl⟩)
            · exact .inr ⟨not_or.mpr ⟨absent, same⟩, later, rfl⟩
      · intro other
        refine (pending other).trans ?_
        rw [mem_discover.2, knownAfter, List.mem_cons]
        constructor
        · rintro ((before | ⟨absent, rfl⟩) | ⟨absent, later⟩)
          · exact .inl before
          · exact .inr ⟨absent, .inl rfl⟩
          · exact .inr ⟨fun present => absent (.inl present), .inr later⟩
        · rintro (before | ⟨absent, rfl | later⟩)
          · exact .inl (.inl before)
          · exact .inl (.inr ⟨absent, rfl⟩)
          · by_cases same : other = item
            · exact .inl (.inr ⟨same ▸ absent, same⟩)
            · exact .inr ⟨not_or.mpr ⟨absent, same⟩, later⟩

theorem discoverAll_distinct (parent : Option α) (items : List α) (frontier : Frontier α)
    (distinct : frontier.known.Nodup) (pendingDistinct : frontier.pending.Nodup)
    (pendingKnown : frontier.pending ⊆ frontier.known)
    : (frontier.discoverAll parent items).known.Nodup
      ∧ (frontier.discoverAll parent items).pending.Nodup
      ∧ (frontier.discoverAll parent items).pending ⊆ (frontier.discoverAll parent items).known := by
  induction items generalizing frontier with
  | nil => exact ⟨distinct, pendingDistinct, pendingKnown⟩
  | cons item rest ih =>
      obtain ⟨first, second, third⟩ := discover_distinct distinct pendingDistinct pendingKnown
      exact ih _ first second third

/-- Every recorded item is pending at first, by list induction. -/
theorem length_discoverAll (parent : Option α) (items : List α) (frontier : Frontier α)
    : (frontier.discoverAll parent items).known.length + frontier.pending.length
      = frontier.known.length + (frontier.discoverAll parent items).pending.length := by
  induction items generalizing frontier with
  | nil => rfl
  | cons item rest ih =>
      have balance := ih (frontier.discover parent item)
      change (discoverAll parent rest (frontier.discover parent item)).known.length + _
        = _ + (discoverAll parent rest (frontier.discover parent item)).pending.length
      have step : (frontier.discover parent item).known.length + frontier.pending.length
          = frontier.known.length + (frontier.discover parent item).pending.length := by
        unfold discover
        split
        · rfl
        · simp only [known, List.length_map, List.length_append, List.length_singleton]
          omega
      omega

-- Whole runs

/-- What a run keeps true: every entry is a seed or was found by a known item, every item has
a chain of discoverers, and the successors of expanded items are known.
-/
structure Sound (seeds : List α) (next : α → List α) (frontier : Frontier α) : Prop where
  distinct : frontier.known.Nodup
  pendingDistinct : frontier.pending.Nodup
  pendingKnown : frontier.pending ⊆ frontier.known
  seeded : seeds ⊆ frontier.known
  roots : ∀ item, (item, none) ∈ frontier.found → item ∈ seeds
  links : ∀ item parent, (item, some parent) ∈ frontier.found → item ∈ next parent
  traced : ∀ item ∈ frontier.known, ∃ path, Traced frontier.found item path
  closed : ∀ item ∈ frontier.known, item ∉ frontier.pending → next item ⊆ frontier.known

/-- The frontier that holds the seeds. -/
def start (seeds : List α) : Frontier α :=
  discoverAll none seeds {}

theorem mem_known_discoverAll (parent : Option α) (items : List α) (frontier : Frontier α)
    (item : α)
    : item ∈ (frontier.discoverAll parent items).known ↔ item ∈ frontier.known ∨ item ∈ items := by
  simp only [mem_known, (mem_discoverAll parent items frontier).1]
  constructor
  · rintro ⟨origin, before | ⟨_, later, _⟩⟩
    · exact .inl ⟨origin, before⟩
    · exact .inr later
  · rintro (⟨origin, before⟩ | later)
    · exact ⟨origin, .inl before⟩
    · by_cases present : ∃ origin, (item, origin) ∈ frontier.found
      · obtain ⟨origin, before⟩ := present
        exact ⟨origin, .inl before⟩
      · exact ⟨parent, .inr ⟨present, later, rfl⟩⟩

theorem mem_known_start {seeds : List α} {item : α} : item ∈ (start seeds).known ↔ item ∈ seeds := by
  refine (mem_known_discoverAll none seeds {} item).trans ?_
  simp [known]

theorem start_sound (seeds : List α) (next : α → List α) : (start seeds).Sound seeds next := by
  obtain ⟨found, pending⟩ := mem_discoverAll none seeds ({} : Frontier α)
  obtain ⟨distinct, pendingDistinct, pendingKnown⟩ :=
    discoverAll_distinct none seeds {} List.nodup_nil List.nodup_nil (List.nil_subset _)
  have roots (entry : α × Option α) (member : entry ∈ (start seeds).found)
      : entry.1 ∈ seeds ∧ entry.2 = none := by
    rcases (found entry).mp member with before | ⟨_, listed, same⟩
    · exact absurd before List.not_mem_nil
    · exact ⟨listed, same⟩
  refine ⟨distinct, pendingDistinct, pendingKnown, fun item => mem_known_start.mpr,
    fun item member => (roots _ member).1, fun item parent member => ?_, fun item member => ?_,
    fun item member waiting => ?_⟩
  · cases (roots _ member).2
  · obtain ⟨origin, listed⟩ := mem_known.mp member
    have none := (roots _ listed).2
    dsimp only at none
    rw [none] at listed
    exact ⟨_, .root listed⟩
  · refine absurd ((pending item).mpr (.inr ⟨?_, mem_known_start.mp member⟩)) waiting
    simp [Frontier.known]

variable {seeds : List α} {next : α → List α} {frontier : Frontier α}

/-- Expanding a pending item keeps the frontier sound. -/
theorem Sound.expand (sound : frontier.Sound seeds next) {item : α} {rest : List α}
    (waiting : item ∈ frontier.pending) (restDistinct : rest.Nodup)
    (others : ∀ other, other ∈ rest ↔ other ∈ frontier.pending ∧ other ≠ item)
    : (discoverAll (some item) (next item) { frontier with pending := rest }).Sound seeds next := by
  have restKnown : rest ⊆ frontier.known := fun other member =>
    sound.pendingKnown ((others other).mp member).1
  obtain ⟨found, pending⟩ :=
    mem_discoverAll (some item) (next item) { frontier with pending := rest }
  obtain ⟨distinct, pendingDistinct, pendingKnown⟩ :=
    discoverAll_distinct (some item) (next item) { frontier with pending := rest } sound.distinct
      restDistinct restKnown
  have known (other : α) := mem_known_discoverAll (some item) (next item)
    { frontier with pending := rest } other
  have kept : frontier.found
      ⊆ (discoverAll (some item) (next item) { frontier with pending := rest }).found :=
    fun entry before => (found entry).mpr (.inl before)
  refine ⟨distinct, pendingDistinct, pendingKnown,
    fun seed member => (known seed).mpr (.inl (sound.seeded member)), fun other member => ?_,
    fun other parent member => ?_, fun other member => ?_, fun other member idle => ?_⟩
  · rcases (found _).mp member with before | ⟨_, _, same⟩
    · exact sound.roots other before
    · cases same
  · rcases (found _).mp member with before | ⟨_, listed, same⟩
    · exact sound.links other parent before
    · cases same
      exact listed
  · by_cases old : other ∈ frontier.known
    · obtain ⟨path, traced⟩ := sound.traced other old
      exact ⟨path, traced.mono kept⟩
    · obtain ⟨path, traced⟩ := sound.traced item (sound.pendingKnown waiting)
      have listed := ((known other).mp member).resolve_left old
      exact ⟨_, .step ((found (other, some item)).mpr (.inr ⟨old, listed, rfl⟩))
        (traced.mono kept)⟩
  · intro successor listed
    rw [known]
    by_cases same : other = item
    · exact .inr (same ▸ listed)
    · have old : other ∈ frontier.known := by
        by_contra new
        refine idle ((pending other).mpr (.inr ⟨new, ?_⟩))
        exact ((known other).mp member).resolve_left new
      have done : other ∉ frontier.pending := fun still =>
        idle ((pending other).mpr (.inl ((others other).mpr ⟨still, same⟩)))
      exact .inl (sound.closed other old done listed)

variable [LinearOrder κ] {key : α → κ}

/-- A finished run is sound and has nothing pending, by induction on the fuel. -/
theorem Sound.search {fuel : Nat} {final : Frontier α} (sound : frontier.Sound seeds next)
    (ran : search key next fuel frontier = some final)
    : final.Sound seeds next ∧ final.pending = [] := by
  induction fuel generalizing frontier with
  | zero =>
      unfold Frontier.search at ran
      cases popped : sortedBy key frontier.pending with
      | nil =>
          rw [popped] at ran
          cases ran
          exact ⟨sound, List.perm_nil.mp (popped ▸ (sortedBy_perm key _).symm)⟩
      | cons item rest =>
          rw [popped] at ran
          cases ran
  | succ fuel ih =>
      unfold Frontier.search at ran
      cases popped : sortedBy key frontier.pending with
      | nil =>
          rw [popped] at ran
          cases ran
          exact ⟨sound, List.perm_nil.mp (popped ▸ (sortedBy_perm key _).symm)⟩
      | cons item rest =>
          rw [popped] at ran
          obtain ⟨waiting, _, restDistinct, others⟩ := of_sortedBy_cons sound.pendingDistinct popped
          exact ih (sound.expand waiting restDistinct others) ran

omit [DecidableEq α] [LinearOrder κ] in
/-- A finished run has found exactly what the seeds reach. -/
theorem Sound.mem_known_iff (sound : frontier.Sound seeds next) (done : frontier.pending = [])
    {item : α}
    : item ∈ frontier.known
      ↔ ∃ seed ∈ seeds,
          Relation.ReflTransGen (fun source target => target ∈ next source) seed item := by
  constructor
  · intro member
    obtain ⟨path, traced⟩ := sound.traced item member
    clear member
    induction traced with
    | root listed => exact ⟨_, sound.roots _ listed, .refl⟩
    | step listed _ ih =>
        obtain ⟨seed, seedMember, reaches⟩ := ih
        exact ⟨seed, seedMember, reaches.tail (sound.links _ _ listed)⟩
  · rintro ⟨seed, seedMember, reaches⟩
    induction reaches with
    | refl => exact sound.seeded seedMember
    | tail _ step ih => exact sound.closed _ ih (by simp [done]) step

/-- A run within a finite universe finishes: each round expands one more of its items. -/
theorem Sound.search_finishes {items : List α} (bounded : ∀ item ∈ items, next item ⊆ items)
    (fuel : Nat) (sound : frontier.Sound seeds next) (inside : frontier.known ⊆ items)
    (enough : items.length + frontier.pending.length ≤ fuel + frontier.known.length)
    : ∃ final, Frontier.search key next fuel frontier = some final := by
  have few : frontier.known.length ≤ items.length :=
    (List.subperm_of_subset sound.distinct inside).length_le
  induction fuel generalizing frontier with
  | zero =>
      have none : frontier.pending = [] := List.eq_nil_of_length_eq_zero (by omega)
      refine ⟨frontier, ?_⟩
      unfold Frontier.search
      rw [none]
      rfl
  | succ fuel ih =>
      unfold Frontier.search
      cases popped : sortedBy key frontier.pending with
      | nil => exact ⟨frontier, rfl⟩
      | cons item rest =>
          obtain ⟨waiting, _, restDistinct, others⟩ := of_sortedBy_cons sound.pendingDistinct popped
          have grown := sound.expand waiting restDistinct others
          have insideAfter
              : (discoverAll (some item) (next item) { frontier with pending := rest }).known
                ⊆ items := by
            intro other member
            rcases (mem_known_discoverAll _ _ _ other).mp member with before | listed
            · exact inside before
            · exact bounded item (inside (sound.pendingKnown waiting)) listed
          refine ih grown insideAfter ?_ (List.subperm_of_subset grown.distinct insideAfter).length_le
          have balance := length_discoverAll (some item) (next item)
            { frontier with pending := rest }
          have popping := (sortedBy_perm key frontier.pending).length_eq
          rw [popped, List.length_cons] at popping
          change _ + rest.length = frontier.known.length + _ at balance
          omega

/-- The result does not depend on the fuel it was computed with. -/
theorem search_unique {fuel more : Nat} {final other : Frontier α}
    (ran : search key next fuel frontier = some final)
    (again : search key next more frontier = some other)
    : final = other := by
  induction fuel generalizing frontier more with
  | zero =>
      unfold search at ran again
      cases popped : sortedBy key frontier.pending with
      | nil =>
          rw [popped] at ran again
          exact Option.some.inj (ran.symm.trans (again ▸ by cases more <;> rfl))
      | cons item rest =>
          rw [popped] at ran
          cases ran
  | succ fuel ih =>
      unfold search at ran again
      cases popped : sortedBy key frontier.pending with
      | nil =>
          rw [popped] at ran again
          exact Option.some.inj (ran.symm.trans (again ▸ by cases more <;> rfl))
      | cons item rest =>
          rw [popped] at ran again
          cases more with
          | zero => cases again
          | succ more => exact ih ran again

end Frontier

/-- The path by which a search along a relation, least key first, comes from a root to an
item.
-/
def FirstPath [DecidableEq α] [LinearOrder κ] (key : α → κ) (step : α → α → Prop) (root item : α)
    (path : List α)
    : Prop :=
  ∃ (next : α → List α) (fuel : Nat) (final : Frontier α),
    (∀ source target, target ∈ next source ↔ step source target)
    ∧ Frontier.search key next fuel (Frontier.start [root]) = some final
    ∧ Traced final.found item path

namespace FirstPath

variable [DecidableEq α] [LinearOrder κ] {key : α → κ} {step : α → α → Prop} {root item : α}
  {path : List α}

theorem head (first : FirstPath key step root item path) : path.head? = some root := by
  obtain ⟨next, fuel, final, _, ran, traced⟩ := first
  obtain ⟨sound, _⟩ := (Frontier.start_sound [root] next).search ran
  induction traced with
  | root listed =>
      rw [List.mem_singleton.mp (sound.roots _ listed)]
      rfl
  | step _ _ ih => rw [List.head?_append, ih, Option.some_or]

end FirstPath

end Scanipy.Library

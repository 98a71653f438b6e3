import Scanipy.Library.BestFirst

/-! Best-first search seen through a selection of its items: a part that nothing outside
leads into is searched as if it were alone, however its items are named or listed.
-/

namespace Scanipy.Library

variable {α β κ μ : Type}

/-- A search over `β` sees, through `view`, the `chosen` items of a search over `α`: other
items never lead to chosen ones, and keys order the chosen items alike.
-/
structure Selects [LinearOrder κ] [LinearOrder μ] (chosen : α → Prop) (view : α → β) (key : α → κ)
    (next : α → List α) (image : β → μ) (nextImage : β → List β)
    : Prop where
  inside : ∀ item, chosen item →
    ∀ other, other ∈ nextImage (view item) ↔ ∃ target ∈ next item, chosen target ∧ view target = other
  outside : ∀ item, ¬chosen item → ∀ target ∈ next item, ¬chosen target
  order : ∀ first second, chosen first → chosen second →
    (image (view first) ≤ image (view second) ↔ key first ≤ key second)
  keys : ∀ first second, chosen first → chosen second → key first = key second → first = second

/-- The chosen part of a frontier, seen through `view`. -/
structure Mirrors (chosen : α → Prop) (view : α → β) (frontier : Frontier α)
    (seen : Frontier β) : Prop where
  found : ∀ item, chosen item →
    ∀ parent, (view item, parent) ∈ seen.found
      ↔ ∃ origin, (item, origin) ∈ frontier.found ∧ parent = origin.map view
  image : ∀ other ∈ seen.known, ∃ item, chosen item ∧ view item = other
  pending : ∀ other, other ∈ seen.pending
    ↔ ∃ item ∈ frontier.pending, chosen item ∧ view item = other

namespace Mirrors

variable {chosen : α → Prop} {view : α → β} {frontier : Frontier α} {seen : Frontier β}

theorem mem_known (mirrors : Mirrors chosen view frontier seen) {item : α} (inside : chosen item)
    : view item ∈ seen.known ↔ item ∈ frontier.known := by
  rw [Frontier.mem_known, Frontier.mem_known]
  simp only [mirrors.found item inside]
  constructor
  · rintro ⟨_, origin, listed, _⟩
    exact ⟨origin, listed⟩
  · rintro ⟨origin, listed⟩
    exact ⟨_, origin, listed, rfl⟩

end Mirrors

namespace Selects

variable [LinearOrder κ] [LinearOrder μ] {chosen : α → Prop} {view : α → β} {key : α → κ}
  {next : α → List α} {image : β → μ} {nextImage : β → List β}

theorem view_injective (selects : Selects chosen view key next image nextImage) {first second : α}
    (firstChosen : chosen first) (secondChosen : chosen second) (same : view first = view second)
    : first = second := by
  refine selects.keys first second firstChosen secondChosen (le_antisymm ?_ ?_)
  · rw [← selects.order first second firstChosen secondChosen, same]
  · rw [← selects.order second first secondChosen firstChosen, same]

theorem mem_next (selects : Selects chosen view key next image nextImage) {item target : α}
    (itemChosen : chosen item) (targetChosen : chosen target)
    : view target ∈ nextImage (view item) ↔ target ∈ next item := by
  rw [selects.inside item itemChosen]
  constructor
  · rintro ⟨other, listed, otherChosen, same⟩
    rwa [← selects.view_injective otherChosen targetChosen same]
  · intro listed
    exact ⟨target, listed, targetChosen, rfl⟩

variable {frontier : Frontier α} {seen : Frontier β}

/-- The chain of a chosen item is seen as the chain of what it is seen as. -/
theorem traced (selects : Selects chosen view key next image nextImage) {seeds : List α}
    (sound : frontier.Sound seeds next) (mirrors : Mirrors chosen view frontier seen) {item : α}
    {path : List α} (inside : chosen item) (chain : Traced frontier.found item path)
    : Traced seen.found (view item) (path.map view) := by
  induction chain with
  | root listed => exact .root ((mirrors.found _ inside _).mpr ⟨none, listed, rfl⟩)
  | step listed before ih =>
      rename_i last parent front
      have parentChosen : chosen parent := by
        by_contra outside
        exact selects.outside parent outside last (sound.links _ _ listed) inside
      rw [List.map_append, List.map_singleton]
      exact .step ((mirrors.found _ inside _).mpr ⟨some parent, listed, rfl⟩) (ih parentChosen)

/-- The chains seen at a chosen item are its chains, seen. -/
theorem traced_iff (selects : Selects chosen view key next image nextImage) {seeds : List α}
    {seenSeeds : List β} (sound : frontier.Sound seeds next)
    (seenSound : seen.Sound seenSeeds nextImage) (mirrors : Mirrors chosen view frontier seen)
    {item : α} (inside : chosen item) {shown : List β}
    : Traced seen.found (view item) shown
      ↔ ∃ path, Traced frontier.found item path ∧ path.map view = shown := by
  constructor
  · intro chain
    obtain ⟨path, original⟩ := sound.traced item ((mirrors.mem_known inside).mp chain.mem_found)
    have again := selects.traced sound mirrors inside original
    exact ⟨path, original, again.unique seenSound.distinct chain⟩
  · rintro ⟨path, chain, rfl⟩
    exact selects.traced sound mirrors inside chain

/-- The next chosen item is expanded next in what is seen. -/
theorem pop_inside (selects : Selects chosen view key next image nextImage)
    (mirrors : Mirrors chosen view frontier seen) (seenDistinct : seen.pending.Nodup) {item : α}
    (inside : chosen item) (waiting : item ∈ frontier.pending)
    (least : ∀ other ∈ frontier.pending, key item ≤ key other)
    : ∃ seenRest, sortedBy image seen.pending = view item :: seenRest := by
  have seenWaiting : view item ∈ seen.pending :=
    (mirrors.pending _).mpr ⟨item, waiting, inside, rfl⟩
  cases popped : sortedBy image seen.pending with
  | nil =>
      have listed : view item ∈ sortedBy image seen.pending := mem_sortedBy.mpr seenWaiting
      rw [popped] at listed
      exact absurd listed List.not_mem_nil
  | cons head seenRest =>
      obtain ⟨headWaiting, seenLeast, _, _⟩ := of_sortedBy_cons seenDistinct popped
      obtain ⟨first, firstWaiting, firstChosen, rfl⟩ := (mirrors.pending head).mp headWaiting
      have below := (selects.order first item firstChosen inside).mp (seenLeast _ seenWaiting)
      have same := selects.keys first item firstChosen inside
        (le_antisymm below (least first firstWaiting))
      exact ⟨seenRest, by rw [same]⟩

variable [DecidableEq α]

/-- Expanding an item that is not chosen shows nothing. -/
theorem mirrors_outside (selects : Selects chosen view key next image nextImage)
    (mirrors : Mirrors chosen view frontier seen) {item : α} (notChosen : ¬chosen item)
    {rest : List α} (others : ∀ other, other ∈ rest ↔ other ∈ frontier.pending ∧ other ≠ item)
    : Mirrors chosen view
        (Frontier.discoverAll (some item) (next item) { frontier with pending := rest }) seen := by
  obtain ⟨found, pending⟩ :=
    Frontier.mem_discoverAll (some item) (next item) { frontier with pending := rest }
  refine ⟨fun target inside parent => ?_, mirrors.image, fun other => ?_⟩
  · rw [mirrors.found target inside parent]
    refine exists_congr fun origin => and_congr_left fun _ => ?_
    rw [found]
    refine ⟨.inl, fun either => either.resolve_right ?_⟩
    rintro ⟨_, listed, _⟩
    exact selects.outside item notChosen target listed inside
  · rw [mirrors.pending other]
    refine exists_congr fun target => and_congr_left fun ⟨inside, _⟩ => ?_
    rw [pending]
    constructor
    · intro waiting
      exact .inl ((others target).mpr ⟨waiting, fun same => notChosen (same ▸ inside)⟩)
    · rintro (waiting | ⟨_, listed⟩)
      · exact ((others target).mp waiting).1
      · exact absurd inside (selects.outside item notChosen target listed)

variable [DecidableEq β]

/-- Expanding a chosen item is expanding what it is seen as. -/
theorem mirrors_inside (selects : Selects chosen view key next image nextImage)
    (mirrors : Mirrors chosen view frontier seen) {item : α} (inside : chosen item)
    {rest : List α} (others : ∀ other, other ∈ rest ↔ other ∈ frontier.pending ∧ other ≠ item)
    {seenRest : List β}
    (seenOthers : ∀ other, other ∈ seenRest ↔ other ∈ seen.pending ∧ other ≠ view item)
    : Mirrors chosen view
        (Frontier.discoverAll (some item) (next item) { frontier with pending := rest })
        (Frontier.discoverAll (some (view item)) (nextImage (view item))
          { seen with pending := seenRest }) := by
  obtain ⟨found, pending⟩ :=
    Frontier.mem_discoverAll (some item) (next item) { frontier with pending := rest }
  obtain ⟨seenFound, seenPending⟩ :=
    Frontier.mem_discoverAll (some (view item)) (nextImage (view item))
      { seen with pending := seenRest }
  have fresh {target : α} (targetChosen : chosen target)
      : view target ∉ Frontier.known { seen with pending := seenRest }
        ↔ target ∉ Frontier.known { frontier with pending := rest } :=
    not_congr (mirrors.mem_known targetChosen)
  refine ⟨fun target targetChosen parent => ?_, fun other member => ?_, fun other => ?_⟩
  · rw [seenFound]
    simp only [found]
    rw [mirrors.found target targetChosen parent, fresh targetChosen,
      selects.mem_next inside targetChosen]
    constructor
    · rintro (⟨origin, listed, rfl⟩ | ⟨new, listed, rfl⟩)
      · exact ⟨origin, .inl listed, rfl⟩
      · exact ⟨some item, .inr ⟨new, listed, rfl⟩, rfl⟩
    · rintro ⟨origin, listed | ⟨new, listed, rfl⟩, rfl⟩
      · exact .inl ⟨origin, listed, rfl⟩
      · exact .inr ⟨new, listed, rfl⟩
  · rcases (Frontier.mem_known_discoverAll _ _ _ other).mp member with before | listed
    · exact mirrors.image other before
    · obtain ⟨target, _, targetChosen, same⟩ := (selects.inside item inside other).mp listed
      exact ⟨target, targetChosen, same⟩
  · rw [seenPending]
    constructor
    · rintro (waiting | ⟨new, listed⟩)
      · obtain ⟨before, apart⟩ := (seenOthers other).mp waiting
        obtain ⟨target, targetWaiting, targetChosen, rfl⟩ := (mirrors.pending other).mp before
        refine ⟨target, (pending target).mpr (.inl ((others target).mpr ⟨targetWaiting, ?_⟩)),
          targetChosen, rfl⟩
        rintro rfl
        exact apart rfl
      · obtain ⟨target, targetListed, targetChosen, rfl⟩ :=
          (selects.inside item inside other).mp listed
        exact ⟨target, (pending target).mpr (.inr ⟨(fresh targetChosen).mp new, targetListed⟩),
          targetChosen, rfl⟩
    · rintro ⟨target, waiting, targetChosen, rfl⟩
      rcases (pending target).mp waiting with before | ⟨new, listed⟩
      · obtain ⟨targetWaiting, apart⟩ := (others target).mp before
        refine .inl ((seenOthers _).mpr ⟨(mirrors.pending _).mpr
          ⟨target, targetWaiting, targetChosen, rfl⟩, fun same => apart ?_⟩)
        exact selects.view_injective targetChosen inside same
      · exact .inr ⟨(fresh targetChosen).mpr new, (selects.mem_next inside targetChosen).mpr listed⟩

omit [DecidableEq α] in
/-- With nothing pending, nothing seen is pending. -/
theorem finished (mirrors : Mirrors chosen view frontier seen)
    (done : sortedBy key frontier.pending = [])
    : Frontier.search image nextImage 0 seen = some seen := by
  have none : seen.pending = [] := by
    refine List.eq_nil_iff_forall_not_mem.mpr fun other waiting => ?_
    obtain ⟨item, itemWaiting, _⟩ := (mirrors.pending other).mp waiting
    have listed : item ∈ sortedBy key frontier.pending := mem_sortedBy.mpr itemWaiting
    rw [done] at listed
    exact absurd listed List.not_mem_nil
  unfold Frontier.search
  rw [none]
  rfl

/-- A finished search shows a finished search of what is seen, by induction on the fuel. -/
theorem search (selects : Selects chosen view key next image nextImage) {seeds : List α}
    {seenSeeds : List β} {fuel : Nat} {final : Frontier α} (sound : frontier.Sound seeds next)
    (seenSound : seen.Sound seenSeeds nextImage) (mirrors : Mirrors chosen view frontier seen)
    (ran : Frontier.search key next fuel frontier = some final)
    : ∃ more seenFinal,
        Frontier.search image nextImage more seen = some seenFinal
        ∧ Mirrors chosen view final seenFinal := by
  induction fuel generalizing frontier seen with
  | zero =>
      unfold Frontier.search at ran
      cases popped : sortedBy key frontier.pending with
      | nil =>
          rw [popped] at ran
          cases ran
          exact ⟨0, seen, finished mirrors popped, mirrors⟩
      | cons item rest =>
          rw [popped] at ran
          cases ran
  | succ fuel ih =>
      unfold Frontier.search at ran
      cases popped : sortedBy key frontier.pending with
      | nil =>
          rw [popped] at ran
          cases ran
          exact ⟨0, seen, finished mirrors popped, mirrors⟩
      | cons item rest =>
          rw [popped] at ran
          obtain ⟨waiting, least, restDistinct, others⟩ :=
            of_sortedBy_cons sound.pendingDistinct popped
          have grown := sound.expand waiting restDistinct others
          by_cases inside : chosen item
          · obtain ⟨seenRest, seenPopped⟩ := selects.pop_inside mirrors seenSound.pendingDistinct
              inside waiting least
            obtain ⟨seenWaiting, _, seenRestDistinct, seenOthers⟩ :=
              of_sortedBy_cons seenSound.pendingDistinct seenPopped
            obtain ⟨more, seenFinal, seenRan, finalMirrors⟩ := ih grown
              (seenSound.expand seenWaiting seenRestDistinct seenOthers)
              (selects.mirrors_inside mirrors inside others seenOthers) ran
            refine ⟨more + 1, seenFinal, ?_, finalMirrors⟩
            unfold Frontier.search
            rw [seenPopped]
            exact seenRan
          · exact ih grown seenSound (selects.mirrors_outside mirrors inside others) ran

/-- A finished search shows a finished search from the corresponding seeds. -/
theorem search_start (selects : Selects chosen view key next image nextImage) {seeds : List α}
    {seenSeeds : List β}
    (seeded : ∀ other, other ∈ seenSeeds ↔ ∃ item ∈ seeds, chosen item ∧ view item = other)
    {fuel : Nat} {final : Frontier α}
    (ran : Frontier.search key next fuel (Frontier.start seeds) = some final)
    : ∃ more seenFinal,
        Frontier.search image nextImage more (Frontier.start seenSeeds) = some seenFinal
        ∧ Mirrors chosen view final seenFinal := by
  have starts : Mirrors chosen view (Frontier.start seeds) (Frontier.start seenSeeds) := by
    obtain ⟨found, pending⟩ := Frontier.mem_discoverAll none seeds ({} : Frontier α)
    obtain ⟨seenFound, seenPending⟩ := Frontier.mem_discoverAll none seenSeeds ({} : Frontier β)
    have listed {item : α} (inside : chosen item) : view item ∈ seenSeeds ↔ item ∈ seeds := by
      rw [seeded]
      constructor
      · rintro ⟨other, member, otherChosen, same⟩
        rwa [← selects.view_injective otherChosen inside same]
      · intro member
        exact ⟨item, member, inside, rfl⟩
    refine ⟨fun item inside parent => ?_, fun other member => ?_, fun other => ?_⟩
    · rw [Frontier.start, Frontier.start, seenFound]
      simp only [found]
      simp [Frontier.known, listed inside]
    · obtain ⟨item, _, inside, same⟩ := (seeded other).mp (Frontier.mem_known_start.mp member)
      exact ⟨item, inside, same⟩
    · rw [Frontier.start, Frontier.start, seenPending]
      simp only [pending]
      simp [Frontier.known, seeded]
  exact selects.search (Frontier.start_sound seeds next) (Frontier.start_sound seenSeeds nextImage)
    starts ran

/-- Finished searches from corresponding seeds correspond. -/
theorem mirrors (selects : Selects chosen view key next image nextImage) {seeds : List α}
    {seenSeeds : List β}
    (seeded : ∀ other, other ∈ seenSeeds ↔ ∃ item ∈ seeds, chosen item ∧ view item = other)
    {fuel more : Nat} {final : Frontier α} {seenFinal : Frontier β}
    (ran : Frontier.search key next fuel (Frontier.start seeds) = some final)
    (seenRan : Frontier.search image nextImage more (Frontier.start seenSeeds) = some seenFinal)
    : Mirrors chosen view final seenFinal := by
  obtain ⟨_, other, otherRan, related⟩ := selects.search_start seeded ran
  rwa [Frontier.search_unique seenRan otherRan]

end Selects

end Scanipy.Library

import Mathlib.Data.List.Dedup
import Mathlib.Data.List.Induction

/-! Python dictionaries as insertion-ordered association lists.
A key is stored once; assigning a stored key keeps its position, as in CPython.
-/

namespace Scanipy.Python

abbrev Dict (α β : Type) := List (α × β)

namespace Dict

variable {α β γ : Type} [DecidableEq α]

/-- `entries.get(key)`. -/
def get? : Dict α β → α → Option β
  | [], _ => none
  | (stored, value) :: rest, key => if stored = key then some value else get? rest key

/-- `entries.get(key, default)`. -/
def getD (entries : Dict α β) (key : α) (default : β) : β :=
  (entries.get? key).getD default

def keys (entries : Dict α β) : List α :=
  entries.map Prod.fst

/-- `entries[key] = value`. -/
def set : Dict α β → α → β → Dict α β
  | [], key, value => [(key, value)]
  | (stored, old) :: rest, key, value =>
      if stored = key then (stored, value) :: rest else (stored, old) :: set rest key value

/-- A comprehension: later pairs overwrite earlier ones of the same key. -/
def ofPairs (pairs : List (α × β)) : Dict α β :=
  pairs.foldl (fun entries pair => entries.set pair.1 pair.2) []

/-- `del entries[key]` of a stored key. -/
def delete (entries : Dict α β) (key : α) : Dict α β :=
  entries.filter fun entry => entry.1 ≠ key

/-- `entries.setdefault(key, []).append(value)`. -/
def appendTo (entries : Dict α (List β)) (key : α) (value : β) : Dict α (List β) :=
  entries.set key (entries.getD key [] ++ [value])

-- Lookup after assignment

theorem get?_set (entries : Dict α β) (key other : α) (value : β)
    : (entries.set key value).get? other
      = if key = other then some value else entries.get? other := by
  induction entries with
  | nil => simp [set, get?]
  | cons head rest ih =>
      obtain ⟨stored, old⟩ := head
      by_cases hit : stored = key
      · subst hit
        by_cases same : stored = other <;> simp [set, get?, same]
      · by_cases found : stored = other
        · subst found
          simp [set, get?, hit, Ne.symm hit]
        · simp [set, get?, hit, found, ih]

theorem getD_set (entries : Dict α β) (key other : α) (value default : β)
    : (entries.set key value).getD other default
      = if key = other then value else entries.getD other default := by
  unfold getD
  rw [get?_set]
  split <;> simp

/-- A dictionary built over a list of keys looks its function up. -/
theorem get?_map {keys : List α} (value : α → β) {key : α}
    : get? (keys.map fun key => (key, value key)) key
      = if key ∈ keys then some (value key) else none := by
  induction keys with
  | nil => rfl
  | cons head rest ih =>
      by_cases hit : head = key
      · subst hit
        simp [get?]
      · simp [get?, hit, ih, Ne.symm hit]

/-- A dictionary of positions looks up first positions, by list induction. -/
theorem get?_zipIdx (items : List α) (first : Nat) (key : α)
    : get? (items.zipIdx first) key
      = if key ∈ items then some (items.idxOf key + first) else none := by
  induction items generalizing first with
  | nil => rfl
  | cons head rest ih =>
      by_cases hit : head = key
      · simp [List.zipIdx_cons, get?, hit]
      · simp [List.zipIdx_cons, get?, hit, ih, Ne.symm hit, List.idxOf_cons_ne rest hit,
          Nat.add_right_comm, Nat.add_assoc]

/-- A pair of a dictionary with distinct keys is what its key looks up. -/
theorem get?_of_mem {entries : Dict α β} (distinct : entries.keys.Nodup) {key : α} {value : β}
    (member : (key, value) ∈ entries)
    : entries.get? key = some value := by
  induction entries with
  | nil => simp at member
  | cons head rest ih =>
      obtain ⟨stored, old⟩ := head
      simp only [keys, List.map_cons, List.nodup_cons] at distinct
      rcases List.mem_cons.mp member with same | later
      · cases same
        simp [get?]
      · have absent : stored ≠ key := by
          rintro rfl
          exact distinct.1 (List.mem_map.mpr ⟨_, later, rfl⟩)
        simp only [get?, absent, if_false]
        exact ih distinct.2 later

theorem mem_of_get? {entries : Dict α β} {key : α} {value : β}
    (found : entries.get? key = some value)
    : (key, value) ∈ entries := by
  induction entries with
  | nil => simp [get?] at found
  | cons head rest ih =>
      obtain ⟨stored, old⟩ := head
      by_cases hit : stored = key
      · subst hit
        simp only [get?, if_true, Option.some.injEq] at found
        exact found ▸ List.mem_cons_self
      · simp only [get?, hit, if_false] at found
        exact List.mem_cons_of_mem _ (ih found)

/-- Dictionaries with the same entries and distinct keys agree on every lookup. -/
theorem get?_perm {entries others : Dict α β} (perm : List.Perm others entries)
    (distinct : entries.keys.Nodup) (key : α)
    : others.get? key = entries.get? key := by
  have otherDistinct : others.keys.Nodup := (perm.map Prod.fst).nodup_iff.mpr distinct
  refine Option.ext fun value => ⟨fun found => ?_, fun found => ?_⟩
  · exact get?_of_mem distinct (perm.mem_iff.mp (mem_of_get? found))
  · exact get?_of_mem otherDistinct (perm.mem_iff.mpr (mem_of_get? found))

theorem set_of_not_mem {entries : Dict α β} {key : α} (absent : key ∉ entries.keys) (value : β)
    : entries.set key value = entries ++ [(key, value)] := by
  induction entries with
  | nil => rfl
  | cons head rest ih =>
      obtain ⟨stored, old⟩ := head
      simp only [keys, List.map_cons, List.mem_cons, not_or] at absent
      simp only [set, Ne.symm absent.1, if_false, List.cons_append]
      rw [ih absent.2]

/-- Distinct pairs are stored as they come, by reverse list induction. -/
theorem ofPairs_eq_self {pairs : List (α × β)} (distinct : (pairs.map Prod.fst).Nodup)
    : ofPairs pairs = pairs := by
  induction pairs using List.reverseRecOn with
  | nil => rfl
  | append_singleton front pair ih =>
      simp only [List.map_append, List.map_cons, List.map_nil] at distinct
      obtain ⟨frontDistinct, _, apart⟩ := List.nodup_append.mp distinct
      have absent : pair.1 ∉ keys front := fun member => apart pair.1 member pair.1 (by simp) rfl
      have front := ih frontDistinct
      unfold ofPairs at front ⊢
      rw [List.foldl_append, front]
      exact set_of_not_mem absent pair.2

/-- Appending by key groups values under their keys in order, by list induction. -/
theorem getD_foldl_appendTo (items : List γ) (key : γ → α) (value : γ → β)
    (entries : Dict α (List β)) (wanted : α)
    : getD (items.foldl (fun entries item => entries.appendTo (key item) (value item)) entries)
          wanted []
      = entries.getD wanted []
        ++ (items.filter fun item => key item = wanted).map value := by
  induction items generalizing entries with
  | nil => simp
  | cons head rest ih =>
      rw [List.foldl_cons, ih, appendTo, getD_set]
      by_cases hit : key head = wanted <;> simp [hit]

/-- Appending under a stored key leaves it stored, with the values appended to it. -/
theorem get?_foldl_appendTo {items : List γ} {key : γ → α} {value : γ → β}
    {entries : Dict α (List β)} {wanted : α} {before : List β}
    (stored : entries.get? wanted = some before)
    : get? (items.foldl (fun entries item => entries.appendTo (key item) (value item)) entries)
          wanted
      = some (before ++ (items.filter fun item => key item = wanted).map value) := by
  induction items generalizing entries before with
  | nil => simpa using stored
  | cons head rest ih =>
      rw [List.foldl_cons]
      by_cases hit : key head = wanted
      · have appended : (entries.appendTo (key head) (value head)).get? wanted
            = some (before ++ [value head]) := by
          rw [appendTo, get?_set, if_pos hit, getD, hit, stored, Option.getD_some]
        rw [ih appended]
        simp [hit]
      · have kept : (entries.appendTo (key head) (value head)).get? wanted = some before := by
          rw [appendTo, get?_set, if_neg hit, stored]
        rw [ih kept]
        simp [hit]

theorem keys_set (entries : Dict α β) (key : α) (value : β)
    : (entries.set key value).keys
      = if key ∈ entries.keys then entries.keys else entries.keys ++ [key] := by
  induction entries with
  | nil => rfl
  | cons head rest ih =>
      obtain ⟨stored, old⟩ := head
      simp only [keys] at ih
      by_cases hit : stored = key
      · simp [set, keys, hit]
      · by_cases later : key ∈ rest.map Prod.fst <;> simp [set, keys, hit, ih, later, Ne.symm hit]

/-- Assignments never repeat a key, by list induction. -/
theorem mem_keys {entries : Dict α β} {key : α}
    : key ∈ entries.keys ↔ ∃ value, entries.get? key = some value := by
  constructor
  · intro member
    cases stored : entries.get? key with
    | some value => exact ⟨value, rfl⟩
    | none =>
        induction entries with
        | nil => simp [keys] at member
        | cons head rest ih =>
            obtain ⟨other, old⟩ := head
            by_cases hit : other = key
            · simp [get?, hit] at stored
            · simp only [get?, hit, if_false] at stored
              refine ih ?_ stored
              simpa [keys, Ne.symm hit] using member
  · rintro ⟨value, stored⟩
    exact List.mem_map.mpr ⟨_, mem_of_get? stored, rfl⟩

@[simp]
theorem mem_keys_set {entries : Dict α β} {key other : α} {value : β}
    : other ∈ (entries.set key value).keys ↔ other ∈ entries.keys ∨ other = key := by
  rw [keys_set]
  split
  next stored =>
    constructor
    · exact .inl
    · rintro (old | rfl)
      · exact old
      · exact stored
  next => simp

theorem nodup_keys_set {entries : Dict α β} (distinct : entries.keys.Nodup) (key : α) (value : β)
    : (entries.set key value).keys.Nodup := by
  rw [keys_set]
  split
  · exact distinct
  next fresh =>
    rw [← List.concat_eq_append]
    exact distinct.concat fresh

theorem mem_of_mem_set {entries : Dict α β} {key : α} {value : β} {entry : α × β}
    (member : entry ∈ entries.set key value)
    : entry ∈ entries ∨ entry = (key, value) := by
  induction entries with
  | nil => exact .inr (by simpa [set] using member)
  | cons head rest ih =>
      obtain ⟨stored, old⟩ := head
      by_cases hit : stored = key
      · simp only [set, hit, if_true, List.mem_cons] at member
        rcases member with new | later
        · exact .inr new
        · exact .inl (List.mem_cons_of_mem _ later)
      · simp only [set, hit, if_false, List.mem_cons] at member
        rcases member with same | later
        · exact .inl (same ▸ List.mem_cons_self)
        · rcases ih later with before | new
          · exact .inl (List.mem_cons_of_mem _ before)
          · exact .inr new

theorem nodup_keys_foldl_appendTo (items : List γ) (key : γ → α) (value : γ → β)
    {entries : Dict α (List β)} (distinct : entries.keys.Nodup)
    : (keys (items.foldl (fun entries item => entries.appendTo (key item) (value item))
        entries)).Nodup := by
  induction items generalizing entries with
  | nil => exact distinct
  | cons head rest ih =>
      exact ih (nodup_keys_set distinct _ _)

/-- Looking up after a map over the values. -/
theorem get?_map_snd {δ : Type} (entries : Dict α β) (view : β → δ) (key : α)
    : get? (entries.map fun entry => (entry.1, view entry.2)) key
      = (entries.get? key).map view := by
  induction entries with
  | nil => rfl
  | cons head rest ih =>
      obtain ⟨stored, value⟩ := head
      by_cases hit : stored = key <;> simp [get?, hit, ih]

/-- Looking up after a filter on the keys. -/
theorem get?_filter (entries : Dict α β) (keep : α → Bool) (key : α)
    : get? (entries.filter fun entry => keep entry.1) key
      = if keep key then entries.get? key else none := by
  induction entries with
  | nil => simp [get?]
  | cons head rest ih =>
      obtain ⟨stored, value⟩ := head
      by_cases kept : keep stored <;> by_cases hit : stored = key <;> simp_all [get?]

end Dict

/-- A Python set as its members in the order of insertion. -/
abbrev PySet (α : Type) := List α

namespace PySet

variable {α : Type} [DecidableEq α]

/-- `members.add(value)`. -/
def add (members : PySet α) (value : α) : PySet α :=
  if value ∈ members then members else members ++ [value]

/-- `members.update(values)`. -/
def update (members : PySet α) (values : List α) : PySet α :=
  values.foldl add members

@[simp]
theorem mem_add {members : PySet α} {value other : α}
    : other ∈ add members value ↔ other ∈ members ∨ other = value := by
  unfold add
  split
  next stored =>
    constructor
    · exact .inl
    · rintro (old | rfl)
      · exact old
      · exact stored
  next => simp

@[simp]
theorem mem_update {members : PySet α} {values : List α} {other : α}
    : other ∈ update members values ↔ other ∈ members ∨ other ∈ values := by
  induction values generalizing members with
  | nil => simp [update]
  | cons head rest ih =>
      change other ∈ update (add members head) rest ↔ _
      rw [ih, mem_add, List.mem_cons, or_assoc]

theorem nodup_add {members : PySet α} (distinct : members.Nodup) (value : α)
    : (add members value).Nodup := by
  unfold add
  split
  · exact distinct
  next fresh =>
    rw [← List.concat_eq_append]
    exact distinct.concat fresh

theorem nodup_update {members : PySet α} (distinct : members.Nodup) (values : List α)
    : (update members values).Nodup := by
  induction values generalizing members with
  | nil => exact distinct
  | cons head rest ih => exact ih (nodup_add distinct head)

/-- New values without repetition are appended as they come. -/
theorem update_eq_append {members : PySet α} {values : List α}
    (fresh : ∀ value ∈ values, value ∉ members) (distinct : values.Nodup)
    : update members values = members ++ values := by
  induction values generalizing members with
  | nil => exact (List.append_nil _).symm
  | cons head rest ih =>
      obtain ⟨notLater, restDistinct⟩ := List.nodup_cons.mp distinct
      have added : add members head = members ++ [head] := if_neg (fresh head List.mem_cons_self)
      change update (add members head) rest = _
      rw [ih ?_ restDistinct, added, List.append_assoc, List.singleton_append]
      intro value later stored
      rw [added, List.mem_append, List.mem_singleton] at stored
      rcases stored with old | rfl
      · exact fresh value (List.mem_cons_of_mem _ later) old
      · exact notLater later

end PySet

end Scanipy.Python

import Mathlib.Data.List.Nodup

/-! Tables as lists of rows: updates of the rows that meet a condition, and rows told apart by a
key.
-/

namespace Scanipy.Library

variable {ρ κ : Type}

/-- `UPDATE ... WHERE`. -/
def updateWhere (condition : ρ → Bool) (change : ρ → ρ) (rows : List ρ) : List ρ :=
  rows.map fun row => if condition row then change row else row

variable {selected : ρ → Bool} {added : List ρ}

section Updates

variable {condition : ρ → Bool} {change : ρ → ρ} {rows : List ρ} {row : ρ}

theorem mem_updateWhere
    : row ∈ updateWhere condition change rows
      ↔ ∃ old ∈ rows, (if condition old then change old else old) = row :=
  List.mem_map

/-- A row after an update is an old one that the condition spares, or the new form of one that it
meets.
-/
theorem mem_updateWhere_cases (member : row ∈ updateWhere condition change rows)
    : (row ∈ rows ∧ condition row = false)
      ∨ ∃ old ∈ rows, condition old = true ∧ row = change old := by
  obtain ⟨old, among, same⟩ := mem_updateWhere.mp member
  cases met : condition old with
  | true =>
      rw [if_pos met] at same
      exact .inr ⟨old, among, met, same.symm⟩
  | false =>
      rw [if_neg (by simp [met])] at same
      exact .inl ⟨same ▸ among, same ▸ met⟩

/-- A row that the condition spares is still there. -/
theorem mem_updateWhere_of_spared (member : row ∈ rows) (spared : condition row = false)
    : row ∈ updateWhere condition change rows :=
  mem_updateWhere.mpr ⟨row, member, by simp [spared]⟩

/-- A row that meets the condition is there in its new form. -/
theorem mem_updateWhere_of_met (member : row ∈ rows) (met : condition row = true)
    : change row ∈ updateWhere condition change rows :=
  mem_updateWhere.mpr ⟨row, member, by simp [met]⟩

/-- A column that the change keeps is the same in every row. -/
theorem map_updateWhere {column : ρ → κ} (kept : ∀ row, column (change row) = column row)
    : (updateWhere condition change rows).map column = rows.map column := by
  rw [updateWhere, List.map_map]
  apply List.map_congr_left
  intro row _
  dsimp only [Function.comp_apply]
  split
  · exact kept row
  · rfl

/-- A selection by columns that the change keeps commutes with the update. -/
theorem filter_updateWhere (kept : ∀ row, selected (change row) = selected row)
    : (updateWhere condition change rows).filter selected
      = updateWhere condition change (rows.filter selected) := by
  rw [updateWhere, List.filter_map, updateWhere]
  congr 1
  apply List.filter_congr
  intro row _
  dsimp only [Function.comp_apply]
  split
  · exact kept row
  · rfl

/-- An update that meets no row changes nothing. -/
theorem updateWhere_eq_self (spared : ∀ row ∈ rows, condition row = false)
    : updateWhere condition change rows = rows := by
  rw [updateWhere]
  refine (List.map_congr_left ?_).trans rows.map_id
  intro row member
  simp [spared row member]

/-- A selection that the update does not meet is unchanged. -/
theorem filter_updateWhere_of_spared (kept : ∀ row, selected (change row) = selected row)
    (spared : ∀ row ∈ rows, selected row = true → condition row = false)
    : (updateWhere condition change rows).filter selected = rows.filter selected := by
  rw [filter_updateWhere kept]
  apply updateWhere_eq_self
  intro row member
  obtain ⟨among, chosen⟩ := List.mem_filter.mp member
  exact spared row among chosen

/-- Rows that the selection passes over may be added. -/
theorem filter_append_of_spared (spared : ∀ row ∈ added, selected row = false)
    : (rows ++ added).filter selected = rows.filter selected := by
  have none : added.filter selected = [] := by
    rw [List.filter_eq_nil_iff]
    intro row member
    simp [spared row member]
  rw [List.filter_append, none, List.append_nil]

end Updates

/-- No two rows share the key. -/
def UniqueBy (key : ρ → κ) (rows : List ρ) : Prop :=
  (rows.map key).Nodup

variable {rows : List ρ}

theorem UniqueBy.eq {key : ρ → κ} {left right : ρ} (unique : UniqueBy key rows)
    (leftMember : left ∈ rows) (rightMember : right ∈ rows) (same : key left = key right)
    : left = right :=
  List.inj_on_of_nodup_map unique leftMember rightMember same

theorem UniqueBy.append_one {key : ρ → κ} {added : ρ} (unique : UniqueBy key rows)
    (fresh : ∀ row ∈ rows, key row ≠ key added)
    : UniqueBy key (rows ++ [added]) := by
  rw [UniqueBy, List.map_append, List.map_singleton]
  refine List.Nodup.append unique (List.nodup_singleton _) ?_
  intro value among same
  obtain ⟨row, member, rfl⟩ := List.mem_map.mp among
  exact fresh row member (List.mem_singleton.mp same)

variable {kept : ρ → ρ} {others : List ρ}

/-- A key that the kept columns determine stays unique. -/
theorem UniqueBy.transport {key : ρ → κ} (unique : UniqueBy key rows)
    (same : others.map kept = rows.map kept) (factors : ∀ row, key (kept row) = key row)
    : UniqueBy key others := by
  have columns (table : List ρ) : table.map key = (table.map kept).map key := by
    rw [List.map_map]
    exact List.map_congr_left fun row _ => (factors row).symm
  rw [UniqueBy, columns others, same, ← columns rows]
  exact unique

/-- A row is found by a condition that only it meets. -/
theorem find?_eq_some_of_sole {row : ρ} (member : row ∈ rows) (chosen : selected row = true)
    (sole : ∀ other ∈ rows, selected other = true → other = row)
    : rows.find? selected = some row := by
  cases found : rows.find? selected with
  | none => exact absurd chosen (List.find?_eq_none.mp found row member)
  | some other =>
      have same := sole other (List.mem_of_find?_eq_some found) (List.find?_some found)
      rw [same]

variable {τ : Type}

/-- Every row is linked to a row of the other table: a foreign key. -/
def References (link : ρ → τ → Prop) (rows : List ρ) (targets : List τ) : Prop :=
  ∀ row ∈ rows, ∃ target ∈ targets, link row target

namespace References

variable {link : ρ → τ → Prop} {rows others : List ρ} {targets : List τ}
  (refers : References link rows targets)

include refers

theorem append_targets (added : List τ) : References link rows (targets ++ added) := by
  intro row member
  obtain ⟨target, among, linked⟩ := refers row member
  exact ⟨target, List.mem_append_left _ among, linked⟩

theorem append_rows (new : References link added targets)
    : References link (rows ++ added) targets := by
  intro row member
  rcases List.mem_append.mp member with earlier | later
  · exact refers row earlier
  · exact new row later

theorem append_row {added : ρ} {target : τ} (member : target ∈ targets) (linked : link added target)
    : References link (rows ++ [added]) targets := by
  apply refers.append_rows
  intro row among
  rw [List.mem_singleton.mp among]
  exact ⟨target, member, linked⟩

/-- Links compose. -/
theorem trans {σ : Type} {last : List σ} {second : τ → σ → Prop} {composed : ρ → σ → Prop}
    (next : References second targets last)
    (compose : ∀ row target goal, link row target → second target goal → composed row goal)
    : References composed rows last := by
  intro row member
  obtain ⟨target, among, linked⟩ := refers row member
  obtain ⟨goal, endMember, linkedEnd⟩ := next target among
  exact ⟨goal, endMember, compose row target goal linked linkedEnd⟩

/-- A link between columns that both tables keep is kept. -/
theorem transport {keptTarget : τ → τ} {otherTargets : List τ}
    (same : others.map kept = rows.map kept)
    (sameTargets : otherTargets.map keptTarget = targets.map keptTarget)
    (factors : ∀ row target, link (kept row) (keptTarget target) ↔ link row target)
    : References link others otherTargets := by
  intro row member
  have among : kept row ∈ rows.map kept := same ▸ List.mem_map_of_mem member
  obtain ⟨old, oldMember, sameRow⟩ := List.mem_map.mp among
  obtain ⟨target, targetMember, linked⟩ := refers old oldMember
  have among : keptTarget target ∈ otherTargets.map keptTarget :=
    sameTargets ▸ List.mem_map_of_mem targetMember
  obtain ⟨new, newMember, sameTarget⟩ := List.mem_map.mp among
  refine ⟨new, newMember, (factors row new).mp ?_⟩
  rw [← sameRow, sameTarget]
  exact (factors old target).mpr linked

end References

/-- Every row is linked to its form after an update. -/
theorem references_updateWhere {link : ρ → ρ → Prop} {condition : ρ → Bool} {change : ρ → ρ}
    (refl : ∀ row, link row row)
    (changed : ∀ row ∈ rows, condition row = true → link row (change row))
    : References link rows (updateWhere condition change rows) := by
  intro row member
  cases met : condition row with
  | true => exact ⟨change row, mem_updateWhere_of_met member met, changed row member met⟩
  | false => exact ⟨row, mem_updateWhere_of_spared member met, refl row⟩

/-- The later form of a row: its fixed columns are the same, and all of it once it is settled. -/
def Evolves (fixed : ρ → ρ) (settled : ρ → Prop) (old new : ρ) : Prop :=
  fixed new = fixed old ∧ (settled old → new = old)

variable {fixed : ρ → ρ} {settled : ρ → Prop}

theorem Evolves.refl (row : ρ) : Evolves fixed settled row row :=
  ⟨rfl, fun _ => rfl⟩

variable {old new : ρ}

/-- A change of rows that are not settled. -/
theorem Evolves.of_unsettled (kept : fixed new = fixed old) (unsettled : ¬settled old)
    : Evolves fixed settled old new :=
  ⟨kept, fun concluded => absurd concluded unsettled⟩

theorem Evolves.trans {middle : ρ} (first : Evolves fixed settled old middle)
    (second : Evolves fixed settled middle new)
    : Evolves fixed settled old new := by
  refine ⟨second.1.trans first.1, fun concluded => ?_⟩
  have same := first.2 concluded
  subst same
  exact second.2 concluded

end Scanipy.Library

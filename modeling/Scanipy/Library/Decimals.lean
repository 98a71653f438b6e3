import Mathlib.Data.Int.Log
import Mathlib.Data.Rat.Floor
import Mathlib.Tactic.Linarith
import Mathlib.Tactic.FieldSimp
import Mathlib.Tactic.Ring

/-! Rounding decimals half to even: to an integer, to the multiples of a quantum, and to a number of
significant digits.
-/

namespace Scanipy.Library

/-- The nearest integer; the even one where two are as near. -/
def roundHalfEven (value : ℚ) : ℤ :=
  let rest := value - ⌊value⌋
  if rest < 1 / 2 ∨ rest = 1 / 2 ∧ ⌊value⌋ % 2 = 0 then ⌊value⌋ else ⌊value⌋ + 1

variable {value : ℚ} {bound : ℤ}

/-- What is rounded up to a bound at most. -/
theorem roundHalfEven_le
    : roundHalfEven value ≤ bound
      ↔ value < bound + 1 / 2 ∨ value = bound + 1 / 2 ∧ bound % 2 = 0 := by
  have below := Int.floor_le value
  have above := Int.lt_floor_add_one value
  unfold roundHalfEven
  dsimp only
  rcases lt_trichotomy ⌊value⌋ bound with less | rfl | more
  · have far : (⌊value⌋ : ℚ) + 1 ≤ bound := by exact_mod_cast less
    have first : value < bound + 1 / 2 := by linarith
    refine iff_of_true ?_ (.inl first)
    split
    · exact less.le
    · exact less
  · split
    next down =>
      refine iff_of_true le_rfl ?_
      rcases down with down | ⟨middle, even⟩
      · exact .inl (by linarith)
      · exact .inr ⟨by linarith, even⟩
    next up =>
      refine iff_of_false (by omega) ?_
      rintro (small | ⟨middle, even⟩)
      · exact up (.inl (by linarith))
      · exact up (.inr ⟨by linarith, even⟩)
  · have far : (bound : ℚ) + 1 ≤ ⌊value⌋ := by exact_mod_cast more
    refine iff_of_false ?_ ?_
    · split
      · exact not_le.mpr more
      · omega
    · rintro (small | ⟨middle, _⟩)
      · linarith
      · linarith

theorem roundHalfEven_intCast (value : ℤ) : roundHalfEven value = value := by
  simp [roundHalfEven]

variable {small large : ℚ}

theorem roundHalfEven_mono (within : small ≤ large)
    : roundHalfEven small ≤ roundHalfEven large := by
  rw [roundHalfEven_le]
  rcases roundHalfEven_le.mp (le_refl (roundHalfEven large)) with less | ⟨middle, even⟩
  · exact .inl (within.trans_lt less)
  · rcases within.lt_or_eq with less | rfl
    · exact .inl (less.trans_eq middle)
    · exact .inr ⟨middle, even⟩

/-- The nearest multiple of the quantum. -/
def roundTo (quantum value : ℚ) : ℚ :=
  roundHalfEven (value / quantum) * quantum

variable {quantum : ℚ}

theorem roundTo_le (positive : 0 < quantum)
    : roundTo quantum value ≤ bound * quantum
      ↔ value < (bound + 1 / 2) * quantum
        ∨ value = (bound + 1 / 2) * quantum ∧ bound % 2 = 0 := by
  rw [roundTo, mul_le_mul_iff_left₀ positive, Int.cast_le, roundHalfEven_le,
    div_lt_iff₀ positive, div_eq_iff positive.ne']

theorem le_roundTo (positive : 0 < quantum)
    : bound * quantum ≤ roundTo quantum value
      ↔ (bound - 1 / 2) * quantum < value
        ∨ value = (bound - 1 / 2) * quantum ∧ bound % 2 = 0 := by
  have less : roundTo quantum value < bound * quantum
      ↔ roundTo quantum value ≤ (bound - 1 : ℤ) * quantum := by
    rw [roundTo, mul_lt_mul_iff_left₀ positive, mul_le_mul_iff_left₀ positive, Int.cast_lt,
      Int.cast_le, ← Int.le_sub_one_iff]
  have middle : ((bound - 1 : ℤ) + 1 / 2 : ℚ) = bound - 1 / 2 := by
    push_cast
    ring
  rw [← not_lt, less, roundTo_le positive, middle]
  constructor
  · intro not
    rcases lt_trichotomy value ((bound - 1 / 2) * quantum) with small | same | large
    · exact absurd (.inl small) not
    · exact .inr ⟨same, by_contra fun odd => not (.inr ⟨same, by omega⟩)⟩
    · exact .inl large
  · rintro (large | ⟨same, even⟩) (small | ⟨_, odd⟩)
    · exact lt_asymm large small
    · linarith
    · exact small.ne same
    · omega

theorem roundTo_mono (positive : 0 < quantum) : Monotone (roundTo quantum) := by
  intro small large within
  refine mul_le_mul_of_nonneg_right ?_ positive.le
  exact_mod_cast roundHalfEven_mono (div_le_div_of_nonneg_right within positive.le)

/-- A multiple of the quantum stays. -/
theorem roundTo_mul (positive : 0 < quantum) (value : ℤ)
    : roundTo quantum (value * quantum) = value * quantum := by
  rw [roundTo, mul_div_cancel_right₀ _ positive.ne', roundHalfEven_intCast]

/-- What a number has at the last of its significant digits. -/
def lastPlace (digits : ℕ) (value : ℚ) : ℚ :=
  10 ^ (Int.log 10 value + 1 - digits)

/-- A number that is not negative, rounded to significant digits. -/
def roundDigits (digits : ℕ) (value : ℚ) : ℚ :=
  if value = 0 then 0 else roundTo (lastPlace digits value) value

variable {digits : ℕ} {value : ℚ}

theorem lastPlace_pos (digits : ℕ) (value : ℚ) : 0 < lastPlace digits value :=
  zpow_pos (by norm_num) _

theorem roundDigits_of_pos (positive : 0 < value)
    : roundDigits digits value = roundTo (lastPlace digits value) value :=
  if_neg positive.ne'

/-- A power of ten that is no smaller than the last place is a multiple of it. -/
theorem exists_mul_lastPlace (digits : ℕ) (value : ℚ) (power : ℤ)
    (above : Int.log 10 value + 1 - digits ≤ power)
    : ∃ count : ℤ, (10 : ℚ) ^ power = count * lastPlace digits value := by
  obtain ⟨places, same⟩ := Int.le.dest above
  refine ⟨10 ^ places, ?_⟩
  rw [lastPlace, ← same, add_comm, zpow_add₀ (by norm_num), zpow_natCast]
  push_cast
  rfl

/-- Rounding stays between the powers of ten around a number. -/
theorem roundDigits_bounds {digits : ℕ} (some : 0 < digits) (positive : 0 < value)
    : (10 : ℚ) ^ Int.log 10 value ≤ roundDigits digits value
      ∧ roundDigits digits value ≤ 10 ^ (Int.log 10 value + 1) := by
  have place := lastPlace_pos digits value
  have lower : (10 : ℚ) ^ Int.log 10 value ≤ value := by
    exact_mod_cast Int.zpow_log_le_self (by norm_num) positive
  have upper : value ≤ (10 : ℚ) ^ (Int.log 10 value + 1) := by
    exact_mod_cast (Int.lt_zpow_succ_log_self (by norm_num) value).le
  rw [roundDigits_of_pos positive]
  constructor
  · obtain ⟨count, same⟩ := exists_mul_lastPlace digits value
      (Int.log 10 value) (by omega)
    rw [same] at lower ⊢
    exact (roundTo_mul place count).symm.trans_le (roundTo_mono place lower)
  · obtain ⟨count, same⟩ := exists_mul_lastPlace digits value
      (Int.log 10 value + 1) (by omega)
    rw [same] at upper ⊢
    exact (roundTo_mono place upper).trans_eq (roundTo_mul place count)

/-- A power of ten stays. -/
theorem roundDigits_zpow (some : 0 < digits) (power : ℤ)
    : roundDigits digits (10 ^ power) = 10 ^ power := by
  have log : Int.log 10 ((10 : ℚ) ^ power) = power := by
    exact_mod_cast Int.log_zpow (R := ℚ) (b := 10) (by norm_num) power
  obtain ⟨count, same⟩ := exists_mul_lastPlace digits (10 ^ power) power (by omega)
  rw [roundDigits_of_pos (zpow_pos (by norm_num) power)]
  calc roundTo (lastPlace digits (10 ^ power)) (10 ^ power)
      = roundTo (lastPlace digits (10 ^ power)) (count * lastPlace digits (10 ^ power)) := by
        rw [← same]
    _ = count * lastPlace digits (10 ^ power) := roundTo_mul (lastPlace_pos digits _) count
    _ = 10 ^ power := same.symm

theorem roundDigits_mono (some : 0 < digits) (nonneg : 0 ≤ small) (within : small ≤ large)
    : roundDigits digits small ≤ roundDigits digits large := by
  rcases nonneg.eq_or_lt with rfl | positive
  · rcases within.eq_or_lt with rfl | above
    · exact le_rfl
    · rw [roundDigits, if_pos rfl]
      exact (zpow_nonneg (by norm_num) _).trans (roundDigits_bounds some above).1
  · have above := positive.trans_le within
    rcases (Int.log_mono_right (b := 10) positive within).eq_or_lt with same | less
    · have place : lastPlace digits small = lastPlace digits large := by
        rw [lastPlace, lastPlace, same]
      rw [roundDigits_of_pos positive, roundDigits_of_pos above, place]
      exact roundTo_mono (lastPlace_pos digits large) within
    · calc roundDigits digits small ≤ 10 ^ (Int.log 10 small + 1) :=
            (roundDigits_bounds some positive).2
        _ ≤ 10 ^ Int.log 10 large := zpow_le_zpow_right₀ (by norm_num) less
        _ ≤ roundDigits digits large := (roundDigits_bounds some above).1

end Scanipy.Library

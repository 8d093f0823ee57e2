import Mathlib.Algebra.Order.BigOperators.Group.List
import Mathlib.Algebra.Order.Field.Basic
import Mathlib.Data.Rat.Cast.Order
import Mathlib.Tactic.FieldSimp
import Mathlib.Tactic.Linarith
import Mathlib.Tactic.Positivity
import Mathlib.Tactic.Ring

/-! Integer shares of an amount, in proportion to parts of a whole. The proportion is
first rounded down to a number of units of a scale, and the share of the amount is
rounded down again. -/

namespace Stakenet.ProRata

/-- The proportion of a part, in units of the scale. -/
def units (scale part whole : Nat) : Nat := part * scale / whole

/-- The share of what is available. -/
def share (scale available part whole : Nat) : Nat :=
  available * units scale part whole / scale

variable {scale available part whole : Nat}

/-! ## Shares are conservative -/

theorem share_mul_le (positive : 0 < scale) :
    share scale available part whole * whole ≤ available * part := by
  have rounded : share scale available part whole * scale ≤
      available * units scale part whole := Nat.div_mul_le_self _ _
  have proportion : units scale part whole * whole ≤ part * scale := Nat.div_mul_le_self _ _
  apply Nat.le_of_mul_le_mul_right _ positive
  calc share scale available part whole * whole * scale
      = share scale available part whole * scale * whole := Nat.mul_right_comm _ _ _
    _ ≤ available * units scale part whole * whole := Nat.mul_le_mul_right _ rounded
    _ = available * (units scale part whole * whole) := Nat.mul_assoc _ _ _
    _ ≤ available * (part * scale) := Nat.mul_le_mul_left _ proportion
    _ = available * part * scale := (Nat.mul_assoc _ _ _).symm

@[simp] theorem share_zero_whole (scale available part : Nat) :
    share scale available part 0 = 0 := by
  simp [share, units]

/-- The shares of parts that fit in the whole fit in what is available. -/
theorem sum_share_le (positive : 0 < scale) {parts : List Nat} (fits : parts.sum ≤ whole) :
    (parts.map fun part => share scale available part whole).sum ≤ available := by
  rcases Nat.eq_zero_or_pos whole with rfl | nonempty
  · simp
  · have scaled : (parts.map fun part => share scale available part whole).sum * whole ≤
        available * parts.sum := by
      clear fits
      induction parts with
      | nil => simp
      | cons part rest induction =>
          have first : share scale available part whole * whole ≤ available * part :=
            share_mul_le positive
          rw [List.map_cons, List.sum_cons, List.sum_cons, Nat.add_mul, Nat.mul_add]
          exact Nat.add_le_add first induction
    apply Nat.le_of_mul_le_mul_right _ nonempty
    exact scaled.trans (Nat.mul_le_mul_left _ fits)

theorem share_le_of_part_le (positive : 0 < scale) (part_le : part ≤ whole) :
    share scale available part whole ≤ available := by
  have fits : [part].sum ≤ whole := by simpa using part_le
  have single : ([part].map fun part => share scale available part whole).sum ≤ available :=
    sum_share_le positive fits
  simpa using single

/-- A part beyond the whole still has a share of what is available only while it
exceeds the whole by little. -/
theorem share_le_available_iff (positive : 0 < scale) (nonempty : 0 < whole)
    (some : 0 < available) :
    share scale available part whole ≤ available ↔
      part * scale < (scale + (scale - 1) / available + 1) * whole := by
  have limit : (available * scale + (scale - 1)) / available =
      scale + (scale - 1) / available := Nat.mul_add_div some _ _
  calc share scale available part whole ≤ available
      ↔ available * units scale part whole / scale < available + 1 := Nat.lt_succ_iff.symm
    _ ↔ available * units scale part whole < (available + 1) * scale :=
        Nat.div_lt_iff_lt_mul positive
    _ ↔ units scale part whole * available ≤ available * scale + (scale - 1) := by
        rw [Nat.add_mul, Nat.one_mul, Nat.mul_comm available (units scale part whole)]
        omega
    _ ↔ units scale part whole ≤ (available * scale + (scale - 1)) / available :=
        (Nat.le_div_iff_mul_le some).symm
    _ ↔ units scale part whole < scale + (scale - 1) / available + 1 := by
        rw [limit]
        exact Nat.lt_succ_iff.symm
    _ ↔ part * scale < (scale + (scale - 1) / available + 1) * whole :=
        Nat.div_lt_iff_lt_mul nonempty

/-! ## Shares are accurate -/

theorem share_le_proportion (positive : 0 < scale) (nonempty : 0 < whole) :
    (share scale available part whole : ℚ) ≤ available * part / whole := by
  rw [le_div_iff₀ (by exact_mod_cast nonempty)]
  exact_mod_cast share_mul_le positive

/-- Rounding loses less than one unit of the scale and one of the result. -/
theorem proportion_lt_share (positive : 0 < scale) (nonempty : 0 < whole) :
    (available * part / whole : ℚ) - available / scale - 1 < share scale available part whole := by
  have scalePos : (0 : ℚ) < scale := by exact_mod_cast positive
  have wholePos : (0 : ℚ) < whole := by exact_mod_cast nonempty
  have roundedNat : available * units scale part whole <
      (share scale available part whole + 1) * scale := by
    rw [Nat.mul_comm _ scale]
    exact Nat.lt_mul_div_succ _ positive
  have unitsNat : part * scale < (units scale part whole + 1) * whole := by
    rw [Nat.mul_comm _ whole]
    exact Nat.lt_mul_div_succ _ nonempty
  have rounded : (available * units scale part whole : ℚ) <
      (share scale available part whole + 1) * scale := by exact_mod_cast roundedNat
  have proportion : (part * scale / whole : ℚ) < units scale part whole + 1 := by
    rw [div_lt_iff₀ wholePos]
    exact_mod_cast unitsNat
  have scaled : (available * (part * scale / whole) : ℚ) ≤
      available * (units scale part whole + 1) :=
    mul_le_mul_of_nonneg_left proportion.le (by positivity)
  have whole_ne : (whole : ℚ) ≠ 0 := wholePos.ne'
  have bound : (available * part / whole : ℚ) * scale - available - scale <
      share scale available part whole * scale := by
    have rearranged : (available * part / whole : ℚ) * scale =
        available * (part * scale / whole) := by ring
    rw [rearranged]
    linarith
  have divided : (available * part / whole : ℚ) - available / scale - 1 =
      ((available * part / whole : ℚ) * scale - available - scale) / scale := by
    field_simp
  rw [divided, div_lt_iff₀ scalePos]
  exact bound

end Stakenet.ProRata

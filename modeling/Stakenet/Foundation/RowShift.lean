import Mathlib.Logic.Function.Basic

/-! Deleting one row of an array by moving the following rows down. An array is
a total function of the row. -/

namespace Stakenet

variable {α : Type u}

/-- The rows of `[first, stop)` take the value of the row after them. -/
def shiftDown (rows : Nat → α) (first stop : Nat) : Nat → α := fun row =>
  if first ≤ row ∧ row < stop then rows (row + 1) else rows row

/-- Rows shifted down to `bound`, with the row at `bound` cleared. -/
def deleteRow (rows : Nat → α) (index bound : Nat) (filler : α) : Nat → α := fun row =>
  if row = bound then filler else shiftDown rows index bound row

theorem shiftDown_of_le (rows : Nat → α) {first stop : Nat} (empty : stop ≤ first) :
    shiftDown rows first stop = rows := by
  funext row
  exact if_neg (by omega)

/-- One more iteration of the copying loop. -/
theorem update_shiftDown (rows : Nat → α) {first row : Nat} (started : first ≤ row) :
    Function.update (shiftDown rows first row) row (shiftDown rows first row (row + 1)) =
      shiftDown rows first (row + 1) := by
  funext other
  by_cases same : other = row
  · subst other
    rw [Function.update_self]
    simp only [shiftDown]
    rw [if_neg (by omega), if_pos ⟨started, Nat.lt_succ_self row⟩]
  · rw [Function.update_of_ne same]
    have unaffected : (first ≤ other ∧ other < row) ↔ (first ≤ other ∧ other < row + 1) := by
      omega
    simp only [shiftDown, unaffected]

theorem update_shiftDown_filler (rows : Nat → α) (index bound : Nat) (filler : α) :
    Function.update (shiftDown rows index bound) bound filler =
      deleteRow rows index bound filler := by
  funext row
  by_cases same : row = bound
  · subst row
    simp [deleteRow]
  · rw [Function.update_of_ne same]
    simp [deleteRow, same]

theorem deleteRow_of_lt (rows : Nat → α) {index bound row : Nat} (filler : α)
    (below : row < index) (bounded : row ≠ bound) :
    deleteRow rows index bound filler row = rows row := by
  simp only [deleteRow, if_neg bounded, shiftDown]
  exact if_neg (by omega)

theorem deleteRow_of_le (rows : Nat → α) {index bound row : Nat} (filler : α)
    (atLeast : index ≤ row) (bounded : row < bound) :
    deleteRow rows index bound filler row = rows (row + 1) := by
  have different : row ≠ bound := by omega
  simp [deleteRow, different, shiftDown, atLeast, bounded]

@[simp] theorem deleteRow_bound (rows : Nat → α) (index bound : Nat) (filler : α) :
    deleteRow rows index bound filler bound = filler := by
  simp [deleteRow]

end Stakenet

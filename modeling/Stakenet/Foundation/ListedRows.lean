import Mathlib.Data.List.GetD
import Mathlib.Data.List.Nodup
import Stakenet.Foundation.RowShift

/-! A list kept at the beginning of an array, with a filler behind it: appending to the
list writes one row, and erasing from it moves the following rows down. -/

namespace Stakenet

variable {α : Type u} {filler item : α} {items : List α} {rows : Nat → α} {row : Nat}

/-- The rows begin with the items of the list, in their order. -/
def Lists (filler : α) (items : List α) (rows : Nat → α) : Prop :=
  ∀ row, rows row = items.getD row filler

namespace Lists

theorem nil (filler : α) : Lists filler [] fun _ => filler :=
  fun _ => rfl

theorem row_eq (listed : Lists filler items rows) (inside : row < items.length) :
    rows row = items[row] := by
  rw [listed row, List.getD_eq_getElem _ _ inside]

theorem filler_of_le (listed : Lists filler items rows) (outside : items.length ≤ row) :
    rows row = filler := by
  rw [listed row, List.getD_eq_default _ _ outside]

theorem mem_iff (listed : Lists filler items rows) :
    item ∈ items ↔ ∃ row < items.length, rows row = item := by
  rw [List.mem_iff_getElem]
  constructor
  · rintro ⟨row, inside, rfl⟩
    exact ⟨row, inside, listed.row_eq inside⟩
  · rintro ⟨row, inside, rfl⟩
    exact ⟨row, inside, (listed.row_eq inside).symm⟩

/-- An item is appended by writing it to the first row behind the list. -/
theorem push (listed : Lists filler items rows) (item : α) :
    Lists filler (items ++ [item]) (Function.update rows items.length item) := by
  intro row
  rcases Nat.lt_trichotomy row items.length with inside | rfl | outside
  · rw [Function.update_of_ne (Nat.ne_of_lt inside), listed row, List.getD_append _ _ _ _ inside]
  · rw [Function.update_self, List.getD_append_right _ _ _ _ (Nat.le_refl _), Nat.sub_self]
    rfl
  · rw [Function.update_of_ne (Nat.ne_of_gt outside), listed.filler_of_le (Nat.le_of_lt outside)]
    exact (List.getD_eq_default _ _ (by simp; omega)).symm

/-- An item is erased by moving all that follow it down by one row. -/
theorem eraseRow (listed : Lists filler items rows) {index : Nat}
    (inside : index < items.length) :
    Lists filler (items.eraseIdx index) (deleteRow rows index (items.length - 1) filler) := by
  intro row
  rw [List.getD_eq_getElem?_getD, List.getElem?_eraseIdx]
  by_cases last : row = items.length - 1
  · subst row
    have following : items.length - 1 + 1 = items.length := by omega
    rw [deleteRow_bound, if_neg (by omega), following, List.getElem?_eq_none (Nat.le_refl _)]
    rfl
  · by_cases before : row < index
    · rw [deleteRow_of_lt rows filler before last, if_pos before, listed row,
        List.getD_eq_getElem?_getD]
    · rw [if_neg before]
      by_cases outside : items.length ≤ row
      · have unaffected : deleteRow rows index (items.length - 1) filler row = rows row := by
          rw [deleteRow, if_neg last, shiftDown, if_neg (by omega)]
        rw [unaffected, listed.filler_of_le outside, List.getElem?_eq_none (by omega)]
        rfl
      · rw [deleteRow_of_le rows filler (by omega) (by omega), listed (row + 1),
          List.getD_eq_getElem?_getD]

/-- In a list without duplicates the row of an item is the one to erase. -/
theorem erase [DecidableEq α] (listed : Lists filler items rows) (distinct : items.Nodup)
    {index : Nat} (inside : index < items.length) (found : rows index = item) :
    Lists filler (items.erase item) (deleteRow rows index (items.length - 1) filler) := by
  have first : items.idxOf item = index := by
    rw [← found, listed.row_eq inside]
    exact distinct.idxOf_getElem index inside
  rw [List.erase_eq_eraseIdx_of_idxOf first]
  exact listed.eraseRow inside

end Lists

end Stakenet

import Mathlib.Data.Finset.Card
import Mathlib.Data.Finset.Image
import Mathlib.Order.Interval.Finset.Nat
import Stakenet.Foundation.RowShift

/-! Sets of rows that are kept in Boolean arrays, and what deleting a row does to them. -/

namespace Stakenet

/-- Where a row is once `index` was deleted and the rows up to `bound` moved down. -/
def closeGap (index bound row : Nat) : Nat :=
  if index < row ∧ row ≤ bound then row - 1 else row

/-- The rows of a set behind a deletion. -/
def withoutRow (marked : Finset Nat) (index bound : Nat) : Finset Nat :=
  (marked.erase index).image (closeGap index bound)

section Deletion

variable {marked : Finset Nat} {index bound row : Nat}

theorem closeGap_le : closeGap index bound row ≤ row := by
  unfold closeGap
  split
  · exact Nat.sub_le _ _
  · exact Nat.le_refl _

/-- The other rows keep their order. -/
theorem closeGap_lt_closeGap {first second : Nat} (firstOther : first ≠ index)
    (secondOther : second ≠ index) :
    closeGap index bound first < closeGap index bound second ↔ first < second := by
  unfold closeGap
  split <;> split <;> omega

theorem closeGap_inj {first second : Nat} (firstOther : first ≠ index)
    (secondOther : second ≠ index)
    (same : closeGap index bound first = closeGap index bound second) : first = second := by
  rcases Nat.lt_trichotomy first second with less | equal | greater
  · exact absurd same (Nat.ne_of_lt ((closeGap_lt_closeGap firstOther secondOther).mpr less))
  · exact equal
  · exact absurd same.symm
      (Nat.ne_of_lt ((closeGap_lt_closeGap secondOther firstOther).mpr greater))

theorem closeGap_injOn : Set.InjOn (closeGap index bound) (marked.erase index) := by
  intro first firstMember second secondMember same
  exact closeGap_inj (Finset.ne_of_mem_erase firstMember) (Finset.ne_of_mem_erase secondMember)
    same

theorem card_withoutRow : (withoutRow marked index bound).card = (marked.erase index).card :=
  Finset.card_image_of_injOn closeGap_injOn

theorem card_withoutRow_le : (withoutRow marked index bound).card ≤ marked.card := by
  rw [card_withoutRow]
  exact Finset.card_le_card (Finset.erase_subset _ _)

theorem card_withoutRow_lt (member : index ∈ marked) :
    (withoutRow marked index bound).card < marked.card := by
  rw [card_withoutRow]
  exact Finset.card_erase_lt_of_mem member

theorem mem_withoutRow :
    row ∈ withoutRow marked index bound ↔
      ∃ old ∈ marked, old ≠ index ∧ closeGap index bound old = row := by
  simp only [withoutRow, Finset.mem_image, Finset.mem_erase]
  constructor
  · rintro ⟨old, ⟨other, member⟩, rfl⟩
    exact ⟨old, member, other, rfl⟩
  · rintro ⟨old, member, other, rfl⟩
    exact ⟨old, ⟨other, member⟩, rfl⟩

theorem closeGap_mem_withoutRow (other : row ≠ index) :
    closeGap index bound row ∈ withoutRow marked index bound ↔ row ∈ marked := by
  constructor
  · intro member
    rcases mem_withoutRow.mp member with ⟨old, isMarked, oldOther, same⟩
    exact closeGap_inj oldOther other same ▸ isMarked
  · intro isMarked
    exact mem_withoutRow.mpr ⟨row, isMarked, other, rfl⟩

/-- A deletion from the array is one from the set. -/
theorem deleteRow_eq_true {rows : Nat → Bool} (inside : index ≤ bound) :
    deleteRow rows index bound false row = true ↔
      ∃ old, rows old = true ∧ old ≠ index ∧ closeGap index bound old = row := by
  constructor
  · intro kept
    by_cases last : row = bound
    · rw [last, deleteRow_bound] at kept
      cases kept
    · by_cases moved : index ≤ row ∧ row < bound
      · rw [deleteRow_of_le rows false moved.1 moved.2] at kept
        refine ⟨row + 1, kept, by omega, ?_⟩
        rw [closeGap, if_pos (by omega)]
        rfl
      · rw [deleteRow, if_neg last, shiftDown, if_neg moved] at kept
        refine ⟨row, kept, by omega, ?_⟩
        rw [closeGap, if_neg (by omega)]
  · rintro ⟨old, kept, other, rfl⟩
    by_cases moved : index < old ∧ old ≤ bound
    · rw [closeGap, if_pos moved, deleteRow_of_le rows false (by omega) (by omega),
        Nat.sub_add_cancel (by omega)]
      exact kept
    · rw [closeGap, if_neg moved, deleteRow, if_neg (by omega), shiftDown, if_neg (by omega)]
      exact kept

end Deletion

/-! ## Rows that are deleted one after the other -/

section Turn

variable {marked : Finset Nat} {index bound row : Nat}

/-- The place a row has once the marked rows before it are gone. -/
def turn (marked : Finset Nat) (row : Nat) : Nat := row - (marked.filter (· < row)).card

theorem card_before_le : (marked.filter (· < row)).card ≤ row := by
  have below : marked.filter (· < row) ⊆ Finset.range row := by
    intro other member
    exact Finset.mem_range.mpr (Finset.mem_filter.mp member).2
  exact (Finset.card_le_card below).trans (Finset.card_range row).le

/-- Deleting the first marked row does not change the places of the others. -/
theorem turn_withoutRow (member : index ∈ marked) (later : index < row) (inside : row ≤ bound) :
    turn (withoutRow marked index bound) (closeGap index bound row) = turn marked row := by
  have other : row ≠ index := by omega
  have before : (withoutRow marked index bound).filter (· < closeGap index bound row) =
      withoutRow (marked.filter (· < row)) index bound := by
    ext place
    simp only [Finset.mem_filter, mem_withoutRow]
    constructor
    · rintro ⟨⟨old, isMarked, apart, rfl⟩, less⟩
      exact ⟨old, ⟨isMarked, (closeGap_lt_closeGap apart other).mp less⟩, apart, rfl⟩
    · rintro ⟨old, ⟨isMarked, less⟩, apart, rfl⟩
      exact ⟨⟨old, isMarked, apart, rfl⟩, (closeGap_lt_closeGap apart other).mpr less⟩
  have first : index ∈ marked.filter (· < row) := Finset.mem_filter.mpr ⟨member, later⟩
  have some : 0 < (marked.filter (· < row)).card := Finset.card_pos.mpr ⟨index, first⟩
  rw [turn, turn, before, card_withoutRow, Finset.card_erase_of_mem first, closeGap,
    if_pos ⟨later, inside⟩]
  omega

/-- Of rows below `size`, all come to a place below the number of unmarked rows exactly if the
last row is not marked. -/
theorem turn_lt_iff {size : Nat} (inside : ∀ row ∈ marked, row < size) :
    (∀ row ∈ marked, turn marked row < size - marked.card) ↔ size - 1 ∉ marked := by
  constructor
  · intro early last
    have others : marked.filter (· < size - 1) = marked.erase (size - 1) := by
      ext row
      rw [Finset.mem_filter, Finset.mem_erase]
      constructor
      · rintro ⟨member, before⟩
        exact ⟨by omega, member⟩
      · rintro ⟨apart, member⟩
        exact ⟨member, by have := inside row member; omega⟩
    have bounded := inside _ last
    have some : 0 < marked.card := Finset.card_pos.mpr ⟨_, last⟩
    have place := early _ last
    rw [turn, others, Finset.card_erase_of_mem last] at place
    omega
  · intro unmarked row member
    have bounded := inside row member
    have fewer : (marked.filter fun other => ¬other < row).card ≤ size - 1 - row := by
      have sub : (marked.filter fun other => ¬other < row) ⊆ Finset.Ico row (size - 1) := by
        intro other inFilter
        rcases Finset.mem_filter.mp inFilter with ⟨isMarked, notBefore⟩
        have apart : other ≠ size - 1 := fun same => unmarked (same ▸ isMarked)
        have otherBounded := inside other isMarked
        rw [Finset.mem_Ico]
        omega
      exact (Finset.card_le_card sub).trans (Nat.card_Ico _ _).le
    have split := Finset.card_filter_add_card_filter_not (s := marked) (· < row)
    have some : 0 < (marked.filter fun other => ¬other < row).card :=
      Finset.card_pos.mpr ⟨row, Finset.mem_filter.mpr ⟨member, Nat.lt_irrefl row⟩⟩
    have before : (marked.filter (· < row)).card ≤ row := card_before_le
    rw [turn]
    omega

end Turn

end Stakenet

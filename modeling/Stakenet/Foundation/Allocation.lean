import Mathlib.Algebra.Order.BigOperators.Group.List
import Mathlib.Algebra.Order.Ring.Nat
import Mathlib.Data.List.Nodup

/-! One budget given out along a line of needs, first come first served. -/

namespace Stakenet.Allocation

variable {ρ : Type u} [DecidableEq ρ]

/-- The items that come before an item. -/
def ahead (order : List ρ) (item : ρ) : List ρ := order.takeWhile (· ≠ item)

/-- What an item gets: its need, as far as the items ahead of it leave enough. -/
def allotted (need : ρ → Nat) (budget : Nat) (order : List ρ) (item : ρ) : Nat :=
  min (need item) (budget - ((ahead order item).map need).sum)

variable {need : ρ → Nat} {budget : Nat} {order : List ρ} {first item earlier : ρ}

@[simp] theorem ahead_cons_self (order : List ρ) (item : ρ) : ahead (item :: order) item = [] := by
  simp [ahead]

theorem ahead_cons_of_ne (order : List ρ) (other : first ≠ item) :
    ahead (first :: order) item = first :: ahead order item := by
  simp [ahead, other]

@[simp] theorem allotted_cons_self (need : ρ → Nat) (budget : Nat) (order : List ρ) (item : ρ) :
    allotted need budget (item :: order) item = min (need item) budget := by
  simp [allotted]

/-- Behind the first item the line goes on with what the first one leaves. -/
theorem allotted_cons_of_ne (need : ρ → Nat) (budget : Nat) (order : List ρ)
    (other : first ≠ item) :
    allotted need budget (first :: order) item =
      allotted need (budget - need first) order item := by
  simp only [allotted, ahead_cons_of_ne order other, List.map_cons, List.sum_cons]
  rw [Nat.sub_add_eq]

/-- No more is given out than there is. -/
theorem sum_allotted_le (distinct : order.Nodup) :
    (order.map (allotted need budget order)).sum ≤ budget := by
  induction order generalizing budget with
  | nil => simp
  | cons first rest induction =>
      rcases List.nodup_cons.mp distinct with ⟨fresh, distinct⟩
      have behind : rest.map (allotted need budget (first :: rest)) =
          rest.map (allotted need (budget - need first) rest) := by
        apply List.map_congr_left
        intro item member
        apply allotted_cons_of_ne
        rintro rfl
        exact fresh member
      have left : (rest.map (allotted need (budget - need first) rest)).sum ≤
          budget - need first := induction distinct
      rw [List.map_cons, List.sum_cons, behind, allotted_cons_self]
      omega

/-- Whoever gets something stands behind needs that are all met. -/
theorem allotted_eq_need (served : 0 < allotted need budget order item)
    (before : earlier ∈ ahead order item) : allotted need budget order earlier = need earlier := by
  induction order generalizing budget with
  | nil => simp [ahead] at before
  | cons first rest induction =>
      by_cases same : first = item
      · subst item
        rw [ahead_cons_self] at before
        cases before
      · rw [ahead_cons_of_ne rest same] at before
        rw [allotted_cons_of_ne need budget rest same] at served
        by_cases atFront : first = earlier
        · subst earlier
          rw [allotted_cons_self]
          apply Nat.min_eq_left
          unfold allotted at served
          omega
        · rw [allotted_cons_of_ne need budget rest atFront]
          apply induction served
          exact (List.mem_cons.mp before).resolve_left (Ne.symm atFront)

end Stakenet.Allocation

import Mathlib.Algebra.Order.BigOperators.Group.List
import Mathlib.Order.Bounds.Defs
import Stakenet.Foundation.Tally

/-! Items put in order by weight, numbers given to them in that order, and the prefixes that
outweigh a bound. -/

namespace Stakenet.Standings

open Tally (Totals)

variable {α : Type u} {β : Type v} {κ : Type w}

/-! ## Order -/

/-- By non-increasing weight. Items of one weight keep their order. -/
def descending (weight : α → Nat) (items : List α) : List α :=
  items.mergeSort fun first second => decide (weight second ≤ weight first)

theorem descending_perm (weight : α → Nat) (items : List α) :
    (descending weight items).Perm items :=
  List.mergeSort_perm _ _

theorem descending_pairwise (weight : α → Nat) (items : List α) :
    (descending weight items).Pairwise fun first second => weight second ≤ weight first := by
  have sorted : (descending weight items).Pairwise
      fun first second => decide (weight second ≤ weight first) = true := by
    apply List.pairwise_mergeSort
    · intro first second third before behind
      exact decide_eq_true
        ((of_decide_eq_true behind).trans (of_decide_eq_true before))
    · intro first second
      rw [Bool.or_eq_true, decide_eq_true_iff, decide_eq_true_iff]
      exact Nat.le_total _ _
  exact sorted.imp of_decide_eq_true

/-- Sorting commutes with a map that keeps the weights. -/
theorem map_descending {weight : α → Nat} {image : β → Nat} {transform : α → β}
    (weights : ∀ item, image (transform item) = weight item) (items : List α) :
    descending image (items.map transform) = (descending weight items).map transform := by
  rw [descending, descending, List.map_mergeSort]
  intro first _ second _
  rw [weights, weights]

/-! ## Numbers -/

section Numbers

variable [DecidableEq κ] {keys : List κ} {number : Nat → Nat}

/-- The map from the keys of a list to the numbers of their positions. A later entry replaces
an earlier one of its key. -/
def numbered (number : Nat → Nat) (keys : List κ) : Totals κ :=
  keys.zipIdx.foldl (fun numbers entry => numbers.insert entry.1 (number entry.2)) ∅

theorem numbered_append (keys : List κ) (last : κ) :
    numbered number (keys ++ [last]) =
      (numbered number keys).insert last (number keys.length) := by
  rw [numbered, List.zipIdx_append, List.foldl_append, Nat.zero_add]
  rfl

theorem mem_numbered {key : κ} : key ∈ numbered number keys ↔ key ∈ keys := by
  induction keys using List.reverseRecOn with
  | nil => exact iff_of_false Finmap.notMem_empty List.not_mem_nil
  | append_singleton keys last induction =>
      rw [numbered_append, Finmap.mem_insert, induction, List.mem_append, List.mem_singleton,
        or_comm]

theorem exists_of_lookup_numbered {key : κ} {value : Nat}
    (found : (numbered number keys).lookup key = some value) :
    ∃ position < keys.length, value = number position := by
  induction keys using List.reverseRecOn with
  | nil =>
      rw [numbered, List.zipIdx_nil, List.foldl_nil, Finmap.lookup_empty] at found
      cases found
  | append_singleton keys last induction =>
      rw [List.length_append, List.length_singleton]
      rw [numbered_append] at found
      by_cases same : key = last
      · rw [same, Finmap.lookup_insert, Option.some.injEq] at found
        exact ⟨keys.length, Nat.lt_succ_self _, found.symm⟩
      · rw [Finmap.lookup_insert_of_ne _ same] at found
        rcases induction found with ⟨position, bounded, rfl⟩
        exact ⟨position, Nat.lt_succ_of_lt bounded, rfl⟩

theorem lookup_numbered (number : Nat → Nat) (distinct : keys.Nodup) {position : Nat}
    (bounded : position < keys.length) :
    (numbered number keys).lookup keys[position] = some (number position) := by
  induction keys using List.reverseRecOn with
  | nil => exact absurd bounded (Nat.not_lt_zero _)
  | append_singleton keys last induction =>
      rw [List.nodup_append] at distinct
      rcases distinct with ⟨earlierDistinct, _, apart⟩
      rw [numbered_append]
      by_cases earlier : position < keys.length
      · have other : keys[position] ≠ last :=
          apart _ (List.getElem_mem earlier) last (List.mem_singleton_self last)
        rw [List.getElem_append_left earlier, Finmap.lookup_insert_of_ne _ other]
        exact induction earlierDistinct earlier
      · rw [List.length_append, List.length_singleton] at bounded
        have atLast : position = keys.length := by omega
        subst position
        rw [List.getElem_concat_length rfl]
        exact Finmap.lookup_insert _

end Numbers

/-! ## Prefixes -/

section Prefixes

variable {items : List α} {position : Nat}

/-- A list cut where a condition ceases to hold. -/
theorem take_eq_filter {holds : α → Bool}
    (before : ∀ item ∈ items.take position, holds item = true)
    (behind : ∀ item ∈ items.drop position, holds item = false) :
    items.take position = items.filter holds ∧
      items.drop position = items.filter fun item => !holds item := by
  have cut : ∀ test : α → Bool, items.filter test =
      (items.take position).filter test ++ (items.drop position).filter test := by
    intro test
    rw [← List.filter_append, List.take_append_drop]
  constructor
  · rw [cut, List.filter_eq_self.mpr before, List.filter_eq_nil_iff.mpr, List.append_nil]
    intro item member
    rw [behind item member]
    exact Bool.false_ne_true
  · rw [cut, List.filter_eq_nil_iff.mpr, List.filter_eq_self.mpr, List.nil_append]
    · intro item member
      rw [behind item member]
      rfl
    · intro item member
      rw [before item member]
      exact Bool.false_ne_true

variable {amounts : List Nat} {bound : Nat}

/-- The lengths of the prefixes that outweigh a bound. -/
def outweighing (amounts : List Nat) (bound : Nat) : Set Nat :=
  {length | bound < (amounts.take length).sum}

/-- If the whole list outweighs the bound, the shortest prefix that does is not empty. -/
theorem exists_isLeast_outweighing (outweighs : bound < amounts.sum) :
    ∃ position < amounts.length, IsLeast (outweighing amounts bound) (position + 1) := by
  have whole : ∃ length, bound < (amounts.take length).sum :=
    ⟨amounts.length, by rwa [List.take_length]⟩
  have reached := Nat.find_spec whole
  cases least : Nat.find whole with
  | zero =>
      rw [least, List.take_zero, List.sum_nil] at reached
      exact absurd reached (Nat.not_lt_zero _)
  | succ position =>
      have within : Nat.find whole ≤ amounts.length :=
        Nat.find_min' whole (by rwa [List.take_length])
      rw [least] at reached within
      refine ⟨position, within, reached, fun length longEnough => ?_⟩
      rw [← least]
      exact Nat.find_min' whole longEnough

end Prefixes

end Stakenet.Standings

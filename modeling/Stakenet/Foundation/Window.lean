import Mathlib.Data.Finset.Card
import Mathlib.Data.List.Sort

/-! Sorted lists of bounded length: insertion by a key, and what stays when only
so many of the largest elements are kept. -/

namespace Stakenet.Window

variable {α : Type u} {κ : Type v} [LinearOrder κ] {key : α → κ} {item : α}

/-! ## Insertion -/

/-- Sorted insertion by a key. -/
def insert (key : α → κ) (item : α) (items : List α) : List α :=
  items.orderedInsert (fun first second => key first ≤ key second) item

theorem mem_insert {items : List α} {other : α} :
    other ∈ insert key item items ↔ other = item ∨ other ∈ items :=
  List.mem_orderedInsert _

theorem length_insert (items : List α) : (insert key item items).length = items.length + 1 :=
  List.orderedInsert_length _ _ _

/-- Smaller elements in front stay where they are. -/
theorem insert_append_of_lt {first : List α} (below : ∀ other ∈ first, key other < key item)
    (second : List α) : insert key item (first ++ second) = first ++ insert key item second := by
  induction first with
  | nil => rfl
  | cons head rest induction =>
      rw [List.forall_mem_cons] at below
      rw [List.cons_append, List.cons_append, ← induction below.2]
      exact List.orderedInsert_of_not_le _ _ (not_le_of_gt below.1)

/-- Larger elements at the end stay where they are. -/
theorem insert_append_of_le {second : List α} (above : ∀ other ∈ second, key item ≤ key other)
    (first : List α) : insert key item (first ++ second) = insert key item first ++ second := by
  induction first with
  | nil =>
      cases second with
      | nil => rfl
      | cons head rest =>
          exact List.orderedInsert_cons_of_le _ _ (above head List.mem_cons_self)
  | cons head rest induction =>
      simp only [insert, List.cons_append, List.orderedInsert_cons] at induction ⊢
      split
      · rfl
      · rw [induction, List.cons_append]

/-- A key that is not there yet keeps the keys distinct. -/
theorem pairwise_insert {items : List α}
    (increasing : items.Pairwise fun first second => key first < key second)
    (fresh : ∀ other ∈ items, key other ≠ key item) :
    (insert key item items).Pairwise fun first second => key first < key second := by
  induction items with
  | nil => exact List.pairwise_singleton _ _
  | cons head rest induction =>
      rcases List.pairwise_cons.mp increasing with ⟨below, increasing⟩
      rw [List.forall_mem_cons] at fresh
      rw [insert, List.orderedInsert_cons]
      split
      case isTrue atMost =>
        have smaller : key item < key head := lt_of_le_of_ne atMost (Ne.symm fresh.1)
        refine List.pairwise_cons.mpr ⟨fun other member => ?_,
          List.pairwise_cons.mpr ⟨below, increasing⟩⟩
        rcases List.mem_cons.mp member with rfl | later
        · exact smaller
        · exact lt_trans smaller (below other later)
      case isFalse larger =>
        refine List.pairwise_cons.mpr ⟨fun other member => ?_, induction increasing fresh.2⟩
        rcases mem_insert.mp member with rfl | later
        · exact lt_of_not_ge larger
        · exact below other later

/-- A new key separates the smaller from the larger ones. -/
theorem insert_eq_append {items : List α}
    (increasing : items.Pairwise fun first second => key first < key second)
    (fresh : ∀ other ∈ items, key other ≠ key item) :
    ∃ smaller larger, items = smaller ++ larger ∧
      insert key item items = smaller ++ item :: larger ∧
      (∀ other ∈ smaller, key other < key item) ∧ ∀ other ∈ larger, key item < key other := by
  induction items with
  | nil => exact ⟨[], [], rfl, rfl, by simp, by simp⟩
  | cons head rest induction =>
      rcases List.pairwise_cons.mp increasing with ⟨above, increasing⟩
      rw [List.forall_mem_cons] at fresh
      rcases lt_or_gt_of_ne fresh.1 with smaller | larger
      · rcases induction increasing fresh.2 with ⟨first, second, split, inserted, below, beyond⟩
        refine ⟨head :: first, second, by rw [split, List.cons_append], ?_, ?_, beyond⟩
        · rw [insert, List.orderedInsert_cons, if_neg (not_le_of_gt smaller), ← insert, inserted,
            List.cons_append]
        · exact List.forall_mem_cons.mpr ⟨smaller, below⟩
      · refine ⟨[], head :: rest, rfl, ?_, by simp, List.forall_mem_cons.mpr ⟨larger, ?_⟩⟩
        · exact List.orderedInsert_cons_of_le _ _ (le_of_lt larger)
        · exact fun other member => lt_trans larger (above other member)

/-! ## Bounded length -/

/-- The last `count` elements. -/
def last (count : Nat) (items : List α) : List α :=
  items.drop (items.length - count)

theorem last_of_length_le {count : Nat} {items : List α} (fits : items.length ≤ count) :
    last count items = items := by
  rw [last, Nat.sub_eq_zero_of_le fits, List.drop_zero]

theorem length_last (count : Nat) (items : List α) :
    (last count items).length = min count items.length := by
  rw [last, List.length_drop]
  omega

theorem mem_of_mem_last {count : Nat} {items : List α} {other : α}
    (member : other ∈ last count items) : other ∈ items :=
  List.mem_of_mem_drop member

theorem take_append_last (count : Nat) (items : List α) :
    items.take (items.length - count) ++ last count items = items :=
  List.take_append_drop _ _

theorem map_last {β : Type w} (transform : α → β) (count : Nat) (items : List α) :
    (last count items).map transform = last count (items.map transform) := by
  rw [last, last, List.map_drop, List.length_map]

/-- What is cut off is smaller than what stays. -/
theorem cut_lt_last {count : Nat} {items : List α}
    (increasing : items.Pairwise fun first second => key first < key second) {cut kept : α}
    (isCut : cut ∈ items.take (items.length - count)) (isKept : kept ∈ last count items) :
    key cut < key kept := by
  rw [← take_append_last count items] at increasing
  exact (List.pairwise_append.mp increasing).2.2 cut isCut kept isKept

/-- Enough elements at the end hide those in front of them. -/
theorem last_append {count : Nat} {second : List α} (enough : count ≤ second.length)
    (first : List α) : last count (first ++ second) = last count second := by
  have reaches : (first ++ second).length - count = first.length + (second.length - count) := by
    rw [List.length_append]
    omega
  rw [last, last, reaches, List.drop_length_add_append]

/-- An element above some that stays can be inserted before or after the cut. -/
theorem last_insert_last {count : Nat} {items : List α}
    (increasing : items.Pairwise fun first second => key first < key second)
    (inside : ∃ other ∈ last count items, key other ≤ key item) :
    last count (insert key item (last count items)) = last count (insert key item items) := by
  by_cases fits : items.length ≤ count
  · rw [last_of_length_le fits]
  · rcases inside with ⟨other, stays, atMost⟩
    have below : ∀ cut ∈ items.take (items.length - count), key cut < key item :=
      fun cut isCut => lt_of_lt_of_le (cut_lt_last increasing isCut stays) atMost
    have enough : count ≤ (insert key item (last count items)).length := by
      rw [length_insert, length_last]
      omega
    calc last count (insert key item (last count items))
        = last count (items.take (items.length - count) ++ insert key item (last count items)) :=
          (last_append enough _).symm
      _ = last count (insert key item (items.take (items.length - count) ++ last count items)) := by
          rw [insert_append_of_lt below]
      _ = last count (insert key item items) := by rw [take_append_last]

/-- An element below all that stay is cut off at once. -/
theorem last_insert_of_lt {count : Nat} {items : List α} (full : count ≤ items.length)
    (below : ∀ other ∈ last count items, key item < key other) :
    last count (insert key item items) = last count items := by
  have lengths := length_last count items
  calc last count (insert key item items)
      = last count (insert key item (items.take (items.length - count) ++ last count items)) := by
        rw [take_append_last]
    _ = last count (insert key item (items.take (items.length - count)) ++ last count items) := by
        rw [insert_append_of_le fun other stays => le_of_lt (below other stays)]
    _ = last count (last count items) := last_append (by omega) _
    _ = last count items := last_of_length_le (by omega)

/-! ## The largest elements of a set -/

/-- `kept` are the `count` largest elements of `all`, or all of them. -/
structure Largest (count : Nat) (kept all : Finset κ) : Prop where
  subset : kept ⊆ all
  card : kept.card = min count all.card
  above : ∀ item ∈ kept, ∀ other ∈ all, other ∉ kept → other < item

theorem largest_last {items : List κ} (increasing : items.Pairwise (· < ·)) (count : Nat) :
    Largest count (last count items).toFinset items.toFinset where
  subset := fun item member => by
    rw [List.mem_toFinset] at member ⊢
    exact mem_of_mem_last member
  card := by
    have distinct : items.Nodup := increasing.imp ne_of_lt
    have stillDistinct : (last count items).Nodup := distinct.sublist (List.drop_sublist _ _)
    rw [List.toFinset_card_of_nodup distinct, List.toFinset_card_of_nodup stillDistinct,
      length_last]
  above := fun item stays other member goes => by
    rw [List.mem_toFinset] at stays member goes
    rw [← take_append_last count items, List.mem_append] at member
    have byIdentity : items.Pairwise fun first second => id first < id second := increasing
    exact cut_lt_last byIdentity (member.resolve_right goes) stays

end Stakenet.Window

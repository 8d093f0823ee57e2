import Stakenet.Foundation.Ring
import Stakenet.Foundation.Window

/-! Rings of items with increasing keys. A slot that has not been filled has a key of its own. -/

namespace Stakenet.KeyedRing

variable {α : Type u} {κ : Type v} [LinearOrder κ] {key : α → κ} {blank : κ}

/-! ## Changing one item of a sorted list -/

/-- A change of the item with a key. -/
def amend (key : α → κ) (goal : κ) (change : α → α) (items : List α) : List α :=
  items.map fun item => if key item = goal then change item else item

theorem amend_of_absent {goal : κ} {items : List α} (absent : ∀ item ∈ items, key item ≠ goal)
    (change : α → α) : amend key goal change items = items := by
  calc amend key goal change items
      = items.map id := List.map_congr_left fun item member => if_neg (absent item member)
    _ = items := List.map_id items

theorem mem_amend {goal : κ} {change : α → α} {items : List α} {item : α} :
    item ∈ amend key goal change items ↔
      ∃ earlier ∈ items, (if key earlier = goal then change earlier else earlier) = item :=
  List.mem_map

/-- The keys are distinct, so that a position stands for a key. -/
theorem set_eq_amend {items : List α}
    (increasing : items.Pairwise fun first second => key first < key second) {rank : Nat} {item : α}
    (found : items[rank]? = some item) (change : α → α) :
    items.set rank (change item) = amend key (key item) change items := by
  induction items generalizing rank with
  | nil => cases found
  | cons head rest induction =>
      rcases List.pairwise_cons.mp increasing with ⟨above, increasing⟩
      rw [amend, List.map_cons]
      cases rank with
      | zero =>
          cases found
          rw [List.set_cons_zero, if_pos rfl]
          congr 1
          exact (amend_of_absent (fun other member => (above other member).ne') change).symm
      | succ rank =>
          have later := above item (List.mem_of_getElem? found)
          rw [List.set_cons_succ, if_neg later.ne]
          exact congrArg (head :: ·) (induction increasing found)

theorem increasing_amend {goal : κ} {change : α → α} {items : List α}
    (increasing : items.Pairwise fun first second => key first < key second)
    (keepsKey : ∀ item, key (change item) = key item) :
    (amend key goal change items).Pairwise fun first second => key first < key second := by
  rw [amend, List.pairwise_map]
  refine increasing.imp fun {first second} below => ?_
  split <;> split <;> simpa only [keepsKey] using below

theorem increasing_last_append {items : List α} {item : α} (count : Nat)
    (increasing : items.Pairwise fun first second => key first < key second)
    (later : ∀ other ∈ items, key other < key item) :
    (Window.last count (items ++ [item])).Pairwise fun first second => key first < key second := by
  refine List.Pairwise.sublist (List.drop_sublist _ _) ?_
  refine List.pairwise_append.mpr ⟨increasing, List.pairwise_singleton _ _, ?_⟩
  intro other member last isLast
  rw [List.mem_singleton.mp isLast]
  exact later other member

/-! ## What a ring holds -/

variable {len idx : Nat} {arr : Nat → α} {items : List α}

/-- The ring holds the items, from the oldest to the youngest, after the slots that have not been
filled. -/
structure Holds (key : α → κ) (blank : κ) (len idx : Nat) (arr : Nat → α) (items : List α) :
    Prop where
  rows : ∃ blanks, Ring.slots len idx arr = blanks ++ items ∧ ∀ item ∈ blanks, key item = blank
  increasing : items.Pairwise fun first second => key first < key second
  filled : ∀ item ∈ items, key item ≠ blank

/-- A ring of which no slot has been filled. -/
theorem holds_nil (unfilled : ∀ place < len, key (arr place) = blank) (positive : 0 < len) :
    Holds key blank len idx arr [] where
  rows := by
    refine ⟨_, (List.append_nil _).symm, fun item member => ?_⟩
    rcases List.mem_map.mp member with ⟨rank, _, rfl⟩
    exact unfilled _ (Ring.position_lt positive rank)
  increasing := List.Pairwise.nil
  filled := fun _ member => absurd member List.not_mem_nil

namespace Holds

/-- The items are read off the slots. -/
theorem filter_slots (holds : Holds key blank len idx arr items) :
    (Ring.slots len idx arr).filter (fun item => key item ≠ blank) = items := by
  rcases holds.rows with ⟨blanks, split, unfilled⟩
  have none : blanks.filter (fun item => key item ≠ blank) = [] := by
    rw [List.filter_eq_nil_iff]
    intro item member
    simpa using unfilled item member
  have all : items.filter (fun item => key item ≠ blank) = items := by
    rw [List.filter_eq_self]
    intro item member
    simpa using holds.filled item member
  rw [split, List.filter_append, none, all, List.nil_append]

theorem mem_iff (holds : Holds key blank len idx arr items) (bounded : idx < len) {item : α} :
    item ∈ items ↔ key item ≠ blank ∧ ∃ place < len, arr place = item := by
  rw [← holds.filter_slots, List.mem_filter, decide_eq_true_eq, and_comm, Ring.slots]
  refine and_congr_right fun _ => ?_
  rw [List.mem_map]
  constructor
  · rintro ⟨rank, _, rfl⟩
    exact ⟨_, Ring.position_lt (Nat.zero_lt_of_lt bounded) rank, rfl⟩
  · rintro ⟨place, inside, rfl⟩
    rcases Ring.exists_rank bounded inside with ⟨rank, rankInside, rfl⟩
    exact ⟨rank, List.mem_range.mpr rankInside, rfl⟩

theorem length_le (holds : Holds key blank len idx arr items) : items.length ≤ len := by
  rw [← holds.filter_slots]
  exact (List.length_filter_le _ _).trans_eq Ring.length_slots

/-- The youngest item stands at the position of the ring. -/
theorem getLast?_eq (holds : Holds key blank len idx arr items) (bounded : idx < len)
    (nonempty : items ≠ []) : items.getLast? = some (arr idx) := by
  rcases holds.rows with ⟨blanks, split, _⟩
  have positive : len - 1 < len := by omega
  have last : (Ring.slots len idx arr).getLast? = some (arr idx) := by
    rw [List.getLast?_eq_getElem?, Ring.length_slots, Ring.getElem?_slots positive,
      Ring.position_last bounded]
  rw [split, List.getLast?_append, List.getLast?_eq_some_getLast nonempty] at last
  rw [List.getLast?_eq_some_getLast nonempty]
  exact last

theorem le_youngest (holds : Holds key blank len idx arr items) (bounded : idx < len) {item : α}
    (member : item ∈ items) : key item ≤ key (arr idx) := by
  have nonempty := List.ne_nil_of_mem member
  have last := holds.getLast?_eq bounded nonempty
  rw [List.getLast?_eq_some_getLast nonempty, Option.some.injEq] at last
  have increasing := holds.increasing
  rw [← List.dropLast_append_getLast nonempty, last] at increasing member
  rcases List.mem_append.mp member with earlier | isLast
  · exact ((List.pairwise_append.mp increasing).2.2 item earlier _
      (List.mem_singleton_self _)).le
  · rw [List.mem_singleton.mp isLast]

/-- A younger item is appended, and the oldest one goes if there is no more room. -/
theorem push (holds : Holds key blank len idx arr items) (bounded : idx < len) {item : α}
    (later : ∀ other ∈ items, key other < key item) (valid : key item ≠ blank) :
    Holds key blank len ((idx + 1) % len) (Function.update arr ((idx + 1) % len) item)
      (Window.last len (items ++ [item])) where
  rows := by
    rcases holds.rows with ⟨blanks, split, unfilled⟩
    have count : blanks.length + items.length = len := by
      rw [← List.length_append, ← split, Ring.length_slots]
    rw [Ring.slots_push (Nat.zero_lt_of_lt bounded), split]
    cases blanks with
    | nil =>
        rw [List.length_nil, Nat.zero_add] at count
        have nonempty : items ≠ [] := List.ne_nil_of_length_pos (by omega)
        have kept : Window.last len (items ++ [item]) = items.tail ++ [item] := by
          rw [Window.last, List.length_append, List.length_singleton, count,
            Nat.add_sub_cancel_left, List.drop_one, List.tail_append_of_ne_nil nonempty]
        exact ⟨[], by rw [kept]; rfl, fun _ member => absurd member List.not_mem_nil⟩
    | cons oldest blanks =>
        rw [List.length_cons] at count
        rw [Window.last_of_length_le (by
          rw [List.length_append, List.length_singleton]
          omega)]
        refine ⟨blanks, List.append_assoc _ _ _, fun other member => ?_⟩
        exact unfilled other (List.mem_cons_of_mem _ member)
  increasing := increasing_last_append len holds.increasing later
  filled := by
    intro other member
    rcases List.mem_append.mp (Window.mem_of_mem_last member) with earlier | isItem
    · exact holds.filled other earlier
    · rw [List.mem_singleton.mp isItem]
      exact valid

/-- A change at one position changes the item with its key. -/
theorem update (holds : Holds key blank len idx arr items) (bounded : idx < len) {place : Nat}
    (inside : place < len) (valid : key (arr place) ≠ blank) {change : α → α}
    (keepsKey : ∀ item, key (change item) = key item) :
    Holds key blank len idx (Function.update arr place (change (arr place)))
      (amend key (key (arr place)) change items) where
  rows := by
    rcases holds.rows with ⟨blanks, split, unfilled⟩
    rcases Ring.exists_rank bounded inside with ⟨rank, rankInside, isPlace⟩
    have slot : (blanks ++ items)[rank]? = some (arr place) := by
      rw [← split, Ring.getElem?_slots rankInside, isPlace]
    have isItem : blanks.length ≤ rank := by
      by_contra isBlank
      rw [List.getElem?_append_left (Nat.lt_of_not_le isBlank)] at slot
      exact valid (unfilled _ (List.mem_of_getElem? slot))
    rw [List.getElem?_append_right isItem] at slot
    refine ⟨blanks, ?_, unfilled⟩
    rw [← isPlace, Ring.slots_update rankInside, split, List.set_append_right _ _ isItem, isPlace,
      set_eq_amend holds.increasing slot]
  increasing := increasing_amend holds.increasing keepsKey
  filled := by
    intro other member
    rcases mem_amend.mp member with ⟨earlier, inItems, rfl⟩
    have kept := holds.filled earlier inItems
    split <;> simpa only [keepsKey] using kept

end Holds

end Stakenet.KeyedRing

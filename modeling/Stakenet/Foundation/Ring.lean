import Mathlib.Data.List.Basic
import Mathlib.Logic.Function.Basic

/-! Ring buffers over a fixed array: the elements in the order of their age, and
what appending and inserting do to that order. The array is a function of the
position, and `idx` is the position of the youngest element. -/

namespace Stakenet.Ring

/-! ## Bisection -/

/-- Binary search of a half-open interval, given how the element at a position
compares with what is sought. Nothing is returned for an equal element,
otherwise the position where it would have to stand. -/
def bisect (order : Nat → Ordering) (left right : Nat) : Option Nat :=
  if left < right then
    let mid := (left + right) / 2
    match order mid with
    | .eq => none
    | .lt => bisect order (mid + 1) right
    | .gt => bisect order left mid
  else
    some left
termination_by right - left

section Bisection

variable {key : Nat → Nat} {goal count : Nat}

/-- A position that is found separates the smaller from the larger elements. -/
theorem bisect_eq_some (increasing : ∀ low high, low < high → high < count → key low < key high)
    {left right found : Nat} (ordered : left ≤ right) (bounded : right ≤ count)
    (below : ∀ index < left, key index < goal)
    (above : ∀ index, right ≤ index → index < count → goal < key index)
    (searched : bisect (fun index => compare (key index) goal) left right = some found) :
    found ≤ count ∧ (∀ index < found, key index < goal) ∧
      ∀ index, found ≤ index → index < count → goal < key index := by
  fun_induction bisect (fun index => compare (key index) goal) left right with
  | case1 left right _ mid same => simp at searched
  | case2 left right _ mid smaller induction =>
      have isSmaller : key mid < goal := Nat.compare_eq_lt.mp smaller
      apply induction (by omega) bounded _ above searched
      intro index upTo
      by_cases last : index = mid
      · exact last ▸ isSmaller
      · exact Nat.lt_trans (increasing index mid (by omega) (by omega)) isSmaller
  | case3 left right _ mid larger induction =>
      have isLarger : goal < key mid := Nat.compare_eq_gt.mp larger
      apply induction (by omega) (by omega) below _ searched
      intro index from_ inside
      by_cases first : index = mid
      · exact first ▸ isLarger
      · exact Nat.lt_trans isLarger (increasing mid index (by omega) inside)
  | case4 left right finished =>
      rw [Option.some.injEq] at searched
      subst found
      have reached : left = right := by omega
      exact ⟨by omega, below, fun index from_ inside => above index (by omega) inside⟩

/-- Nothing is found only because the element is there. -/
theorem bisect_eq_none {left right : Nat} (bounded : right ≤ count)
    (searched : bisect (fun index => compare (key index) goal) left right = none) :
    ∃ index < count, key index = goal := by
  fun_induction bisect (fun index => compare (key index) goal) left right with
  | case1 left right _ mid same => exact ⟨mid, by omega, Nat.compare_eq_eq.mp same⟩
  | case2 left right _ mid smaller induction => exact induction bounded searched
  | case3 left right _ mid larger induction => exact induction (by omega) searched
  | case4 left right finished => cases searched

end Bisection

/-- The same search where a comparison may fail, as when it reads an array with a check of
the bounds. -/
def bisectChecked (order : Nat → Except ε Ordering) (left right : Nat) :
    Except ε (Option Nat) :=
  if left < right then
    let mid := (left + right) / 2
    order mid >>= fun
      | .eq => .ok none
      | .lt => bisectChecked order (mid + 1) right
      | .gt => bisectChecked order left mid
  else
    .ok (some left)
termination_by right - left

/-- Only positions of the interval are compared. -/
theorem bisectChecked_eq {checked : Nat → Except ε Ordering} {order : Nat → Ordering}
    {left right : Nat}
    (within : ∀ mid, left ≤ mid → mid < right → checked mid = .ok (order mid)) :
    bisectChecked checked left right = .ok (bisect order left right) := by
  fun_induction bisect order left right with
  | case1 left right inside mid same =>
      rw [bisectChecked, if_pos inside]
      dsimp only
      rw [within mid (by omega) (by omega), same]
      rfl
  | case2 left right inside mid smaller induction =>
      rw [bisectChecked, if_pos inside]
      dsimp only
      rw [within mid (by omega) (by omega), smaller]
      exact induction fun other lower upper => within other (by omega) upper
  | case3 left right inside mid larger induction =>
      rw [bisectChecked, if_pos inside]
      dsimp only
      rw [within mid (by omega) (by omega), larger]
      exact induction fun other lower upper => within other lower (by omega)
  | case4 left right finished => rw [bisectChecked, if_neg finished]

/-! ## Elements by age -/

variable {α : Type u} {len idx : Nat} {arr : Nat → α}

/-- Where the element of the given age rank stands, the oldest having rank zero. -/
def position (len idx rank : Nat) : Nat := (idx + 1 + rank) % len

/-- The elements from the oldest to the youngest. -/
def slots (len idx : Nat) (arr : Nat → α) : List α :=
  (List.range len).map fun rank => arr (position len idx rank)

@[simp] theorem length_slots : (slots len idx arr).length = len := by
  simp [slots]

theorem getElem?_slots {rank : Nat} (inside : rank < len) :
    (slots len idx arr)[rank]? = some (arr (position len idx rank)) := by
  simp [slots, inside]

/-- Lists of the same length agree if they agree at every rank. -/
theorem slots_eq_of_getElem? {other : List α} (sameLength : other.length = len)
    (agree : ∀ rank < len, other[rank]? = some (arr (position len idx rank))) :
    slots len idx arr = other := by
  apply List.ext_getElem?
  intro rank
  by_cases inside : rank < len
  · rw [getElem?_slots inside, agree rank inside]
  · rw [List.getElem?_eq_none (by simpa using inside), List.getElem?_eq_none (by omega)]

/-- Numbers less than a round apart stand at different positions. -/
theorem mod_ne_of_lt {first second : Nat} (below : first < second)
    (near : second < first + len) : first % len ≠ second % len := by
  intro same
  have multiple : (second - first) % len = 0 := Nat.sub_mod_eq_zero_of_mod_eq same.symm
  have remains : (second - first) % len = second - first := Nat.mod_eq_of_lt (by omega)
  omega

theorem position_ne {first second : Nat} (different : first ≠ second) (firstInside : first < len)
    (secondInside : second < len) : position len idx first ≠ position len idx second := by
  rcases Nat.lt_or_gt_of_ne different with below | above
  · exact mod_ne_of_lt (by omega) (by omega)
  · exact (mod_ne_of_lt (by omega) (by omega)).symm

theorem position_lt (positive : 0 < len) (rank : Nat) : position len idx rank < len :=
  Nat.mod_lt _ positive

/-- One more element moves every rank down by one. -/
theorem position_succ (rank : Nat) :
    position len ((idx + 1) % len) rank = position len idx (rank + 1) := by
  rw [position, position, Nat.add_assoc, Nat.mod_add_mod]
  congr 1
  omega

/-- After a whole round the first position comes again. -/
theorem position_len : position len idx len = position len idx 0 := by
  rw [position, position, Nat.add_mod_right, Nat.add_zero]

theorem position_last (bounded : idx < len) : position len idx (len - 1) = idx := by
  have whole : idx + 1 + (len - 1) = idx + len := by omega
  rw [position, whole, Nat.add_mod_right, Nat.mod_eq_of_lt bounded]

/-- Every position has a rank. -/
theorem exists_rank (bounded : idx < len) {place : Nat} (inside : place < len) :
    ∃ rank < len, position len idx rank = place := by
  by_cases young : place ≤ idx
  · refine ⟨place + len - (idx + 1), by omega, ?_⟩
    have whole : idx + 1 + (place + len - (idx + 1)) = place + len := by omega
    rw [position, whole, Nat.add_mod_right, Nat.mod_eq_of_lt inside]
  · refine ⟨place - (idx + 1), by omega, ?_⟩
    have whole : idx + 1 + (place - (idx + 1)) = place := by omega
    rw [position, whole, Nat.mod_eq_of_lt inside]

/-- The elements after `idx` come before those up to `idx`. -/
theorem slots_eq_append (bounded : idx < len) :
    slots len idx arr =
      (List.range' (idx + 1) (len - (idx + 1))).map arr ++ (List.range (idx + 1)).map arr := by
  apply slots_eq_of_getElem?
  · simp
    omega
  · intro rank inside
    by_cases old : rank < len - (idx + 1)
    · have straight : position len idx rank = idx + 1 + rank := Nat.mod_eq_of_lt (by omega)
      rw [List.getElem?_append_left (by simpa using old), straight]
      simp [old]
    · have wrapped : position len idx rank = rank - (len - (idx + 1)) := by
        have whole : idx + 1 + rank = rank - (len - (idx + 1)) + len := by omega
        rw [position, whole, Nat.add_mod_right, Nat.mod_eq_of_lt (by omega)]
      rw [List.getElem?_append_right (by simpa using old), wrapped, List.length_map,
        List.length_range', List.getElem?_map, List.getElem?_range (by omega)]
      rfl

/-- The end of the shift loop, counted from the position of a rank on. -/
theorem endIndex_sub_position (bounded : idx < len) {rank : Nat} (positive : 0 < rank)
    (inside : rank < len) :
    (if idx < position len idx rank then idx + len else idx) + 1 - position len idx rank =
      len - rank := by
  by_cases straight : idx + 1 + rank < len
  · rw [position, Nat.mod_eq_of_lt straight, if_pos (by omega)]
    omega
  · have wrapped : position len idx rank = idx + 1 + rank - len := by
      rw [position, Nat.mod_eq_sub_mod (by omega), Nat.mod_eq_of_lt (by omega)]
    rw [wrapped, if_neg (by omega)]
    omega

/-! ## Changing an element -/

theorem slots_update {rank : Nat} (inside : rank < len) (item : α) :
    slots len idx (Function.update arr (position len idx rank) item) =
      (slots len idx arr).set rank item := by
  apply slots_eq_of_getElem?
  · simp
  · intro other otherInside
    rw [List.getElem?_set]
    by_cases same : rank = other
    · subst same
      simp [inside]
    · rw [if_neg same, getElem?_slots otherInside,
        Function.update_of_ne (position_ne (Ne.symm same) otherInside inside)]

/-! ## Appending and inserting -/

/-- The oldest element makes place for the new one. -/
theorem slots_push (positive : 0 < len) (item : α) :
    slots len ((idx + 1) % len) (Function.update arr ((idx + 1) % len) item) =
      (slots len idx arr).tail ++ [item] := by
  have oldest : (idx + 1) % len = position len idx 0 := rfl
  apply slots_eq_of_getElem?
  · simp
    omega
  · intro rank inside
    rw [position_succ, oldest]
    by_cases youngest : rank + 1 = len
    · rw [youngest, position_len, Function.update_self,
        List.getElem?_append_right (by simp; omega)]
      simp [show rank = len - 1 by omega]
    · rw [Function.update_of_ne (position_ne (by omega) (by omega) positive),
        List.getElem?_append_left (by simp; omega), List.getElem?_tail,
        getElem?_slots (by omega)]

/-- `for i in (start..start + count).rev()`: every element moves up by one. -/
def shiftUp (len start count : Nat) (arr : Nat → α) : Nat → α :=
  (List.range' start count).reverse.foldl
    (fun arr index => Function.update arr ((index + 1) % len) (arr (index % len))) arr

theorem shiftUp_succ (len start count : Nat) (arr : Nat → α) :
    shiftUp len start (count + 1) arr =
      shiftUp len start count (Function.update arr ((start + count + 1) % len)
        (arr ((start + count) % len))) := by
  rw [shiftUp, List.range'_concat, List.reverse_append, Nat.one_mul]
  rfl

/-- Positions to which nothing moves keep their element. -/
theorem shiftUp_of_ne {start count : Nat} {arr : Nat → α} {place : Nat}
    (untouched : ∀ index, start ≤ index → index < start + count → place ≠ (index + 1) % len) :
    shiftUp len start count arr place = arr place := by
  induction count generalizing arr with
  | zero => rfl
  | succ count induction =>
      rw [shiftUp_succ, induction fun index lower upper => untouched index lower (by omega)]
      exact Function.update_of_ne (untouched (start + count) (by omega) (by omega)) _ _

/-- A moved element stands one position further. -/
theorem shiftUp_moved {start count : Nat} (short : count < len) {arr : Nat → α} {index : Nat}
    (lower : start ≤ index) (upper : index < start + count) :
    shiftUp len start count arr ((index + 1) % len) = arr (index % len) := by
  induction count generalizing arr with
  | zero => omega
  | succ count induction =>
      rw [shiftUp_succ]
      by_cases first : index = start + count
      · subst first
        rw [shiftUp_of_ne, Function.update_self]
        intro later _ below
        exact (mod_ne_of_lt (by omega) (by omega)).symm
      · rw [induction (by omega) (by omega)]
        exact Function.update_of_ne (mod_ne_of_lt (by omega) (by omega)) _ _

/-- The array after an insertion at a rank: the elements from that rank on move
up, the youngest of them over the oldest of all. -/
theorem slots_insert {rank start : Nat} (positive : 0 < rank)
    (inside : rank < len) (atRank : start % len = position len idx rank) (item : α) :
    slots len ((idx + 1) % len)
        (Function.update (shiftUp len start (len - rank) arr) (position len idx rank) item) =
      ((slots len idx arr).take rank).tail ++ item :: (slots len idx arr).drop rank := by
  -- The loop counter `start + k` stands for the rank `rank + k`.
  have counter : ∀ offset, (start + offset) % len = position len idx (rank + offset) := by
    intro offset
    rw [← Nat.mod_add_mod, atRank, position, position, Nat.mod_add_mod, Nat.add_assoc]
  have moved : ∀ other, rank ≤ other → other < len →
      shiftUp len start (len - rank) arr (position len idx (other + 1)) =
        arr (position len idx other) := by
    intro other atLeast below
    have here := counter (other - rank)
    have next := counter (other - rank + 1)
    rw [show rank + (other - rank) = other by omega] at here
    rw [show rank + (other - rank + 1) = other + 1 by omega] at next
    rw [← here, ← next, ← Nat.add_assoc]
    exact shiftUp_moved (by omega) (by omega) (by omega)
  have kept : ∀ other, 0 < other → other < rank →
      shiftUp len start (len - rank) arr (position len idx other) =
        arr (position len idx other) := by
    intro other notOldest below
    apply shiftUp_of_ne
    intro index atLeast upper
    have target := counter (index + 1 - start)
    rw [show start + (index + 1 - start) = index + 1 by omega] at target
    rw [target]
    by_cases wraps : rank + (index + 1 - start) = len
    · rw [wraps, position_len]
      exact position_ne (by omega) (by omega) (by omega)
    · exact position_ne (by omega) (by omega) (by omega)
  apply slots_eq_of_getElem?
  · simp
    omega
  · intro newRank newInside
    rw [position_succ]
    rcases Nat.lt_trichotomy (newRank + 1) rank with below | same | above
    · rw [Function.update_of_ne (position_ne (by omega) (by omega) inside),
        kept _ (by omega) below, List.getElem?_append_left (by simp; omega), List.getElem?_tail,
        List.getElem?_take_of_lt below, getElem?_slots (by omega)]
    · rw [same, Function.update_self, List.getElem?_append_right (by simp; omega)]
      simp [show newRank - (min rank len - 1) = 0 by omega]
    · have different : position len idx (newRank + 1) ≠ position len idx rank := by
        by_cases wraps : newRank + 1 = len
        · rw [wraps, position_len]
          exact position_ne (by omega) (by omega) inside
        · exact position_ne (by omega) (by omega) inside
      rw [Function.update_of_ne different, moved newRank (by omega) newInside,
        List.getElem?_append_right (by simp; omega)]
      have behind : newRank - ((slots len idx arr).take rank).tail.length =
          newRank - rank + 1 := by
        simp
        omega
      rw [behind, List.getElem?_cons_succ, List.getElem?_drop,
        show rank + (newRank - rank) = newRank by omega, getElem?_slots newInside]

end Stakenet.Ring

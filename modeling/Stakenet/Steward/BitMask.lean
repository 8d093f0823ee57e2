import Stakenet.Foundation.WordSet
import Stakenet.Steward.Basic

/-! The validator bit mask: one bit for each row of the validator list. -/

namespace Stakenet.Steward

/-- `ceil(MAX_VALIDATORS / 64)` words. -/
def bitmaskSize : Nat := (maxValidators + 64 - 1) / 64

structure BitMask where
  values : WordSet.Words

namespace BitMask

/-- `BitMask::default()`. -/
def empty : BitMask := ⟨fun _ => 0⟩

def set (mask : BitMask) (index : Nat) (value : Bool) : Result BitMask :=
  if maxValidators ≤ index then fail .bitmaskOutOfBounds
  else .ok ⟨WordSet.assign mask.values index value⟩

def get (mask : BitMask) (index : Nat) : Result Bool :=
  if maxValidators ≤ index then fail .bitmaskOutOfBounds
  else .ok (WordSet.test mask.values index)

/-- No check against `MAX_VALIDATORS`; the word access itself can still panic. -/
def getUnsafe (mask : BitMask) (index : Nat) : Result Bool :=
  if bitmaskSize ≤ index / 64 then .error .panicked
  else .ok (WordSet.test mask.values index)

def isEmpty (mask : BitMask) : Bool := WordSet.isEmpty bitmaskSize mask.values

def count (mask : BitMask) : Nat := WordSet.count bitmaskSize mask.values

def isComplete (mask : BitMask) (numValidators : Nat) : Result Bool :=
  if maxValidators < numValidators then fail .bitmaskOutOfBounds
  else .ok (WordSet.isComplete mask.values numValidators)

/-! ## The set a mask stands for -/

/-- Whether the bit of a row is set. -/
def contains (mask : BitMask) (index : Nat) : Bool := WordSet.test mask.values index

/-- The rows whose bit is set. -/
def rows (mask : BitMask) : Finset Nat := WordSet.rows bitmaskSize mask.values

theorem mem_rows {mask : BitMask} {index : Nat} :
    index ∈ mask.rows ↔ index < bitmaskSize * 64 ∧ mask.contains index = true :=
  WordSet.mem_rows

/-- A row of the account arrays has a bit. -/
theorem lt_capacity {index : Nat} (bounded : index < maxValidators) :
    index < bitmaskSize * 64 := by
  have capacity : bitmaskSize * 64 = 5056 := by decide
  rw [capacity]
  exact Nat.lt_trans bounded (by decide)

@[simp] theorem contains_empty (index : Nat) : empty.contains index = false := by
  simp [contains, empty, WordSet.test_eq_getLsbD]

@[simp] theorem rows_empty : empty.rows = ∅ := by
  simp [Finset.eq_empty_iff_forall_notMem, mem_rows]

@[simp] theorem get_eq_ok {mask : BitMask} {index : Nat} {value : Bool} :
    mask.get index = .ok value ↔ index < maxValidators ∧ mask.contains index = value := by
  unfold get contains
  split <;> simp_all

@[simp] theorem getUnsafe_eq_ok {mask : BitMask} {index : Nat} {value : Bool} :
    mask.getUnsafe index = .ok value ↔
      index / 64 < bitmaskSize ∧ mask.contains index = value := by
  unfold getUnsafe contains
  split <;> simp_all

theorem get_of_lt (mask : BitMask) {index : Nat} (bounded : index < maxValidators) :
    mask.get index = .ok (mask.contains index) :=
  if_neg (by omega)

theorem getUnsafe_of_lt (mask : BitMask) {index : Nat} (bounded : index < maxValidators) :
    mask.getUnsafe index = .ok (mask.contains index) := by
  have capacity := lt_capacity bounded
  exact if_neg (by omega)

theorem set_of_lt {mask : BitMask} {index : Nat} (bounded : index < maxValidators)
    (value : Bool) : mask.set index value = .ok ⟨WordSet.assign mask.values index value⟩ :=
  if_neg (by omega)

theorem set_eq_ok {mask next : BitMask} {index : Nat} {value : Bool} :
    mask.set index value = .ok next ↔
      index < maxValidators ∧ next = ⟨WordSet.assign mask.values index value⟩ := by
  unfold set
  split
  · simp only [fail_eq_ok, false_iff, not_and]
    omega
  · simp only [Except.ok.injEq, eq_comm (b := next)]
    exact ⟨fun equal => ⟨by omega, equal⟩, And.right⟩

/-- A successful `set` changes its own index and no other. -/
theorem contains_set {mask next : BitMask} {index : Nat} {value : Bool}
    (written : mask.set index value = .ok next) (other : Nat) :
    next.contains other = if other = index then value else mask.contains other := by
  rcases set_eq_ok.mp written with ⟨_, rfl⟩
  exact WordSet.test_assign mask.values index other value

theorem count_eq_card (mask : BitMask) : mask.count = mask.rows.card :=
  WordSet.count_eq_card _ _

theorem isEmpty_iff {mask : BitMask} : mask.isEmpty = true ↔ mask.rows = ∅ :=
  WordSet.isEmpty_iff

theorem count_eq_zero_iff {mask : BitMask} : mask.count = 0 ↔ mask.rows = ∅ :=
  WordSet.count_eq_zero_iff

@[simp] theorem isComplete_eq_ok {mask : BitMask} {bound : Nat} {value : Bool} :
    mask.isComplete bound = .ok value ↔
      bound ≤ maxValidators ∧
        (value = true ↔ ∀ index < bound, mask.contains index = true) := by
  have meaning : WordSet.isComplete mask.values bound = true ↔
      ∀ index < bound, WordSet.test mask.values index = true := WordSet.isComplete_iff
  unfold isComplete
  split
  · simp only [fail_eq_ok, false_iff, not_and]
    omega
  · simp only [Except.ok.injEq, contains]
    rw [← meaning]
    constructor
    · rintro rfl
      exact ⟨by omega, Iff.rfl⟩
    · rintro ⟨_, same⟩
      exact (Bool.eq_iff_iff.mpr same).symm

/-- Setting a fresh row adds it to the set, and so one to the count. -/
theorem rows_set_true {mask next : BitMask} {index : Nat}
    (written : mask.set index true = .ok next) :
    next.rows = insert index mask.rows := by
  have bounded := (set_eq_ok.mp written).1
  have capacity := lt_capacity bounded
  ext other
  rw [Finset.mem_insert, mem_rows, mem_rows, contains_set written]
  by_cases same : other = index
  · simp [same, capacity]
  · simp [same]

theorem count_set_true {mask next : BitMask} {index : Nat}
    (written : mask.set index true = .ok next) (fresh : mask.contains index = false) :
    next.count = mask.count + 1 := by
  have absent : index ∉ mask.rows := by
    rw [mem_rows, fresh]
    simp
  rw [count_eq_card, rows_set_true written, Finset.card_insert_of_notMem absent,
    count_eq_card]

end BitMask

end Stakenet.Steward

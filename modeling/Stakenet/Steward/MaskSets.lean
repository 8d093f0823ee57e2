import Stakenet.Foundation.Execution
import Stakenet.Steward.BitMask
import Stakenet.Steward.ValidatorScore

/-! Both bit masks keep a finite set of indices: that of the validators of the pool, and the
larger one of the validator histories. -/

namespace Stakenet.Steward

open Stakenet.Execution

/-! ## The operations -/

/-- `BitMask::set` with the mask that the call leaves behind. -/
def BitMask.setInPlace (mask : BitMask) (index : Nat) (value : Bool) : BitMask × Result Unit :=
  if maxValidators ≤ index then (mask, fail .bitmaskOutOfBounds)
  else (⟨WordSet.assign mask.values index value⟩, .ok ())

theorem BitMask.setInPlace_eq (mask : BitMask) (index : Nat) (value : Bool) :
    mask.setInPlace index value =
      (Outcome.commit mask (mask.set index value), (mask.set index value).map fun _ => ()) := by
  rw [setInPlace, set]
  split <;> rfl

namespace LargeBitMask

/-- `ceil(LARGE_BITMASK_INDEXES / 64)` words. -/
def largeBitmask : Nat := (largeBitmaskIndexes + 64 - 1) / 64

/-- `LargeBitMask::default()`. -/
def empty : LargeBitMask := ⟨fun _ => 0⟩

def set (mask : LargeBitMask) (index : Nat) (value : Bool) : LargeBitMask × Result Unit :=
  if largeBitmaskIndexes ≤ index then (mask, fail .bitmaskOutOfBounds)
  else (⟨WordSet.assign mask.values index value⟩, .ok ())

def getUnsafe (mask : LargeBitMask) (index : Nat) : Result Bool :=
  if largeBitmask ≤ index / 64 then .error .panicked
  else .ok (WordSet.test mask.values index)

def isEmpty (mask : LargeBitMask) : Bool := WordSet.isEmpty largeBitmask mask.values

def count (mask : LargeBitMask) : Nat := WordSet.count largeBitmask mask.values

def isComplete (mask : LargeBitMask) (numValidators : Nat) : Result Bool :=
  if largeBitmaskIndexes < numValidators then fail .bitmaskOutOfBounds
  else .ok (WordSet.isComplete mask.values numValidators)

end LargeBitMask

/-- What a mask offers for the indices below its capacity. -/
structure MaskOperations (Mask : Type) where
  capacity : Nat
  empty : Mask
  set : Mask → Nat → Bool → Mask × Result Unit
  get : Mask → Nat → Result Bool
  getUnsafe : Mask → Nat → Result Bool
  count : Mask → Nat
  isEmpty : Mask → Bool
  isComplete : Mask → Nat → Result Bool

def bitMask : MaskOperations BitMask where
  capacity := maxValidators
  empty := .empty
  set := BitMask.setInPlace
  get := BitMask.get
  getUnsafe := BitMask.getUnsafe
  count := BitMask.count
  isEmpty := BitMask.isEmpty
  isComplete := BitMask.isComplete

def largeBitMask : MaskOperations LargeBitMask where
  capacity := largeBitmaskIndexes
  empty := .empty
  set := LargeBitMask.set
  get := LargeBitMask.get
  getUnsafe := LargeBitMask.getUnsafe
  count := LargeBitMask.count
  isEmpty := LargeBitMask.isEmpty
  isComplete := LargeBitMask.isComplete

/-! ## The set -/

structure MaskCall where
  index : Nat
  value : Bool

/-- A call at or above the capacity changes nothing. -/
def MaskCall.apply (capacity : Nat) (members : Finset Nat) (call : MaskCall) : Finset Nat :=
  if capacity ≤ call.index then members
  else if call.value then insert call.index members
  else members.erase call.index

namespace MaskOperations

variable {Mask : Type}

def execute (operations : MaskOperations Mask) (mask : Mask) (call : MaskCall) : Mask :=
  (operations.set mask call.index call.value).1

/-- The operations answer for a set of indices below the capacity. -/
structure RefinesSet (operations : MaskOperations Mask) (mask : Mask) (members : Finset Nat) :
    Prop where
  bounded : ∀ index ∈ members, index < operations.capacity
  get : ∀ index, operations.get mask index =
    if index < operations.capacity then .ok (decide (index ∈ members))
    else fail .bitmaskOutOfBounds
  getUnsafe : ∀ index < operations.capacity,
    operations.getUnsafe mask index = operations.get mask index
  count : operations.count mask = members.card
  isEmpty : operations.isEmpty mask = true ↔ members = ∅
  isComplete : ∀ numValidators ≤ operations.capacity,
    operations.isComplete mask numValidators =
      .ok (decide (∀ index < numValidators, index ∈ members))
  outside : ∀ index value, operations.capacity ≤ index →
    operations.set mask index value = (mask, fail .bitmaskOutOfBounds)
  inside : ∀ index value, index < operations.capacity →
    (operations.set mask index value).2 = .ok () ∧
      operations.get (operations.set mask index value).1 index = .ok value ∧
      ∀ other, other ≠ index → operations.get (operations.set mask index value).1 other =
        operations.get mask other

/-! ## Over words -/

/-- The operations are those on the words of a mask. -/
structure OverWords (operations : MaskOperations Mask) (size : Nat)
    (values : Mask → WordSet.Words) : Prop where
  fits : operations.capacity ≤ size * 64
  empty : values operations.empty = fun _ => 0
  outside : ∀ mask index value, operations.capacity ≤ index →
    operations.set mask index value = (mask, fail .bitmaskOutOfBounds)
  inside : ∀ mask index value, index < operations.capacity →
    (operations.set mask index value).2 = .ok () ∧
      values (operations.set mask index value).1 = WordSet.assign (values mask) index value
  get : ∀ mask index, operations.get mask index =
    if operations.capacity ≤ index then fail .bitmaskOutOfBounds
    else .ok (WordSet.test (values mask) index)
  getUnsafe : ∀ mask index, operations.getUnsafe mask index =
    if size ≤ index / 64 then .error .panicked else .ok (WordSet.test (values mask) index)
  count : ∀ mask, operations.count mask = WordSet.count size (values mask)
  isEmpty : ∀ mask, operations.isEmpty mask = WordSet.isEmpty size (values mask)
  isComplete : ∀ mask numValidators, operations.isComplete mask numValidators =
    if operations.capacity < numValidators then fail .bitmaskOutOfBounds
    else .ok (WordSet.isComplete (values mask) numValidators)

theorem bitMask_overWords : bitMask.OverWords bitmaskSize BitMask.values where
  fits := by decide
  empty := rfl
  outside _ _ _ above := if_pos above
  inside mask index value below := by
    have set : mask.setInPlace index value =
        (⟨WordSet.assign mask.values index value⟩, .ok ()) :=
      if_neg (Nat.not_le.mpr below)
    exact ⟨congrArg Prod.snd set, congrArg (·.1.values) set⟩
  get _ _ := rfl
  getUnsafe _ _ := rfl
  count _ := rfl
  isEmpty _ := rfl
  isComplete _ _ := rfl

theorem largeBitMask_overWords :
    largeBitMask.OverWords LargeBitMask.largeBitmask LargeBitMask.values where
  fits := by decide
  empty := rfl
  outside _ _ _ above := if_pos above
  inside mask index value below := by
    have set : mask.set index value = (⟨WordSet.assign mask.values index value⟩, .ok ()) :=
      if_neg (Nat.not_le.mpr below)
    exact ⟨congrArg Prod.snd set, congrArg (·.1.values) set⟩
  get _ _ := rfl
  getUnsafe _ _ := rfl
  count _ := rfl
  isEmpty _ := rfl
  isComplete _ _ := rfl

namespace OverWords

variable {operations : MaskOperations Mask} {size : Nat} {values : Mask → WordSet.Words}
variable {mask : Mask} {members : Finset Nat}

/-- The words hold the members, and none of them is at or above the capacity. -/
def Holds (operations : MaskOperations Mask) (size : Nat) (values : Mask → WordSet.Words)
    (mask : Mask) (members : Finset Nat) : Prop :=
  WordSet.rows size (values mask) = members ∧ ∀ index ∈ members, index < operations.capacity

variable (overWords : operations.OverWords size values)
include overWords

theorem get_of_lt (mask : Mask) {index : Nat} (below : index < operations.capacity) :
    operations.get mask index = .ok (WordSet.test (values mask) index) := by
  rw [overWords.get, if_neg (Nat.not_le.mpr below)]

theorem holds_empty : Holds operations size values operations.empty ∅ := by
  refine ⟨?_, fun index member => absurd member (Finset.notMem_empty index)⟩
  rw [overWords.empty, Finset.eq_empty_iff_forall_notMem]
  intro index member
  simpa [WordSet.test_eq_getLsbD] using (WordSet.mem_rows.mp member).2

theorem holds_execute (holds : Holds operations size values mask members) (call : MaskCall) :
    Holds operations size values (operations.execute mask call)
      (call.apply operations.capacity members) := by
  rw [execute, MaskCall.apply]
  by_cases above : operations.capacity ≤ call.index
  · rw [overWords.outside mask call.index call.value above, if_pos above]
    exact holds
  · have below : call.index < operations.capacity := Nat.lt_of_not_le above
    have assigned := (overWords.inside mask call.index call.value below).2
    rw [if_neg above, Holds, assigned,
      WordSet.rows_assign _ (below.trans_le overWords.fits), holds.1]
    refine ⟨rfl, fun index member => ?_⟩
    split at member
    · rcases Finset.mem_insert.mp member with rfl | former
      · exact below
      · exact holds.2 index former
    · exact holds.2 index (Finset.mem_of_mem_erase member)

theorem test_eq (holds : Holds operations size values mask members) {index : Nat}
    (below : index < operations.capacity) :
    WordSet.test (values mask) index = decide (index ∈ members) := by
  rw [Bool.eq_iff_iff, decide_eq_true_iff, ← holds.1, WordSet.mem_rows]
  exact (and_iff_right (below.trans_le overWords.fits)).symm

theorem refinesSet (holds : Holds operations size values mask members) :
    operations.RefinesSet mask members where
  bounded := holds.2
  get index := by
    by_cases below : index < operations.capacity
    · rw [overWords.get_of_lt mask below, overWords.test_eq holds below, if_pos below]
    · rw [overWords.get, if_pos (Nat.le_of_not_lt below), if_neg below]
  getUnsafe index below := by
    have fits := overWords.fits
    rw [overWords.getUnsafe, if_neg (by omega), overWords.get_of_lt mask below]
  count := by rw [overWords.count, WordSet.count_eq_card, holds.1]
  isEmpty := by rw [overWords.isEmpty, WordSet.isEmpty_iff, holds.1]
  isComplete numValidators within := by
    rw [overWords.isComplete, if_neg (Nat.not_lt.mpr within)]
    congr 1
    rw [Bool.eq_iff_iff, decide_eq_true_iff, WordSet.isComplete_iff]
    apply forall₂_congr
    intro index below
    rw [overWords.test_eq holds (below.trans_le within), decide_eq_true_iff]
  outside := overWords.outside mask
  inside index value below := by
    have written := overWords.inside mask index value below
    refine ⟨written.1, ?_, fun other different => ?_⟩
    · rw [overWords.get_of_lt _ below, written.2, WordSet.test_assign, if_pos rfl]
    · rw [overWords.get, overWords.get, written.2, WordSet.test_assign, if_neg different]

/-- Whether the indices below a bound are set does not depend on any other bit. -/
theorem isComplete_iff (mask : Mask) {numValidators : Nat}
    (within : numValidators ≤ operations.capacity) :
    operations.isComplete mask numValidators = .ok true ↔
      ∀ index < numValidators, operations.get mask index = .ok true := by
  rw [overWords.isComplete, if_neg (Nat.not_lt.mpr within), Except.ok.injEq,
    WordSet.isComplete_iff]
  apply forall₂_congr
  intro index below
  rw [overWords.get_of_lt mask (below.trans_le within), Except.ok.injEq]

end OverWords

/-! ## Runs -/

/-- The mask represents the set that the calls leave, whatever they are, and completeness is
about the indices below the bound for any mask. -/
def KeepsSet (operations : MaskOperations Mask) (calls : List MaskCall) : Prop :=
  operations.RefinesSet (run operations.execute operations.empty calls)
      (run (MaskCall.apply operations.capacity) ∅ calls) ∧
    ∀ mask, ∀ numValidators ≤ operations.capacity,
      operations.isComplete mask numValidators = .ok true ↔
        ∀ index < numValidators, operations.get mask index = .ok true

theorem OverWords.keepsSet {operations : MaskOperations Mask} {size : Nat}
    {values : Mask → WordSet.Words} (overWords : operations.OverWords size values)
    (calls : List MaskCall) : operations.KeepsSet calls := by
  have held : ∀ mask members, Holds operations size values mask members →
      Holds operations size values (run operations.execute mask calls)
        (run (MaskCall.apply operations.capacity) members calls) := by
    induction calls with
    | nil => exact fun _ _ holds => holds
    | cons call rest induction =>
        intro mask members holds
        exact induction _ _ (overWords.holds_execute holds call)
  exact ⟨overWords.refinesSet (held _ _ overWords.holds_empty),
    fun mask _ within => overWords.isComplete_iff mask within⟩

end MaskOperations

/-- Both masks keep their sets over every sequence of calls. -/
theorem run_masks_keepSet (calls : List MaskCall) :
    bitMask.KeepsSet calls ∧ largeBitMask.KeepsSet calls :=
  ⟨MaskOperations.bitMask_overWords.keepsSet calls,
    MaskOperations.largeBitMask_overWords.keepsSet calls⟩

end Stakenet.Steward

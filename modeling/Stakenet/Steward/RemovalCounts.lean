import Stakenet.Foundation.GapClosing
import Stakenet.Steward.Maintenance
import Stakenet.Steward.RemovalEffect

/-! How many removal marks an instruction leaves, and where. -/

namespace Stakenet.Steward

/-! ## Marks -/

/-- A deletion from a mask, as one from the set of its rows. -/
theorem BitMask.rows_of_deleteRow {mask next : BitMask} {index bound : Nat}
    (inside : index ≤ bound) (bounded : bound < maxValidators)
    (deleted : next.contains = deleteRow mask.contains index bound false) :
    next.rows = withoutRow mask.rows index bound := by
  have capacity := lt_capacity bounded
  ext row
  rw [mem_rows, deleted, deleteRow_eq_true inside, mem_withoutRow]
  constructor
  · rintro ⟨below, old, isMarked, other, rfl⟩
    refine ⟨old, mem_rows.mpr ⟨?_, isMarked⟩, other, rfl⟩
    unfold closeGap at below
    split at below <;> omega
  · rintro ⟨old, member, other, rfl⟩
    rcases mem_rows.mp member with ⟨below, isMarked⟩
    exact ⟨Nat.lt_of_le_of_lt closeGap_le below, old, isMarked, other, rfl⟩

/-- Of both masks, as epoch maintenance counts them. -/
def StewardStateV2.marks (state : StewardStateV2) : Nat :=
  state.validatorsToRemove.count + state.validatorsForImmediateRemoval.count

theorem StewardStateV2.marks_eq_zero_iff {state : StewardStateV2} :
    state.marks = 0 ↔
      state.validatorsToRemove.rows = ∅ ∧ state.validatorsForImmediateRemoval.rows = ∅ := by
  rw [marks, Nat.add_eq_zero_iff, BitMask.count_eq_zero_iff, BitMask.count_eq_zero_iff]

/-- The marks are the same ones, of as many validators. -/
structure SameMarks (state other : StewardStateV2) : Prop where
  toRemove : state.validatorsToRemove = other.validatorsToRemove
  forImmediateRemoval :
    state.validatorsForImmediateRemoval = other.validatorsForImmediateRemoval
  numPoolValidators : state.numPoolValidators = other.numPoolValidators
  validatorsAdded : state.validatorsAdded = other.validatorsAdded

theorem SameMarks.trans {first second third : StewardStateV2} (same : SameMarks first second)
    (other : SameMarks second third) : SameMarks first third where
  toRemove := same.toRemove.trans other.toRemove
  forImmediateRemoval := same.forImmediateRemoval.trans other.forImmediateRemoval
  numPoolValidators := same.numPoolValidators.trans other.numPoolValidators
  validatorsAdded := same.validatorsAdded.trans other.validatorsAdded

theorem SameMarks.marks {state other : StewardStateV2} (same : SameMarks state other) :
    state.marks = other.marks := by
  rw [StewardStateV2.marks, same.toRemove, same.forImmediateRemoval]
  rfl

/-- What the removal of a validator does to the marks. -/
structure MarksRemoved (state : StewardStateV2) (index : Nat) (next : StewardStateV2) : Prop where
  marked : index ∈ state.validatorsToRemove.rows ∨
    index ∈ state.validatorsForImmediateRemoval.rows
  total : next.numPoolValidators + next.validatorsAdded + 1 =
    state.numPoolValidators + state.validatorsAdded
  bounded : index ≤ next.numPoolValidators + next.validatorsAdded
  capacity : next.numPoolValidators + next.validatorsAdded < maxValidators
  numPoolValidators : next.numPoolValidators =
    if state.numPoolValidators ≤ index then state.numPoolValidators
    else state.numPoolValidators - 1
  toRemove : next.validatorsToRemove.rows = withoutRow state.validatorsToRemove.rows index
    (next.numPoolValidators + next.validatorsAdded)
  forImmediateRemoval : next.validatorsForImmediateRemoval.rows =
    withoutRow state.validatorsForImmediateRemoval.rows index
      (next.numPoolValidators + next.validatorsAdded)

theorem Removed.marksRemoved {accounts next : Accounts} {index : Nat}
    (removed : Removed accounts index next) :
    MarksRemoved accounts.state index next.state := by
  have total : next.state.numPoolValidators + next.state.validatorsAdded + 1 =
      accounts.state.numPoolValidators + accounts.state.validatorsAdded := by
    have bounded := removed.bounded
    rw [removed.numPoolValidators, removed.validatorsAdded]
    split <;> omega
  have bounded : index ≤ next.state.numPoolValidators + next.state.validatorsAdded := by
    have inPool := removed.bounded
    omega
  have below : index < bitmaskSize * 64 := BitMask.lt_capacity removed.capacity.1
  exact {
    marked := removed.marked.imp (fun isMarked => BitMask.mem_rows.mpr ⟨below, isMarked⟩)
      fun isMarked => BitMask.mem_rows.mpr ⟨below, isMarked⟩
    total := total
    bounded := bounded
    capacity := removed.capacity.2
    numPoolValidators := removed.numPoolValidators
    toRemove := BitMask.rows_of_deleteRow bounded removed.capacity.2 removed.toRemove
    forImmediateRemoval :=
      BitMask.rows_of_deleteRow bounded removed.capacity.2 removed.forImmediateRemoval }

theorem MarksRemoved.congr {state next other result : StewardStateV2} {index : Nat}
    (removed : MarksRemoved state index next) (before : SameMarks other state)
    (behind : SameMarks result next) : MarksRemoved other index result where
  marked := by
    rw [before.toRemove, before.forImmediateRemoval]
    exact removed.marked
  total := by
    rw [before.numPoolValidators, before.validatorsAdded, behind.numPoolValidators,
      behind.validatorsAdded]
    exact removed.total
  bounded := by
    rw [behind.numPoolValidators, behind.validatorsAdded]
    exact removed.bounded
  capacity := by
    rw [behind.numPoolValidators, behind.validatorsAdded]
    exact removed.capacity
  numPoolValidators := by
    rw [before.numPoolValidators, behind.numPoolValidators]
    exact removed.numPoolValidators
  toRemove := by
    rw [before.toRemove, behind.toRemove, behind.numPoolValidators, behind.validatorsAdded]
    exact removed.toRemove
  forImmediateRemoval := by
    rw [before.forImmediateRemoval, behind.forImmediateRemoval, behind.numPoolValidators,
      behind.validatorsAdded]
    exact removed.forImmediateRemoval

/-- Every removal leaves fewer marks. -/
theorem MarksRemoved.marks_lt {state next : StewardStateV2} {index : Nat}
    (removed : MarksRemoved state index next) : next.marks < state.marks := by
  rw [StewardStateV2.marks, StewardStateV2.marks, BitMask.count_eq_card, BitMask.count_eq_card,
    BitMask.count_eq_card, BitMask.count_eq_card, removed.toRemove, removed.forImmediateRemoval]
  rcases removed.marked with toRemove | forImmediateRemoval
  · exact Nat.add_lt_add_of_lt_of_le (card_withoutRow_lt toRemove) card_withoutRow_le
  · exact Nat.add_lt_add_of_le_of_lt card_withoutRow_le (card_withoutRow_lt forImmediateRemoval)

/-! ## The instructions -/

/-- What epoch maintenance does to the marks and the epoch. -/
structure MaintenanceEffect (environment : Environment) (lastUpdateEpoch : Nat)
    (validatorIndexToRemove : Option Nat) (state next : StewardStateV2) : Prop where
  updated : environment.clock.epoch = lastUpdateEpoch
  earlier : state.currentEpoch < lastUpdateEpoch
  kept : validatorIndexToRemove = none → SameMarks next state
  removed : ∀ index, validatorIndexToRemove = some index → MarksRemoved state index next
  currentEpoch : next.currentEpoch =
    if next.marks = 0 then lastUpdateEpoch else state.currentEpoch

theorem EpochMaintenance.handler_effect {environment : Environment} {lastUpdateEpoch : Nat}
    {validatorIndexToRemove : Option Nat} {accounts next : Accounts}
    (succeeded : handler environment lastUpdateEpoch validatorIndexToRemove accounts = .ok next) :
    MaintenanceEffect environment lastUpdateEpoch validatorIndexToRemove accounts.state
      next.state := by
  simp only [handler, Outcome.bind_eq_ok, require_eq_ok] at succeeded
  rcases succeeded with ⟨_, updated, _, earlier, _, _, _, _, _, _, _, _, _, _, removed, removing,
    succeeded⟩
  have kept : removed.state.currentEpoch = accounts.state.currentEpoch := by
    cases validatorIndexToRemove with
    | none =>
        cases removing
        rfl
    | some index =>
        exact congrArg (·.currentEpoch) (removed_of_removeValidator removing).control
  have done : (removed.state.validatorsToRemove.isEmpty &&
      removed.state.validatorsForImmediateRemoval.isEmpty) = true ↔ removed.state.marks = 0 := by
    rw [Bool.and_eq_true, BitMask.isEmpty_iff, BitMask.isEmpty_iff,
      StewardStateV2.marks_eq_zero_iff]
  have unset : SameMarks accounts.state (accounts.state.unsetFlag epochMaintenanceFlag) :=
    ⟨rfl, rfl, rfl, rfl⟩
  -- The opening of an epoch leaves the marks and the numbers of validators as they are.
  have effect : ∀ state : StewardStateV2, SameMarks state removed.state →
      state.currentEpoch = (if removed.state.marks = 0 then lastUpdateEpoch
        else accounts.state.currentEpoch) →
      MaintenanceEffect environment lastUpdateEpoch validatorIndexToRemove accounts.state
        state := by
    intro state same currentEpoch
    refine ⟨updated, updated ▸ earlier, fun requested => ?_, fun index requested => ?_, ?_⟩
    · subst requested
      cases removing
      exact ⟨same.toRemove, same.forImmediateRemoval, same.numPoolValidators, same.validatorsAdded⟩
    · subst requested
      exact (removed_of_removeValidator removing).marksRemoved.congr unset same
    · rw [currentEpoch, same.marks]
  split at succeeded
  case isTrue finished =>
      cases succeeded
      apply effect (openEpoch environment.clock removed).state ⟨rfl, rfl, rfl, rfl⟩
      rw [if_pos (done.mp finished), ← updated]
      rfl
  case isFalse unfinished =>
      cases succeeded
      apply effect next.state ⟨rfl, rfl, rfl, rfl⟩
      rw [if_neg fun none => unfinished (done.mpr none)]
      exact kept

/-- Without a removal the checks of the pool and of the list are all that is made. -/
theorem EpochMaintenance.handler_none_succeeds {environment : Environment} {lastUpdateEpoch : Nat}
    {accounts : Accounts} (updated : environment.clock.epoch = lastUpdateEpoch)
    (earlier : accounts.state.currentEpoch < lastUpdateEpoch)
    (active : checkValidatorListHasStakeStatusOtherThan environment.validatorList [.active] =
      .ok false)
    (listed : getValidatorListLength environment.validatorList =
      .ok (accounts.state.numPoolValidators + accounts.state.validatorsAdded -
        accounts.state.marks))
    (fits : accounts.state.marks ≤
      accounts.state.numPoolValidators + accounts.state.validatorsAdded) :
    ∃ next, handler environment lastUpdateEpoch none accounts = .ok next := by
  have later : accounts.state.currentEpoch < environment.clock.epoch := by omega
  rw [handler]
  simp only [require, if_pos updated, if_pos later, active, listed, Outcome.ok_bind, strictSub,
    StewardStateV2.unsetFlag_numPoolValidators, StewardStateV2.unsetFlag_validatorsAdded,
    StewardStateV2.unsetFlag_validatorsToRemove,
    StewardStateV2.unsetFlag_validatorsForImmediateRemoval, if_true]
  rw [← StewardStateV2.marks, if_pos fits, Outcome.ok_bind, if_pos rfl]
  simp only [Outcome.ok_bind, removeRequested]
  split
  · exact ⟨_, rfl⟩
  · exact ⟨_, rfl⟩

theorem InstantRemoveValidator.handler_removed {environment : Environment}
    {lastUpdateEpoch index : Nat} {accounts next : Accounts}
    (succeeded : handler environment lastUpdateEpoch index accounts = .ok next) :
    MarksRemoved accounts.state index next.state ∧
      accounts.state.validatorsForImmediateRemoval.contains index = true := by
  simp only [handler, Outcome.bind_eq_ok, require_eq_ok, BitMask.get_eq_ok] at succeeded
  rcases succeeded with ⟨_, _, _, _, _, _, marked, ⟨_, isMarked⟩, _, chosen, _, _, _, _, _, _, _, _,
    _, _, removing⟩
  exact ⟨(removed_of_removeValidator removing).marksRemoved, isMarked.trans chosen⟩

end Stakenet.Steward

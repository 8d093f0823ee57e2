import Mathlib.Data.Rat.Floor
import Mathlib.Logic.Function.Basic
import Stakenet.Foundation.Outcome

/-! Constants, errors and checked arithmetic of the Steward program, and the
sysvars its instructions read.

Unsigned machine integers are natural numbers. The operations that can leave
their range are written with the bound of the source type: a checked operation
fails, a saturating one clamps. -/

namespace Stakenet.Steward

/-! ## Constants -/

def u16Max : Nat := 2 ^ 16 - 1
def u32Max : Nat := 2 ^ 32 - 1
def u64Max : Nat := 2 ^ 64 - 1
def u128Max : Nat := 2 ^ 128 - 1

def maxValidators : Nat := 5000
def basisPointsMax : Nat := 10000
def commissionMax : Nat := 100
def numEpochsBetweenScoringMax : Nat := 100
def computeScoreSlotRangeMin : Nat := 100

/-- `EPOCH_PROGRESS_MAX`: one percent of the slots must remain. -/
def epochProgressMax : ℚ := 99 / 100

/-- Filler of the ranking arrays. -/
def sortedIndexDefault : Nat := u16Max

/-- Marks a validator whose balance is not tracked yet. -/
def lamportBalanceDefault : Nat := u64Max

/-! ## Errors -/

/-- The `StewardError` variants that the modelled functions return. -/
inductive StewardError
  | validatorNotInList
  | unauthorized
  | bitmaskOutOfBounds
  | invalidState
  | validatorBelowLivenessMinimum
  | validatorBelowStakeMinimum
  | voteHistoryNotRecentEnough
  | stakeHistoryNotRecentEnough
  | clusterHistoryNotRecentEnough
  | stateMachinePaused
  | invalidParameterValue
  | instantUnstakeNotReady
  | validatorIndexOutOfBounds
  | validatorListTypeMismatch
  | arithmeticError
  | maxValidatorsReached
  | epochMaintenanceNotComplete
  | stakePoolNotUpdated
  | epochMaintenanceAlreadyComplete
  | validatorsNeedToBeRemoved
  | validatorNotMarkedForRemoval
  | validatorsHaveNotBeenRemoved
  | listStateMismatch
  | validatorNeedsToBeMarkedForRemoval
  | invalidStakeState
  | arithmeticCastError
  | directedStakeVoteAccountMismatch
  | validatorAlreadyRebalanced
  | validatorNotRemovable
  | validatorMarkedActive
  | stakeStateIsNotStake
  | alreadyPermissioned
  | directedStakeValidatorListFull
  | stakerNotInWhitelist
  | validatorNotInWhitelist
  deriving DecidableEq, Repr

/-- How an instruction fails: with an error of the program, by a Rust panic
(index out of bounds, overflow, failed assertion), or because a library or
another program returned an error. All three abort the transaction. -/
inductive Failure
  | error (error : StewardError)
  | panicked
  | external
  deriving DecidableEq, Repr

abbrev Result (α : Type) := Except Failure α

def fail (error : StewardError) : Result α := .error (.error error)

/-- `require!(condition, error)`. -/
def require (condition : Prop) [Decidable condition] (error : StewardError) : Result Unit :=
  if condition then .ok () else fail error

@[simp] theorem fail_eq_ok {error : StewardError} {value : α} :
    (fail error : Result α) = .ok value ↔ False := by
  simp [fail]

@[simp] theorem require_eq_ok {condition : Prop} [Decidable condition]
    {error : StewardError} {value : Unit} :
    require condition error = .ok value ↔ condition := by
  by_cases holds : condition <;> simp [require, fail, holds]

theorem require_of {condition : Prop} [Decidable condition] (holds : condition)
    (error : StewardError) : require condition error = .ok () :=
  if_pos holds

/-! ## Checked and saturating arithmetic on `u64` -/

def checkedAdd (left right : Nat) : Result Nat :=
  if left + right ≤ u64Max then .ok (left + right) else fail .arithmeticError

def checkedSub (left right : Nat) : Result Nat :=
  if right ≤ left then .ok (left - right) else fail .arithmeticError

def checkedMul (left right : Nat) : Result Nat :=
  if left * right ≤ u64Max then .ok (left * right) else fail .arithmeticError

def checkedDiv (left right : Nat) : Result Nat :=
  if right = 0 then fail .arithmeticError else .ok (left / right)

def saturatingAdd (left right : Nat) : Nat := min (left + right) u64Max

@[simp] theorem checkedAdd_eq_ok {left right value : Nat} :
    checkedAdd left right = .ok value ↔ left + right ≤ u64Max ∧ left + right = value := by
  unfold checkedAdd
  split <;> simp_all

@[simp] theorem checkedSub_eq_ok {left right value : Nat} :
    checkedSub left right = .ok value ↔ right ≤ left ∧ left - right = value := by
  unfold checkedSub
  split <;> simp_all

@[simp] theorem checkedMul_eq_ok {left right value : Nat} :
    checkedMul left right = .ok value ↔ left * right ≤ u64Max ∧ left * right = value := by
  unfold checkedMul
  split <;> simp_all

@[simp] theorem checkedDiv_eq_ok {left right value : Nat} :
    checkedDiv left right = .ok value ↔ right ≠ 0 ∧ left / right = value := by
  unfold checkedDiv
  split <;> simp_all

/-- `index as u16`. -/
def castU16 (index : Nat) : Nat := index % 2 ^ 16

theorem castU16_of_lt {index : Nat} (bounded : index < maxValidators) :
    castU16 index = index :=
  Nat.mod_eq_of_lt (Nat.lt_trans bounded (by decide))

/-! ## Account arrays

An account array `[T; MAX_VALIDATORS]` is a total function of the row of which
only the rows below `maxValidators` can be read or written; an access beyond
them panics. -/

def readRow (rows : Nat → α) (row : Nat) : Result α :=
  if row < maxValidators then .ok (rows row) else .error .panicked

def writeRow (rows : Nat → α) (row : Nat) (value : α) : Result (Nat → α) :=
  if row < maxValidators then .ok (Function.update rows row value) else .error .panicked

@[simp] theorem readRow_eq_ok {rows : Nat → α} {row : Nat} {value : α} :
    readRow rows row = .ok value ↔ row < maxValidators ∧ rows row = value := by
  unfold readRow
  split <;> simp_all

@[simp] theorem writeRow_eq_ok {rows next : Nat → α} {row : Nat} {value : α} :
    writeRow rows row value = .ok next ↔
      row < maxValidators ∧ Function.update rows row value = next := by
  unfold writeRow
  split <;> simp_all

theorem readRow_of_lt {row : Nat} (rows : Nat → α) (bounded : row < maxValidators) :
    readRow rows row = .ok (rows row) :=
  if_pos bounded

theorem writeRow_of_lt {row : Nat} (rows : Nat → α) (bounded : row < maxValidators)
    (value : α) : writeRow rows row value = .ok (Function.update rows row value) :=
  if_pos bounded

/-! ## Sysvars -/

/-- A 32-byte account address. The default address is all zeros. -/
abbrev Pubkey := BitVec 256

def defaultPubkey : Pubkey := 0

structure Clock where
  epoch : Nat
  slot : Nat

/-- The epoch schedule sysvar. Its slot functions belong to the Solana runtime
and are kept as data. -/
structure EpochSchedule where
  slotsPerEpoch : Nat
  getFirstSlotInEpoch : Nat → Nat
  getSlotsInEpoch : Nat → Nat

/-- A schedule without warmup: every epoch has the same length. -/
def EpochSchedule.withoutWarmup (slotsPerEpoch : Nat) : EpochSchedule where
  slotsPerEpoch := slotsPerEpoch
  getFirstSlotInEpoch := fun epoch => epoch * slotsPerEpoch
  getSlotsInEpoch := fun _ => slotsPerEpoch

/-- Progress through the current epoch. The source divides two `f64`; here the
quotient is the exact rational. -/
def epochProgress (clock : Clock) (epochSchedule : EpochSchedule) : Result ℚ := do
  let slotIndex ← checkedSub clock.slot (epochSchedule.getFirstSlotInEpoch clock.epoch)
  return (slotIndex : ℚ) / epochSchedule.slotsPerEpoch

end Stakenet.Steward

import Stakenet.Steward.DirectedStake

/-! Removal of a validator's rows from the state account and the directed stake
account. -/

namespace Stakenet.Steward

/-- The two accounts that the Steward instructions write. -/
structure Accounts where
  state : StewardStateV2
  stakeMeta : DirectedStakeMeta

/-- Copies one row of a mask down from the next row. -/
def shiftMaskRow (mask : BitMask) (row : Nat) : Result BitMask := do
  mask.set row (← mask.get (row + 1))

/-- Copies one row of an array down from the next row. -/
def shiftArrayRow (rows : Nat → α) (row : Nat) : Result (Nat → α) := do
  writeRow rows row (← readRow rows (row + 1))

/-- Body of the loop over the pool rows: shift every array by one. -/
def shiftValidatorRow (row : Nat) (accounts : Accounts) : Result Accounts := do
  let state := accounts.state
  let stakeMeta := accounts.stakeMeta
  return {
    state := { state with
      validatorLamportBalances := ← shiftArrayRow state.validatorLamportBalances row
      scores := ← shiftArrayRow state.scores row
      rawScores := ← shiftArrayRow state.rawScores row
      delegations := ← shiftArrayRow state.delegations row
      instantUnstake := ← shiftMaskRow state.instantUnstake row
      progress := ← shiftMaskRow state.progress row }
    stakeMeta := { stakeMeta with
      directedStakeLamports := ← shiftArrayRow stakeMeta.directedStakeLamports row
      directedStakeMetaIndices := ← shiftArrayRow stakeMeta.directedStakeMetaIndices row } }

/-- Body of the loop over all rows: the marks are valid past the pool rows. -/
def shiftRemovalMarks (row : Nat) (accounts : Accounts) : Result Accounts := do
  let state := accounts.state
  return { accounts with
    state := { state with
      validatorsToRemove := ← shiftMaskRow state.validatorsToRemove row
      validatorsForImmediateRemoval :=
        ← shiftMaskRow state.validatorsForImmediateRemoval row } }

/-- Deletes the removed validator from a ranking, if it occurs anywhere in the
array, by shifting the positions after it that lie below `numPoolValidators`. -/
def deleteFromRanking (sortedIndices : Nat → Nat) (index numPoolValidators : Nat) :
    Result (Nat → Nat) := do
  let position ← findPosition
    (fun position => .ok (sortedIndices position == castU16 index)) 0 maxValidators
  match position with
  | none => return sortedIndices
  | some position =>
      forRange position numPoolValidators
        (fun position indices => shiftArrayRow indices position) sortedIndices

/-- Renames one ranked row after the removal of `index`. -/
def relabelRank (index position : Nat) (sortedIndices : Nat → Nat) : Result (Nat → Nat) := do
  let ranked ← readRow sortedIndices position
  if index < ranked then
    writeRow sortedIndices position (← checkedSub ranked 1)
  else
    return sortedIndices

/-- Resets the row that a removal has freed. -/
def clearValidatorRow (accounts : Accounts) (row : Nat) : Result Accounts := do
  let state := accounts.state
  let stakeMeta := accounts.stakeMeta
  return {
    state := { state with
      validatorLamportBalances :=
        ← writeRow state.validatorLamportBalances row lamportBalanceDefault
      scores := ← writeRow state.scores row 0
      rawScores := ← writeRow state.rawScores row 0
      sortedScoreIndices := ← writeRow state.sortedScoreIndices row sortedIndexDefault
      sortedRawScoreIndices := ← writeRow state.sortedRawScoreIndices row sortedIndexDefault
      delegations := ← writeRow state.delegations row .none
      instantUnstake := ← state.instantUnstake.set row false
      progress := ← state.progress.set row false }
    stakeMeta := { stakeMeta with
      directedStakeLamports := ← writeRow stakeMeta.directedStakeLamports row 0
      directedStakeMetaIndices :=
        ← writeRow stakeMeta.directedStakeMetaIndices row metaIndexDefault } }

/-- Resets the removal marks of the row past the last validator. -/
def clearRemovalMarks (accounts : Accounts) (row : Nat) : Result Accounts := do
  let state := accounts.state
  return { accounts with
    state := { state with
      validatorsToRemove := ← state.validatorsToRemove.set row false
      validatorsForImmediateRemoval :=
        ← state.validatorsForImmediateRemoval.set row false } }

/-- A validator that was added in the current cycle lowers `validators_added`,
any other one `num_pool_validators`. -/
def forgetValidator (state : StewardStateV2) (index : Nat) : Result StewardStateV2 := do
  if state.numPoolValidators ≤ index then
    return { state with validatorsAdded := ← checkedSub state.validatorsAdded 1 }
  else
    return { state with numPoolValidators := ← checkedSub state.numPoolValidators 1 }

/-- Both rankings after the removal of `index`. -/
def removeFromRankings (accounts : Accounts) (index : Nat) : Result Accounts := do
  let state := accounts.state
  let numPoolValidators := state.numPoolValidators
  let rawDeleted ← deleteFromRanking state.sortedRawScoreIndices index numPoolValidators
  let scoreDeleted ← deleteFromRanking state.sortedScoreIndices index numPoolValidators
  let rawRelabelled ← forRange 0 numPoolValidators (relabelRank index) rawDeleted
  let scoreRelabelled ← forRange 0 numPoolValidators (relabelRank index) scoreDeleted
  return { accounts with
    state := { state with
      sortedRawScoreIndices := rawRelabelled
      sortedScoreIndices := scoreRelabelled } }

/-- Update internal state when a validator is removed from the pool. -/
def removeValidator (accounts : Accounts) (index : Nat) : Result Accounts := do
  let markedForRegularRemoval ← accounts.state.validatorsToRemove.get index
  let markedForImmediateRemoval ← accounts.state.validatorsForImmediateRemoval.get index
  require (markedForRegularRemoval ∨ markedForImmediateRemoval) .validatorNotMarkedForRemoval
  require (index < accounts.state.numPoolValidators + accounts.state.validatorsAdded)
    .validatorIndexOutOfBounds
  let state ← forgetValidator accounts.state index
  -- The bounds below are the refreshed ones.
  let numPoolValidators := state.numPoolValidators
  let numPoolValidatorsPlusAdded := numPoolValidators + state.validatorsAdded
  let shifted ← forRange index numPoolValidators shiftValidatorRow
    { accounts with state := state }
  let marksShifted ← forRange index numPoolValidatorsPlusAdded shiftRemovalMarks shifted
  let ranked ← removeFromRankings marksShifted index
  let cleared ← clearValidatorRow ranked numPoolValidators
  clearRemovalMarks cleared numPoolValidatorsPlusAdded

end Stakenet.Steward

import Stakenet.Steward.Crank

/-! Instructions around the crank: initialisation and resets, epoch maintenance,
additions, removals and marks, and the administration of directed stake. -/

namespace Stakenet.Steward

/-! ## Initialisation and resets -/

namespace ReallocState

/-- The state of a new account. Fields of the zeroed account that the handler
does not write are zero. -/
def initialState (numPoolValidators nextCycleEpoch slot : Nat) : StewardStateV2 where
  stateTag := .rebalanceDirected
  validatorLamportBalances := fun _ => lamportBalanceDefault
  scores := fun _ => 0
  sortedScoreIndices := fun _ => sortedIndexDefault
  sortedRawScoreIndices := fun _ => sortedIndexDefault
  delegations := fun _ => .none
  instantUnstake := .empty
  progress := .empty
  validatorsForImmediateRemoval := .empty
  validatorsToRemove := .empty
  startComputingScoresSlot := slot
  currentEpoch := 0
  nextCycleEpoch := nextCycleEpoch
  numPoolValidators := numPoolValidators
  scoringUnstakeTotal := 0
  instantUnstakeTotal := 0
  stakeDepositUnstakeTotal := 0
  statusFlags := 0
  validatorsAdded := 0
  rawScores := fun _ => 0

def handler (clock : Clock) (config : Config) (validatorList : ValidatorList) :
    Result StewardStateV2 := do
  let nextCycleEpoch ← checkedAdd clock.epoch config.parameters.numEpochsBetweenScoring
  return initialState validatorList.len nextCycleEpoch clock.slot

end ReallocState

namespace ResetStewardState

/-- The unstake totals are kept. -/
def handler (environment : Environment) (state : StewardStateV2) : Result StewardStateV2 := do
  let nextCycleEpoch ← checkedAdd environment.clock.epoch
    environment.config.parameters.numEpochsBetweenScoring
  return { state with
    stateTag := .rebalanceDirected
    numPoolValidators := environment.validatorList.len
    validatorLamportBalances := fun _ => lamportBalanceDefault
    scores := fun _ => 0
    sortedScoreIndices := fun _ => sortedIndexDefault
    rawScores := fun _ => 0
    sortedRawScoreIndices := fun _ => sortedIndexDefault
    progress := .empty
    currentEpoch := environment.clock.epoch
    nextCycleEpoch := nextCycleEpoch
    delegations := fun _ => .none
    instantUnstake := .empty
    startComputingScoresSlot := environment.clock.slot
    validatorsToRemove := .empty
    validatorsForImmediateRemoval := .empty
    validatorsAdded := 0 }.clearFlags

end ResetStewardState

namespace ResetValidatorLamportBalances

def handler (state : StewardStateV2) : StewardStateV2 :=
  { state with validatorLamportBalances := fun _ => lamportBalanceDefault }

end ResetValidatorLamportBalances

/-! ## Epoch maintenance and removals -/

/-- `usize` subtraction in a build with overflow checks. -/
def strictSub (left right : Nat) : Result Nat :=
  if right ≤ left then .ok (left - right) else .error .panicked

@[simp] theorem strictSub_eq_ok {left right value : Nat} :
    strictSub left right = .ok value ↔ right ≤ left ∧ left - right = value := by
  unfold strictSub
  split <;> simp_all

namespace EpochMaintenance

/-- The state that opens an epoch. Scores and delegations are kept until the
cycle is over. -/
def openEpoch (clock : Clock) (accounts : Accounts) : Accounts :=
  let state := accounts.state
  let stakeMeta := accounts.stakeMeta
  { state :=
      { (state.unsetFlag (preLoopIdleFlag ||| computeInstantUnstakesFlag ||| rebalanceFlag |||
          postLoopIdleFlag ||| rebalanceDirectedCompleteFlag)).setFlag epochMaintenanceFlag with
        currentEpoch := clock.epoch
        progress := .empty
        instantUnstake := .empty
        stateTag := .rebalanceDirected }
    stakeMeta :=
      if clock.epoch = state.nextCycleEpoch then
        { stakeMeta with directedUnstakeTotal := 0 }
      else
        stakeMeta }

def removeRequested (accounts : Accounts) : Option Nat → Result Accounts
  | none => .ok accounts
  | some validatorIndexToRemove => removeValidator accounts validatorIndexToRemove

/-- `lastUpdateEpoch` is that of the stake pool. -/
def handler (environment : Environment) (lastUpdateEpoch : Nat)
    (validatorIndexToRemove : Option Nat) (accounts : Accounts) : Result Accounts := do
  let clock := environment.clock
  let validatorList := environment.validatorList
  require (clock.epoch = lastUpdateEpoch) .stakePoolNotUpdated
  require (accounts.state.currentEpoch < clock.epoch) .epochMaintenanceAlreadyComplete
  let otherStatus ← checkValidatorListHasStakeStatusOtherThan validatorList [.active]
  require (otherStatus = false) .validatorsHaveNotBeenRemoved
  let state := accounts.state.unsetFlag epochMaintenanceFlag
  let validatorsInList ← getValidatorListLength validatorList
  let validatorsToRemove :=
    state.validatorsToRemove.count + state.validatorsForImmediateRemoval.count
  let expected ← strictSub (state.numPoolValidators + state.validatorsAdded) validatorsToRemove
  require (expected = validatorsInList) .listStateMismatch
  let removed ← removeRequested { accounts with state := state } validatorIndexToRemove
  if removed.state.validatorsToRemove.isEmpty &&
      removed.state.validatorsForImmediateRemoval.isEmpty then
    return openEpoch clock removed
  else
    return removed

end EpochMaintenance

namespace InstantRemoveValidator

def handler (environment : Environment) (lastUpdateEpoch validatorIndexToRemove : Nat)
    (accounts : Accounts) : Result Accounts := do
  let state := accounts.state
  let clock := environment.clock
  let validatorsInList ← getValidatorListLength environment.validatorList
  require (state.currentEpoch = clock.epoch) .epochMaintenanceNotComplete
  require (clock.epoch = lastUpdateEpoch) .stakePoolNotUpdated
  let marked ← state.validatorsForImmediateRemoval.get validatorIndexToRemove
  require (marked = true) .validatorNotInList
  let tally ← tallyStakeStatus environment.validatorList
  let totalDeactivating := tally.deactivatingAll + tally.deactivatingTransient +
    tally.deactivatingValidator + tally.readyForRemoval
  require (totalDeactivating = state.validatorsToRemove.count) .validatorsHaveNotBeenRemoved
  require (tally.readyForRemoval = 0) .validatorsNeedToBeRemoved
  let expected ← strictSub (state.numPoolValidators + state.validatorsAdded)
    state.validatorsForImmediateRemoval.count
  require (expected = validatorsInList) .listStateMismatch
  removeValidator accounts validatorIndexToRemove

end InstantRemoveValidator

namespace AdminMarkForRemoval

def handler (validatorListIndex : Nat) (markForRemoval immediate : Bool)
    (state : StewardStateV2) : Result StewardStateV2 := do
  if immediate then
    return { state with
      validatorsForImmediateRemoval :=
        ← state.validatorsForImmediateRemoval.set validatorListIndex markForRemoval }
  else
    return { state with
      validatorsToRemove := ← state.validatorsToRemove.set validatorListIndex markForRemoval }

end AdminMarkForRemoval

/-! ## Additions -/

def addValidatorCheck (environment : Environment) (state : StewardStateV2) : Result Unit := do
  require (environment.config.paused = false) .stateMachinePaused
  require (environment.clock.epoch = state.currentEpoch) .epochMaintenanceNotComplete
  require (state.validatorsForImmediateRemoval.count = 0) .validatorsNeedToBeRemoved
  requireListMatches environment state

namespace AutoAddValidatorToPool

/-- `eligibility` is the outcome of the liveness and stake checks on the
validator history, `invoke` that of the call into the stake pool program. -/
def handler (environment : Environment) (eligibility invoke : Result Unit)
    (state : StewardStateV2) : Result StewardStateV2 := do
  addValidatorCheck environment state
  let validatorListLen ← getValidatorListLength environment.validatorList
  require (validatorListLen + 1 ≤ maxValidators) .maxValidatorsReached
  eligibility
  let next ← state.incrementValidatorToAdd
  invoke
  return next

end AutoAddValidatorToPool

namespace AddValidatorToPool

def handler (environment : Environment) (invoke : Result Unit) (state : StewardStateV2) :
    Result StewardStateV2 := do
  require (environment.clock.epoch = state.currentEpoch) .epochMaintenanceNotComplete
  require (environment.validatorList.len + 1 ≤ maxValidators) .maxValidatorsReached
  let next ← state.incrementValidatorToAdd
  invoke
  return next

end AddValidatorToPool

/-! ## Directed stake administration -/

namespace CopyDirectedStakeTargets

/-- Writes a new target and wires the row of its validator to it. -/
def appendTarget (clock : Clock) (votePubkey : Pubkey) (targetLamports validatorListIndex : Nat)
    (stakeMeta : DirectedStakeMeta) : Result DirectedStakeMeta := do
  let targetIndex := stakeMeta.totalStakeTargets
  return { stakeMeta with
    targets := ← writeRow stakeMeta.targets targetIndex {
      votePubkey := votePubkey
      totalTargetLamports := targetLamports
      totalStakedLamports := 0
      targetLastUpdatedEpoch := clock.epoch
      stakedLastUpdatedEpoch := 0 }
    totalStakeTargets := targetIndex + 1
    directedStakeLamports := ← writeRow stakeMeta.directedStakeLamports validatorListIndex 0
    directedStakeMetaIndices :=
      ← writeRow stakeMeta.directedStakeMetaIndices validatorListIndex targetIndex }

def handler (clock : Clock) (validatorList : ValidatorList) (votePubkey : Pubkey)
    (targetLamports validatorListIndex : Nat) (stakeMeta : DirectedStakeMeta) :
    Result DirectedStakeMeta := do
  requireValidatorList validatorList
  let listed ← votePubkeyAtValidatorListIndex validatorList validatorListIndex
  require (listed = votePubkey) .unauthorized
  match stakeMeta.getTargetIndex votePubkey with
  | some targetIndex =>
      stakeMeta.updateTarget targetIndex fun target =>
        { target with
          totalTargetLamports := targetLamports
          targetLastUpdatedEpoch := clock.epoch }
  | none => appendTarget clock votePubkey targetLamports validatorListIndex stakeMeta

end CopyDirectedStakeTargets

namespace SyncDirectedStakeLamports

/-- One row of the list: take over the staked lamports of the wired target, if
that target is of the same validator. -/
def syncRow (validatorList : ValidatorList) (row : Nat) (stakeMeta : DirectedStakeMeta) :
    Result DirectedStakeMeta := do
  let votePubkey ← votePubkeyAtValidatorListIndex validatorList row
  let targetIndex ← readRow stakeMeta.directedStakeMetaIndices row
  if targetIndex = metaIndexDefault then
    return stakeMeta
  else
    let target ← readRow stakeMeta.targets targetIndex
    if target.votePubkey ≠ votePubkey then
      return stakeMeta
    else
      return { stakeMeta with
        directedStakeLamports :=
          ← writeRow stakeMeta.directedStakeLamports row target.totalStakedLamports }

def handler (validatorList : ValidatorList) (stakeMeta : DirectedStakeMeta) :
    Result DirectedStakeMeta := do
  requireValidatorList validatorList
  forRange 0 validatorList.len (syncRow validatorList) stakeMeta

end SyncDirectedStakeLamports

namespace MigrateDirectedToAlgorithmic

def clearTarget (clock : Clock) (target : DirectedStakeTarget) : DirectedStakeTarget :=
  if target.votePubkey ≠ defaultPubkey then
    { target with
      totalTargetLamports := 0
      totalStakedLamports := 0
      targetLastUpdatedEpoch := clock.epoch
      stakedLastUpdatedEpoch := clock.epoch }
  else
    target

/-- Both mirrors of the applied directed stake are cleared together. -/
def handler (clock : Clock) (stakeMeta : DirectedStakeMeta) : DirectedStakeMeta :=
  { stakeMeta with
    targets := fun index => clearTarget clock (stakeMeta.targets index)
    directedStakeLamports := fun _ => 0
    directedUnstakeTotal := 0 }

end MigrateDirectedToAlgorithmic

end Stakenet.Steward

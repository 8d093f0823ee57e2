import Stakenet.Steward.Delegation
import Stakenet.Steward.Removal

/-! How much directed stake one target gains or loses, and the reconciliation of
the directed accounting with the validator list. -/

namespace Stakenet.Steward.Directed

def saturatingMul128 (left right : Nat) : Nat := min (left * right) u128Max

/-- Saturating sum of a quantity over the targets not yet processed in the
current epoch. -/
def totalOverPending (stakeMeta : DirectedStakeMeta) (currentEpoch : Nat)
    (quantity : DirectedStakeTarget → Nat) : Nat :=
  (List.range stakeMeta.totalStakeTargets).foldl (fun total index =>
    if (stakeMeta.targets index).stakedLastUpdatedEpoch = currentEpoch then total
    else saturatingAdd total (quantity (stakeMeta.targets index))) 0

/-- `available * (delta / total)`, in basis points of `u128`. -/
def proportionalLamports (available delta total : Nat) : Result Nat :=
  let proportionBps := saturatingMul128 delta 10000 / total
  let lamports := saturatingMul128 available proportionBps / 10000
  if lamports ≤ u64Max then .ok lamports else fail .arithmeticError

/-- Directed decrease of a target, pro rata of the unstake cap that is left. -/
def decreaseStakeCalculation (state : StewardStateV2) (stakeMeta : DirectedStakeMeta)
    (targetIndex currentLamports directedUnstakeCapLamports directedUnstakeTotalLamports
      minimumDelegation : Nat) : Result RebalanceType := do
  if stakeMeta.totalStakeTargets ≤ targetIndex then
    fail .validatorIndexOutOfBounds
  else
    let targetLamports := (← readRow stakeMeta.targets targetIndex).totalTargetLamports
    if currentLamports ≤ targetLamports then
      return .none
    else
      let targetDeltaLamports := currentLamports - targetLamports
      if maxValidators < stakeMeta.totalStakeTargets then .error .panicked
      let totalExcessLamports := totalOverPending stakeMeta state.currentEpoch
        fun target => target.totalStakedLamports - target.totalTargetLamports
      if totalExcessLamports = 0 then
        return .none
      else
        let unstakeTotal :=
          min (directedUnstakeCapLamports - directedUnstakeTotalLamports) totalExcessLamports
        let proportional ←
          proportionalLamports unstakeTotal targetDeltaLamports totalExcessLamports
        let capped := min proportional targetDeltaLamports
        if capped < minimumDelegation then
          return .none
        else
          return .decrease {
            scoringUnstakeLamports := 0
            instantUnstakeLamports := 0
            stakeDepositUnstakeLamports := 0
            totalUnstakeLamports := capped
            directedUnstakeLamports := capped }

/-- Directed increase of a target, pro rata of the reserve beyond two rents. -/
def increaseStakeCalculation (state : StewardStateV2) (stakeMeta : DirectedStakeMeta)
    (targetIndex currentLamports reserveLamports minimumDelegation stakeRent : Nat) :
    Result RebalanceType := do
  if stakeMeta.totalStakeTargets ≤ targetIndex then
    fail .validatorIndexOutOfBounds
  else
    let targetLamports := (← readRow stakeMeta.targets targetIndex).totalTargetLamports
    let targetDeltaLamports := targetLamports - currentLamports
    if targetDeltaLamports = 0 then
      return .none
    else
      if maxValidators < stakeMeta.totalStakeTargets then .error .panicked
      let totalDeltaLamports := totalOverPending stakeMeta state.currentEpoch
        fun target => target.totalTargetLamports - target.totalStakedLamports
      if totalDeltaLamports = 0 then
        return .none
      else
        let availableLamports := reserveLamports - min (stakeRent * 2) u64Max
        let proportional ←
          proportionalLamports availableLamports targetDeltaLamports totalDeltaLamports
        let capped := min proportional targetDeltaLamports
        if capped < minimumDelegation then
          return .none
        else
          return .increase capped

/-! ## Reconciliation with the validator list -/

/-- Charges a withdrawal to the directed stake of a validator, or credits a
deposit against its directed deficit. -/
def adjustForMovement (accounts : Accounts)
    (validatorListStakedLamports validatorListIndex directedStakeMetaIndex : Nat) :
    Result Accounts := do
  let state := accounts.state
  let stakeMeta := accounts.stakeMeta
  let balances := state.validatorLamportBalances
  let stewardStateTotal ← readRow balances validatorListIndex
  let target ← readRow stakeMeta.targets directedStakeMetaIndex
  let directed ← readRow stakeMeta.directedStakeLamports validatorListIndex
  if validatorListStakedLamports < stewardStateTotal then
    let withdrawal := stewardStateTotal - validatorListStakedLamports
    let balances ← writeRow balances validatorListIndex (stewardStateTotal - withdrawal)
    if target.totalStakedLamports < withdrawal then
      let stakeMeta ← stakeMeta.updateTarget directedStakeMetaIndex fun target =>
        { target with totalStakedLamports := 0 }
      return {
        state := { state with validatorLamportBalances := balances }
        stakeMeta := { stakeMeta with
          directedStakeLamports :=
            ← writeRow stakeMeta.directedStakeLamports validatorListIndex 0 } }
    else
      let stakeMeta ←
        stakeMeta.subtractFromTotalStakedLamports directedStakeMetaIndex withdrawal
      return {
        state := { state with validatorLamportBalances := balances }
        stakeMeta := { stakeMeta with
          directedStakeLamports :=
            ← writeRow stakeMeta.directedStakeLamports validatorListIndex
              (directed - withdrawal) } }
  else if stewardStateTotal < validatorListStakedLamports ∧
      target.totalStakedLamports < target.totalTargetLamports then
    let directedDeficit := target.totalTargetLamports - target.totalStakedLamports
    let deposit := validatorListStakedLamports - stewardStateTotal
    let increase := min directedDeficit deposit
    let stakeMeta ← stakeMeta.addToTotalStakedLamports directedStakeMetaIndex increase
    return {
      state := { state with
        validatorLamportBalances :=
          ← writeRow balances validatorListIndex (saturatingAdd stewardStateTotal increase) }
      stakeMeta := { stakeMeta with
        directedStakeLamports :=
          ← writeRow stakeMeta.directedStakeLamports validatorListIndex
            (saturatingAdd directed increase) } }
  else
    return accounts

/-- Caps stale directed accounting to the stake the validator really has. -/
def clampStaleAccounting (accounts : Accounts)
    (validatorListStakedLamports validatorListIndex directedStakeMetaIndex : Nat) :
    Result Accounts := do
  let stakeMeta := accounts.stakeMeta
  let target ← readRow stakeMeta.targets directedStakeMetaIndex
  if validatorListStakedLamports < target.totalStakedLamports then
    let excess := target.totalStakedLamports - validatorListStakedLamports
    let directed ← readRow stakeMeta.directedStakeLamports validatorListIndex
    let stakeMeta ← stakeMeta.subtractFromTotalStakedLamports directedStakeMetaIndex excess
    return { accounts with
      stakeMeta := { stakeMeta with
        directedStakeLamports :=
          ← writeRow stakeMeta.directedStakeLamports validatorListIndex (directed - excess) } }
  else
    return accounts

def adjustDirectedStakeForDepositsAndWithdrawals (accounts : Accounts)
    (validatorListStakedLamports validatorListIndex directedStakeMetaIndex : Nat) :
    Result Accounts := do
  let adjusted ← adjustForMovement accounts validatorListStakedLamports validatorListIndex
    directedStakeMetaIndex
  clampStaleAccounting adjusted validatorListStakedLamports validatorListIndex
    directedStakeMetaIndex

end Stakenet.Steward.Directed

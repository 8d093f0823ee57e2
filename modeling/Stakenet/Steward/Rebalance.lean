import Stakenet.Steward.Delegation

/-! Rebalancing of undirected stake, one call per validator. -/

namespace Stakenet.Steward

/-- Arguments of `StewardStateV2::rebalance`. -/
structure RebalanceCall where
  stakeMeta : DirectedStakeMeta
  currentEpoch : Nat
  index : Nat
  validatorList : ValidatorList
  stakePoolLamports : Nat
  reserveLamports : Nat
  stakeAccountCurrentLamports : Nat
  minimumDelegation : Nat
  stakeRent : Nat
  parameters : Parameters

/-! ## Amounts a call works with -/

/-- The local variables of `rebalance` that are fixed before its decision: the
reserve beyond the rent still needed, the pool beyond its fixed costs, and the
validator's target and current lamports. -/
structure RebalanceTerms where
  baseLamportBalance : Nat
  reserveLamports : Nat
  stakePoolLamports : Nat
  targetLamports : Nat
  currentTotalLamports : Nat
  currentUndirectedLamports : Nat
  deriving DecidableEq, Repr

def rebalanceTerms (state : StewardStateV2) (call : RebalanceCall) : Result RebalanceTerms := do
  let baseLamportBalance ← checkedAdd call.minimumDelegation call.stakeRent
  let accountsLeftNeededReserveForRent ←
    checkedSub (call.validatorList.len + 1) state.progress.count
  let reserveMinimum ← checkedMul call.stakeRent accountsLeftNeededReserveForRent
  let fixedCosts ← checkedMul baseLamportBalance call.validatorList.len
  let stakePoolLamports ← checkedSub call.stakePoolLamports fixedCosts
  let targetLamports ← getTargetLamports (← readRow state.delegations call.index)
    stakePoolLamports
  let directedStakeLamports ← readRow call.stakeMeta.directedStakeLamports call.index
  return {
    baseLamportBalance := baseLamportBalance
    reserveLamports := call.reserveLamports - reserveMinimum
    stakePoolLamports := stakePoolLamports
    targetLamports := targetLamports
    currentTotalLamports := saturatingAdd call.stakeAccountCurrentLamports baseLamportBalance
    currentUndirectedLamports := call.stakeAccountCurrentLamports - directedStakeLamports }

/-- The internal balance follows the stake account whenever that is below it or
the validator is below its target. Otherwise it is kept, so that a stake deposit
stays visible until it can be unstaked. -/
def trackedBalance (tracked : Nat) (terms : RebalanceTerms) : Nat :=
  match decide (terms.currentTotalLamports < tracked),
      decide (terms.currentUndirectedLamports < terms.targetLamports) with
  | true, true => terms.currentTotalLamports
  | true, false => terms.currentTotalLamports
  | false, true => terms.currentTotalLamports
  | false, false => tracked

/-- A cap in basis points of the pool, computed in `u128`. -/
def unstakeCap (stakePoolLamports capBps : Nat) : Result Nat :=
  if stakePoolLamports * capBps / 10000 ≤ u64Max then
    .ok (stakePoolLamports * capBps / 10000)
  else
    fail .arithmeticCastError

/-! ## The decision -/

def rebalanceDecision (state : StewardStateV2) (call : RebalanceCall)
    (terms : RebalanceTerms) : Result RebalanceType := do
  let calculation : StakeCalculation := {
    state := state
    stakeMeta := call.stakeMeta
    targetIndex := call.index
    currentLamports := terms.currentUndirectedLamports
    stakePoolLamports := terms.stakePoolLamports
    validatorList := call.validatorList
    minimumDelegation := call.minimumDelegation
    stakeRent := call.stakeRent }
  if terms.targetLamports < terms.currentUndirectedLamports ∨
      (← state.instantUnstake.get call.index) then
    let scoringUnstakeCap ← unstakeCap terms.stakePoolLamports
      call.parameters.scoringUnstakeCapBps
    let instantUnstakeCap ← unstakeCap terms.stakePoolLamports
      call.parameters.instantUnstakeCapBps
    let stakeDepositUnstakeCap ← unstakeCap terms.stakePoolLamports
      call.parameters.stakeDepositUnstakeCapBps
    decreaseStakeCalculation calculation {
      stakeDepositUnstakeTotal := state.stakeDepositUnstakeTotal
      instantUnstakeTotal := state.instantUnstakeTotal
      scoringUnstakeTotal := state.scoringUnstakeTotal
      stakeDepositUnstakeCap := stakeDepositUnstakeCap
      instantUnstakeCap := instantUnstakeCap
      scoringUnstakeCap := scoringUnstakeCap }
  else if terms.currentUndirectedLamports < terms.targetLamports then
    increaseStakeCalculation calculation terms.reserveLamports
  else
    return .none

/-! ## Updates of the internal state -/

/-- A validator that loses its share hands it on: the other denominators drop by
one, but not below one. -/
def lowerDenominator (row : Nat) (delegations : Nat → Delegation) :
    Result (Nat → Delegation) := do
  let delegation ← readRow delegations row
  if 0 < delegation.numerator then
    writeRow delegations row
      { delegation with denominator := max (delegation.denominator - 1) 1 }
  else
    return delegations

def redistributeDelegation (delegations : Nat → Delegation) (index numPoolValidators : Nat) :
    Result (Nat → Delegation) := do
  let before ← forRange 0 index lowerDenominator delegations
  let after ← forRange (index + 1) numPoolValidators lowerDenominator before
  writeRow after index .none

/-- The tracked balances after `lamports` leave a validator. An untracked balance
stays untracked. -/
def decreaseBalance (balances : Nat → Nat) (index lamports : Nat) : Result (Nat → Nat) := do
  let balance ← readRow balances index
  if balance ≠ lamportBalanceDefault then
    writeRow balances index (balance - lamports)
  else
    return balances

def increaseBalance (balances : Nat → Nat) (index lamports : Nat) : Result (Nat → Nat) := do
  let balance ← readRow balances index
  if balance ≠ lamportBalanceDefault then
    writeRow balances index (← checkedAdd balance lamports)
  else
    return balances

namespace StewardStateV2

/-- A validator that is instantly unstaked loses its share for the cycle. -/
def unstakedDelegations (state : StewardStateV2) (index instantUnstakeLamports : Nat) :
    Result (Nat → Delegation) := do
  let delegation ← readRow state.delegations index
  if 0 < instantUnstakeLamports ∧ 0 < delegation.numerator then
    redistributeDelegation state.delegations index state.numPoolValidators
  else
    return state.delegations

def applyDecrease (state : StewardStateV2) (index : Nat) (components : DecreaseComponents) :
    Result StewardStateV2 := do
  return { state with
    validatorLamportBalances :=
      ← decreaseBalance state.validatorLamportBalances index components.totalUnstakeLamports
    scoringUnstakeTotal :=
      ← checkedAdd state.scoringUnstakeTotal components.scoringUnstakeLamports
    stakeDepositUnstakeTotal :=
      ← checkedAdd state.stakeDepositUnstakeTotal components.stakeDepositUnstakeLamports
    instantUnstakeTotal :=
      ← checkedAdd state.instantUnstakeTotal components.instantUnstakeLamports
    delegations := ← state.unstakedDelegations index components.instantUnstakeLamports }

def applyIncrease (state : StewardStateV2) (index amount : Nat) : Result StewardStateV2 := do
  return { state with
    validatorLamportBalances := ← increaseBalance state.validatorLamportBalances index amount }

def applyRebalance (state : StewardStateV2) (index : Nat) :
    RebalanceType → Result StewardStateV2
  | .decrease components => state.applyDecrease index components
  | .increase amount => state.applyIncrease index amount
  | .none => .ok state

def markProgress (state : StewardStateV2) (index : Nat) : Result StewardStateV2 := do
  return { state with progress := ← state.progress.set index true }

/-- The part of `rebalance` for a validator that is neither processed nor marked
for removal. -/
def rebalanceValidator (state : StewardStateV2) (call : RebalanceCall) :
    Result (StewardStateV2 × RebalanceType) := do
  let terms ← rebalanceTerms state call
  let balance ← readRow state.validatorLamportBalances call.index
  let tracked := { state with
    validatorLamportBalances :=
      ← writeRow state.validatorLamportBalances call.index (trackedBalance balance terms) }
  let rebalanceType ← rebalanceDecision tracked call terms
  let applied ← tracked.applyRebalance call.index rebalanceType
  return (← applied.markProgress call.index, rebalanceType)

def rebalance (state : StewardStateV2) (call : RebalanceCall) :
    Result (StewardStateV2 × RebalanceType) := do
  if state.stateTag = .rebalance then
    if state.nextCycleEpoch ≤ call.currentEpoch then
      fail .invalidState
    else if ← state.progress.get call.index then
      return (state, .none)
    else if (← state.validatorsToRemove.get call.index) ||
        (← state.validatorsForImmediateRemoval.get call.index) then
      return (← state.markProgress call.index, .none)
    else
      state.rebalanceValidator call
  else
    fail .invalidState

end StewardStateV2

end Stakenet.Steward

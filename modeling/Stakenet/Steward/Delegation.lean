import Stakenet.Steward.DirectedStake
import Stakenet.Steward.ValidatorList

/-! How much undirected stake one validator gains or loses in a rebalance, given
the validators ranked ahead of it. -/

namespace Stakenet.Steward

structure DecreaseComponents where
  scoringUnstakeLamports : Nat
  instantUnstakeLamports : Nat
  stakeDepositUnstakeLamports : Nat
  totalUnstakeLamports : Nat
  directedUnstakeLamports : Nat
  deriving DecidableEq, Repr

inductive RebalanceType
  | increase (lamports : Nat)
  | decrease (components : DecreaseComponents)
  | none
  deriving DecidableEq, Repr

/-! ## Targets -/

/-- Target lamports of a validator. `stakePoolLamports` has the base lamports of
all stake accounts removed. -/
def getTargetLamports (delegation : Delegation) (stakePoolLamports : Nat) : Result Nat :=
  match delegation.numerator with
  | 0 => .ok 0
  | 1 => checkedDiv stakePoolLamports delegation.denominator
  | numerator => do
      -- The product fits in `u128`.
      let target ← checkedDiv (stakePoolLamports * numerator) delegation.denominator
      if target ≤ u64Max then .ok target else fail .arithmeticCastError

/-! ## Simulated reconciliation of directed stake -/

/-- What `adjustDirectedStakeForDepositsAndWithdrawals` would leave for one
validator: its directed lamports and its tracked balance. -/
def simulateAdjustDirectedStakeForDepositsAndWithdrawals (state : StewardStateV2)
    (targetTotalStakedLamports validatorListIndex directedStakeMetaIndex : Nat)
    (stakeMeta : DirectedStakeMeta) : Result (Nat × Nat) := do
  if (← readRow stakeMeta.directedStakeMetaIndices validatorListIndex) = metaIndexDefault then
    return (0, targetTotalStakedLamports)
  else
    let stewardStateTotal ← readRow state.validatorLamportBalances validatorListIndex
    let target ← readRow stakeMeta.targets directedStakeMetaIndex
    let directed ← readRow stakeMeta.directedStakeLamports validatorListIndex
    let (newDirected, newTotal) :=
      if targetTotalStakedLamports < stewardStateTotal then
        let withdrawal := stewardStateTotal - targetTotalStakedLamports
        if target.totalStakedLamports < withdrawal then
          (0, stewardStateTotal - withdrawal)
        else
          (directed - withdrawal, stewardStateTotal - withdrawal)
      else if stewardStateTotal < targetTotalStakedLamports ∧
          target.totalStakedLamports < target.totalTargetLamports then
        let directedDeficit := target.totalTargetLamports - target.totalStakedLamports
        let deposit := targetTotalStakedLamports - stewardStateTotal
        let increase := min directedDeficit deposit
        (saturatingAdd directed increase, saturatingAdd stewardStateTotal increase)
      else
        (directed, stewardStateTotal)
    return (min newDirected targetTotalStakedLamports, newTotal)

/-- The undirected lamports of a validator as the calculations below see them,
base lamports excluded, and whether it has transient stake. -/
def simulatedUndirectedLamports (state : StewardStateV2) (stakeMeta : DirectedStakeMeta)
    (validatorList : ValidatorList) (index baseLamportBalance : Nat) : Result (Nat × Bool) := do
  let (listed, someTransientStake) ← stakeLamportsAtValidatorListIndex validatorList index
  let directedStakeMetaIndex ← readRow stakeMeta.directedStakeMetaIndices index
  let (newDirected, newTotal) ← simulateAdjustDirectedStakeForDepositsAndWithdrawals state
    listed index directedStakeMetaIndex stakeMeta
  return (newTotal - newDirected - baseLamportBalance, someTransientStake)

/-! ## Unstake categories -/

structure UnstakeAmounts where
  stakeDepositUnstakeLamports : Nat
  instantUnstakeLamports : Nat
  scoringUnstakeLamports : Nat

def UnstakeAmounts.zero : UnstakeAmounts := ⟨0, 0, 0⟩

def UnstakeAmounts.total (amounts : UnstakeAmounts) : Result Nat := do
  checkedAdd (← checkedAdd amounts.stakeDepositUnstakeLamports amounts.instantUnstakeLamports)
    amounts.scoringUnstakeLamports

structure UnstakeState where
  stakeDepositUnstakeTotal : Nat
  instantUnstakeTotal : Nat
  scoringUnstakeTotal : Nat
  stakeDepositUnstakeCap : Nat
  instantUnstakeCap : Nat
  scoringUnstakeCap : Nat
  deriving DecidableEq, Repr

namespace UnstakeState

/-- The part of the excess over the target that arrived as a stake deposit. -/
def stakeDepositUnstake (unstake : UnstakeState) (state : StewardStateV2)
    (index currentLamports targetLamports : Nat) : Result Nat := do
  let balance ← readRow state.validatorLamportBalances index
  if balance < currentLamports ∧
      unstake.stakeDepositUnstakeTotal < unstake.stakeDepositUnstakeCap ∧
      balance ≠ lamportBalanceDefault then
    let lamportsAboveTarget ← checkedSub currentLamports targetLamports
    let lamportsAboveBalance ← checkedSub currentLamports balance
    let capLimit ← checkedSub unstake.stakeDepositUnstakeCap unstake.stakeDepositUnstakeTotal
    return min (min lamportsAboveTarget lamportsAboveBalance) capLimit
  else
    return 0

def instantUnstake (unstake : UnstakeState) (state : StewardStateV2)
    (index currentLamports targetLamports : Nat) : Result Nat := do
  if (← state.instantUnstake.getUnsafe index) ∧
      unstake.instantUnstakeTotal < unstake.instantUnstakeCap then
    let lamportsAboveTarget ← checkedSub currentLamports targetLamports
    let capLimit ← checkedSub unstake.instantUnstakeCap unstake.instantUnstakeTotal
    return min lamportsAboveTarget capLimit
  else
    return 0

def scoringUnstake (unstake : UnstakeState) (currentLamports targetLamports : Nat) :
    Result Nat := do
  if unstake.scoringUnstakeTotal < unstake.scoringUnstakeCap then
    let lamportsAboveTarget ← checkedSub currentLamports targetLamports
    let capLimit ← checkedSub unstake.scoringUnstakeCap unstake.scoringUnstakeTotal
    return min lamportsAboveTarget capLimit
  else
    return 0

/-- Stake deposits first, then instant unstake, then scoring, each within its
cap. Advances the totals. -/
def simulateUnstake (unstake : UnstakeState) (state : StewardStateV2)
    (index currentLamports targetLamports : Nat) : Result (UnstakeState × UnstakeAmounts) := do
  let stakeDeposit ← unstake.stakeDepositUnstake state index currentLamports targetLamports
  let currentLamports := currentLamports - stakeDeposit
  let stakeDepositUnstakeTotal ← checkedAdd unstake.stakeDepositUnstakeTotal stakeDeposit
  let instant ← unstake.instantUnstake state index currentLamports targetLamports
  let currentLamports := currentLamports - instant
  let instantUnstakeTotal ← checkedAdd unstake.instantUnstakeTotal instant
  let scoring ← unstake.scoringUnstake currentLamports targetLamports
  let scoringUnstakeTotal ← checkedAdd unstake.scoringUnstakeTotal scoring
  return ({ unstake with
      stakeDepositUnstakeTotal := stakeDepositUnstakeTotal
      instantUnstakeTotal := instantUnstakeTotal
      scoringUnstakeTotal := scoringUnstakeTotal }, ⟨stakeDeposit, instant, scoring⟩)

end UnstakeState

/-! ## Decreases -/

/-- Arguments shared by the two stake calculations. -/
structure StakeCalculation where
  state : StewardStateV2
  stakeMeta : DirectedStakeMeta
  targetIndex : Nat
  currentLamports : Nat
  stakePoolLamports : Nat
  validatorList : ValidatorList
  minimumDelegation : Nat
  stakeRent : Nat

namespace StakeCalculation

/-- A validator marked for instant unstake is to lose all its stake. -/
def decreaseTarget (calculation : StakeCalculation) (index : Nat) : Result Nat := do
  if ← calculation.state.instantUnstake.getUnsafe index then
    return 0
  else
    getTargetLamports (← readRow calculation.state.delegations index)
      calculation.stakePoolLamports

/-- One ranked validator of the decrease simulation: what it would unstake. -/
def simulateDecrease (calculation : StakeCalculation) (baseLamportBalance index : Nat)
    (unstake : UnstakeState) : Result (UnstakeState × UnstakeAmounts) := do
  let state := calculation.state
  let targetLamports ← calculation.decreaseTarget index
  let (simulated, someTransientStake) ← simulatedUndirectedLamports state
    calculation.stakeMeta calculation.validatorList index baseLamportBalance
  let currentLamports :=
    if index = calculation.targetIndex then calculation.currentLamports else simulated
  -- A validator with transient stake has been rebalanced already.
  if !someTransientStake ∧ targetLamports < currentLamports then
    unstake.simulateUnstake state index currentLamports targetLamports
  else
    return (unstake, .zero)

/-- The result once the simulation has reached the target validator. -/
def decreaseOf (calculation : StakeCalculation) (amounts : UnstakeAmounts) :
    Result RebalanceType := do
  let totalUnstakeLamports ← amounts.total
  if totalUnstakeLamports ≤ calculation.minimumDelegation then
    return .none
  else
    return .decrease {
      scoringUnstakeLamports := amounts.scoringUnstakeLamports
      instantUnstakeLamports := amounts.instantUnstakeLamports
      stakeDepositUnstakeLamports := amounts.stakeDepositUnstakeLamports
      totalUnstakeLamports := totalUnstakeLamports
      directedUnstakeLamports := 0 }

/-- Walks the ranking and stops at the target validator. -/
def decreaseAlong (calculation : StakeCalculation) (baseLamportBalance : Nat) :
    List Nat → UnstakeState → Result RebalanceType
  | [], _ => fail .validatorIndexOutOfBounds
  | index :: rest, unstake => do
      let (next, amounts) ← calculation.simulateDecrease baseLamportBalance index unstake
      if index = calculation.targetIndex then
        calculation.decreaseOf amounts
      else
        calculation.decreaseAlong baseLamportBalance rest next

end StakeCalculation

/-- How much stake to remove from the target validator within the unstake caps.
Validators of a lower raw score are unstaked first, so their movements are
simulated before the target's own. -/
def decreaseStakeCalculation (calculation : StakeCalculation) (unstake : UnstakeState) :
    Result RebalanceType := do
  let state := calculation.state
  if state.numPoolValidators ≤ calculation.targetIndex then
    fail .validatorIndexOutOfBounds
  else
    let baseLamportBalance ← checkedAdd calculation.minimumDelegation calculation.stakeRent
    if maxValidators < state.numPoolValidators then .error .panicked
    calculation.decreaseAlong baseLamportBalance
      ((List.range state.numPoolValidators).map state.sortedRawScoreIndices).reverse unstake

/-! ## Increases -/

namespace StakeCalculation

/-- One ranked validator of the increase simulation: what it would stake, given
the reserve that is left. -/
def simulateIncrease (calculation : StakeCalculation) (baseLamportBalance index : Nat)
    (reserveLamports : Nat) : Result Nat := do
  let state := calculation.state
  let delegation ← readRow state.delegations index
  if 0 < delegation.numerator ∧ !(← state.instantUnstake.get index) then
    let targetLamports ← getTargetLamports delegation calculation.stakePoolLamports
    let (simulated, someTransientStake) ← simulatedUndirectedLamports state
      calculation.stakeMeta calculation.validatorList index baseLamportBalance
    if !someTransientStake ∧ simulated < targetLamports then
      let lamportsBelowTarget ← checkedSub targetLamports simulated
      return min lamportsBelowTarget reserveLamports
    else
      return 0
  else
    return 0

def increaseAlong (calculation : StakeCalculation) (baseLamportBalance : Nat) :
    List Nat → Nat → Result RebalanceType
  | [], _ => fail .validatorIndexOutOfBounds
  | index :: rest, reserveLamports => do
      let lamports ← calculation.simulateIncrease baseLamportBalance index reserveLamports
      let reserveLamports ← checkedSub reserveLamports lamports
      if index = calculation.targetIndex then
        if lamports ≤ calculation.minimumDelegation then return .none
        else return .increase lamports
      else
        calculation.increaseAlong baseLamportBalance rest reserveLamports

end StakeCalculation

/-- How much stake to add to the target validator from the reserve. Validators
of a higher score are staked first. -/
def increaseStakeCalculation (calculation : StakeCalculation) (reserveLamports : Nat) :
    Result RebalanceType := do
  let state := calculation.state
  if state.numPoolValidators ≤ calculation.targetIndex then
    fail .validatorIndexOutOfBounds
  else
    let targetLamports ← getTargetLamports
      (← readRow state.delegations calculation.targetIndex) calculation.stakePoolLamports
    let baseLamportBalance ← checkedAdd calculation.minimumDelegation calculation.stakeRent
    if calculation.currentLamports < targetLamports then
      if maxValidators < state.numPoolValidators then .error .panicked
      calculation.increaseAlong baseLamportBalance
        ((List.range state.numPoolValidators).map state.sortedScoreIndices) reserveLamports
    else
      fail .validatorIndexOutOfBounds

/-! ## Calculations that succeed -/

section Succeeded

variable {calculation : StakeCalculation} {rebalanceType : RebalanceType}

theorem decreaseStakeCalculation_eq_ok {unstake : UnstakeState}
    (decided : decreaseStakeCalculation calculation unstake = .ok rebalanceType) :
    calculation.targetIndex < calculation.state.numPoolValidators ∧
      calculation.decreaseAlong (calculation.minimumDelegation + calculation.stakeRent)
        ((List.range calculation.state.numPoolValidators).map
          calculation.state.sortedRawScoreIndices).reverse unstake = .ok rebalanceType := by
  simp only [decreaseStakeCalculation] at decided
  split at decided
  case isTrue => simp at decided
  case isFalse inPool =>
      simp only [Outcome.bind_eq_ok, checkedAdd_eq_ok] at decided
      rcases decided with ⟨_, ⟨_, rfl⟩, decided⟩
      split at decided
      case isTrue => cases decided
      case isFalse => exact ⟨Nat.lt_of_not_le inPool, decided⟩

theorem increaseStakeCalculation_eq_ok {reserveLamports : Nat}
    (decided : increaseStakeCalculation calculation reserveLamports = .ok rebalanceType) :
    calculation.targetIndex < calculation.state.numPoolValidators ∧
      calculation.increaseAlong (calculation.minimumDelegation + calculation.stakeRent)
        ((List.range calculation.state.numPoolValidators).map
          calculation.state.sortedScoreIndices) reserveLamports = .ok rebalanceType := by
  simp only [increaseStakeCalculation] at decided
  split at decided
  case isTrue => simp at decided
  case isFalse inPool =>
      simp only [Outcome.bind_eq_ok, checkedAdd_eq_ok] at decided
      rcases decided with ⟨_, _, _, _, _, ⟨_, rfl⟩, decided⟩
      split at decided
      case isTrue =>
          split at decided
          case isTrue => cases decided
          case isFalse => exact ⟨Nat.lt_of_not_le inPool, decided⟩
      case isFalse => simp at decided

end Succeeded

end Stakenet.Steward

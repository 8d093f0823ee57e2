import Stakenet.Steward.RebalanceEffect
import Stakenet.Steward.StakeDeposits
import Stakenet.Steward.WaterFilling

/-! In which units a stake deposit is measured.

The tracked balance counts all lamports of a stake account. A rebalance compares
it with the undirected lamports beyond the base balance, so base and directed
lamports hide as much of a deposit. -/

namespace Stakenet.Steward

/-! ## The amounts of a call -/

namespace RebalanceCall

variable (call : RebalanceCall) (state : StewardStateV2) (terms : RebalanceTerms)

/-- The decrease calculation that the call runs. -/
def decreaseCalculation : StakeCalculation where
  state := withTrackedBalance state call.index terms
  stakeMeta := call.stakeMeta
  targetIndex := call.index
  currentLamports := terms.currentUndirectedLamports
  stakePoolLamports := terms.stakePoolLamports
  validatorList := call.validatorList
  minimumDelegation := call.minimumDelegation
  stakeRent := call.stakeRent

/-- What is left of the caps when the call is made. -/
def unstakeBudgets : UnstakeBudgets where
  stakeDeposit := call.cap call.parameters.stakeDepositUnstakeCapBps -
    state.stakeDepositUnstakeTotal
  instant := call.cap call.parameters.instantUnstakeCapBps - state.instantUnstakeTotal
  scoring := call.cap call.parameters.scoringUnstakeCapBps - state.scoringUnstakeTotal

/-- What the call unstakes in each category, before it is compared with the minimum. -/
def unstakeAmounts : UnstakeAmounts :=
  (call.decreaseCalculation state terms).filledAmounts (call.unstakeBudgets state)

/-- The tracked balance after the update at the start of the call. -/
def updatedBalance : Nat := trackedBalance (state.validatorLamportBalances call.index) terms

/-- A validator marked for instant unstake is to lose all its stake. -/
def lamportsToKeep : Nat :=
  if state.instantUnstake.contains call.index then 0 else terms.targetLamports

/-- The stake deposit to unstake, measured as it is tracked. -/
def depositDue : Nat :=
  min (min (terms.currentUndirectedLamports - call.lamportsToKeep state terms)
      (terms.currentTotalLamports - call.updatedBalance state terms))
    (call.unstakeBudgets state).stakeDeposit

/-- The validator has transient stake in the list. -/
def hasTransientStake : Bool :=
  (call.decreaseCalculation state terms).someTransientStake call.index

/-- Nothing of the deposit is hidden: none is left to unstake, or the target, the cap
or a stake account without base and directed lamports makes up for it. -/
def DepositVisible : Prop :=
  (call.unstakeBudgets state).stakeDeposit = 0 ∨
    terms.currentTotalLamports ≤ call.updatedBalance state terms ∨
    (call.hasTransientStake state terms = false ∧
      (call.updatedBalance state terms ≤ call.lamportsToKeep state terms ∨
        (call.unstakeBudgets state).stakeDeposit ≤
          terms.currentUndirectedLamports - call.updatedBalance state terms ∨
        terms.currentTotalLamports ≤ terms.currentUndirectedLamports))

end RebalanceCall

section Call

variable {state next : StewardStateV2} {call : RebalanceCall} {terms : RebalanceTerms}
variable {rebalanceType : RebalanceType}

/-- A call for a validator above its target unstakes these amounts. -/
theorem decision_unstakeAmounts (computed : rebalanceTerms state call = .ok terms)
    (decided : rebalanceDecision (withTrackedBalance state call.index terms) call terms =
      .ok rebalanceType)
    (above : call.lamportsToKeep state terms < terms.currentUndirectedLamports) :
    call.index < state.numPoolValidators ∧
      rebalanceType =
        decreaseOutcome call.minimumDelegation (call.unstakeAmounts state terms) := by
  have pool := (termsOf_of_rebalanceTerms computed).pool
  simp only [rebalanceDecision, Outcome.bind_eq_ok, BitMask.get_eq_ok] at decided
  rcases decided with ⟨_, ⟨_, rfl⟩, decided⟩
  have decreases : terms.targetLamports < terms.currentUndirectedLamports ∨
      (withTrackedBalance state call.index terms).instantUnstake.contains call.index = true := by
    unfold RebalanceCall.lamportsToKeep at above
    split at above
    case isTrue marked => exact .inr marked
    case isFalse => exact .inl above
  rw [if_pos decreases] at decided
  simp only [Outcome.bind_eq_ok, unstakeCap_eq_ok] at decided
  rcases decided with ⟨_, ⟨_, rfl⟩, _, ⟨_, rfl⟩, _, ⟨_, rfl⟩, decided⟩
  rw [pool] at decided
  refine ⟨(decreaseStakeCalculation_eq_ok decided).1, ?_⟩
  rw [StakeCalculation.decrease_outcome decided]
  unfold RebalanceCall.unstakeAmounts RebalanceCall.decreaseCalculation
  rw [pool]
  rfl

/-- Nothing is served before the row of the last rank. -/
theorem filledAmounts_of_last {calculation : StakeCalculation}
    (nonempty : 0 < calculation.state.numPoolValidators)
    (last : calculation.state.sortedRawScoreIndices (calculation.state.numPoolValidators - 1) =
      calculation.targetIndex) (budgets : UnstakeBudgets) :
    calculation.filledAmounts budgets =
      budgets.serve (calculation.unstakeDemand calculation.targetIndex) := by
  have ranks : calculation.worstFirst = calculation.targetIndex ::
      ((List.range (calculation.state.numPoolValidators - 1)).map
        calculation.state.sortedRawScoreIndices).reverse := by
    have size : calculation.state.numPoolValidators =
        calculation.state.numPoolValidators - 1 + 1 := by omega
    rw [StakeCalculation.worstFirst, size, List.range_succ]
    simp [last]
  rw [StakeCalculation.filledAmounts, ranks, Allocation.ahead_cons_self]
  rfl

/-- The deposit part of the amounts when no row comes before the validator. -/
theorem unstakeAmounts_stakeDeposit (computed : rebalanceTerms state call = .ok terms)
    (nonempty : 0 < state.numPoolValidators)
    (last : state.sortedRawScoreIndices (state.numPoolValidators - 1) = call.index)
    (tracked : call.updatedBalance state terms ≠ lamportBalanceDefault) :
    (call.unstakeAmounts state terms).stakeDepositUnstakeLamports =
      min (if call.hasTransientStake state terms then 0
        else min (terms.currentUndirectedLamports - call.lamportsToKeep state terms)
          (terms.currentUndirectedLamports - call.updatedBalance state terms))
        (call.unstakeBudgets state).stakeDeposit := by
  have target : (call.decreaseCalculation state terms).unstakeTarget call.index =
      call.lamportsToKeep state terms := by
    have computedTarget := getTargetLamports_eq_ok (termsOf_of_rebalanceTerms computed).target
    rw [StakeCalculation.unstakeTarget, StakeCalculation.targetLamports,
      RebalanceCall.lamportsToKeep, computedTarget]
    rfl
  have counted : (call.decreaseCalculation state terms).countedLamports call.index =
      terms.currentUndirectedLamports := if_pos rfl
  have balance : (call.decreaseCalculation state terms).state.validatorLamportBalances
      call.index = call.updatedBalance state terms := Function.update_self ..
  have amounts : call.unstakeAmounts state terms = (call.unstakeBudgets state).serve
      ((call.decreaseCalculation state terms).unstakeDemand call.index) :=
    filledAmounts_of_last nonempty last _
  rw [amounts]
  change min ((call.decreaseCalculation state terms).unstakeDemand call.index).deposit
    (call.unstakeBudgets state).stakeDeposit = _
  rw [StakeCalculation.unstakeDemand, target, counted, RebalanceCall.hasTransientStake]
  simp only [demandOf, balance]
  congr 1
  split
  case isTrue => split <;> simp
  case isFalse hidden =>
      have below : terms.currentUndirectedLamports ≤ call.updatedBalance state terms := by
        by_contra above
        exact hidden ⟨tracked, Nat.lt_of_not_le above⟩
      rw [Nat.sub_eq_zero_of_le below]
      simp

end Call

/-- For the first row in unstaking priority, the stake deposit is measured in the
units it is tracked in exactly when nothing of it is hidden. -/
theorem rebalance_measuresDeposit_iff {state next : StewardStateV2} {call : RebalanceCall}
    {terms : RebalanceTerms} {rebalanceType : RebalanceType}
    (lamports : call.stakeAccountCurrentLamports ≤ u64Max)
    (rebalancing : state.rebalance call = .ok (next, rebalanceType))
    (unprocessed : state.progress.contains call.index = false)
    (stays : state.leaves call.index = false)
    (computed : rebalanceTerms state call = .ok terms)
    (tracked : call.updatedBalance state terms ≠ lamportBalanceDefault)
    (above : call.lamportsToKeep state terms < terms.currentUndirectedLamports)
    (last : state.sortedRawScoreIndices (state.numPoolValidators - 1) = call.index) :
    rebalanceType = decreaseOutcome call.minimumDelegation (call.unstakeAmounts state terms) ∧
      ((call.unstakeAmounts state terms).stakeDepositUnstakeLamports =
          call.depositDue state terms ↔
        call.DepositVisible state terms) := by
  have decided : rebalanceDecision (withTrackedBalance state call.index terms) call terms =
      .ok rebalanceType := by
    rcases (rebalance_cases rebalancing).2.2 with
      ⟨processed, _⟩ | ⟨⟨_, leaves⟩, _⟩ | ⟨_, found, applied, rebalanced⟩
    · simp [unprocessed] at processed
    · simp [stays] at leaves
    · cases computed.symm.trans rebalanced.computed
      exact rebalanced.decision
  rcases decision_unstakeAmounts computed decided above with ⟨inPool, outcome⟩
  refine ⟨outcome, ?_⟩
  have total : terms.currentUndirectedLamports ≤ terms.currentTotalLamports := by
    have termsOf := termsOf_of_rebalanceTerms computed
    rw [termsOf.total, termsOf.undirected, saturatingAdd]
    omega
  rw [unstakeAmounts_stakeDeposit computed (by omega) last tracked, RebalanceCall.depositDue,
    RebalanceCall.DepositVisible]
  cases call.hasTransientStake state terms with
  | true =>
      simp only [if_true, Bool.true_eq_false, false_and, or_false]
      omega
  | false =>
      simp only [Bool.false_eq_true, if_false, true_and]
      omega

/-- The terms of a call in which a validator without share is alone in the pool. -/
def depositTerms (undirectedLamports : Nat) : RebalanceTerms :=
  ⟨2, 4998, 10000, 0, 1502, undirectedLamports⟩

/-- Of 500 lamports that arrive, 100 are left to unstake under the cap. -/
theorem rebalance_measuresDeposit_depositState :
    ((depositCall 1 1502).unstakeAmounts (depositState 1002 4900)
        (depositTerms 1500)).stakeDepositUnstakeLamports =
      (depositCall 1 1502).depositDue (depositState 1002 4900) (depositTerms 1500) := by
  have succeeded : ((depositState 1002 4900).rebalance (depositCall 1 1502)).isOk = true := by
    decide +kernel
  rcases Outcome.exists_eq_ok succeeded with ⟨⟨next, rebalanceType⟩, rebalancing⟩
  exact (rebalance_measuresDeposit_iff (by decide) rebalancing (by decide +kernel)
    (by decide +kernel) (by rfl) (by decide +kernel) (by decide +kernel) rfl).2.mpr
    (.inr (.inr ⟨by decide +kernel, .inr (.inl (by decide +kernel))⟩))

/-- The same validator, with 600 lamports of its stake directed. -/
def directedDepositCall : RebalanceCall :=
  { depositCall 1 1502 with
    stakeMeta := { DirectedStakeMeta.initial with
      totalStakeTargets := 1
      targets := fun index => if index = 0 then ⟨1, 600, 600, 0, 0⟩ else .none
      directedStakeLamports := fun row => if row = 0 then 600 else 0
      directedStakeMetaIndices := fun row => if row = 0 then 0 else metaIndexDefault } }

/-- 500 lamports arrive at the validator, and none of them is unstaked. -/
theorem not_rebalance_measuresDeposit :
    (∃ next, (depositState 1002 0).rebalance directedDepositCall = .ok (next, .none)) ∧
      (depositState 1002 0).progress.contains directedDepositCall.index = false ∧
      (depositState 1002 0).leaves directedDepositCall.index = false ∧
      rebalanceTerms (depositState 1002 0) directedDepositCall = .ok (depositTerms 900) ∧
      directedDepositCall.updatedBalance (depositState 1002 0) (depositTerms 900) ≠
        lamportBalanceDefault ∧
      directedDepositCall.lamportsToKeep (depositState 1002 0) (depositTerms 900) < 900 ∧
      (depositState 1002 0).sortedRawScoreIndices
        ((depositState 1002 0).numPoolValidators - 1) = directedDepositCall.index ∧
      (directedDepositCall.unstakeAmounts (depositState 1002 0)
        (depositTerms 900)).stakeDepositUnstakeLamports = 0 ∧
      directedDepositCall.depositDue (depositState 1002 0) (depositTerms 900) = 500 := by
  have outcome : ((depositState 1002 0).rebalance directedDepositCall).map Prod.snd =
      .ok .none := by
    decide +kernel
  refine ⟨?_, by decide +kernel, by decide +kernel, by rfl, by decide +kernel, by decide +kernel,
    rfl, by decide +kernel, by decide +kernel⟩
  cases rebalancing : (depositState 1002 0).rebalance directedDepositCall with
  | error failure =>
      rw [rebalancing] at outcome
      cases outcome
  | ok result =>
      rcases result with ⟨next, rebalanceType⟩
      rw [rebalancing] at outcome
      cases outcome
      exact ⟨next, rfl⟩

end Stakenet.Steward

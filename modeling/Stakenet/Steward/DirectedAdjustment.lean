import Stakenet.Steward.DirectedEffect
import Stakenet.Steward.Maintenance

/-! The simulation of the directed reconciliation that the undirected calculations
use. -/

namespace Stakenet.Steward.Directed

section Adjustment

variable {accounts next : Accounts} {listed row index : Nat}

/-- The simulation computes the same movement from the mirror of the row. -/
theorem simulateAdjust_eq (rowBound : row < maxValidators) (indexBound : index < maxValidators)
    (wired : accounts.stakeMeta.directedStakeMetaIndices row ≠ metaIndexDefault) :
    simulateAdjustDirectedStakeForDepositsAndWithdrawals accounts.state listed row index
        accounts.stakeMeta =
      .ok (min ((movementOf accounts listed row index).directed
          (accounts.stakeMeta.directedStakeLamports row)) listed,
        (movementOf accounts listed row index).total) := by
  simp only [simulateAdjustDirectedStakeForDepositsAndWithdrawals, readRow_of_lt _ rowBound,
    readRow_of_lt _ indexBound, Outcome.ok_bind, if_neg wired, Movement.total, Movement.directed,
    Movement.withdrawal, Movement.credit, movementOf]
  by_cases withdrawn : listed < accounts.state.validatorLamportBalances row
  · by_cases beyond : (accounts.stakeMeta.targets index).totalStakedLamports <
        accounts.state.validatorLamportBalances row - listed
    · simp only [withdrawn, beyond, if_true]
      rfl
    · simp only [withdrawn, beyond, if_true, if_false]
      rfl
  · by_cases deposited : accounts.state.validatorLamportBalances row < listed ∧
        (accounts.stakeMeta.targets index).totalStakedLamports <
          (accounts.stakeMeta.targets index).totalTargetLamports
    · simp only [withdrawn, deposited, and_self, if_true, if_false]
      rfl
    · simp only [withdrawn, deposited, if_false]
      rfl

/-- No row but `row` and no target but `index` changed, and of these only the tracked
balance and the two records of the directed stake. -/
structure OnlyReconciled (accounts : Accounts) (row index : Nat) (next : Accounts) : Prop where
  balances : ∀ other, other ≠ row → next.state.validatorLamportBalances other =
    accounts.state.validatorLamportBalances other
  mirrors : ∀ other, other ≠ row → next.stakeMeta.directedStakeLamports other =
    accounts.stakeMeta.directedStakeLamports other
  targets : ∀ other, other ≠ index → next.stakeMeta.targets other =
    accounts.stakeMeta.targets other
  target : next.stakeMeta.targets index = { accounts.stakeMeta.targets index with
    totalStakedLamports := (next.stakeMeta.targets index).totalStakedLamports }
  others : next = {
    state := { accounts.state with
      validatorLamportBalances := next.state.validatorLamportBalances }
    stakeMeta := { accounts.stakeMeta with
      targets := next.stakeMeta.targets
      directedStakeLamports := next.stakeMeta.directedStakeLamports } }

theorem onlyReconciled_reconciled (accounts : Accounts) (listed row index : Nat) :
    OnlyReconciled accounts row index (reconciled accounts listed row index) where
  balances := fun _ other => Function.update_of_ne other _ _
  mirrors := fun _ other => Function.update_of_ne other _ _
  targets := fun _ other => Function.update_of_ne other _ _
  target := by simp [reconciled, Accounts.withDirected]
  others := rfl

end Adjustment

/-- Where the mirror of a row agrees with its target, the simulation foretells what
the reconciliation leaves. -/
theorem simulateAdjust_foretells {accounts : Accounts} {listed row index : Nat}
    (rowBound : row < maxValidators) (indexBound : index < maxValidators)
    (wired : accounts.stakeMeta.directedStakeMetaIndices row = index)
    (mirrored : accounts.stakeMeta.directedStakeLamports row =
      (accounts.stakeMeta.targets index).totalStakedLamports) :
    ∃ next, adjustDirectedStakeForDepositsAndWithdrawals accounts listed row index = .ok next ∧
      simulateAdjustDirectedStakeForDepositsAndWithdrawals accounts.state listed row index
          accounts.stakeMeta =
        .ok (next.stakeMeta.directedStakeLamports row,
          next.state.validatorLamportBalances row) ∧
      next.stakeMeta.directedStakeLamports row =
        (next.stakeMeta.targets index).totalStakedLamports ∧
      next.stakeMeta.directedStakeLamports row ≤ listed ∧
      OnlyReconciled accounts row index next := by
  have named : accounts.stakeMeta.directedStakeMetaIndices row ≠ metaIndexDefault := by
    rw [wired]
    exact Nat.ne_of_lt (Nat.lt_trans indexBound (by decide))
  have stale : (movementOf accounts listed row index).stale =
      (movementOf accounts listed row index).directed
        (accounts.stakeMeta.targets index).totalStakedLamports - listed := rfl
  refine ⟨_, adjust_eq rowBound indexBound, ?_, ?_, ?_, onlyReconciled_reconciled _ _ _ _⟩
  · rw [simulateAdjust_eq rowBound indexBound named, reconciled_mirror, reconciled_balance,
      mirrored, stale, Nat.sub_sub_eq_min]
  · rw [reconciled_mirror, reconciled_staked, mirrored]
  · rw [reconciled_mirror, mirrored, stale, Nat.sub_sub_eq_min]
    exact Nat.min_le_right _ _

/-- A validator of which 600 lamports are directed, in the row of the first target. -/
def oneDirectedRow : Accounts where
  state := { ReallocState.initialState 1 10 0 with
    validatorLamportBalances := fun row => if row = 0 then 1000 else lamportBalanceDefault }
  stakeMeta := { DirectedStakeMeta.initial with
    totalStakeTargets := 1
    targets := fun index => if index = 0 then ⟨1, 700, 600, 0, 0⟩ else .none
    directedStakeLamports := fun row => if row = 0 then 600 else 0
    directedStakeMetaIndices := fun row => if row = 0 then 0 else metaIndexDefault }

/-- 250 lamports of it are withdrawn. -/
theorem simulateAdjust_foretells_oneDirectedRow :
    ∃ next, adjustDirectedStakeForDepositsAndWithdrawals oneDirectedRow 750 0 0 = .ok next ∧
      next.stakeMeta.directedStakeLamports 0 = 350 ∧
      next.state.validatorLamportBalances 0 = 750 := by
  have simulated : simulateAdjustDirectedStakeForDepositsAndWithdrawals oneDirectedRow.state 750
      0 0 oneDirectedRow.stakeMeta = .ok (350, 750) := by rfl
  have foretells : ∃ next,
      adjustDirectedStakeForDepositsAndWithdrawals oneDirectedRow 750 0 0 = .ok next ∧
        simulateAdjustDirectedStakeForDepositsAndWithdrawals oneDirectedRow.state 750 0 0
            oneDirectedRow.stakeMeta =
          .ok (next.stakeMeta.directedStakeLamports 0, next.state.validatorLamportBalances 0) ∧
        _ :=
    simulateAdjust_foretells (by decide) (by decide) rfl rfl
  rcases foretells with ⟨next, adjusted, foretold, _⟩
  rw [simulated, Except.ok.injEq, Prod.mk.injEq] at foretold
  exact ⟨next, adjusted, foretold.1.symm, foretold.2.symm⟩

end Stakenet.Steward.Directed

import Stakenet.Steward.DirectedDelegation

/-! What the directed rebalance writes: one target, the row of its validator in
the mirror of the directed stake, and the tracked balances. The reconciliation with the
validator list is given in closed form. -/

namespace Stakenet.Steward

/-- The accounts after the staked lamports of a target and their mirror were
written. -/
def Accounts.withDirected (accounts : Accounts) (balances : Nat → Nat) (index staked : Nat)
    (row lamports : Nat) : Accounts where
  state := { accounts.state with validatorLamportBalances := balances }
  stakeMeta := { accounts.stakeMeta with
    targets := Function.update accounts.stakeMeta.targets index
      { accounts.stakeMeta.targets index with totalStakedLamports := staked }
    directedStakeLamports :=
      Function.update accounts.stakeMeta.directedStakeLamports row lamports }

/-- Directed stake moved. Where target and mirror agreed, they still do. -/
def DirectedMoved (accounts : Accounts) (row index : Nat) (next : Accounts) : Prop :=
  ∃ balances staked lamports, next = accounts.withDirected balances index staked row lamports ∧
    ((accounts.stakeMeta.targets index).totalStakedLamports =
      accounts.stakeMeta.directedStakeLamports row → staked = lamports)

namespace DirectedMoved

theorem refl (accounts : Accounts) (row index : Nat) :
    DirectedMoved accounts row index accounts := by
  refine ⟨accounts.state.validatorLamportBalances,
    (accounts.stakeMeta.targets index).totalStakedLamports,
    accounts.stakeMeta.directedStakeLamports row, ?_, id⟩
  simp [Accounts.withDirected]

end DirectedMoved

namespace Directed

/-! ## Closed form -/

/-- What one reconciliation knows of a validator: its tracked balance, its stake in
the list, and the applied and target lamports of its directed stake. -/
structure Movement where
  balance : Nat
  listed : Nat
  applied : Nat
  target : Nat

namespace Movement

variable (movement : Movement)

def withdrawal : Nat := movement.balance - movement.listed

/-- The part of a deposit that is credited to the directed stake. -/
def credit : Nat :=
  min (movement.target - movement.applied) (movement.listed - movement.balance)

/-- A counter of directed lamports after the movement. -/
def directed (lamports : Nat) : Nat :=
  if movement.listed < movement.balance then
    if movement.applied < movement.withdrawal then 0 else lamports - movement.withdrawal
  else if movement.balance < movement.listed ∧ movement.applied < movement.target then
    saturatingAdd lamports movement.credit
  else
    lamports

/-- The tracked balance after the movement. -/
def total : Nat :=
  if movement.listed < movement.balance then
    movement.balance - movement.withdrawal
  else if movement.balance < movement.listed ∧ movement.applied < movement.target then
    saturatingAdd movement.balance movement.credit
  else
    movement.balance

/-- Applied lamports beyond the listed stake, which the clamp takes away. -/
def stale : Nat := movement.directed movement.applied - movement.listed

theorem directed_le {lamports : Nat} (typed : lamports ≤ u64Max) :
    movement.directed lamports ≤ u64Max := by
  unfold directed saturatingAdd
  split
  · split <;> omega
  · split <;> omega

/-- A reconciled balance is not the marker, unless the listed stake is. -/
theorem total_ne_default (bounded : movement.listed < u64Max) :
    movement.total ≠ lamportBalanceDefault := by
  unfold total withdrawal credit saturatingAdd lamportBalanceDefault
  split
  · omega
  · split <;> omega

end Movement

/-- The movement that a reconciliation of a row with a target sees. -/
def movementOf (accounts : Accounts) (listed row index : Nat) : Movement where
  balance := accounts.state.validatorLamportBalances row
  listed := listed
  applied := (accounts.stakeMeta.targets index).totalStakedLamports
  target := (accounts.stakeMeta.targets index).totalTargetLamports

/-- The accounts after a reconciliation. -/
def reconciled (accounts : Accounts) (listed row index : Nat) : Accounts :=
  let movement := movementOf accounts listed row index
  accounts.withDirected
    (Function.update accounts.state.validatorLamportBalances row movement.total) index
    (movement.directed movement.applied - movement.stale) row
    (movement.directed (accounts.stakeMeta.directedStakeLamports row) - movement.stale)

section Reconciliation

variable {accounts next : Accounts} {listed row index : Nat}

theorem adjustForMovement_eq (rowBound : row < maxValidators) (indexBound : index < maxValidators) :
    adjustForMovement accounts listed row index =
      .ok (accounts.withDirected
        (Function.update accounts.state.validatorLamportBalances row
          (movementOf accounts listed row index).total) index
        ((movementOf accounts listed row index).directed
          (accounts.stakeMeta.targets index).totalStakedLamports) row
        ((movementOf accounts listed row index).directed
          (accounts.stakeMeta.directedStakeLamports row))) := by
  simp only [adjustForMovement, DirectedStakeMeta.subtractFromTotalStakedLamports,
    DirectedStakeMeta.addToTotalStakedLamports, DirectedStakeMeta.updateTarget,
    readRow_of_lt _ rowBound, readRow_of_lt _ indexBound, writeRow_of_lt _ rowBound,
    writeRow_of_lt _ indexBound, Outcome.ok_bind, Accounts.withDirected, Movement.total,
    Movement.directed, Movement.withdrawal, Movement.credit, movementOf]
  by_cases withdrawn : listed < accounts.state.validatorLamportBalances row
  · by_cases beyond : (accounts.stakeMeta.targets index).totalStakedLamports <
        accounts.state.validatorLamportBalances row - listed
    · simp only [withdrawn, beyond, if_true]
      rfl
    · simp only [withdrawn, beyond, if_true, if_false]
      rfl
  · by_cases deposited : accounts.state.validatorLamportBalances row < listed ∧
        (accounts.stakeMeta.targets index).totalStakedLamports <
          (accounts.stakeMeta.targets index).totalTargetLamports
    · simp only [withdrawn, deposited, and_self, if_true, if_false]
      rfl
    · simp only [withdrawn, deposited, if_false]
      simp [pure, Except.pure]

theorem clampStaleAccounting_eq (rowBound : row < maxValidators)
    (indexBound : index < maxValidators) :
    clampStaleAccounting accounts listed row index =
      .ok (accounts.withDirected accounts.state.validatorLamportBalances index
        ((accounts.stakeMeta.targets index).totalStakedLamports -
          ((accounts.stakeMeta.targets index).totalStakedLamports - listed)) row
        (accounts.stakeMeta.directedStakeLamports row -
          ((accounts.stakeMeta.targets index).totalStakedLamports - listed))) := by
  simp only [clampStaleAccounting, DirectedStakeMeta.subtractFromTotalStakedLamports,
    DirectedStakeMeta.updateTarget, readRow_of_lt _ rowBound, readRow_of_lt _ indexBound,
    writeRow_of_lt _ rowBound, writeRow_of_lt _ indexBound, Outcome.ok_bind,
    Accounts.withDirected]
  split
  case isTrue => rfl
  case isFalse within =>
      have none : (accounts.stakeMeta.targets index).totalStakedLamports - listed = 0 := by omega
      simp [none, pure, Except.pure]

/-- A reconciliation leaves the accounts of the closed form. -/
theorem adjust_eq (rowBound : row < maxValidators) (indexBound : index < maxValidators) :
    adjustDirectedStakeForDepositsAndWithdrawals accounts listed row index =
      .ok (reconciled accounts listed row index) := by
  rw [adjustDirectedStakeForDepositsAndWithdrawals, adjustForMovement_eq rowBound indexBound,
    Outcome.ok_bind, clampStaleAccounting_eq rowBound indexBound]
  simp [Accounts.withDirected, reconciled, Movement.stale, movementOf]

/-- A reconciliation that succeeds leaves the accounts of the closed form. -/
theorem adjust_eq_ok
    (adjusted : adjustDirectedStakeForDepositsAndWithdrawals accounts listed row index =
      .ok next) :
    row < maxValidators ∧ index < maxValidators ∧ next = reconciled accounts listed row index := by
  have bounds : row < maxValidators ∧ index < maxValidators := by
    simp only [adjustDirectedStakeForDepositsAndWithdrawals, adjustForMovement,
      Outcome.bind_eq_ok, readRow_eq_ok] at adjusted
    rcases adjusted with ⟨_, ⟨_, ⟨rowBound, _⟩, _, ⟨indexBound, _⟩, _⟩, _⟩
    exact ⟨rowBound, indexBound⟩
  rw [adjust_eq bounds.1 bounds.2] at adjusted
  exact ⟨bounds.1, bounds.2, (Except.ok.inj adjusted).symm⟩

theorem adjust_moved
    (adjusted : adjustDirectedStakeForDepositsAndWithdrawals accounts listed row index =
      .ok next) :
    DirectedMoved accounts row index next := by
  rcases adjust_eq_ok adjusted with ⟨_, _, rfl⟩
  refine ⟨_, _, _, rfl, fun same => ?_⟩
  rw [← same]
  rfl

/-- The reconciliation fails on an index out of bounds only. -/
theorem adjust_succeeds_iff :
    (∃ next, adjustDirectedStakeForDepositsAndWithdrawals accounts listed row index =
      .ok next) ↔ row < maxValidators ∧ index < maxValidators := by
  constructor
  · rintro ⟨next, adjusted⟩
    rcases adjust_eq_ok adjusted with ⟨rowBound, indexBound, _⟩
    exact ⟨rowBound, indexBound⟩
  · rintro ⟨rowBound, indexBound⟩
    exact ⟨_, adjust_eq rowBound indexBound⟩

@[simp] theorem reconciled_balance :
    (reconciled accounts listed row index).state.validatorLamportBalances row =
      (movementOf accounts listed row index).total := by
  simp [reconciled, Accounts.withDirected]

@[simp] theorem reconciled_mirror :
    (reconciled accounts listed row index).stakeMeta.directedStakeLamports row =
      (movementOf accounts listed row index).directed
          (accounts.stakeMeta.directedStakeLamports row) -
        (movementOf accounts listed row index).stale := by
  simp [reconciled, Accounts.withDirected]

@[simp] theorem reconciled_staked :
    ((reconciled accounts listed row index).stakeMeta.targets index).totalStakedLamports =
      (movementOf accounts listed row index).directed
          (accounts.stakeMeta.targets index).totalStakedLamports -
        (movementOf accounts listed row index).stale := by
  simp [reconciled, Accounts.withDirected, movementOf]

end Reconciliation

end Directed

end Stakenet.Steward

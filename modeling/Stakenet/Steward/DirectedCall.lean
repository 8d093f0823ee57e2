import Stakenet.Steward.Steps

/-! The ways through a directed rebalance, and what it leaves in the directed
stake account. -/

namespace Stakenet.Steward

/-! ## The ways through a call -/

/-- A successful directed rebalance. Its target may be missing from the list, the
state may be left right after the reconciliation, or stake is moved. -/
inductive DirectedCall (environment : Environment) (inputs : RebalanceDirected.Inputs)
    (accounts next : Accounts) : RebalanceType → Prop
  | missing (stakeMeta : DirectedStakeMeta) :
      RebalanceDirected.findVoteAccount environment.validatorList
        (accounts.stakeMeta.targets inputs.directedStakeMetaIndex).votePubkey = none →
      accounts.stakeMeta.updateStakedLastUpdatedEpoch inputs.directedStakeMetaIndex
        environment.clock.epoch = .ok stakeMeta →
      next.stakeMeta = stakeMeta →
      DirectedCall environment inputs accounts next .none
  | left (row listed : Nat) (transient : Bool) (adjusted : Accounts) :
      RebalanceDirected.findVoteAccount environment.validatorList
        (accounts.stakeMeta.targets inputs.directedStakeMetaIndex).votePubkey = some row →
      stakeLamportsAtValidatorListIndex environment.validatorList row = .ok (listed, transient) →
      Directed.adjustDirectedStakeForDepositsAndWithdrawals accounts listed row
        inputs.directedStakeMetaIndex = .ok adjusted →
      next.stakeMeta = adjusted.stakeMeta →
      DirectedCall environment inputs accounts next .none
  | moved (row listed : Nat) (transient : Bool) (adjusted ready applied : Accounts)
      (stakeMeta : DirectedStakeMeta) {rebalanceType : RebalanceType} :
      RebalanceDirected.findVoteAccount environment.validatorList
        (accounts.stakeMeta.targets inputs.directedStakeMetaIndex).votePubkey = some row →
      stakeLamportsAtValidatorListIndex environment.validatorList row = .ok (listed, transient) →
      Directed.adjustDirectedStakeForDepositsAndWithdrawals accounts listed row
        inputs.directedStakeMetaIndex = .ok adjusted →
      ready = RebalanceDirected.flagCompletion environment.clock adjusted →
      stateChecks environment ready.state (some .rebalanceDirected) = .ok () →
      ¬((ready.stakeMeta.targets inputs.directedStakeMetaIndex).stakedLastUpdatedEpoch =
          environment.clock.epoch ∧ 0 < environment.clock.epoch ∧
        0 < (ready.stakeMeta.targets inputs.directedStakeMetaIndex).totalStakedLamports) →
      RebalanceDirected.calculate environment inputs ready = .ok rebalanceType →
      RebalanceDirected.apply inputs row ready rebalanceType = .ok applied →
      applied.stakeMeta.updateStakedLastUpdatedEpoch inputs.directedStakeMetaIndex
        environment.clock.epoch = .ok stakeMeta →
      next.stakeMeta = stakeMeta →
      DirectedCall environment inputs accounts next rebalanceType

namespace RebalanceDirected

variable {environment : Environment} {inputs : Inputs} {accounts next : Accounts}
variable {rebalanceType : RebalanceType} {row : Nat}

theorem directedCall_of_rebalanceFound
    (listed : findVoteAccount environment.validatorList
      (accounts.stakeMeta.targets inputs.directedStakeMetaIndex).votePubkey = some row)
    (found : rebalanceFound environment inputs row accounts = .ok (next, rebalanceType)) :
    DirectedCall environment inputs accounts next rebalanceType := by
  rcases rebalanceFound_cases found with ⟨lamports, transient, adjusted, read, reconciled, outcome⟩
  rcases outcome with ⟨rfl, left, _⟩ | moved
  · rw [flagCompletion_stakeMeta] at left
    exact .left row lamports transient adjusted listed read reconciled left
  · simp only [move, Outcome.bind_eq_ok, readRow_eq_ok, require_eq_ok, Outcome.pure_eq_ok,
      Prod.mk.injEq] at moved
    rcases moved with ⟨_, checked, _, ⟨_, rfl⟩, _, pending, kind, calculated, applied, applying,
      stakeMeta, updated, ⟨final, _⟩, _, rfl, rfl⟩
    exact .moved row lamports transient adjusted _ applied stakeMeta listed read reconciled rfl
      checked pending calculated applying updated (by simp)

theorem directedCall_of_handler
    (succeeded : handler environment inputs accounts = .ok (next, rebalanceType)) :
    DirectedCall environment inputs accounts next rebalanceType := by
  simp only [handler, Outcome.bind_eq_ok, readRow_eq_ok] at succeeded
  rcases succeeded with ⟨_, ⟨_, rfl⟩, _, _, _, _, succeeded⟩
  split at succeeded
  case h_1 missing =>
      simp only [skipMissing, Outcome.bind_eq_ok, Outcome.pure_eq_ok, Prod.mk.injEq] at succeeded
      rcases succeeded with ⟨_, ⟨stakeMeta, updated, ⟨last, event⟩, _, rfl⟩, rfl, rfl⟩
      exact .missing stakeMeta missing updated (by simp)
  case h_2 row found => exact directedCall_of_rebalanceFound found succeeded

end RebalanceDirected

/-! ## The two records of directed stake -/

/-- The staked lamports of one target moved, and with them those of one row. Where
the two agreed, they still do. -/
structure StakedMoved (before : DirectedStakeMeta) (row index : Nat)
    (after : DirectedStakeMeta) : Prop where
  totalStakeTargets : after.totalStakeTargets = before.totalStakeTargets
  keys : ∀ target, (after.targets target).votePubkey = (before.targets target).votePubkey
  others : ∀ target, target ≠ index →
    (after.targets target).totalStakedLamports = (before.targets target).totalStakedLamports
  rows : ∀ other, other ≠ row →
    after.directedStakeLamports other = before.directedStakeLamports other
  indices : after.directedStakeMetaIndices = before.directedStakeMetaIndices
  agrees : (before.targets index).totalStakedLamports = before.directedStakeLamports row →
    (after.targets index).totalStakedLamports = after.directedStakeLamports row

namespace StakedMoved

variable {before middle after : DirectedStakeMeta} {row index : Nat}

theorem trans (first : StakedMoved before row index middle)
    (second : StakedMoved middle row index after) : StakedMoved before row index after where
  totalStakeTargets := second.totalStakeTargets.trans first.totalStakeTargets
  keys := fun target => (second.keys target).trans (first.keys target)
  others := fun target other => (second.others target other).trans (first.others target other)
  rows := fun position other => (second.rows position other).trans (first.rows position other)
  indices := second.indices.trans first.indices
  agrees := fun same => second.agrees (first.agrees same)

/-- A target may change in everything but its key and its staked lamports. -/
theorem of_updateTarget {changed : Nat} {change : DirectedStakeTarget → DirectedStakeTarget}
    (key : ∀ target, (change target).votePubkey = target.votePubkey)
    (staked : ∀ target, (change target).totalStakedLamports = target.totalStakedLamports)
    (updated : before.updateTarget changed change = .ok after) (row index : Nat) :
    StakedMoved before row index after := by
  simp only [DirectedStakeMeta.updateTarget, Outcome.bind_eq_ok, readRow_eq_ok, writeRow_eq_ok,
    Outcome.pure_eq_ok] at updated
  rcases updated with ⟨_, ⟨_, rfl⟩, _, ⟨_, rfl⟩, rfl⟩
  have sameKey : ∀ target, (Function.update before.targets changed
      (change (before.targets changed)) target).votePubkey =
        (before.targets target).votePubkey := by
    intro target
    by_cases same : target = changed
    · subst target
      simp [key]
    · simp [same]
  have sameStaked : ∀ target, (Function.update before.targets changed
      (change (before.targets changed)) target).totalStakedLamports =
        (before.targets target).totalStakedLamports := by
    intro target
    by_cases same : target = changed
    · subst target
      simp [staked]
    · simp [same]
  exact {
    totalStakeTargets := rfl
    keys := sameKey
    others := fun target _ => sameStaked target
    rows := fun _ _ => rfl
    indices := rfl
    agrees := fun same => (sameStaked index).trans same }

theorem of_updateEpoch {changed epoch : Nat}
    (updated : before.updateStakedLastUpdatedEpoch changed epoch = .ok after) (row index : Nat) :
    StakedMoved before row index after := by
  unfold DirectedStakeMeta.updateStakedLastUpdatedEpoch at updated
  apply of_updateTarget _ _ updated
  · intro target
    rfl
  · intro target
    rfl

theorem of_directedMoved {accounts next : Accounts}
    (moved : DirectedMoved accounts row index next) :
    StakedMoved accounts.stakeMeta row index next.stakeMeta := by
  rcases moved with ⟨balances, staked, lamports, rfl, agreed⟩
  constructor
  · rfl
  · intro target
    by_cases same : target = index
    · subst target
      simp [Accounts.withDirected]
    · simp [Accounts.withDirected, same]
  · intro target other
    simp [Accounts.withDirected, other]
  · intro position other
    simp [Accounts.withDirected, other]
  · rfl
  · intro same
    simpa [Accounts.withDirected] using agreed same

end StakedMoved

/-- A reconciled balance is tracked. -/
theorem Directed.adjust_tracked {accounts next : Accounts} {listed row index : Nat}
    (adjusted : adjustDirectedStakeForDepositsAndWithdrawals accounts listed row index =
      .ok next) (bounded : listed < u64Max) :
    next.state.validatorLamportBalances row ≠ lamportBalanceDefault := by
  rcases adjust_eq_ok adjusted with ⟨_, _, rfl⟩
  have total := Movement.total_ne_default (movementOf accounts listed row index) bounded
  rwa [reconciled_balance]

namespace RebalanceDirected

variable {inputs : Inputs} {accounts next : Accounts} {row index lamports : Nat}

theorem applyDecrease_stakedMoved
    (tracked : accounts.state.validatorLamportBalances row ≠ lamportBalanceDefault)
    (applied : applyDecrease accounts index row lamports = .ok next) :
    StakedMoved accounts.stakeMeta row index next.stakeMeta := by
  simp only [applyDecrease, DirectedStakeMeta.subtractFromTotalStakedLamports,
    DirectedStakeMeta.updateTarget, Outcome.bind_eq_ok, readRow_eq_ok, writeRow_eq_ok,
    Outcome.pure_eq_ok] at applied
  rcases applied with ⟨_, ⟨_, ⟨_, rfl⟩, _, ⟨_, rfl⟩, rfl⟩, _, ⟨_, rfl⟩, applied⟩
  simp only [ne_eq, tracked, not_false_eq_true, if_true, Outcome.bind_eq_ok, readRow_eq_ok,
    writeRow_eq_ok, Outcome.pure_eq_ok] at applied
  rcases applied with ⟨_, ⟨_, rfl⟩, _, ⟨_, rfl⟩, _, ⟨_, rfl⟩, rfl⟩
  apply StakedMoved.of_directedMoved
  exact ⟨_, _, _, rfl, fun same => by rw [same]⟩

theorem applyIncrease_stakedMoved
    (applied : applyIncrease accounts index row lamports = .ok next) :
    StakedMoved accounts.stakeMeta row index next.stakeMeta := by
  simp only [applyIncrease, DirectedStakeMeta.addToTotalStakedLamports,
    DirectedStakeMeta.updateTarget, Outcome.bind_eq_ok, readRow_eq_ok, writeRow_eq_ok,
    checkedAdd_eq_ok, Outcome.pure_eq_ok] at applied
  rcases applied with ⟨_, ⟨_, rfl⟩, _, ⟨_, ⟨_, rfl⟩, _, ⟨_, rfl⟩, rfl⟩, _, ⟨_, rfl⟩, _,
    ⟨_, rfl⟩, _, ⟨_, rfl⟩, _, ⟨_, rfl⟩, rfl⟩
  apply StakedMoved.of_directedMoved
  exact ⟨_, _, _, rfl, fun same => by rw [same]⟩

theorem apply_stakedMoved {rebalanceType : RebalanceType}
    (tracked : accounts.state.validatorLamportBalances row ≠ lamportBalanceDefault)
    (applied : apply inputs row accounts rebalanceType = .ok next) :
    StakedMoved accounts.stakeMeta row inputs.directedStakeMetaIndex next.stakeMeta := by
  cases rebalanceType with
  | decrease components =>
      simp only [apply, Outcome.bind_eq_ok, Outcome.pure_eq_ok] at applied
      rcases applied with ⟨_, _, moved, written, rfl⟩
      rcases applyDecrease_stakedMoved tracked written with
        ⟨count, keys, others, rows, indices, agrees⟩
      exact ⟨count, keys, others, rows, indices, agrees⟩
  | increase lamports =>
      simp only [apply, Outcome.bind_eq_ok] at applied
      rcases applied with ⟨_, _, written⟩
      exact applyIncrease_stakedMoved written
  | none =>
      cases applied
      exact .of_directedMoved (.refl accounts row _)

end RebalanceDirected

/-- A call moves the stake of its target at the row of its validator, if there is
one. -/
theorem DirectedCall.stakedMoved {environment : Environment} {inputs : RebalanceDirected.Inputs}
    {accounts next : Accounts} {rebalanceType : RebalanceType}
    (call : DirectedCall environment inputs accounts next rebalanceType)
    (bounded : ∀ row listed transient,
      RebalanceDirected.findVoteAccount environment.validatorList
        (accounts.stakeMeta.targets inputs.directedStakeMetaIndex).votePubkey = some row →
      stakeLamportsAtValidatorListIndex environment.validatorList row = .ok (listed, transient) →
      listed < u64Max) :
    (∀ row index, StakedMoved accounts.stakeMeta row index next.stakeMeta) ∨
      ∃ row, RebalanceDirected.findVoteAccount environment.validatorList
          (accounts.stakeMeta.targets inputs.directedStakeMetaIndex).votePubkey = some row ∧
        StakedMoved accounts.stakeMeta row inputs.directedStakeMetaIndex next.stakeMeta := by
  cases call with
  | missing stakeMeta _ updated result =>
      rw [result]
      exact .inl (StakedMoved.of_updateEpoch updated)
  | left row listed transient adjusted found _ reconciled result =>
      rw [result]
      exact .inr ⟨row, found, .of_directedMoved (Directed.adjust_moved reconciled)⟩
  | moved row listed transient adjusted ready applied stakeMeta found read reconciled isReady _ _ _
      applying updated result =>
      subst ready
      have tracked := Directed.adjust_tracked reconciled (bounded row listed transient found read)
      have adjustedMoved := StakedMoved.of_directedMoved (Directed.adjust_moved reconciled)
      have appliedMoved := RebalanceDirected.apply_stakedMoved (by simpa using tracked) applying
      rw [RebalanceDirected.flagCompletion_stakeMeta] at appliedMoved
      have epochMoved : StakedMoved applied.stakeMeta row inputs.directedStakeMetaIndex stakeMeta :=
        .of_updateEpoch updated row _
      rw [result]
      exact .inr ⟨row, found, (adjustedMoved.trans appliedMoved).trans epochMoved⟩

end Stakenet.Steward

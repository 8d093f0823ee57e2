import Stakenet.Steward.DirectedShares

/-! The reconciliation of directed stake where the balance of the validator is not
tracked, as after a reset of the balances. -/

namespace Stakenet.Steward

/-! ## Resets -/

/-- The tracked balances of all validators were reset, alone or with the whole state. -/
inductive BalancesReset (before : Accounts) : Accounts → Prop
  | balances :
      BalancesReset before
        { before with state := ResetValidatorLamportBalances.handler before.state }
  | steward (environment : Environment) {state : StewardStateV2} :
      ResetStewardState.handler environment before.state = .ok state →
      BalancesReset before { before with state := state }

theorem BalancesReset.untracked {before accounts : Accounts}
    (reset : BalancesReset before accounts) :
    accounts.stakeMeta = before.stakeMeta ∧
      ∀ row, accounts.state.validatorLamportBalances row = lamportBalanceDefault := by
  cases reset with
  | balances => exact ⟨rfl, fun _ => rfl⟩
  | steward environment resetting =>
      simp only [ResetStewardState.handler, Outcome.bind_eq_ok, Outcome.pure_eq_ok] at resetting
      rcases resetting with ⟨_, _, rfl⟩
      exact ⟨rfl, fun _ => rfl⟩

namespace Directed

/-! ## What the reconciliation leaves -/

section Untracked

variable {accounts : Accounts} {listed row index : Nat}

/-- The marker counts as a balance, so that nearly all of it looks withdrawn. -/
theorem directed_untracked
    (untracked : accounts.state.validatorLamportBalances row = lamportBalanceDefault)
    (bounded : listed ≤ u64Max) (lamports : Nat) :
    (movementOf accounts listed row index).directed lamports =
      if listed = u64Max then lamports
      else if (accounts.stakeMeta.targets index).totalStakedLamports < u64Max - listed then 0
      else lamports - (u64Max - listed) := by
  have sentinel : (movementOf accounts listed row index).balance = u64Max := untracked
  have withdrawal : (movementOf accounts listed row index).withdrawal = u64Max - listed := by
    rw [Movement.withdrawal, sentinel]
    rfl
  rw [Movement.directed, sentinel, withdrawal]
  by_cases full : listed = u64Max
  · subst listed
    simp [movementOf]
  · have below : (movementOf accounts listed row index).listed < u64Max :=
      Nat.lt_of_le_of_ne bounded full
    rw [if_pos below, if_neg full]
    rfl

theorem reconciled_untracked_iff
    (untracked : accounts.state.validatorLamportBalances row = lamportBalanceDefault)
    (listedBound : listed ≤ u64Max)
    (stakedBound : (accounts.stakeMeta.targets index).totalStakedLamports ≤ u64Max)
    (mirrorBound : accounts.stakeMeta.directedStakeLamports row ≤ u64Max) :
    (((reconciled accounts listed row index).stakeMeta.targets index).totalStakedLamports =
        min (accounts.stakeMeta.targets index).totalStakedLamports listed ∧
      (reconciled accounts listed row index).stakeMeta.directedStakeLamports row =
        min (accounts.stakeMeta.directedStakeLamports row) listed) ↔
    (listed = u64Max ∨ listed = 0 ∨
      ((accounts.stakeMeta.targets index).totalStakedLamports = 0 ∧
        accounts.stakeMeta.directedStakeLamports row = 0) ∨
      ((accounts.stakeMeta.targets index).totalStakedLamports = u64Max ∧
        (accounts.stakeMeta.directedStakeLamports row = 0 ∨
          accounts.stakeMeta.directedStakeLamports row = u64Max))) := by
  have stale : (movementOf accounts listed row index).stale =
      (movementOf accounts listed row index).directed
        (accounts.stakeMeta.targets index).totalStakedLamports - listed := rfl
  rw [reconciled_staked, reconciled_mirror, stale, directed_untracked untracked listedBound,
    directed_untracked untracked listedBound]
  generalize (accounts.stakeMeta.targets index).totalStakedLamports = staked at *
  generalize accounts.stakeMeta.directedStakeLamports row = mirror at *
  by_cases full : listed = u64Max
  · simp only [full, if_true, true_or, iff_true]
    omega
  · by_cases beyond : staked < u64Max - listed
    · simp only [full, beyond, if_true, if_false, false_or]
      omega
    · simp only [full, beyond, if_false, false_or]
      omega

end Untracked

/-! ## Stake that is staked again -/

/-- A call keeps the applied stake of its target, as far as it is listed: the two records
of it say so after the reconciliation, and no increase stakes it again. -/
structure KeepsApplied (environment : Environment) (inputs : RebalanceDirected.Inputs)
    (accounts : Accounts) (row listed : Nat) : Prop where
  adjusted : ∃ adjusted, adjustDirectedStakeForDepositsAndWithdrawals accounts listed row
      inputs.directedStakeMetaIndex = .ok adjusted ∧
    (adjusted.stakeMeta.targets inputs.directedStakeMetaIndex).totalStakedLamports =
      min (accounts.stakeMeta.targets inputs.directedStakeMetaIndex).totalStakedLamports listed ∧
    adjusted.stakeMeta.directedStakeLamports row =
      min (accounts.stakeMeta.directedStakeLamports row) listed
  restaked : ∀ next lamports,
    RebalanceDirected.handler environment inputs accounts = .ok (next, .increase lamports) →
    lamports ≤ (accounts.stakeMeta.targets inputs.directedStakeMetaIndex).totalTargetLamports -
      min (accounts.stakeMeta.targets inputs.directedStakeMetaIndex).totalStakedLamports listed

section KeepsApplied

variable {environment : Environment} {inputs : RebalanceDirected.Inputs}
variable {accounts ready : Accounts} {row listed lamports : Nat} {transient : Bool}

/-- An increase is at most what the reconciled target lacks. -/
theorem calculatedIncrease_le (calculated : calculatedIncrease inputs ready =
      .ok (.increase lamports)) :
    lamports ≤ (ready.stakeMeta.targets inputs.directedStakeMetaIndex).deficit := by
  rw [calculatedIncrease, increaseStakeCalculation_eq] at calculated
  rcases of_shareOut (guardTarget_eq_ok calculated).2 with nothing | ⟨_, _, _, _, granted⟩
  · cases nothing
  · cases granted
    exact Nat.min_le_right _ _

/-- The increase of a call is at most what its target lacks once it is reconciled with
the list. -/
theorem increase_le_reconciled
    (found : RebalanceDirected.findVoteAccount environment.validatorList
      (accounts.stakeMeta.targets inputs.directedStakeMetaIndex).votePubkey = some row)
    (read : stakeLamportsAtValidatorListIndex environment.validatorList row =
      .ok (listed, transient))
    (rowBound : row < maxValidators) (indexBound : inputs.directedStakeMetaIndex < maxValidators)
    {next : Accounts} (succeeded : RebalanceDirected.handler environment inputs accounts =
      .ok (next, .increase lamports)) :
    lamports ≤ (accounts.stakeMeta.targets inputs.directedStakeMetaIndex).totalTargetLamports -
      ((reconciled accounts listed row inputs.directedStakeMetaIndex).stakeMeta.targets
        inputs.directedStakeMetaIndex).totalStakedLamports := by
  rcases increase_calculated (RebalanceDirected.directedCall_of_handler succeeded) with
    ⟨otherRow, otherListed, ready, reaches, calculated⟩
  have sameRow : row = otherRow := Option.some.inj (found.symm.trans reaches.found)
  subst otherRow
  rcases reaches.read with ⟨otherTransient, otherRead⟩
  have sameRead := Except.ok.inj (read.symm.trans otherRead)
  rw [Prod.mk.injEq] at sameRead
  rcases sameRead with ⟨rfl, rfl⟩
  rcases reaches.adjusted with ⟨adjusted, adjusting, isReady⟩
  rw [adjust_eq rowBound indexBound] at adjusting
  cases adjusting
  have bounded := calculatedIncrease_le calculated
  rw [isReady, RebalanceDirected.flagCompletion_stakeMeta] at bounded
  have target : ((reconciled accounts listed row inputs.directedStakeMetaIndex).stakeMeta.targets
      inputs.directedStakeMetaIndex).totalTargetLamports =
        (accounts.stakeMeta.targets inputs.directedStakeMetaIndex).totalTargetLamports :=
    congrArg (·.totalTargetLamports)
      (onlyReconciled_reconciled accounts listed row inputs.directedStakeMetaIndex).target
  rw [DirectedStakeTarget.deficit, target] at bounded
  exact bounded

/-- Where the balance of a validator is not tracked, a call keeps the applied stake of
its target only if there is none to keep, in its records or in the list, or a value of
`u64::MAX` hides the loss. -/
theorem untracked_keepsApplied_iff
    (found : RebalanceDirected.findVoteAccount environment.validatorList
      (accounts.stakeMeta.targets inputs.directedStakeMetaIndex).votePubkey = some row)
    (read : stakeLamportsAtValidatorListIndex environment.validatorList row =
      .ok (listed, transient))
    (rowBound : row < maxValidators) (indexBound : inputs.directedStakeMetaIndex < maxValidators)
    (untracked : accounts.state.validatorLamportBalances row = lamportBalanceDefault)
    (listedBound : listed ≤ u64Max)
    (stakedBound : (accounts.stakeMeta.targets
      inputs.directedStakeMetaIndex).totalStakedLamports ≤ u64Max)
    (mirrorBound : accounts.stakeMeta.directedStakeLamports row ≤ u64Max) :
    KeepsApplied environment inputs accounts row listed ↔
    (listed = u64Max ∨ listed = 0 ∨
      ((accounts.stakeMeta.targets inputs.directedStakeMetaIndex).totalStakedLamports = 0 ∧
        accounts.stakeMeta.directedStakeLamports row = 0) ∨
      ((accounts.stakeMeta.targets inputs.directedStakeMetaIndex).totalStakedLamports = u64Max ∧
        (accounts.stakeMeta.directedStakeLamports row = 0 ∨
          accounts.stakeMeta.directedStakeLamports row = u64Max))) := by
  rw [← reconciled_untracked_iff untracked listedBound stakedBound mirrorBound]
  constructor
  · intro keeps
    rcases keeps.adjusted with ⟨adjusted, adjusting, kept⟩
    rw [adjust_eq rowBound indexBound] at adjusting
    cases adjusting
    exact kept
  · intro kept
    refine ⟨⟨_, adjust_eq rowBound indexBound, kept⟩, ?_⟩
    intro next lamports succeeded
    rw [← kept.1]
    exact increase_le_reconciled found read rowBound indexBound succeeded

end KeepsApplied

/-! A validator with 1000 lamports, all of them directed, in epoch 2. -/

def appliedEnvironment : Environment where
  clock := ⟨2, 2000⟩
  epochSchedule := .withoutWarmup 1000
  config := ⟨.fixture, false⟩
  validatorList := ⟨.validatorList, [⟨1000, 0, 0, .active, 1⟩], []⟩

def appliedAccounts (applied : Nat) : Accounts where
  state := { ReallocState.initialState 1 10 0 with
    currentEpoch := 2
    validatorLamportBalances := fun row => if row = 0 then 1000 else lamportBalanceDefault }
  stakeMeta := { DirectedStakeMeta.initial with
    totalStakeTargets := 1
    targets := fun index => if index = 0 then ⟨1, 1000, applied, 1, 1⟩ else .none
    directedStakeLamports := fun row => if row = 0 then applied else 0
    directedStakeMetaIndices := fun row => if row = 0 then 0 else metaIndexDefault }

def appliedInputs : RebalanceDirected.Inputs where
  directedStakeMetaIndex := 0
  voteAccount := 1
  poolTotalLamports := 20000
  reserveLamports := 5000
  minimumDelegation := 1
  stakeRent := 1
  invoke := fun _ => .ok ()

/-- The accounts after the tracked balances were reset. -/
def appliedReset (applied : Nat) : Accounts :=
  execute (appliedAccounts applied) ⟨appliedEnvironment, .resetValidatorLamportBalances⟩

theorem balancesReset_appliedReset (applied : Nat) :
    BalancesReset (appliedAccounts applied) (appliedReset applied) :=
  .balances

theorem untracked_keepsApplied_nothingApplied :
    KeepsApplied appliedEnvironment appliedInputs (appliedReset 0) 0 1000 := by
  have untracked := (balancesReset_appliedReset 0).untracked.2 0
  exact (untracked_keepsApplied_iff rfl rfl (by decide) (by decide) untracked (by decide)
    (by decide) (by decide)).mpr (by decide)

/-- All that is directed to the validator is staked, and after the reset it is staked
again. -/
theorem not_untracked_keepsApplied :
    BalancesReset (appliedAccounts 1000) (appliedReset 1000) ∧
      RebalanceDirected.findVoteAccount appliedEnvironment.validatorList
        ((appliedReset 1000).stakeMeta.targets 0).votePubkey = some 0 ∧
      stakeLamportsAtValidatorListIndex appliedEnvironment.validatorList 0 = .ok (1000, false) ∧
      Prod.snd <$> RebalanceDirected.handler appliedEnvironment appliedInputs
        (appliedReset 1000) = .ok (.increase 1000) ∧
      ¬KeepsApplied appliedEnvironment appliedInputs (appliedReset 1000) 0 1000 := by
  have increased : Prod.snd <$> RebalanceDirected.handler appliedEnvironment appliedInputs
      (appliedReset 1000) = .ok (.increase 1000) := by decide +kernel
  refine ⟨balancesReset_appliedReset 1000, rfl, rfl, increased, ?_⟩
  intro keeps
  rw [Outcome.map_eq_ok] at increased
  rcases increased with ⟨⟨next, rebalanceType⟩, succeeded, rfl⟩
  have restaked := keeps.restaked next 1000 succeeded
  revert restaked
  decide

end Directed

end Stakenet.Steward

import Stakenet.Steward.DirectedCalculation
import Stakenet.Steward.DirectedCall
import Stakenet.Steward.RemovalEffect

/-! The budget for directed unstaking: what every transaction does to the total
that is charged against it, the bound on the total along runs, and its renewal at
the start of a cycle. -/

namespace Stakenet.Steward

open Execution

/-! ## Renewals and charges -/

/-- The lamports a rebalance charges against the directed unstake budget. -/
def RebalanceType.directedUnstakeLamports : RebalanceType → Nat
  | .decrease components => components.directedUnstakeLamports
  | _ => 0

namespace EpochMaintenance

/-- `maintenance_complete` of the event: no validator is left to remove. -/
def complete (state : StewardStateV2) : Bool :=
  state.validatorsToRemove.isEmpty && state.validatorsForImmediateRemoval.isEmpty

variable {environment : Environment} {lastUpdateEpoch : Nat} {toRemove : Option Nat}
variable {accounts next : Accounts}

theorem removeRequested_total
    (removed : removeRequested accounts toRemove = .ok next) :
    next.stakeMeta.directedUnstakeTotal = accounts.stakeMeta.directedUnstakeTotal ∧
      next.state.nextCycleEpoch = accounts.state.nextCycleEpoch := by
  cases toRemove with
  | none =>
      cases removed
      exact ⟨rfl, rfl⟩
  | some index =>
      have removal := removed_of_removeValidator removed
      exact ⟨removal.directedUnstakeTotal, congrArg (·.nextCycleEpoch) removal.control⟩

theorem handler_targets
    (succeeded : handler environment lastUpdateEpoch toRemove accounts = .ok next) :
    next.stakeMeta.targets = accounts.stakeMeta.targets := by
  simp only [handler, Outcome.bind_eq_ok] at succeeded
  rcases succeeded with ⟨_, _, _, _, _, _, _, _, _, _, _, _, _, _, removed, removing, succeeded⟩
  have kept : removed.stakeMeta.targets = accounts.stakeMeta.targets := by
    cases toRemove with
    | none =>
        cases removing
        rfl
    | some index =>
        have removal := removed_of_removeValidator removing
        exact removal.targets
  split at succeeded
  · cases succeeded
    simp only [openEpoch]
    split <;> exact kept
  · cases succeeded
    exact kept

/-- Epoch maintenance clears the total when it completes at the very epoch the
next cycle starts. -/
theorem handler_total
    (succeeded : handler environment lastUpdateEpoch toRemove accounts = .ok next) :
    next.stakeMeta.directedUnstakeTotal =
      if complete next.state = true ∧ environment.clock.epoch = accounts.state.nextCycleEpoch then 0
      else accounts.stakeMeta.directedUnstakeTotal := by
  simp only [handler, Outcome.bind_eq_ok] at succeeded
  rcases succeeded with ⟨_, _, _, _, _, _, _, _, _, _, _, _, _, _, removed, removing, succeeded⟩
  rcases removeRequested_total removing with ⟨total, cycle⟩
  split at succeeded
  case isTrue finished =>
      cases succeeded
      have completed : complete (openEpoch environment.clock removed).state = true := finished
      simp only [completed, true_and]
      simp only [openEpoch, cycle, StewardStateV2.unsetFlag_nextCycleEpoch]
      split
      · rfl
      · exact total
  case isFalse unfinished =>
      cases succeeded
      have incomplete : ¬complete next.state = true := unfinished
      rw [if_neg (fun both => incomplete both.1)]
      exact total

end EpochMaintenance

namespace RebalanceDirected

variable {environment : Environment} {inputs : Inputs} {accounts next : Accounts}
variable {row : Nat} {rebalanceType : RebalanceType}

/-- The budget of a call, over a whole cycle. -/
def unstakeCap (environment : Environment) (inputs : Inputs) : Nat :=
  min (inputs.poolTotalLamports * environment.config.parameters.directedStakeUnstakeCapBps)
    u64Max / 10000

theorem unstakeCap_le (environment : Environment) (inputs : Inputs) :
    unstakeCap environment inputs ≤ u64Max := by
  unfold unstakeCap
  omega

theorem apply_total (applied : apply inputs row accounts rebalanceType = .ok next)
    (typed : accounts.stakeMeta.directedUnstakeTotal ≤ u64Max) :
    next.stakeMeta.directedUnstakeTotal =
      saturatingAdd accounts.stakeMeta.directedUnstakeTotal
        rebalanceType.directedUnstakeLamports := by
  cases rebalanceType with
  | decrease components =>
      simp only [apply, applyDecrease, DirectedStakeMeta.subtractFromTotalStakedLamports,
        DirectedStakeMeta.updateTarget, Outcome.bind_eq_ok, Outcome.pure_eq_ok] at applied
      rcases applied with ⟨_, _, decreased, ⟨_, ⟨_, _, _, _, rfl⟩, _, _, decreasing⟩, rfl⟩
      split at decreasing
      · simp only [Outcome.bind_eq_ok, Outcome.pure_eq_ok] at decreasing
        rcases decreasing with ⟨_, _, _, _, _, _, rfl⟩
        rfl
      · cases decreasing
        rfl
  | increase lamports =>
      simp only [apply, applyIncrease, DirectedStakeMeta.addToTotalStakedLamports,
        DirectedStakeMeta.updateTarget, Outcome.bind_eq_ok, Outcome.pure_eq_ok] at applied
      rcases applied with ⟨_, _, _, _, _, ⟨_, _, _, _, rfl⟩, _, _, _, _, _, _, _, _, rfl⟩
      simp only [RebalanceType.directedUnstakeLamports, saturatingAdd]
      omega
  | none =>
      cases applied
      simp only [RebalanceType.directedUnstakeLamports, saturatingAdd]
      omega

theorem updateEpoch_total {stakeMeta changed : DirectedStakeMeta} {index epoch : Nat}
    (updated : stakeMeta.updateStakedLastUpdatedEpoch index epoch = .ok changed) :
    changed.directedUnstakeTotal = stakeMeta.directedUnstakeTotal := by
  simp only [DirectedStakeMeta.updateStakedLastUpdatedEpoch, DirectedStakeMeta.updateTarget,
    Outcome.bind_eq_ok, Outcome.pure_eq_ok] at updated
  rcases updated with ⟨_, _, _, _, rfl⟩
  rfl

theorem adjust_total {adjusted : Accounts} {listed index : Nat}
    (reconciled : Directed.adjustDirectedStakeForDepositsAndWithdrawals accounts listed row index =
      .ok adjusted) :
    adjusted.stakeMeta.directedUnstakeTotal = accounts.stakeMeta.directedUnstakeTotal := by
  rcases Directed.adjust_moved reconciled with ⟨_, _, _, rfl, _⟩
  rfl

end RebalanceDirected

/-- A directed rebalance charges what it unstakes. -/
theorem DirectedCall.total {environment : Environment} {inputs : RebalanceDirected.Inputs}
    {accounts next : Accounts} {rebalanceType : RebalanceType}
    (call : DirectedCall environment inputs accounts next rebalanceType)
    (typed : accounts.stakeMeta.directedUnstakeTotal ≤ u64Max) :
    next.stakeMeta.directedUnstakeTotal =
      saturatingAdd accounts.stakeMeta.directedUnstakeTotal
        rebalanceType.directedUnstakeLamports := by
  have uncharged : accounts.stakeMeta.directedUnstakeTotal =
      saturatingAdd accounts.stakeMeta.directedUnstakeTotal 0 := by
    unfold saturatingAdd
    omega
  cases call with
  | missing stakeMeta _ updated result =>
      rw [result, RebalanceDirected.updateEpoch_total updated]
      exact uncharged
  | left row listed transient adjusted _ _ reconciled result =>
      rw [result, RebalanceDirected.adjust_total reconciled]
      exact uncharged
  | moved row listed transient adjusted ready applied stakeMeta _ _ reconciled isReady _ _ _
      applying updated result =>
      subst ready
      have same : (RebalanceDirected.flagCompletion environment.clock
          adjusted).stakeMeta.directedUnstakeTotal =
            accounts.stakeMeta.directedUnstakeTotal := by
        rw [RebalanceDirected.flagCompletion_stakeMeta]
        exact RebalanceDirected.adjust_total reconciled
      have charged := RebalanceDirected.apply_total applying (by rw [same]; exact typed)
      rw [result, RebalanceDirected.updateEpoch_total updated, charged, same]

/-! ## The amount of a decrease -/

namespace Directed

/-- A decrease of a pending target stays within what is left of the budget and
within the excess of the target. -/
theorem decrease_bounds {state : StewardStateV2} {stakeMeta : DirectedStakeMeta}
    {index cap total minimumDelegation : Nat} {components : DecreaseComponents}
    (typed : (stakeMeta.targets index).totalStakedLamports ≤ u64Max)
    (pending : (stakeMeta.targets index).totalTargetLamports <
        (stakeMeta.targets index).totalStakedLamports →
      (stakeMeta.targets index).stakedLastUpdatedEpoch ≠ state.currentEpoch)
    (calculated : decreaseStakeCalculation state stakeMeta index
      (stakeMeta.targets index).totalStakedLamports cap total minimumDelegation =
        .ok (.decrease components)) :
    components.directedUnstakeLamports ≤ cap - total ∧
      components.directedUnstakeLamports ≤ (stakeMeta.targets index).totalStakedLamports -
        (stakeMeta.targets index).totalTargetLamports ∧
      components.totalUnstakeLamports = components.directedUnstakeLamports := by
  rw [decreaseStakeCalculation_eq] at calculated
  rcases guardTarget_eq_ok calculated with ⟨inUse, shared⟩
  rcases of_shareOut shared with nothing | ⟨excess, _, proportional, computed, granted⟩
  · cases nothing
  · cases granted
    have counted := le_totalOverPending DirectedStakeTarget.excess inUse (pending (by omega))
      ((Nat.sub_le _ _).trans typed)
    have share := proportionalLamports_le ((Nat.sub_le _ _).trans typed) counted computed
    refine ⟨?_, Nat.min_le_right _ _, rfl⟩
    exact (Nat.min_le_left _ _).trans (share.trans (Nat.min_le_left _ _))

end Directed

/-! ## Recorded stake is a machine integer -/

/-- The staked lamports of every target are a `u64`. -/
def DirectedStakeMeta.Fits (stakeMeta : DirectedStakeMeta) : Prop :=
  ∀ index, (stakeMeta.targets index).totalStakedLamports ≤ u64Max

namespace DirectedStakeMeta.Fits

variable {stakeMeta changed : DirectedStakeMeta}

theorem of_targets (fits : stakeMeta.Fits)
    (same : ∀ index, (changed.targets index).totalStakedLamports =
      (stakeMeta.targets index).totalStakedLamports) : changed.Fits := by
  intro index
  rw [same]
  exact fits index

theorem updateTarget (fits : stakeMeta.Fits) {index : Nat}
    {change : DirectedStakeTarget → DirectedStakeTarget}
    (updated : stakeMeta.updateTarget index change = .ok changed)
    (bounded : ∀ target, target.totalStakedLamports ≤ u64Max →
      (change target).totalStakedLamports ≤ u64Max) : changed.Fits := by
  simp only [DirectedStakeMeta.updateTarget, Outcome.bind_eq_ok, readRow_eq_ok, writeRow_eq_ok,
    Outcome.pure_eq_ok] at updated
  rcases updated with ⟨_, ⟨_, rfl⟩, _, ⟨_, rfl⟩, rfl⟩
  intro other
  by_cases same : other = index
  · subst other
    simpa using bounded _ (fits index)
  · simpa [same] using fits other

theorem subtract (fits : stakeMeta.Fits) {index lamports : Nat}
    (updated : stakeMeta.subtractFromTotalStakedLamports index lamports = .ok changed) :
    changed.Fits :=
  fits.updateTarget updated (fun _ bounded => (Nat.sub_le _ _).trans bounded)

theorem add (fits : stakeMeta.Fits) {index lamports : Nat}
    (updated : stakeMeta.addToTotalStakedLamports index lamports = .ok changed) :
    changed.Fits :=
  fits.updateTarget updated (fun _ _ => Nat.min_le_right _ _)

theorem adjust {accounts next : Accounts} {listed row index : Nat}
    (fits : accounts.stakeMeta.Fits)
    (adjusted : Directed.adjustDirectedStakeForDepositsAndWithdrawals accounts listed row index =
      .ok next) : next.stakeMeta.Fits := by
  rcases Directed.adjust_eq_ok adjusted with ⟨_, _, rfl⟩
  intro other
  by_cases same : other = index
  · subst other
    rw [Directed.reconciled_staked]
    exact (Nat.sub_le _ _).trans (Directed.Movement.directed_le _ (fits index))
  · simpa [Directed.reconciled, Accounts.withDirected, same] using fits other

theorem apply {inputs : RebalanceDirected.Inputs} {accounts next : Accounts} {row : Nat}
    {rebalanceType : RebalanceType} (fits : accounts.stakeMeta.Fits)
    (applied : RebalanceDirected.apply inputs row accounts rebalanceType = .ok next) :
    next.stakeMeta.Fits := by
  cases rebalanceType with
  | decrease components =>
      simp only [RebalanceDirected.apply, RebalanceDirected.applyDecrease, Outcome.bind_eq_ok,
        Outcome.pure_eq_ok] at applied
      rcases applied with ⟨_, _, decreased, ⟨_, updated, _, _, decreasing⟩, rfl⟩
      have charged := fits.subtract updated
      split at decreasing
      · simp only [Outcome.bind_eq_ok, Outcome.pure_eq_ok] at decreasing
        rcases decreasing with ⟨_, _, _, _, _, _, rfl⟩
        exact charged
      · cases decreasing
        exact charged
  | increase lamports =>
      simp only [RebalanceDirected.apply, RebalanceDirected.applyIncrease, Outcome.bind_eq_ok,
        Outcome.pure_eq_ok] at applied
      rcases applied with ⟨_, _, _, _, _, updated, _, _, _, _, _, _, _, _, rfl⟩
      have credited := fits.add updated
      exact credited
  | none =>
      cases applied
      exact fits

theorem updateEpoch (fits : stakeMeta.Fits) {index epoch : Nat}
    (updated : stakeMeta.updateStakedLastUpdatedEpoch index epoch = .ok changed) : changed.Fits :=
  fits.updateTarget updated (fun _ bounded => bounded)

theorem directedCall {environment : Environment} {inputs : RebalanceDirected.Inputs}
    {accounts next : Accounts} {rebalanceType : RebalanceType} (fits : accounts.stakeMeta.Fits)
    (call : DirectedCall environment inputs accounts next rebalanceType) :
    next.stakeMeta.Fits := by
  cases call with
  | missing stakeMeta _ updated result =>
      rw [result]
      exact fits.updateEpoch updated
  | left row listed transient adjusted _ _ reconciled result =>
      rw [result]
      exact fits.adjust reconciled
  | moved row listed transient adjusted ready applied stakeMeta _ _ reconciled isReady _ _ _
      applying updated result =>
      subst ready
      rw [result]
      have ready := fits.adjust reconciled
      rw [← RebalanceDirected.flagCompletion_stakeMeta environment.clock adjusted] at ready
      exact (ready.apply applying).updateEpoch updated

theorem copy {clock : Clock} {validatorList : ValidatorList} {votePubkey : Pubkey}
    {targetLamports row : Nat} (fits : stakeMeta.Fits)
    (copied : CopyDirectedStakeTargets.handler clock validatorList votePubkey targetLamports row
      stakeMeta = .ok changed) : changed.Fits := by
  simp only [CopyDirectedStakeTargets.handler, Outcome.bind_eq_ok] at copied
  rcases copied with ⟨_, _, _, _, _, _, copied⟩
  split at copied
  · exact fits.updateTarget copied (fun _ bounded => bounded)
  · simp only [CopyDirectedStakeTargets.appendTarget, Outcome.bind_eq_ok, writeRow_eq_ok,
      Outcome.pure_eq_ok] at copied
    rcases copied with ⟨_, ⟨_, rfl⟩, _, _, _, _, rfl⟩
    intro index
    by_cases same : index = stakeMeta.totalStakeTargets
    · subst index
      simp
    · simpa [same] using fits index

theorem migrate (fits : stakeMeta.Fits) (clock : Clock) :
    (MigrateDirectedToAlgorithmic.handler clock stakeMeta).Fits := by
  intro index
  simp only [MigrateDirectedToAlgorithmic.handler, MigrateDirectedToAlgorithmic.clearTarget]
  split
  · exact Nat.zero_le _
  · exact fits index

end DirectedStakeMeta.Fits

/-- A synchronisation writes the row mirror only. -/
theorem SyncDirectedStakeLamports.handler_others {validatorList : ValidatorList}
    {stakeMeta synced : DirectedStakeMeta}
    (succeeded : handler validatorList stakeMeta = .ok synced) :
    synced = { stakeMeta with directedStakeLamports := synced.directedStakeLamports } := by
  simp only [handler, Outcome.bind_eq_ok] at succeeded
  rcases succeeded with ⟨_, _, synced⟩
  apply forRange.invariant (fun _ current =>
    current = { stakeMeta with directedStakeLamports := current.directedStakeLamports })
    (Nat.zero_le _) rfl _ synced
  intro row current next _ _ same written
  simp only [syncRow, Outcome.bind_eq_ok] at written
  rcases written with ⟨_, _, _, _, written⟩
  split at written
  · cases written
    exact same
  · simp only [Outcome.bind_eq_ok] at written
    rcases written with ⟨_, _, written⟩
    split at written
    · cases written
      exact same
    · simp only [Outcome.bind_eq_ok, Outcome.pure_eq_ok] at written
      rcases written with ⟨_, _, rfl⟩
      rw [same]

/-! ## Transactions -/

namespace Transaction

/-- The transaction is an epoch maintenance that removes the last validator there
is to remove, or finds none. -/
def completesMaintenance (transaction : Transaction) (accounts : Accounts) : Bool :=
  match transaction.instruction, transaction.process accounts with
  | .epochMaintenance _ _, .ok next => EpochMaintenance.complete next.state
  | _, _ => false

/-- The transaction clears `directed_unstake_total`. -/
def renewsBudget (transaction : Transaction) (accounts : Accounts) : Bool :=
  match transaction.instruction with
  | .epochMaintenance _ _ =>
      transaction.completesMaintenance accounts &&
        decide (transaction.environment.clock.epoch = accounts.state.nextCycleEpoch)
  | .migrateDirectedToAlgorithmic => true
  | _ => false

end Transaction

/-- A directed decrease, and the cap its call was made with. -/
structure Charge where
  lamports : Nat
  cap : Nat
  deriving DecidableEq, Repr

/-- The charge of a directed rebalance that returned `rebalanceType`. -/
def RebalanceDirected.chargeOf (environment : Environment) (inputs : Inputs) :
    RebalanceType → List Charge
  | .decrease components =>
      [⟨components.directedUnstakeLamports, unstakeCap environment inputs⟩]
  | _ => []

namespace Transaction

/-- The directed decrease of a transaction, if it makes one. -/
def charges (transaction : Transaction) (accounts : Accounts) : List Charge :=
  match transaction.instruction with
  | .rebalanceDirected inputs =>
      match RebalanceDirected.handler transaction.environment inputs accounts with
      | .ok (_, rebalanceType) =>
          RebalanceDirected.chargeOf transaction.environment inputs rebalanceType
      | .error _ => []
  | _ => []

variable {transaction : Transaction} {accounts next : Accounts}

theorem process_total (typed : accounts.stakeMeta.directedUnstakeTotal ≤ u64Max)
    (succeeded : transaction.process accounts = .ok next) :
    next.stakeMeta.directedUnstakeTotal =
      if transaction.renewsBudget accounts then 0
      else saturatingAdd accounts.stakeMeta.directedUnstakeTotal
        ((transaction.charges accounts).map Charge.lamports).sum := by
  have uncharged : saturatingAdd accounts.stakeMeta.directedUnstakeTotal 0 =
      accounts.stakeMeta.directedUnstakeTotal := by
    unfold saturatingAdd
    omega
  rcases transaction with ⟨environment, instruction⟩
  have processed := succeeded
  cases instruction with
  | rebalanceDirected inputs =>
      simp only [process, Outcome.map_eq_ok] at succeeded
      rcases succeeded with ⟨⟨last, rebalanceType⟩, handled, rfl⟩
      rw [(RebalanceDirected.directedCall_of_handler handled).total typed]
      cases rebalanceType <;>
        simp [renewsBudget, charges, handled, RebalanceDirected.chargeOf,
          RebalanceType.directedUnstakeLamports]
  | epochMaintenance lastUpdateEpoch toRemove =>
      rw [EpochMaintenance.handler_total succeeded]
      simp [renewsBudget, completesMaintenance, charges, processed, uncharged]
  | instantRemoveValidator lastUpdateEpoch index =>
      simp only [process, InstantRemoveValidator.handler, Outcome.bind_eq_ok] at succeeded
      rcases succeeded with
        ⟨_, _, _, _, _, _, _, _, _, _, _, _, _, _, _, _, _, _, _, _, removing⟩
      rw [(removed_of_removeValidator removing).directedUnstakeTotal]
      simp [renewsBudget, charges, uncharged]
  | copyDirectedStakeTargets votePubkey targetLamports row =>
      simp only [process, Accounts.withStakeMeta_eq_ok, CopyDirectedStakeTargets.handler,
        Outcome.bind_eq_ok] at succeeded
      rcases succeeded with ⟨⟨_, _, _, _, _, _, copied⟩, _⟩
      have same : next.stakeMeta.directedUnstakeTotal =
          accounts.stakeMeta.directedUnstakeTotal := by
        split at copied
        · simp only [DirectedStakeMeta.updateTarget, Outcome.bind_eq_ok,
            Outcome.pure_eq_ok] at copied
          rcases copied with ⟨_, _, _, _, written⟩
          rw [← written]
        · simp only [CopyDirectedStakeTargets.appendTarget, Outcome.bind_eq_ok,
            Outcome.pure_eq_ok] at copied
          rcases copied with ⟨_, _, _, _, _, _, written⟩
          rw [← written]
      simp [renewsBudget, charges, uncharged, same]
  | syncDirectedStakeLamports =>
      simp only [process, Accounts.withStakeMeta_eq_ok] at succeeded
      rw [SyncDirectedStakeLamports.handler_others succeeded.1]
      simp [renewsBudget, charges, uncharged]
  | migrateDirectedToAlgorithmic =>
      simp only [process, Accounts.withStakeMeta_eq_ok, Except.ok.injEq] at succeeded
      rw [← succeeded.1]
      simp [renewsBudget, MigrateDirectedToAlgorithmic.handler]
  | _ =>
      simp only [process, Accounts.withState_eq_ok] at succeeded
      rw [succeeded.2]
      simp [renewsBudget, charges, uncharged]

/-- A transaction that fails neither renews nor charges. -/
theorem failed_charges {failure : Failure}
    (failed : transaction.process accounts = .error failure) :
    transaction.renewsBudget accounts = false ∧ transaction.charges accounts = [] := by
  rcases transaction with ⟨environment, instruction⟩
  cases instruction with
  | rebalanceDirected inputs =>
      cases handled : RebalanceDirected.handler environment inputs accounts with
      | error failure => simp [renewsBudget, charges, handled]
      | ok outcome => simp [process, handled, Functor.map, Except.map] at failed
  | epochMaintenance lastUpdateEpoch toRemove =>
      simp [renewsBudget, completesMaintenance, failed, charges]
  | migrateDirectedToAlgorithmic =>
      simp [process, Accounts.withStakeMeta, pure, Except.pure] at failed
  | _ => simp [renewsBudget, charges]

theorem process_fits (fits : accounts.stakeMeta.Fits)
    (succeeded : transaction.process accounts = .ok next) : next.stakeMeta.Fits := by
  rcases transaction with ⟨environment, instruction⟩
  cases instruction with
  | rebalanceDirected inputs =>
      simp only [process, Outcome.map_eq_ok] at succeeded
      rcases succeeded with ⟨⟨last, rebalanceType⟩, handled, rfl⟩
      exact fits.directedCall (RebalanceDirected.directedCall_of_handler handled)
  | epochMaintenance lastUpdateEpoch toRemove =>
      simp only [process] at succeeded
      exact fits.of_targets (fun index => by
        rw [EpochMaintenance.handler_targets succeeded])
  | instantRemoveValidator lastUpdateEpoch index =>
      simp only [process, InstantRemoveValidator.handler, Outcome.bind_eq_ok] at succeeded
      rcases succeeded with
        ⟨_, _, _, _, _, _, _, _, _, _, _, _, _, _, _, _, _, _, _, _, removing⟩
      exact fits.of_targets (fun index => by rw [(removed_of_removeValidator removing).targets])
  | copyDirectedStakeTargets votePubkey targetLamports row =>
      simp only [process, Accounts.withStakeMeta_eq_ok] at succeeded
      exact fits.copy succeeded.1
  | syncDirectedStakeLamports =>
      simp only [process, Accounts.withStakeMeta_eq_ok] at succeeded
      rw [SyncDirectedStakeLamports.handler_others succeeded.1]
      exact fits.of_targets (fun index => rfl)
  | migrateDirectedToAlgorithmic =>
      simp only [process, Accounts.withStakeMeta_eq_ok, Except.ok.injEq] at succeeded
      rw [← succeeded.1]
      exact fits.migrate environment.clock
  | _ =>
      simp only [process, Accounts.withState_eq_ok] at succeeded
      rw [succeeded.2]
      exact fits

end Transaction

/-! ## The budget over a run -/

/-- The accounts and the directed decreases since the total was last cleared. -/
structure BudgetLedger where
  accounts : Accounts
  charges : List Charge

namespace BudgetLedger

def step (ledger : BudgetLedger) (transaction : Transaction) : BudgetLedger where
  accounts := execute ledger.accounts transaction
  charges :=
    if transaction.renewsBudget ledger.accounts then []
    else transaction.charges ledger.accounts ++ ledger.charges

/-- The total is the sum of the decreases, and no more than the largest cap. -/
structure Balanced (ledger : BudgetLedger) : Prop where
  total : ledger.accounts.stakeMeta.directedUnstakeTotal =
    (ledger.charges.map Charge.lamports).sum
  capped : ledger.accounts.stakeMeta.directedUnstakeTotal ≤
    (ledger.charges.map Charge.cap).foldr max 0

structure Sound (ledger : BudgetLedger) : Prop where
  balanced : ledger.Balanced
  typed : ledger.accounts.stakeMeta.directedUnstakeTotal ≤ u64Max
  fits : ledger.accounts.stakeMeta.Fits

end BudgetLedger

/-- The accounts of a directed rebalance once its target is reconciled with the
list. -/
def RebalanceDirected.reconciled (environment : Environment) (inputs : Inputs)
    (accounts : Accounts) : Result Accounts :=
  match findVoteAccount environment.validatorList
      (accounts.stakeMeta.targets inputs.directedStakeMetaIndex).votePubkey with
  | none => .ok accounts
  | some row => do
      let (listed, _) ← stakeLamportsAtValidatorListIndex environment.validatorList row
      Directed.adjustDirectedStakeForDepositsAndWithdrawals accounts listed row
        inputs.directedStakeMetaIndex

/-- A decrease stays within what is left of the budget, and within the excess of
its target. -/
structure WithinBudget (environment : Environment) (inputs : RebalanceDirected.Inputs)
    (accounts : Accounts) (lamports : Nat) : Prop where
  headroom : lamports ≤ RebalanceDirected.unstakeCap environment inputs -
    accounts.stakeMeta.directedUnstakeTotal
  excess : ∃ adjusted, RebalanceDirected.reconciled environment inputs accounts = .ok adjusted ∧
    lamports ≤
      (adjusted.stakeMeta.targets inputs.directedStakeMetaIndex).totalStakedLamports -
        (adjusted.stakeMeta.targets inputs.directedStakeMetaIndex).totalTargetLamports

theorem RebalanceDirected.calculate_decrease {environment : Environment} {inputs : Inputs}
    {accounts : Accounts} {components : DecreaseComponents}
    (calculated : calculate environment inputs accounts = .ok (.decrease components)) :
    Directed.decreaseStakeCalculation accounts.state accounts.stakeMeta
      inputs.directedStakeMetaIndex
      (accounts.stakeMeta.targets inputs.directedStakeMetaIndex).totalStakedLamports
      (unstakeCap environment inputs) accounts.stakeMeta.directedUnstakeTotal
      inputs.minimumDelegation = .ok (.decrease components) := by
  simp only [calculate, Outcome.bind_eq_ok, readRow_eq_ok] at calculated
  rcases calculated with ⟨_, ⟨_, rfl⟩, calculated⟩
  split at calculated
  case h_1 decreased =>
      cases calculated
      exact decreased
  case h_2 => cases calculated
  case h_3 =>
      rw [Directed.increaseStakeCalculation_eq] at calculated
      rcases Directed.of_shareOut (Directed.guardTarget_eq_ok calculated).2 with
        nothing | ⟨_, _, _, _, granted⟩
      · cases nothing
      · cases granted

/-- From the second epoch on a target with directed stake is not processed twice,
so a decrease shares in a total that counts its own excess. -/
theorem DirectedCall.withinBudget {environment : Environment} {inputs : RebalanceDirected.Inputs}
    {accounts next : Accounts} {components : DecreaseComponents}
    (call : DirectedCall environment inputs accounts next (.decrease components))
    (fits : accounts.stakeMeta.Fits) (later : 0 < environment.clock.epoch) :
    WithinBudget environment inputs accounts components.directedUnstakeLamports := by
  cases call with
  | moved row listed transient adjusted ready applied stakeMeta found read reconciled isReady
      checked pending calculated applying updated result =>
      subst ready
      have decreased := RebalanceDirected.calculate_decrease calculated
      have epoch := (stateChecks_eq_ok.mp checked).2.2.1
      simp only [RebalanceDirected.flagCompletion_stakeMeta] at decreased pending
      have bounds := Directed.decrease_bounds (fits.adjust reconciled _)
        (by
          intro excess processed
          apply pending
          rw [processed, ← epoch]
          exact ⟨rfl, later, by omega⟩)
        decreased
      rw [RebalanceDirected.adjust_total reconciled] at bounds
      refine ⟨bounds.1, adjusted, ?_, bounds.2.1⟩
      simp [RebalanceDirected.reconciled, found, read, reconciled]

/-- The condition on a run: directed rebalances happen after the first epoch. -/
def DirectedAfterFirstEpoch (_ledger : BudgetLedger) (transaction : Transaction) : Prop :=
  ∀ inputs, transaction.instruction = .rebalanceDirected inputs →
    0 < transaction.environment.clock.epoch

namespace BudgetLedger

variable {ledger : BudgetLedger} {transaction : Transaction}

theorem charges_withinBudget (sound : ledger.Sound)
    (later : DirectedAfterFirstEpoch ledger transaction) {charge : Charge}
    (charged : charge ∈ transaction.charges ledger.accounts) :
    transaction.charges ledger.accounts = [charge] ∧
      charge.lamports ≤ charge.cap - ledger.accounts.stakeMeta.directedUnstakeTotal ∧
      charge.cap ≤ u64Max := by
  rcases transaction with ⟨environment, instruction⟩
  cases instruction with
  | rebalanceDirected inputs =>
      cases handled : RebalanceDirected.handler environment inputs ledger.accounts with
      | error failure => simp [Transaction.charges, handled] at charged
      | ok outcome =>
          rcases outcome with ⟨next, rebalanceType⟩
          cases rebalanceType with
          | decrease components =>
              have call := RebalanceDirected.directedCall_of_handler handled
              have within := call.withinBudget sound.fits (later inputs rfl)
              simp only [Transaction.charges, handled, RebalanceDirected.chargeOf,
                List.mem_singleton] at charged ⊢
              subst charge
              exact ⟨rfl, within.headroom, RebalanceDirected.unstakeCap_le environment inputs⟩
          | increase lamports =>
              simp [Transaction.charges, handled, RebalanceDirected.chargeOf] at charged
          | none => simp [Transaction.charges, handled, RebalanceDirected.chargeOf] at charged
  | _ => simp [Transaction.charges] at charged

theorem Sound.process {next : Accounts} (sound : ledger.Sound)
    (later : DirectedAfterFirstEpoch ledger transaction)
    (succeeded : transaction.process ledger.accounts = .ok next) :
    (BudgetLedger.mk next (if transaction.renewsBudget ledger.accounts then []
      else transaction.charges ledger.accounts ++ ledger.charges)).Sound := by
  have total := Transaction.process_total sound.typed succeeded
  have fits := Transaction.process_fits sound.fits succeeded
  cases renews : transaction.renewsBudget ledger.accounts with
  | true =>
      simp only [renews, if_true] at total ⊢
      exact ⟨⟨by simp [total], by simp [total]⟩, by simp [total], fits⟩
  | false =>
      simp only [renews, Bool.false_eq_true, if_false] at total ⊢
      have sum := sound.balanced.total
      have capped := sound.balanced.capped
      have typed := sound.typed
      cases charged : transaction.charges ledger.accounts with
      | nil =>
          simp only [charged, List.map_nil, List.sum_nil, saturatingAdd] at total
          refine ⟨⟨?_, ?_⟩, ?_, fits⟩
          · simp only [List.nil_append]
            omega
          · simp only [List.nil_append]
            omega
          · simp only
            omega
      | cons charge rest =>
          have member : charge ∈ transaction.charges ledger.accounts := by simp [charged]
          rcases charges_withinBudget sound later member with ⟨single, headroom, bounded⟩
          rw [single] at charged
          cases charged
          simp only [single, List.map_cons, List.map_nil, List.sum_cons, List.sum_nil,
            saturatingAdd] at total
          refine ⟨⟨?_, ?_⟩, ?_, fits⟩
          · simp only [List.cons_append, List.nil_append, List.map_cons, List.sum_cons]
            omega
          · simp only [List.cons_append, List.nil_append, List.map_cons, List.foldr_cons]
            omega
          · simp only
            omega

theorem Sound.step (sound : ledger.Sound)
    (later : DirectedAfterFirstEpoch ledger transaction) : (ledger.step transaction).Sound := by
  cases processed : transaction.process ledger.accounts with
  | ok next =>
      have reached := sound.process later processed
      simpa only [BudgetLedger.step, execute, processed, Outcome.commit_ok] using reached
  | error failure =>
      rcases transaction.failed_charges processed with ⟨keeps, uncharged⟩
      simpa only [BudgetLedger.step, execute, processed, Outcome.commit_error, keeps, uncharged,
        Bool.false_eq_true, if_false, List.nil_append] using sound

end BudgetLedger

/-- Every directed decrease stays within the budget its call leaves, and the total
is the sum of the decreases since it was last cleared, below the largest cap. -/
theorem run_directed_within_cap {start : BudgetLedger} (uncharged : start.charges = [])
    (cleared : start.accounts.stakeMeta.directedUnstakeTotal = 0)
    (fits : start.accounts.stakeMeta.Fits) {transactions : List Transaction}
    (later : EveryStep BudgetLedger.step DirectedAfterFirstEpoch start transactions) :
    EveryStep BudgetLedger.step (fun ledger transaction => ∀ inputs next components,
        transaction.instruction = .rebalanceDirected inputs →
        RebalanceDirected.handler transaction.environment inputs ledger.accounts =
          .ok (next, .decrease components) →
        WithinBudget transaction.environment inputs ledger.accounts
          components.directedUnstakeLamports) start transactions ∧
      ∀ ledger ∈ visited BudgetLedger.step start transactions, ledger.Balanced := by
  have sound : start.Sound :=
    ⟨⟨by simp [cleared, uncharged], by simp [cleared]⟩, by simp [cleared], fits⟩
  constructor
  · apply everyStep_of_invariant BudgetLedger.Sound _ _ sound later
    · intro ledger transaction sound later
      exact sound.step later
    · intro ledger transaction sound later inputs next components instruction handled
      exact (RebalanceDirected.directedCall_of_handler handled).withinBudget sound.fits
        (later inputs instruction)
  · intro ledger member
    have reached := visited_invariant BudgetLedger.Sound
      (fun ledger transaction sound later => BudgetLedger.Sound.step sound later) sound later
      ledger member
    exact reached.balanced

/-! A pool of one validator that is given 1000 lamports of directed stake in epoch
1 and loses them in epoch 2. The next cycle starts in epoch 10. -/

def budgetEnvironment (epoch activeLamports : Nat) : Environment where
  clock := ⟨epoch, 1000 * epoch⟩
  epochSchedule := .withoutWarmup 1000
  config := ⟨.fixture, false⟩
  validatorList := ⟨.validatorList, [⟨activeLamports, 0, 0, .active, 1⟩], []⟩

def budgetStart : Accounts := ⟨ReallocState.initialState 1 10 0, .initial⟩

def budgetInputs : RebalanceDirected.Inputs where
  directedStakeMetaIndex := 0
  voteAccount := 1
  poolTotalLamports := 20000
  reserveLamports := 5000
  minimumDelegation := 1
  stakeRent := 1
  invoke := fun _ => .ok ()

def budgetTransactions : List Transaction :=
  [⟨budgetEnvironment 1 0, .epochMaintenance 1 none⟩,
    ⟨budgetEnvironment 1 0, .copyDirectedStakeTargets 1 1000 0⟩,
    ⟨budgetEnvironment 1 0, .rebalanceDirected budgetInputs⟩,
    ⟨budgetEnvironment 2 1000, .epochMaintenance 2 none⟩,
    ⟨budgetEnvironment 2 1000, .copyDirectedStakeTargets 1 0 0⟩,
    ⟨budgetEnvironment 2 1000, .rebalanceDirected budgetInputs⟩]

theorem run_directed_within_cap_oneTarget :
    (run BudgetLedger.step ⟨budgetStart, []⟩ budgetTransactions).charges = [⟨1000, 20000⟩] ∧
      ∀ ledger ∈ visited BudgetLedger.step ⟨budgetStart, []⟩ budgetTransactions,
        ledger.Balanced := by
  refine ⟨by decide +kernel, ?_⟩
  have fits : budgetStart.stakeMeta.Fits := fun _ => Nat.zero_le _
  apply (run_directed_within_cap rfl rfl fits _).2
  simp [budgetTransactions, budgetEnvironment, EveryStep, DirectedAfterFirstEpoch]

/-! ## Renewal at the start of a cycle -/

/-- The accounts and the epochs at which maintenance has completed. -/
structure MaintenanceLog where
  accounts : Accounts
  completed : List Nat

namespace MaintenanceLog

def step (log : MaintenanceLog) (transaction : Transaction) : MaintenanceLog where
  accounts := execute log.accounts transaction
  completed :=
    if transaction.completesMaintenance log.accounts then
      transaction.environment.clock.epoch :: log.completed
    else
      log.completed

/-- The transaction is the first maintenance to complete at or past the epoch the
next cycle starts. -/
structure OpensCycle (log : MaintenanceLog) (transaction : Transaction) : Prop where
  completes : transaction.completesMaintenance log.accounts = true
  due : log.accounts.state.nextCycleEpoch ≤ transaction.environment.clock.epoch
  first : ∀ epoch ∈ log.completed, epoch < log.accounts.state.nextCycleEpoch

/-- The budget is full once a cycle is open, and untouched by any maintenance
before the cycle is due. -/
structure RenewsBudget (log : MaintenanceLog) (transaction : Transaction) : Prop where
  renewed : log.OpensCycle transaction →
    (execute log.accounts transaction).stakeMeta.directedUnstakeTotal = 0
  kept : ∀ lastUpdateEpoch toRemove,
    transaction.instruction = .epochMaintenance lastUpdateEpoch toRemove →
    transaction.environment.clock.epoch < log.accounts.state.nextCycleEpoch →
    (execute log.accounts transaction).stakeMeta.directedUnstakeTotal =
      log.accounts.stakeMeta.directedUnstakeTotal

/-- A maintenance that opens a cycle runs in the very epoch the cycle is due, or
finds nothing charged. -/
def OpensOnTime (log : MaintenanceLog) (transaction : Transaction) : Prop :=
  log.OpensCycle transaction →
    transaction.environment.clock.epoch = log.accounts.state.nextCycleEpoch ∨
      log.accounts.stakeMeta.directedUnstakeTotal = 0

theorem execute_total_of_completes {transaction : Transaction} {accounts : Accounts}
    (completes : transaction.completesMaintenance accounts = true) :
    (execute accounts transaction).stakeMeta.directedUnstakeTotal =
      if transaction.environment.clock.epoch = accounts.state.nextCycleEpoch then 0
      else accounts.stakeMeta.directedUnstakeTotal := by
  unfold Transaction.completesMaintenance at completes
  split at completes
  case h_1 lastUpdateEpoch toRemove next instruction processed =>
      have handled := processed
      simp only [Transaction.process, instruction] at handled
      simp [execute, processed, EpochMaintenance.handler_total handled, completes]
  case h_2 => cases completes

theorem execute_total_of_early {transaction : Transaction} {accounts : Accounts}
    {lastUpdateEpoch : Nat} {toRemove : Option Nat}
    (instruction : transaction.instruction = .epochMaintenance lastUpdateEpoch toRemove)
    (early : transaction.environment.clock.epoch < accounts.state.nextCycleEpoch) :
    (execute accounts transaction).stakeMeta.directedUnstakeTotal =
      accounts.stakeMeta.directedUnstakeTotal := by
  rcases execute_cases accounts transaction with unchanged | processed
  · rw [unchanged]
  · simp only [Transaction.process, instruction] at processed
    rw [EpochMaintenance.handler_total processed, if_neg]
    intro both
    omega

theorem renewsBudget_iff (log : MaintenanceLog) (transaction : Transaction) :
    log.RenewsBudget transaction ↔ log.OpensOnTime transaction := by
  constructor
  · intro renews opens
    have renewed := renews.renewed opens
    rw [execute_total_of_completes opens.completes] at renewed
    split at renewed
    case isTrue onTime => exact .inl onTime
    case isFalse => exact .inr renewed
  · intro onTime
    constructor
    case renewed =>
        intro opens
        rw [execute_total_of_completes opens.completes]
        split
        case isTrue => rfl
        case isFalse missed => exact (onTime opens).resolve_left missed
    case kept =>
        intro lastUpdateEpoch toRemove instruction early
        exact execute_total_of_early instruction early

end MaintenanceLog

/-- The budget is renewed throughout a run exactly when no cycle with charges is
opened after the epoch it was due. -/
theorem run_renewsBudget_iff (start : MaintenanceLog) (transactions : List Transaction) :
    EveryStep MaintenanceLog.step MaintenanceLog.RenewsBudget start transactions ↔
      EveryStep MaintenanceLog.step MaintenanceLog.OpensOnTime start transactions := by
  constructor
  · apply EveryStep.mono
    intro log transaction
    exact (MaintenanceLog.renewsBudget_iff log transaction).mp
  · apply EveryStep.mono
    intro log transaction
    exact (MaintenanceLog.renewsBudget_iff log transaction).mpr

def budgetLog : MaintenanceLog := run MaintenanceLog.step ⟨budgetStart, []⟩ budgetTransactions

def lateMaintenance : Transaction := ⟨budgetEnvironment 11 1000, .epochMaintenance 11 none⟩

/-- Epoch 10, in which the next cycle is due, passes without maintenance. -/
theorem not_run_renewsBudget :
    initialAccounts ⟨0, 0⟩ (budgetEnvironment 0 0).config (budgetEnvironment 0 0).validatorList =
        .ok budgetStart ∧
      ¬EveryStep MaintenanceLog.step MaintenanceLog.RenewsBudget ⟨budgetStart, []⟩
        (budgetTransactions ++ [⟨budgetEnvironment 11 1000, .epochMaintenance 11 none⟩]) := by
  refine ⟨rfl, fun renews => ?_⟩
  rw [EveryStep.append] at renews
  have facts : lateMaintenance.completesMaintenance budgetLog.accounts = true ∧
      budgetLog.accounts.state.nextCycleEpoch ≤ 11 ∧
      (∀ epoch ∈ budgetLog.completed, epoch < budgetLog.accounts.state.nextCycleEpoch) ∧
      (execute budgetLog.accounts lateMaintenance).stakeMeta.directedUnstakeTotal ≠ 0 := by
    decide +kernel
  rcases facts with ⟨completes, due, first, charged⟩
  have opens : budgetLog.OpensCycle lateMaintenance := ⟨completes, due, first⟩
  have late : budgetLog.RenewsBudget lateMaintenance := renews.2.1
  exact charged (late.renewed opens)

end Stakenet.Steward

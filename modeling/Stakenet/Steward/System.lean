import Stakenet.Foundation.Execution
import Stakenet.Steward.Maintenance

/-! The Steward program as a machine: transactions, their effect on the two
accounts, and runs. A failing transaction leaves the accounts as they were. -/

namespace Stakenet.Steward

inductive Instruction
  | computeScore (inputs : ComputeScore.Inputs)
  | computeDelegations
  | idle
  | computeInstantUnstake (inputs : ComputeInstantUnstake.Inputs)
  | rebalance (inputs : Rebalance.Inputs)
  | rebalanceDirected (inputs : RebalanceDirected.Inputs)
  | epochMaintenance (lastUpdateEpoch : Nat) (validatorIndexToRemove : Option Nat)
  | instantRemoveValidator (lastUpdateEpoch validatorIndexToRemove : Nat)
  | adminMarkForRemoval (validatorListIndex : Nat) (markForRemoval immediate : Bool)
  | autoAddValidatorToPool (eligibility invoke : Result Unit)
  | addValidatorToPool (invoke : Result Unit)
  | resetStewardState
  | resetValidatorLamportBalances
  | copyDirectedStakeTargets (votePubkey : Pubkey) (targetLamports validatorListIndex : Nat)
  | syncDirectedStakeLamports
  | migrateDirectedToAlgorithmic

/-- The six permissionless instructions that advance the state machine. -/
def Instruction.isCrank : Instruction → Bool
  | .computeScore _ => true
  | .computeDelegations => true
  | .idle => true
  | .computeInstantUnstake _ => true
  | .rebalance _ => true
  | .rebalanceDirected _ => true
  | _ => false

/-- The two instructions that bring a validator into the pool. -/
def Instruction.addsValidator : Instruction → Bool
  | .autoAddValidatorToPool _ _ => true
  | .addValidatorToPool _ => true
  | _ => false

/-- The row an instruction asks to remove. -/
def Instruction.removedIndex : Instruction → Option Nat
  | .epochMaintenance _ validatorIndexToRemove => validatorIndexToRemove
  | .instantRemoveValidator _ validatorIndexToRemove => some validatorIndexToRemove
  | _ => none

structure Transaction where
  environment : Environment
  instruction : Instruction

namespace Accounts

/-- An instruction that writes the state account only. -/
def withState (accounts : Accounts) (outcome : Result StewardStateV2) : Result Accounts := do
  return { accounts with state := ← outcome }

/-- An instruction that writes the directed stake account only. -/
def withStakeMeta (accounts : Accounts) (outcome : Result DirectedStakeMeta) :
    Result Accounts := do
  return { accounts with stakeMeta := ← outcome }

@[simp] theorem withState_eq_ok {accounts next : Accounts} {outcome : Result StewardStateV2} :
    accounts.withState outcome = .ok next ↔
      outcome = .ok next.state ∧ next.stakeMeta = accounts.stakeMeta := by
  rcases next with ⟨state, stakeMeta⟩
  cases outcome <;> simp [withState, eq_comm]

@[simp] theorem withStakeMeta_eq_ok {accounts next : Accounts}
    {outcome : Result DirectedStakeMeta} :
    accounts.withStakeMeta outcome = .ok next ↔
      outcome = .ok next.stakeMeta ∧ next.state = accounts.state := by
  rcases next with ⟨state, stakeMeta⟩
  cases outcome <;> simp [withStakeMeta, eq_comm, and_comm]

end Accounts

namespace Transaction

def process (transaction : Transaction) (accounts : Accounts) : Result Accounts :=
  let environment := transaction.environment
  let state := accounts.state
  let stakeMeta := accounts.stakeMeta
  match transaction.instruction with
  | .computeScore inputs => accounts.withState (ComputeScore.handler environment inputs state)
  | .computeDelegations => accounts.withState (ComputeDelegations.handler environment state)
  | .idle => accounts.withState (Idle.handler environment state)
  | .computeInstantUnstake inputs =>
      accounts.withState (ComputeInstantUnstake.handler environment inputs state)
  | .rebalance inputs =>
      accounts.withState (Prod.fst <$> Rebalance.handler environment inputs stakeMeta state)
  | .rebalanceDirected inputs =>
      Prod.fst <$> RebalanceDirected.handler environment inputs accounts
  | .epochMaintenance lastUpdateEpoch validatorIndexToRemove =>
      EpochMaintenance.handler environment lastUpdateEpoch validatorIndexToRemove accounts
  | .instantRemoveValidator lastUpdateEpoch validatorIndexToRemove =>
      InstantRemoveValidator.handler environment lastUpdateEpoch validatorIndexToRemove accounts
  | .adminMarkForRemoval validatorListIndex markForRemoval immediate =>
      accounts.withState
        (AdminMarkForRemoval.handler validatorListIndex markForRemoval immediate state)
  | .autoAddValidatorToPool eligibility invoke =>
      accounts.withState (AutoAddValidatorToPool.handler environment eligibility invoke state)
  | .addValidatorToPool invoke =>
      accounts.withState (AddValidatorToPool.handler environment invoke state)
  | .resetStewardState => accounts.withState (ResetStewardState.handler environment state)
  | .resetValidatorLamportBalances =>
      accounts.withState (.ok (ResetValidatorLamportBalances.handler state))
  | .copyDirectedStakeTargets votePubkey targetLamports validatorListIndex =>
      accounts.withStakeMeta (CopyDirectedStakeTargets.handler environment.clock
        environment.validatorList votePubkey targetLamports validatorListIndex stakeMeta)
  | .syncDirectedStakeLamports =>
      accounts.withStakeMeta
        (SyncDirectedStakeLamports.handler environment.validatorList stakeMeta)
  | .migrateDirectedToAlgorithmic =>
      accounts.withStakeMeta
        (.ok (MigrateDirectedToAlgorithmic.handler environment.clock stakeMeta))

end Transaction

/-- One transaction, successful or not. -/
def execute (accounts : Accounts) (transaction : Transaction) : Accounts :=
  Outcome.commit accounts (transaction.process accounts)

theorem execute_cases (accounts : Accounts) (transaction : Transaction) :
    execute accounts transaction = accounts ∨
      transaction.process accounts = .ok (execute accounts transaction) :=
  Outcome.commit_cases accounts (transaction.process accounts)

/-- The accounts left by `realloc_state` and the initialisation of the directed
stake account. -/
def initialAccounts (clock : Clock) (config : Config) (validatorList : ValidatorList) :
    Result Accounts := do
  return { state := ← ReallocState.handler clock config validatorList, stakeMeta := .initial }

end Stakenet.Steward

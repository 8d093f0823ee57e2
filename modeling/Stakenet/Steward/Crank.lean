import Stakenet.Steward.InstantUnstake
import Stakenet.Steward.Rebalance
import Stakenet.Steward.DirectedDelegation

/-! The crank instructions: the handlers that advance the state machine.

A handler returns the accounts it leaves. Calls into the stake pool program are
arguments: their outcome decides whether the transaction goes through. -/

namespace Stakenet.Steward

/-- The sysvars and shared accounts a crank instruction reads. -/
structure Environment where
  clock : Clock
  epochSchedule : EpochSchedule
  config : Config
  validatorList : ValidatorList

namespace Environment

def maybeTransition (environment : Environment) (state : StewardStateV2) :
    Result (StewardStateV2 × Option StateTransition) :=
  Steward.maybeTransition state environment.clock environment.config.parameters
    environment.epochSchedule

end Environment

/-- The state account has one row for each entry of the validator list. -/
def requireListMatches (environment : Environment) (state : StewardStateV2) : Result Unit := do
  let validatorsInList ← getValidatorListLength environment.validatorList
  require (state.numPoolValidators + state.validatorsAdded = validatorsInList)
    .listStateMismatch

/-- Checks called before any cranking state function. -/
def stateChecks (environment : Environment) (state : StewardStateV2)
    (expectedState : Option StewardStateEnum) : Result Unit := do
  require (environment.config.paused = false) .stateMachinePaused
  require (∀ expected ∈ expectedState, state.stateTag = expected) .invalidState
  require (environment.clock.epoch = state.currentEpoch) .epochMaintenanceNotComplete
  require (state.validatorsForImmediateRemoval.count = 0) .validatorsNeedToBeRemoved
  requireListMatches environment state

/-! ## Scores, delegations and the idle state -/

namespace ComputeScore

structure Inputs where
  validatorListIndex : Nat
  validatorHistory : ValidatorHistory
  clusterHistory : ClusterHistory
  validatorScore : Result ScoreComponents

/-- The part of the handler after the machine is in `ComputeScores`. -/
def score (environment : Environment) (inputs : Inputs) (state : StewardStateV2) :
    Result StewardStateV2 := do
  require (state.stateTag = .computeScores) .invalidState
  let numPoolValidators ← getValidatorListLength environment.validatorList
  let (scored, _) ← state.computeScore environment.clock environment.epochSchedule
    inputs.validatorHistory inputs.validatorListIndex inputs.clusterHistory
    environment.config numPoolValidators inputs.validatorScore
  let (next, _) ← environment.maybeTransition scored
  return next

def handler (environment : Environment) (inputs : Inputs) (state : StewardStateV2) :
    Result StewardStateV2 := do
  stateChecks environment state none
  let entry ← getValidatorStakeInfoAtIndex environment.validatorList
    inputs.validatorListIndex
  require (entry.voteAccountAddress = inputs.validatorHistory.voteAccount)
    .validatorNotInList
  if state.stateTag = .computeScores then
    score environment inputs state
  else
    -- Cranking may be stuck in an earlier state at the start of a cycle.
    let (forced, event) ← environment.maybeTransition state
    if event.isSome then return forced else score environment inputs forced

end ComputeScore

namespace ComputeDelegations

def handler (environment : Environment) (state : StewardStateV2) : Result StewardStateV2 := do
  stateChecks environment state (some .computeDelegations)
  let delegated ← state.computeDelegations environment.clock.epoch environment.config
  let (next, _) ← environment.maybeTransition delegated
  return next

end ComputeDelegations

namespace Idle

def handler (environment : Environment) (state : StewardStateV2) : Result StewardStateV2 := do
  stateChecks environment state (some .idle)
  let (next, _) ← environment.maybeTransition state
  return next

end Idle

/-! ## Instant unstake -/

namespace ComputeInstantUnstake

structure Inputs where
  validatorListIndex : Nat
  validatorHistory : ValidatorHistory
  clusterHistory : ClusterHistory
  instantUnstakeValidator : Result Bool

def handler (environment : Environment) (inputs : Inputs) (state : StewardStateV2) :
    Result StewardStateV2 := do
  let (moved, event) ← environment.maybeTransition state
  if event.isSome then
    return moved
  else
    stateChecks environment moved (some .computeInstantUnstake)
    let entry ← getValidatorStakeInfoAtIndex environment.validatorList
      inputs.validatorListIndex
    require (entry.voteAccountAddress = inputs.validatorHistory.voteAccount)
      .validatorNotInList
    let (computed, _) ← moved.computeInstantUnstake environment.clock
      environment.epochSchedule inputs.validatorHistory inputs.validatorListIndex
      inputs.clusterHistory environment.config inputs.instantUnstakeValidator
    let (next, _) ← environment.maybeTransition computed
    return next

end ComputeInstantUnstake

/-! ## Undirected rebalance -/

/-- What the data of a stake account decodes to. -/
inductive StakeAccount
  | malformed
  | notDelegated
  | stake (delegatedLamports : Nat)
  deriving DecidableEq, Repr

namespace Rebalance

structure Inputs where
  validatorListIndex : Nat
  validatorHistory : ValidatorHistory
  voteAccountOwnedByVoteProgram : Bool
  stakeAccount : StakeAccount
  transientStakeAccount : StakeAccount
  poolTotalLamports : Nat
  reserveLamports : Nat
  minimumDelegation : Nat
  stakeRent : Nat
  /-- Outcome of the call into the stake pool program. -/
  invoke : RebalanceType → Result Unit

def activeLamports : StakeAccount → Result Nat
  | .malformed => .error .external
  | .notDelegated => fail .invalidStakeState
  | .stake delegatedLamports => .ok delegatedLamports

def transientLamports : StakeAccount → Nat
  | .stake delegatedLamports => delegatedLamports
  | _ => 0

/-- The reserve a rebalance may draw on, under the ceiling on undirected stake. -/
def cappedReserve (reserveLamports undirectedPoolLamports stakeCeiling : Nat) : Nat :=
  if stakeCeiling ≤ undirectedPoolLamports then 0
  else min reserveLamports (stakeCeiling - undirectedPoolLamports)

/-- The arguments of `StewardStateV2::rebalance`. -/
def call (environment : Environment) (inputs : Inputs) (stakeMeta : DirectedStakeMeta)
    (stakeAccountActiveLamports : Nat) : RebalanceCall :=
  let undirectedPoolLamports := inputs.poolTotalLamports - stakeMeta.totalStakedLamports
  { stakeMeta := stakeMeta
    currentEpoch := environment.clock.epoch
    index := inputs.validatorListIndex
    validatorList := environment.validatorList
    stakePoolLamports := undirectedPoolLamports
    reserveLamports := cappedReserve inputs.reserveLamports undirectedPoolLamports
      environment.config.parameters.undirectedStakeCeilingLamports
    stakeAccountCurrentLamports := stakeAccountActiveLamports - inputs.minimumDelegation
    minimumDelegation := inputs.minimumDelegation
    stakeRent := inputs.stakeRent
    parameters := environment.config.parameters }

/-- `None` makes no call. -/
def invokeStakePool (inputs : Inputs) : RebalanceType → Result Unit
  | .none => .ok ()
  | rebalanceType => inputs.invoke rebalanceType

/-- A closed vote account is tolerated only for a validator marked for removal. -/
def requireVoteAccount (inputs : Inputs) (state : StewardStateV2) : Result Unit :=
  if inputs.voteAccountOwnedByVoteProgram then
    .ok ()
  else do
    let markedForRemoval ← state.validatorsToRemove.get inputs.validatorListIndex
    require (markedForRemoval = true) .validatorNeedsToBeMarkedForRemoval

/-- The part of the handler after the state checks. A validator with transient
stake is marked as processed and left alone. -/
def move (environment : Environment) (inputs : Inputs) (stakeMeta : DirectedStakeMeta)
    (state : StewardStateV2) : Result (StewardStateV2 × RebalanceType) := do
  let entry ← getValidatorStakeInfoAtIndex environment.validatorList
    inputs.validatorListIndex
  require (entry.voteAccountAddress = inputs.validatorHistory.voteAccount)
    .validatorNotInList
  requireVoteAccount inputs state
  let stakeAccountActiveLamports ← activeLamports inputs.stakeAccount
  if 0 < transientLamports inputs.transientStakeAccount then
    return (← state.markProgress inputs.validatorListIndex, .none)
  else
    let (rebalanced, rebalanceType) ←
      state.rebalance (call environment inputs stakeMeta stakeAccountActiveLamports)
    invokeStakePool inputs rebalanceType
    let (next, _) ← environment.maybeTransition rebalanced
    return (next, rebalanceType)

/-- Returns the new state and the stake movement. The account constraints read
the list entry before the handler runs. -/
def handler (environment : Environment) (inputs : Inputs) (stakeMeta : DirectedStakeMeta)
    (state : StewardStateV2) : Result (StewardStateV2 × RebalanceType) := do
  let _ ← getValidatorStakeInfoAtIndex environment.validatorList inputs.validatorListIndex
  let (moved, event) ← environment.maybeTransition state
  if event.isSome then
    return (moved, .none)
  else
    stateChecks environment moved (some .rebalance)
    move environment inputs stakeMeta moved

end Rebalance

/-! ## Directed rebalance -/

namespace RebalanceDirected

structure Inputs where
  directedStakeMetaIndex : Nat
  voteAccount : Pubkey
  poolTotalLamports : Nat
  reserveLamports : Nat
  minimumDelegation : Nat
  stakeRent : Nat
  /-- Outcome of the call into the stake pool program. -/
  invoke : RebalanceType → Result Unit

/-- The scan of the validator list for a vote key. -/
def findVoteAccount (validatorList : ValidatorList) (votePubkey : Pubkey) : Option Nat :=
  validatorList.entries.findIdx? fun entry => entry.voteAccountAddress == votePubkey

/-- Sets the flag when no target is left for this epoch. -/
def flagCompletion (clock : Clock) (accounts : Accounts) : Accounts :=
  if accounts.stakeMeta.allTargetsRebalancedForEpoch clock.epoch then
    { accounts with state := accounts.state.setFlag rebalanceDirectedCompleteFlag }
  else
    accounts

/-- A target whose validator is not in the list counts as processed. -/
def skipMissing (environment : Environment) (index : Nat) (accounts : Accounts) :
    Result Accounts := do
  let stakeMeta ←
    accounts.stakeMeta.updateStakedLastUpdatedEpoch index environment.clock.epoch
  let flagged := flagCompletion environment.clock { accounts with stakeMeta := stakeMeta }
  let (state, _) ← environment.maybeTransition flagged.state
  return { flagged with state := state }

/-- Decrease first, then increase; an error of the decrease calculation leads on
to the increase calculation, a panic does not. -/
def calculate (environment : Environment) (inputs : Inputs) (accounts : Accounts) :
    Result RebalanceType := do
  let target ← readRow accounts.stakeMeta.targets inputs.directedStakeMetaIndex
  let directedUnstakeCapLamports :=
    min (inputs.poolTotalLamports *
      environment.config.parameters.directedStakeUnstakeCapBps) u64Max / 10000
  match Directed.decreaseStakeCalculation accounts.state accounts.stakeMeta
      inputs.directedStakeMetaIndex target.totalStakedLamports directedUnstakeCapLamports
      accounts.stakeMeta.directedUnstakeTotal inputs.minimumDelegation with
  | .ok (.decrease components) => return .decrease components
  | .error .panicked => .error .panicked
  | _ =>
      Directed.increaseStakeCalculation accounts.state accounts.stakeMeta
        inputs.directedStakeMetaIndex target.totalStakedLamports inputs.reserveLamports
        inputs.minimumDelegation inputs.stakeRent

/-- An untracked balance keeps the row mirror of the directed stake as well. -/
def applyDecrease (accounts : Accounts) (index validatorListIndex lamports : Nat) :
    Result Accounts := do
  let state := accounts.state
  let stakeMeta ← accounts.stakeMeta.subtractFromTotalStakedLamports index lamports
  let balance ← readRow state.validatorLamportBalances validatorListIndex
  if balance ≠ lamportBalanceDefault then
    let directed ← readRow stakeMeta.directedStakeLamports validatorListIndex
    return {
      state := { state with
        validatorLamportBalances :=
          ← writeRow state.validatorLamportBalances validatorListIndex (balance - lamports) }
      stakeMeta := { stakeMeta with
        directedStakeLamports :=
          ← writeRow stakeMeta.directedStakeLamports validatorListIndex
            (directed - lamports) } }
  else
    return { accounts with stakeMeta := stakeMeta }

/-- An untracked balance starts at zero. -/
def applyIncrease (accounts : Accounts) (index validatorListIndex lamports : Nat) :
    Result Accounts := do
  let state := accounts.state
  let balance ← readRow state.validatorLamportBalances validatorListIndex
  let balance := if balance = lamportBalanceDefault then 0 else balance
  let stakeMeta ← accounts.stakeMeta.addToTotalStakedLamports index lamports
  let directed ← readRow stakeMeta.directedStakeLamports validatorListIndex
  return {
    state := { state with
      validatorLamportBalances :=
        ← writeRow state.validatorLamportBalances validatorListIndex
          (← checkedAdd balance lamports) }
    stakeMeta := { stakeMeta with
      directedStakeLamports :=
        ← writeRow stakeMeta.directedStakeLamports validatorListIndex
          (saturatingAdd directed lamports) } }

/-- The call into the stake pool and the accounting that follows it. -/
def apply (inputs : Inputs) (validatorListIndex : Nat) (accounts : Accounts) :
    RebalanceType → Result Accounts
  | .decrease components => do
      inputs.invoke (.decrease components)
      let applied ← applyDecrease accounts inputs.directedStakeMetaIndex validatorListIndex
        components.directedUnstakeLamports
      return { applied with
        stakeMeta := { applied.stakeMeta with
          directedUnstakeTotal := saturatingAdd applied.stakeMeta.directedUnstakeTotal
            components.directedUnstakeLamports } }
  | .increase lamports => do
      inputs.invoke (.increase lamports)
      applyIncrease accounts inputs.directedStakeMetaIndex validatorListIndex lamports
  | .none => .ok accounts

/-- The part of the handler after the transition out of the state was tried. -/
def move (environment : Environment) (inputs : Inputs) (validatorListIndex : Nat)
    (accounts : Accounts) : Result (Accounts × RebalanceType) := do
  stateChecks environment accounts.state (some .rebalanceDirected)
  let target ← readRow accounts.stakeMeta.targets inputs.directedStakeMetaIndex
  require (¬(target.stakedLastUpdatedEpoch = environment.clock.epoch ∧
    0 < environment.clock.epoch ∧ 0 < target.totalStakedLamports))
    .validatorAlreadyRebalanced
  let rebalanceType ← calculate environment inputs accounts
  let applied ← apply inputs validatorListIndex accounts rebalanceType
  let stakeMeta ← applied.stakeMeta.updateStakedLastUpdatedEpoch
    inputs.directedStakeMetaIndex environment.clock.epoch
  let flagged := flagCompletion environment.clock { applied with stakeMeta := stakeMeta }
  let (state, _) ← environment.maybeTransition flagged.state
  return ({ flagged with state := state }, rebalanceType)

/-- The handler once the validator is found in the list. -/
def rebalanceFound (environment : Environment) (inputs : Inputs) (validatorListIndex : Nat)
    (accounts : Accounts) : Result (Accounts × RebalanceType) := do
  let (listed, _) ←
    stakeLamportsAtValidatorListIndex environment.validatorList validatorListIndex
  let adjusted ← Directed.adjustDirectedStakeForDepositsAndWithdrawals accounts listed
    validatorListIndex inputs.directedStakeMetaIndex
  require (adjusted.state.stateTag = .rebalanceDirected) .invalidState
  let flagged := flagCompletion environment.clock adjusted
  let (state, event) ← environment.maybeTransition flagged.state
  if event.isSome then
    return ({ flagged with state := state }, .none)
  else
    move environment inputs validatorListIndex { flagged with state := state }

def handler (environment : Environment) (inputs : Inputs) (accounts : Accounts) :
    Result (Accounts × RebalanceType) := do
  let target ← readRow accounts.stakeMeta.targets inputs.directedStakeMetaIndex
  require (target.votePubkey = inputs.voteAccount) .directedStakeVoteAccountMismatch
  requireValidatorList environment.validatorList
  match findVoteAccount environment.validatorList target.votePubkey with
  | none =>
      return (← skipMissing environment inputs.directedStakeMetaIndex accounts, .none)
  | some validatorListIndex =>
      rebalanceFound environment inputs validatorListIndex accounts

end RebalanceDirected

end Stakenet.Steward

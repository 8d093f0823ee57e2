import Stakenet.Foundation.Flow
import Stakenet.Keeper.Basic
import Stakenet.Steward.Maintenance

/-! The loops in which the keeper has marked validators removed, one with every transaction. -/

namespace Stakenet.Keeper

open Steward (Accounts BitMask Environment StewardStateV2)

/-! ## Submissions -/

inductive JitoSendTransactionError
  | exceededRetries
  | transactionError (message : String)
  | rpcSimulateTransactionResult
  deriving DecidableEq, Repr

structure SubmitStats where
  successes : Nat
  errors : Nat
  results : List (Except JitoSendTransactionError Unit)

namespace SubmitStats

/-- `SubmitStats::default()` -/
def empty : SubmitStats := ⟨0, 0, []⟩

def combine (stats other : SubmitStats) : SubmitStats where
  successes := stats.successes + other.successes
  errors := stats.errors + other.errors
  results := stats.results ++ other.results

end SubmitStats

/-- How the submission of a transaction ends. A transaction that is reported as failed may
have been executed all the same. -/
inductive Delivery
  | failed (error : JitoTransactionError)
  | reported (error : JitoSendTransactionError) (landed : Bool)
  | confirmed

/-- `submit_packaged_transactions` for one transaction, of which `executed` is the outcome on
the accounts. A transaction that fails there is rejected by the simulation. -/
def submitPackagedTransactions (delivery : Delivery) (accounts : Accounts)
    (executed : Steward.Result Accounts) : Result (SubmitStats × Accounts) :=
  match delivery, executed with
  | .failed error, _ => .error (.error error)
  | .reported error landed, _ =>
      .ok (⟨0, 1, [.error error]⟩, if landed then Outcome.commit accounts executed else accounts)
  | .confirmed, .error _ => .ok (⟨0, 1, [.error .rpcSimulateTransactionResult]⟩, accounts)
  | .confirmed, .ok next => .ok (⟨1, 0, [.ok ()]⟩, next)

/-- What one iteration meets with. The cluster is not behind the clock of the transaction when
it is asked for the epoch. -/
structure Round where
  environment : Environment
  delivery : Delivery
  stateFetched : Bool
  epochInfo : Except JitoTransactionError Nat
  notBehind : ∀ epoch, epochInfo = .ok epoch → environment.clock.epoch ≤ epoch

/-- Everything but the transaction itself goes well. -/
def Round.Delivers (round : Round) : Prop :=
  round.delivery = .confirmed ∧ round.stateFetched = true ∧ ∃ epoch, round.epochInfo = .ok epoch

/-- `get_steward_state_account(..).await.unwrap()` -/
def Round.getStewardStateAccount (round : Round) (accounts : Accounts) : Result StewardStateV2 :=
  if round.stateFetched then .ok accounts.state else .error .panicked

/-- `client.get_epoch_info().await?.epoch` -/
def Round.getEpoch (round : Round) : Result Nat :=
  round.epochInfo.mapError .error

/-- What a loop meets with. The stake pool was updated before, and is not while the loop runs,
and nobody else writes the steward accounts. How an error is displayed is up to a library. -/
structure Session where
  rounds : Nat → Round
  lastUpdateEpoch : Nat
  display : Steward.Failure → String

/-- The first marked row of `0..length`. -/
def findMarked (describe : Nat → Steward.Failure → String) (mask : BitMask) (length : Nat) :
    Result (Option Nat) :=
  findPosition (fun i => (mask.get i).mapError fun e => .error (.custom (describe i e))) 0 length

/-- `while` with a body that may return from the function. -/
def whileLoop (running : σ → Bool) (stats : σ → SubmitStats)
    (iterate : Nat → σ → Result (Flow σ SubmitStats)) (iteration : Nat) (state : σ) :
    Flow σ (Result SubmitStats) :=
  if running state then
    match iterate iteration state with
    | .error failure => .stop (.error failure)
    | .ok (.stop returned) => .stop (.ok returned)
    | .ok (.next following) => .next following
  else
    .stop (.ok (stats state))

/-! ## Epoch maintenance -/

/-- The variables of `_handle_epoch_maintenance`, and the accounts they were read from. After an
error the loop is left. -/
structure EpochMaintenanceLoop where
  currentEpoch : Nat
  stateEpoch : Nat
  numValidators : Nat
  validatorsToRemove : BitMask
  stats : SubmitStats
  accounts : Accounts
  stateEpoch_eq : stateEpoch = accounts.state.currentEpoch
  numValidators_eq : numValidators = accounts.state.numPoolValidators
  validatorsToRemove_eq : validatorsToRemove = accounts.state.validatorsToRemove
  noErrors : stats.errors = 0

namespace EpochMaintenanceLoop

def read (epoch : Nat) (stats : SubmitStats) (accounts : Accounts)
    (noErrors : stats.errors = 0) : EpochMaintenanceLoop where
  currentEpoch := epoch
  stateEpoch := accounts.state.currentEpoch
  numValidators := accounts.state.numPoolValidators
  validatorsToRemove := accounts.state.validatorsToRemove
  stats := stats
  accounts := accounts
  stateEpoch_eq := rfl
  numValidators_eq := rfl
  validatorsToRemove_eq := rfl
  noErrors := noErrors

def start (epoch : Nat) (accounts : Accounts) : EpochMaintenanceLoop :=
  read epoch .empty accounts rfl

def running (loop : EpochMaintenanceLoop) : Bool := loop.stateEpoch != loop.currentEpoch

/-- `validator_index_to_remove` -/
def scan (session : Session) (loop : EpochMaintenanceLoop) : Result (Option Nat) :=
  let numValidators := loop.numValidators
  findMarked (fun i e =>
    let text := session.display e
    s!"Error fetching bitmask index for removed validator: {i}/{numValidators} - {text}")
    loop.validatorsToRemove numValidators

def iterate (session : Session) (iteration : Nat) (loop : EpochMaintenanceLoop) :
    Result (Flow EpochMaintenanceLoop SubmitStats) := do
  let round := session.rounds iteration
  let validatorIndexToRemove ← loop.scan session
  let (newStats, accounts) ← submitPackagedTransactions round.delivery loop.accounts
    (Steward.EpochMaintenance.handler round.environment session.lastUpdateEpoch
      validatorIndexToRemove loop.accounts)
  let stats := loop.stats.combine newStats
  if failed : 0 < stats.errors then
    return .stop stats
  else
    let _ ← round.getStewardStateAccount accounts
    let epoch ← round.getEpoch
    return .next (read epoch stats accounts (Nat.eq_zero_of_not_pos failed))

/-- `_handle_epoch_maintenance` -/
def body (session : Session) : Nat → EpochMaintenanceLoop →
    Flow EpochMaintenanceLoop (Result SubmitStats) :=
  whileLoop running stats (iterate session)

end EpochMaintenanceLoop

/-! ## Instant removals -/

/-- The variables of `_handle_instant_removal_validators`, and the accounts they were read
from. After an error the loop is left. -/
structure InstantRemovalLoop where
  numValidators : Nat
  validatorsToRemove : BitMask
  stats : SubmitStats
  accounts : Accounts
  numValidators_eq : numValidators = accounts.state.numPoolValidators
  validatorsToRemove_eq : validatorsToRemove = accounts.state.validatorsForImmediateRemoval
  noErrors : stats.errors = 0

namespace InstantRemovalLoop

def read (stats : SubmitStats) (accounts : Accounts) (noErrors : stats.errors = 0) :
    InstantRemovalLoop where
  numValidators := accounts.state.numPoolValidators
  validatorsToRemove := accounts.state.validatorsForImmediateRemoval
  stats := stats
  accounts := accounts
  numValidators_eq := rfl
  validatorsToRemove_eq := rfl
  noErrors := noErrors

def start (accounts : Accounts) : InstantRemovalLoop := read .empty accounts rfl

def running (loop : InstantRemovalLoop) : Bool := loop.validatorsToRemove.count != 0

/-- `validator_index_to_remove`, looked for in a validator list of the given length that was
fetched before the loop. -/
def scan (session : Session) (validators : Nat) (loop : InstantRemovalLoop) :
    Result (Option Nat) :=
  let numValidators := loop.numValidators
  findMarked (fun i e =>
    let text := session.display e
    s!"Error fetching bitmask index for immediate removed validator: {i}/{numValidators} - {text}")
    loop.validatorsToRemove validators

def iterate (session : Session) (validators iteration : Nat) (loop : InstantRemovalLoop) :
    Result (Flow InstantRemovalLoop SubmitStats) := do
  let round := session.rounds iteration
  let validatorIndexToRemove ← unwrap (← loop.scan session validators)
  let (newStats, accounts) ← submitPackagedTransactions round.delivery loop.accounts
    (Steward.InstantRemoveValidator.handler round.environment session.lastUpdateEpoch
      validatorIndexToRemove loop.accounts)
  let stats := loop.stats.combine newStats
  if failed : 0 < stats.errors then
    return .stop stats
  else
    let _ ← round.getStewardStateAccount accounts
    return .next (read stats accounts (Nat.eq_zero_of_not_pos failed))

/-- `_handle_instant_removal_validators` -/
def body (session : Session) (validators : Nat) : Nat → InstantRemovalLoop →
    Flow InstantRemovalLoop (Result SubmitStats) :=
  whileLoop running stats (iterate session validators)

end InstantRemovalLoop

end Stakenet.Keeper

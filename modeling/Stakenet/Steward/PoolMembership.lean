import Stakenet.Foundation.Execution
import Stakenet.Steward.Maintenance

/-! Adding validators to the stake pool and taking them out of it.

The stake pool program is not part of this repository. Its address derivation and
the two instructions that the Steward invokes are parameters, together with what
they are documented to do to the validator list. -/

namespace Stakenet.Steward

/-! ## The stake pool program -/

/-- A full entry of the validator list: the seed of the stake account is read
only where the account address is derived. -/
structure PoolEntry extends ValidatorStakeInfo where
  validatorSeedSuffix : Nat
  deriving DecidableEq, Repr

/-- `Ledger` stands for the accounts that the stake pool program reads and the
Steward does not. A seed of zero is no seed. -/
structure StakePoolProgram (Ledger : Type) where
  findStakeProgramAddress : Pubkey → Nat → Pubkey
  addValidatorToPool : Ledger → List PoolEntry → (voteAccount : Pubkey) → (seed : Nat) →
    (stakeAccount : Pubkey) → Result (List PoolEntry)
  removeValidatorFromPool : Ledger → List PoolEntry → (stakeAccount : Pubkey) →
    Result (List PoolEntry)
  /-- The stake account of a new validator is created by the instruction, so it is
  that of no earlier entry. -/
  add_appends : ∀ {ledger entries voteAccount seed stakeAccount next},
    addValidatorToPool ledger entries voteAccount seed stakeAccount = .ok next →
      ∃ added, next = entries ++ [added] ∧ added.status = .active ∧
        ∀ entry ∈ entries,
          findStakeProgramAddress entry.voteAccountAddress entry.validatorSeedSuffix ≠
            findStakeProgramAddress added.voteAccountAddress added.validatorSeedSuffix
  /-- A removal needs an active validator, and deactivates its entry only. -/
  remove_deactivates : ∀ {ledger entries stakeAccount next},
    removeValidatorFromPool ledger entries stakeAccount = .ok next →
      ∃ index entry status, entries[index]? = some entry ∧
        findStakeProgramAddress entry.voteAccountAddress entry.validatorSeedSuffix =
          stakeAccount ∧
        entry.status = .active ∧ status ≠ .active ∧
        next = entries.set index { entry with status := status }

namespace StakePoolProgram

variable {Ledger : Type}

def stakeAddressOf (program : StakePoolProgram Ledger) (entry : PoolEntry) : Pubkey :=
  program.findStakeProgramAddress entry.voteAccountAddress entry.validatorSeedSuffix

/-- No two entries share a stake account. -/
def Distinct (program : StakePoolProgram Ledger) (entries : List PoolEntry) : Prop :=
  entries.Pairwise fun first second =>
    program.stakeAddressOf first ≠ program.stakeAddressOf second

variable {program : StakePoolProgram Ledger}

theorem Distinct.index_eq {entries : List PoolEntry} (distinct : program.Distinct entries)
    {first second : Nat} {firstEntry secondEntry : PoolEntry}
    (atFirst : entries[first]? = some firstEntry) (atSecond : entries[second]? = some secondEntry)
    (same : program.stakeAddressOf firstEntry = program.stakeAddressOf secondEntry) :
    first = second := by
  rcases List.getElem?_eq_some_iff.mp atFirst with ⟨firstBound, rfl⟩
  rcases List.getElem?_eq_some_iff.mp atSecond with ⟨secondBound, rfl⟩
  have ordered := List.pairwise_iff_getElem.mp distinct
  rcases Nat.lt_trichotomy first second with below | equal | above
  · exact absurd same (ordered _ _ firstBound secondBound below)
  · exact equal
  · exact absurd same.symm (ordered _ _ secondBound firstBound above)

theorem Distinct.append_of_add {ledger : Ledger} {entries next : List PoolEntry}
    {voteAccount stakeAccount : Pubkey} {seed : Nat} (distinct : program.Distinct entries)
    (added : program.addValidatorToPool ledger entries voteAccount seed stakeAccount = .ok next) :
    program.Distinct next := by
  rcases program.add_appends added with ⟨entry, rfl, _, fresh⟩
  refine List.pairwise_append.mpr ⟨distinct, List.pairwise_singleton _ _, ?_⟩
  intro earlier member other isAdded
  rw [List.mem_singleton.mp isAdded]
  exact fresh earlier member

theorem Distinct.set_of_remove {ledger : Ledger} {entries next : List PoolEntry}
    {stakeAccount : Pubkey} (distinct : program.Distinct entries)
    (removed : program.removeValidatorFromPool ledger entries stakeAccount = .ok next) :
    program.Distinct next := by
  rcases program.remove_deactivates removed with
    ⟨index, entry, status, found, _, _, _, rfl⟩
  -- The address of an entry does not depend on its status.
  have addresses : (entries.set index { entry with status := status }).map
      program.stakeAddressOf = entries.map program.stakeAddressOf := by
    rcases List.getElem?_eq_some_iff.mp found with ⟨bounded, rfl⟩
    have mapped : index < (entries.map program.stakeAddressOf).length := by simpa using bounded
    have unchanged : program.stakeAddressOf { entries[index] with status := status } =
        (entries.map program.stakeAddressOf)[index] := by
      rw [List.getElem_map]
      rfl
    rw [List.map_set, unchanged, List.set_getElem_self]
  have separated := List.pairwise_map.mpr distinct
  rw [← addresses] at separated
  exact List.pairwise_map.mp separated

end StakePoolProgram

/-- The validator list of the pool as the stake pool program keeps it. -/
structure StakePool (program : StakePoolProgram Ledger) where
  accountType : AccountType
  entries : List PoolEntry
  distinct : program.Distinct entries

namespace StakePool

variable {Ledger : Type} {program : StakePoolProgram Ledger}

/-- What the Steward reads of the list. -/
def validatorList (pool : StakePool program) : ValidatorList where
  accountType := pool.accountType
  entries := pool.entries.map PoolEntry.toValidatorStakeInfo
  leftover := []

def entryAt (pool : StakePool program) (index : Nat) : Result PoolEntry := do
  requireValidatorList pool.validatorList
  match pool.entries[index]? with
  | some entry => .ok entry
  | none => .error .external

def addValidator (pool : StakePool program) (ledger : Ledger) (voteAccount : Pubkey) (seed : Nat)
    (stakeAccount : Pubkey) : Result (StakePool program) :=
  match added : program.addValidatorToPool ledger pool.entries voteAccount seed stakeAccount with
  | .ok entries =>
      .ok { pool with entries := entries, distinct := pool.distinct.append_of_add added }
  | .error failure => .error failure

def removeValidator (pool : StakePool program) (ledger : Ledger) (stakeAccount : Pubkey) :
    Result (StakePool program) :=
  match removed : program.removeValidatorFromPool ledger pool.entries stakeAccount with
  | .ok entries =>
      .ok { pool with entries := entries, distinct := pool.distinct.set_of_remove removed }
  | .error failure => .error failure

end StakePool

/-! ## Stake accounts -/

structure Lockup where
  unixTimestamp : Int
  epoch : Nat
  custodian : Pubkey
  deriving DecidableEq, Repr

structure StakeAccountMeta where
  staker : Pubkey
  withdrawer : Pubkey
  lockup : Lockup

structure StakeDelegation where
  activationEpoch : Nat
  deactivationEpoch : Nat

/-- What the data of a stake account decodes to, if it does. -/
inductive StakeStateV2
  | stake (accountMeta : StakeAccountMeta) (delegation : StakeDelegation)
  | other

def stakeIsUsableByPool (accountMeta : StakeAccountMeta) (expectedAuthority : Pubkey)
    (expectedLockup : Lockup) : Bool :=
  accountMeta.staker == expectedAuthority && accountMeta.withdrawer == expectedAuthority &&
    accountMeta.lockup == expectedLockup

def stakeIsInactiveWithoutHistory (delegation : StakeDelegation) (epoch : Nat) : Bool :=
  decide (delegation.deactivationEpoch < epoch) ||
    (delegation.activationEpoch == epoch && delegation.deactivationEpoch == epoch)

/-! ## Removals -/

/-- The authority and lockup that a stake account of the pool has to carry. -/
structure PoolAuthority where
  withdrawAuthority : Pubkey
  lockup : Lockup

/-- Marks an index by the status that the pool left its entry in. `stakeState` is
the decoded stake account after the call into the pool. -/
def markRemovedValidator (epoch : Nat) (authority : PoolAuthority)
    (stakeState : Result StakeStateV2) (status : StakeStatus) (validatorListIndex : Nat)
    (state : StewardStateV2) : Result StewardStateV2 :=
  match status with
  | .active => fail .validatorMarkedActive
  | .deactivatingValidator => do
      match ← stakeState with
      | .stake accountMeta delegation =>
          if stakeIsUsableByPool accountMeta authority.withdrawAuthority authority.lockup &&
              stakeIsInactiveWithoutHistory delegation epoch then
            state.markValidatorForImmediateRemoval validatorListIndex
          else
            state.markValidatorForRemoval validatorListIndex
      | .other => fail .stakeStateIsNotStake
  | .readyForRemoval => state.markValidatorForImmediateRemoval validatorListIndex
  | .deactivatingAll => state.markValidatorForRemoval validatorListIndex
  | .deactivatingTransient => state.markValidatorForRemoval validatorListIndex

section Handlers

variable {Ledger : Type} {program : StakePoolProgram Ledger}

namespace RemoveValidatorFromPool

structure Inputs (Ledger : Type) where
  ledger : Ledger
  validatorListIndex : Nat
  stakeAccount : Pubkey
  authority : PoolAuthority
  stakeStateAfter : Result StakeStateV2

/-- Only an index below `numPoolValidators` is checked against the account. -/
def requireStakeAccount (pool : StakePool program) (inputs : Inputs Ledger)
    (state : StewardStateV2) : Result Unit :=
  if inputs.validatorListIndex < state.numPoolValidators then do
    let entry ← pool.entryAt inputs.validatorListIndex
    require (program.stakeAddressOf entry = inputs.stakeAccount) .validatorNotInList
  else
    .ok ()

def handler (clock : Clock) (inputs : Inputs Ledger) (pool : StakePool program)
    (state : StewardStateV2) : Result (StakePool program × StewardStateV2) := do
  require (clock.epoch = state.currentEpoch) .epochMaintenanceNotComplete
  requireStakeAccount pool inputs state
  let pool ← pool.removeValidator inputs.ledger inputs.stakeAccount
  let entry ← pool.entryAt inputs.validatorListIndex
  let state ← markRemovedValidator clock.epoch inputs.authority inputs.stakeStateAfter
    entry.status inputs.validatorListIndex state
  return (pool, state)

end RemoveValidatorFromPool

def removeValidatorCheck (environment : Environment) (state : StewardStateV2) :
    Result Unit := do
  require (environment.config.paused = false) .stateMachinePaused
  require (environment.clock.epoch = state.currentEpoch) .epochMaintenanceNotComplete
  requireListMatches environment state

namespace AutoRemoveValidatorFromPool

structure Inputs (Ledger : Type) where
  ledger : Ledger
  validatorListIndex : Nat
  voteAccount : Pubkey
  voteAccountClosed : Bool
  stakeAccount : Pubkey
  authority : PoolAuthority
  stakeStateBefore : Result StakeStateV2
  stakeStateAfter : Result StakeStateV2

/-- The address constraint of the instruction on its stake account. -/
def requireStakeAccount (pool : StakePool program) (inputs : Inputs Ledger) : Result Unit := do
  let entry ← pool.entryAt inputs.validatorListIndex
  if program.findStakeProgramAddress inputs.voteAccount entry.validatorSeedSuffix =
      inputs.stakeAccount then
    .ok ()
  else
    .error .external

def deactivationEpoch : StakeStateV2 → Result Nat
  | .stake _ delegation => .ok delegation.deactivationEpoch
  | .other => fail .stakeStateIsNotStake

def handler (environment : Environment) (inputs : Inputs Ledger) (pool : StakePool program)
    (state : StewardStateV2) : Result (StakePool program × StewardStateV2) := do
  let epoch := environment.clock.epoch
  requireStakeAccount pool inputs
  removeValidatorCheck environment state
  let entry ← pool.entryAt inputs.validatorListIndex
  require (entry.voteAccountAddress = inputs.voteAccount) .validatorNotInList
  let deactivated ← deactivationEpoch (← inputs.stakeStateBefore)
  require (deactivated < epoch ∨ inputs.voteAccountClosed = true) .validatorNotRemovable
  let pool ← pool.removeValidator inputs.ledger inputs.stakeAccount
  let entry ← pool.entryAt inputs.validatorListIndex
  let state ← markRemovedValidator epoch inputs.authority inputs.stakeStateAfter entry.status
    inputs.validatorListIndex state
  return (pool, state)

end AutoRemoveValidatorFromPool

end Handlers

/-! ## The pool and the Steward together -/

/-- The calls by which validators enter and leave the pool. -/
inductive PoolCall (Ledger : Type)
  | autoAddValidatorToPool (ledger : Ledger) (eligibility : Result Unit) (voteAccount : Pubkey)
  | addValidatorToPool (ledger : Ledger) (voteAccount : Pubkey) (validatorSeed : Nat)
      (stakeAccount : Pubkey)
  | autoRemoveValidatorFromPool (inputs : AutoRemoveValidatorFromPool.Inputs Ledger)
  | removeValidatorFromPool (inputs : RemoveValidatorFromPool.Inputs Ledger)

structure PoolSystem (program : StakePoolProgram Ledger) where
  pool : StakePool program
  state : StewardStateV2

structure PoolTransaction (Ledger : Type) where
  clock : Clock
  epochSchedule : EpochSchedule
  config : Config
  call : PoolCall Ledger

namespace PoolTransaction

variable {Ledger : Type} {program : StakePoolProgram Ledger}

def environment (transaction : PoolTransaction Ledger) (pool : StakePool program) :
    Environment where
  clock := transaction.clock
  epochSchedule := transaction.epochSchedule
  config := transaction.config
  validatorList := pool.validatorList

def process (transaction : PoolTransaction Ledger) (system : PoolSystem program) :
    Result (PoolSystem program) :=
  let environment := transaction.environment system.pool
  match transaction.call with
  | .autoAddValidatorToPool ledger eligibility voteAccount => do
      let added := system.pool.addValidator ledger voteAccount 0
        (program.findStakeProgramAddress voteAccount 0)
      let state ← AutoAddValidatorToPool.handler environment eligibility
        ((fun _ => ()) <$> added) system.state
      return ⟨← added, state⟩
  | .addValidatorToPool ledger voteAccount validatorSeed stakeAccount => do
      let added := system.pool.addValidator ledger voteAccount validatorSeed stakeAccount
      let state ← AddValidatorToPool.handler environment ((fun _ => ()) <$> added) system.state
      return ⟨← added, state⟩
  | .autoRemoveValidatorFromPool inputs => do
      let (pool, state) ← AutoRemoveValidatorFromPool.handler environment inputs system.pool
        system.state
      return ⟨pool, state⟩
  | .removeValidatorFromPool inputs => do
      let (pool, state) ← RemoveValidatorFromPool.handler transaction.clock inputs system.pool
        system.state
      return ⟨pool, state⟩

end PoolTransaction

/-- A failing call leaves the pool and the state as they were. -/
def executePool {program : StakePoolProgram Ledger} (system : PoolSystem program)
    (transaction : PoolTransaction Ledger) : PoolSystem program :=
  Outcome.commit system (transaction.process system)

end Stakenet.Steward

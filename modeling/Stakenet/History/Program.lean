import Stakenet.Foundation.Double
import Stakenet.Foundation.Execution
import Stakenet.History.Fields
import Stakenet.History.GossipCopy

/-! The validator history program: its accounts, and the instructions that create and change
them. -/

namespace Stakenet.History.Program

/-! ## Accounts -/

structure Config where
  tipDistributionProgram : Pubkey
  admin : Pubkey
  oracleAuthority : Pubkey
  counter : Nat
  priorityFeeDistributionProgram : Pubkey
  priorityFeeOracleAuthority : Pubkey
  deriving DecidableEq, Repr

/-- `ValidatorHistory::SIZE`, with the discriminator. -/
def validatorHistorySize : Nat := 65856

def maxAllocBytes : Nat := 10240
def minVoteEpochs : Nat := 5

/-- An account that has not reached its full size is zero after the discriminator, and
cannot be loaded. -/
inductive HistoryAccount
  | allocated (size : Fin validatorHistorySize)
  | complete (account : ValidatorHistoryAccount)

/-- The history of a vote account has the address that is derived from its key. -/
structure State where
  config : Option Config
  histories : Pubkey → Option HistoryAccount

/-- Before the first instruction. -/
def State.empty : State where
  config := none
  histories _ := none

def State.setHistory (state : State) (voteAccount : Pubkey) (account : HistoryAccount) : State :=
  { state with histories := Function.update state.histories voteAccount (some account) }

structure Clock extends History.Clock where
  slot : Nat

/-- An account of another program, with the seeds of its address and what it decodes to. -/
structure DerivedAccount (α : Type) where
  program : Pubkey
  voteAccount : Pubkey
  epoch : Nat
  owner : Pubkey
  content : Option α

structure TipDistributionAccount where
  merkleRootUploadAuthority : Pubkey
  /- `max_total_claim` of the merkle root, if one has been uploaded -/
  maxTotalClaim : Option Nat
  validatorCommissionBps : Nat

structure PriorityFeeDistributionAccount where
  merkleRootUploadAuthority : Pubkey
  validatorCommissionBps : Nat
  totalLamportsTransferred : Nat

/-! ## Errors -/

/-- Errors of the account constraints, errors that only the handlers below return, and those of
the functions they call. -/
inductive Failure
  | history (failure : History.Failure)
  | constraint
  | notEnoughVotingHistory
  | priorityFeeDistributionAccountAlreadyCopied
  | priorityFeeDistributionAccountNotFinalized
  | invalidBamClientValue

abbrev Result (α : Type) := Except Failure α

/-- The `?` operator on a result of the functions below. -/
def lift (result : History.Result α) : Result α := result.mapError .history

@[simp] theorem lift_eq_ok {result : History.Result α} {value : α} :
    lift result = .ok value ↔ result = .ok value :=
  Outcome.mapError_eq_ok

def require (condition : Prop) [Decidable condition] (failure : Failure) : Result Unit :=
  if condition then .ok () else .error failure

@[simp] theorem require_eq_ok {condition : Prop} [Decidable condition] {failure : Failure}
    {done : Unit} : require condition failure = .ok done ↔ condition := by
  unfold require
  split <;> simp_all

/-- An account that has to be there. -/
def present : Option α → Result α
  | some account => .ok account
  | none => .error .constraint

@[simp] theorem present_eq_ok {found : Option α} {account : α} :
    present found = .ok account ↔ found = some account := by
  cases found <;> simp [present]

/-! ## Values of other programs -/

def jitoLabsAuthority : Pubkey :=
  0x44294ba4f176799dce9d09e6922264d01d48c2e82cf5607cf84f18a8dc763ae7

def tipRouterAuthority : Pubkey :=
  0xe34bce814d576179229cdcef2fc300b065ac617fe4a0861b87e22cbfe9279c6b

def dneAuthority : Pubkey := 0

def fromPubkey (tdaAuthority : Pubkey) : MerkleRootUploadAuthority :=
  if tdaAuthority = jitoLabsAuthority then .oldJitoLabs
  else if tdaAuthority = tipRouterAuthority then .tipRouter
  else if tdaAuthority = dneAuthority then .dne
  else .other

/-- `f64::round`, for a number that is not negative. -/
def roundHalfUp : Double → Double
  | .finite value => .finite ⌊value + 1 / 2⌋
  | other => other

def toU32 (number : Double) : Nat := min number.toU64 (2 ^ 32 - 1)

def fixedPointSol (lamports : Nat) : Nat :=
  let sol := (Double.ofNat lamports).div (.ofNat (10 ^ 9))
  let sol := (roundHalfUp (sol.mul (.ofNat 100))).div (.ofNat 100)
  toU32 (sol.mul (.ofNat 100))

/-! ## Configuration -/

inductive ConfigInstruction
  | initializeConfig (authority : Pubkey)
  | setNewTipDistributionProgram (newTipDistributionProgram : Pubkey) (executable : Bool)
  | setNewAdmin (newAdmin : Pubkey)
  | setNewOracleAuthority (newOracleAuthority : Pubkey)
  | setNewPriorityFeeDistributionProgram (newPriorityFeeDistributionProgram : Pubkey)
  | setNewPriorityFeeOracleAuthority (newPriorityFeeOracleAuthority : Pubkey)

/-- `has_one` on the config account: the signer is one of its authorities. -/
def authorized (authority : Config → Pubkey) (config : Option Config) (signer : Pubkey) :
    Result Config := do
  let config ← present config
  require (authority config = signer) .constraint
  return config

theorem authorized_eq_ok {authority : Config → Pubkey} {config : Option Config}
    {signer : Pubkey} {found : Config} :
    authorized authority config signer = .ok found ↔
      config = some found ∧ authority found = signer := by
  simp only [authorized, Outcome.bind_eq_ok, present_eq_ok, require_eq_ok, Outcome.pure_eq_ok]
  constructor
  · intro done
    rcases done with ⟨_, isConfig, _, signed, rfl⟩
    exact ⟨isConfig, signed⟩
  · intro done
    exact ⟨found, done.1, (), done.2, rfl⟩

/-- The fields that are not set are zero. -/
def Config.ofAuthority (authority : Pubkey) : Config where
  tipDistributionProgram := 0
  admin := authority
  oracleAuthority := authority
  counter := 0
  priorityFeeDistributionProgram := 0
  priorityFeeOracleAuthority := 0

/-- `init` fails if there is an account already. -/
def handleInitializeConfig (config : Option Config) (authority : Pubkey) : Result Config := do
  require (config.isNone = true) .constraint
  return .ofAuthority authority

def ConfigInstruction.handle (config : Option Config) (signer : Pubkey) :
    ConfigInstruction → Result Config
  | .initializeConfig authority => handleInitializeConfig config authority
  | .setNewTipDistributionProgram newTipDistributionProgram executable => do
      let config ← authorized Config.admin config signer
      require (executable = true) .constraint
      return { config with tipDistributionProgram := newTipDistributionProgram }
  | .setNewAdmin newAdmin => do
      return { ← authorized Config.admin config signer with admin := newAdmin }
  | .setNewOracleAuthority newOracleAuthority => do
      return { ← authorized Config.admin config signer with oracleAuthority := newOracleAuthority }
  | .setNewPriorityFeeDistributionProgram newPriorityFeeDistributionProgram => do
      return { ← authorized Config.admin config signer with
        priorityFeeDistributionProgram := newPriorityFeeDistributionProgram }
  | .setNewPriorityFeeOracleAuthority newPriorityFeeOracleAuthority => do
      return { ← authorized Config.admin config signer with
        priorityFeeOracleAuthority := newPriorityFeeOracleAuthority }

/-! ## Registration -/

def handleInitializeValidatorHistoryAccount (state : State) (voteAccount : Pubkey)
    (info : AccountInfo) : Result State := do
  require ((state.histories voteAccount).isNone = true) .constraint
  require (info.ownedByVoteProgram = true) .constraint
  let epochCredits ← lift (VoteStateVersions.deserializeEpochCredits info)
  require (minVoteEpochs ≤ epochCredits.length) .notEnoughVotingHistory
  return state.setHistory voteAccount (.allocated ⟨maxAllocBytes, by decide⟩)

/-- The values of an account that has just reached its full size. -/
def initializeHistory (voteAccount : Pubkey) (index : Nat) (arr : Nat → ValidatorHistoryEntry) :
    ValidatorHistoryAccount where
  lastIpTimestamp := 0
  lastVersionTimestamp := 0
  validatorAge := 0
  validatorAgeLastUpdatedEpoch := 0
  history := .initial arr
  voteAccount := voteAccount
  index := index

/-- `counter += 1`, which panics on an overflow. -/
def Config.count (config : Config) : Result Config :=
  if config.counter + 1 < 2 ^ 32 then
    .ok { config with counter := config.counter + 1 }
  else
    .error (.history .panicked)

/-- An initialized account is recognized by its key, which is not zero. -/
def handleReallocValidatorHistoryAccount (arr : Nat → ValidatorHistoryEntry) (state : State)
    (voteAccount : Pubkey) (info : AccountInfo) : Result State := do
  let config ← present state.config
  require (info.ownedByVoteProgram = true) .constraint
  match ← present (state.histories voteAccount) with
  | .allocated size =>
      if larger : size + maxAllocBytes < validatorHistorySize then
        return state.setHistory voteAccount (.allocated ⟨size + maxAllocBytes, larger⟩)
      else
        let counted ← config.count
        return { state.setHistory voteAccount
          (.complete (initializeHistory voteAccount config.counter arr)) with
          config := some counted }
  | .complete account =>
      if account.voteAccount = 0 then
        let counted ← config.count
        return { state.setHistory voteAccount
          (.complete { account with
            index := config.counter
            voteAccount := voteAccount
            history := .initial account.history.arr }) with
          config := some counted }
      else
        return state

/-! ## Data -/

inductive DataInstruction
  | copyVoteAccount
  | copyTipDistributionAccount (epoch : Nat)
      (tipDistributionAccount : DerivedAccount TipDistributionAccount)
  | copyPriorityFeeDistribution (epoch : Nat)
      (distributionAccount : DerivedAccount PriorityFeeDistributionAccount)
  | updateStakeHistory (epoch lamports rank : Nat) (isSuperminority : Bool)
  | updatePriorityFeeHistory (epoch totalPriorityFees totalLeaderSlots blocksProduced
      highestOracleRecordedSlot : Nat)
  | copyIsBamConnected (epoch isBamConnected : Nat)
  | uploadValidatorAge (validatorAge validatorAgeLastUpdatedEpoch : Nat)
      (ownedBySystemProgram : Bool)
  | copyGossipContactInfo (transaction : Transaction)

namespace DataInstruction

/-- The history account names the vote account that is passed. -/
def hasOneVoteAccount : DataInstruction → Bool
  | .copyVoteAccount | .copyTipDistributionAccount _ _ | .copyPriorityFeeDistribution _ _
  | .copyIsBamConnected _ _ => true
  | .updateStakeHistory _ _ _ _ | .updatePriorityFeeHistory _ _ _ _ _ | .uploadValidatorAge _ _ _
  | .copyGossipContactInfo _ => false

/-- A vote account that has been closed belongs to the system program. -/
def acceptsOwner (info : AccountInfo) : DataInstruction → Bool
  | .uploadValidatorAge _ _ ownedBySystemProgram => info.ownedByVoteProgram || ownedBySystemProgram
  | _ => info.ownedByVoteProgram

end DataInstruction

/-- `epoch > Clock::get()?.epoch` is an error. -/
def notFuture (clock : Clock) (epoch : Nat) : Result Unit :=
  require (epoch ≤ clock.epoch) (.history (.error .epochOutOfRange))

def handleCopyVoteAccount (clock : Clock) (info : AccountInfo) (account : ValidatorHistory) :
    History.Result ValidatorHistory := do
  let epoch ← castEpoch clock.epoch
  let commission ← VoteStateVersions.deserializeCommission info
  let account ← account.setCommissionAndSlot epoch commission clock.slot
  let epochCredits ← VoteStateVersions.deserializeEpochCredits info
  let account ← account.insertMissingEntries epochCredits
  let account ← account.setEpochCredits epochCredits
  return account.updateValidatorAge epoch

def handleCopyTipDistributionAccount (config : Config) (clock : Clock) (voteAccount : Pubkey)
    (account : ValidatorHistory) (epoch : Nat)
    (tipDistributionAccount : DerivedAccount TipDistributionAccount) :
    Result ValidatorHistory := do
  require (tipDistributionAccount.program = config.tipDistributionProgram ∧
    tipDistributionAccount.voteAccount = voteAccount ∧ tipDistributionAccount.epoch = epoch ∧
    tipDistributionAccount.owner = config.tipDistributionProgram) .constraint
  notFuture clock epoch
  let epoch ← lift (castEpoch epoch)
  match tipDistributionAccount.content with
  | none => .error .constraint
  | some content =>
      let mevEarned := match content.maxTotalClaim with
        | some maxTotalClaim => fixedPointSol maxTotalClaim
        | none => ValidatorHistoryEntry.unset.mevEarned
      lift (account.setMevCommission epoch content.validatorCommissionBps mevEarned
        (fromPubkey content.merkleRootUploadAuthority))

/-- What is stored if there is no distribution account. -/
def PriorityFeeDistributionAccount.missing : PriorityFeeDistributionAccount where
  merkleRootUploadAuthority := dneAuthority
  validatorCommissionBps := 0
  totalLamportsTransferred := 0

def handleCopyPriorityFeeDistributionAccount (config : Config) (clock : Clock)
    (voteAccount : Pubkey) (account : ValidatorHistory) (epoch : Nat)
    (distributionAccount : DerivedAccount PriorityFeeDistributionAccount) :
    Result ValidatorHistory := do
  require (distributionAccount.program = config.priorityFeeDistributionProgram ∧
    distributionAccount.voteAccount = voteAccount ∧ distributionAccount.epoch = epoch) .constraint
  notFuture clock epoch
  require (epoch ≠ clock.epoch) .priorityFeeDistributionAccountNotFinalized
  let epoch ← lift (castEpoch epoch)
  let entryForEpoch := (account.history.findEpoch epoch).map account.history.arr
  require (∀ entry ∈ entryForEpoch, entry.priorityFeeMerkleRootUploadAuthority = .unset)
    .priorityFeeDistributionAccountAlreadyCopied
  let content := distributionAccount.content.getD .missing
  lift (account.setPriorityFeesTransferredAndCommission epoch content.validatorCommissionBps
    content.totalLamportsTransferred (fromPubkey content.merkleRootUploadAuthority))

def handleUpdateStakeHistory (clock : Clock) (account : ValidatorHistory)
    (epoch lamports rank : Nat) (isSuperminority : Bool) : Result ValidatorHistory := do
  notFuture clock epoch
  let epoch ← lift (castEpoch epoch)
  lift (account.setStake epoch lamports rank isSuperminority)

def handleUpdatePriorityFeeHistory (clock : Clock) (account : ValidatorHistory)
    (epoch totalPriorityFees totalLeaderSlots blocksProduced highestOracleRecordedSlot : Nat) :
    Result ValidatorHistory := do
  notFuture clock epoch
  let epoch ← lift (castEpoch epoch)
  lift (account.setTotalPriorityFeesAndBlockMetadata epoch totalPriorityFees totalLeaderSlots
    blocksProduced highestOracleRecordedSlot)

def handleCopyIsBamConnected (clock : Clock) (account : ValidatorHistory)
    (epoch isBamConnected : Nat) : Result ValidatorHistory := do
  notFuture clock epoch
  require (isBamConnected = 0 ∨ isBamConnected = 1) .invalidBamClientValue
  let epoch ← lift (castEpoch epoch)
  lift (account.setIsBamConnected epoch isBamConnected)

/-- The epoch of the clock is cut to `u16`. -/
def handleUploadValidatorAge (clock : Clock) (account : ValidatorHistory)
    (validatorAge validatorAgeLastUpdatedEpoch : Nat) : Result ValidatorHistory := do
  require (validatorAgeLastUpdatedEpoch ≤ clock.epoch % 2 ^ 16) (.history (.error .epochOutOfRange))
  return { account with
    validatorAge := validatorAge
    validatorAgeLastUpdatedEpoch := validatorAgeLastUpdatedEpoch }

section Instructions

/- The length of a `short_vec`, and the bytes of an account that were not used before. -/
variable (shortU16 : Bincode.Reader Nat) (arr : Nat → ValidatorHistoryEntry)

def DataInstruction.handle (config : Option Config) (clock : Clock) (signer voteAccount : Pubkey)
    (info : AccountInfo) (account : ValidatorHistory) : DataInstruction → Result ValidatorHistory
  | .copyVoteAccount => lift (handleCopyVoteAccount clock info account)
  | .copyTipDistributionAccount epoch tipDistributionAccount => do
      handleCopyTipDistributionAccount (← present config) clock voteAccount account epoch
        tipDistributionAccount
  | .copyPriorityFeeDistribution epoch distributionAccount => do
      handleCopyPriorityFeeDistributionAccount (← present config) clock voteAccount account epoch
        distributionAccount
  | .updateStakeHistory epoch lamports rank isSuperminority => do
      let _ ← authorized Config.oracleAuthority config signer
      handleUpdateStakeHistory clock account epoch lamports rank isSuperminority
  | .updatePriorityFeeHistory epoch totalPriorityFees totalLeaderSlots blocksProduced
      highestOracleRecordedSlot => do
      let _ ← authorized Config.priorityFeeOracleAuthority config signer
      handleUpdatePriorityFeeHistory clock account epoch totalPriorityFees totalLeaderSlots
        blocksProduced highestOracleRecordedSlot
  | .copyIsBamConnected epoch isBamConnected => do
      let _ ← authorized Config.oracleAuthority config signer
      handleCopyIsBamConnected clock account epoch isBamConnected
  | .uploadValidatorAge validatorAge validatorAgeLastUpdatedEpoch _ => do
      let _ ← authorized Config.oracleAuthority config signer
      handleUploadValidatorAge clock account validatorAge validatorAgeLastUpdatedEpoch
  | .copyGossipContactInfo transaction => do
      let _ ← authorized Config.oracleAuthority config signer
      lift (handleCopyGossipContactInfo shortU16 clock.toClock transaction info account)

/-- Loading an account that is too small panics. -/
def loadMut (state : State) (voteAccount : Pubkey) : Result ValidatorHistoryAccount := do
  match ← present (state.histories voteAccount) with
  | .complete account => return account
  | .allocated _ => .error (.history .panicked)

/-- The checks of the accounts, and the handler. -/
def DataInstruction.execute (state : State) (clock : Clock) (signer voteAccount : Pubkey)
    (info : AccountInfo) (instruction : DataInstruction) : Result State := do
  let account ← loadMut state voteAccount
  require (instruction.hasOneVoteAccount = true → account.voteAccount = voteAccount) .constraint
  require (instruction.acceptsOwner info = true) .constraint
  let written ← instruction.handle shortU16 state.config clock signer voteAccount info
    account.toValidatorHistory
  return state.setHistory voteAccount
    (.complete { account with toValidatorHistory := written })

/-! ## Calls -/

/-- What a transaction asks for, and the vote account that it passes. -/
inductive Instruction
  | configure (instruction : ConfigInstruction)
  | initializeValidatorHistoryAccount (voteAccount : Pubkey) (info : AccountInfo)
  | reallocValidatorHistoryAccount (voteAccount : Pubkey) (info : AccountInfo)
  | copy (voteAccount : Pubkey) (info : AccountInfo) (instruction : DataInstruction)

structure Call where
  clock : Clock
  signer : Pubkey
  instruction : Instruction

def Call.handle (state : State) (call : Call) : Result State :=
  match call.instruction with
  | .configure instruction => do
      return { state with config := some (← instruction.handle state.config call.signer) }
  | .initializeValidatorHistoryAccount voteAccount info =>
      handleInitializeValidatorHistoryAccount state voteAccount info
  | .reallocValidatorHistoryAccount voteAccount info =>
      handleReallocValidatorHistoryAccount arr state voteAccount info
  | .copy voteAccount info instruction =>
      instruction.execute shortU16 state call.clock call.signer voteAccount info

/-- A call that fails changes nothing. -/
def execute (state : State) (call : Call) : State :=
  Outcome.commit state (call.handle shortU16 arr state)

end Instructions

end Stakenet.History.Program

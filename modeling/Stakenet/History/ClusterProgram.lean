import Stakenet.Foundation.KeyedRing
import Stakenet.History.ClusterHistory
import Stakenet.History.ClusterInfo
import Stakenet.History.Program

/-! The cluster history account of the validator history program, and the instructions that
create and fill it. -/

namespace Stakenet.History

/-! ## Writes to the ring -/

namespace CircBufCluster

def push (history : CircBufCluster) (item : ClusterHistoryEntry) : CircBufCluster :=
  let idx := (history.idx + 1) % maxItems
  { idx := idx
    isEmpty := false
    arr := Function.update history.arr idx item
    inBounds := Nat.mod_lt _ maxItems_pos }

/-- A change of one entry in place. -/
def updateAt (history : CircBufCluster) (position : Nat)
    (change : ClusterHistoryEntry → ClusterHistoryEntry) : CircBufCluster :=
  { history with
    arr := Function.update history.arr position (change (history.arr position)) }

/-- The position of the first entry of an epoch, in the order of the array. -/
def findEpoch (history : CircBufCluster) (epoch : Nat) : Option Nat :=
  (List.range maxItems).find? fun position => (history.arr position).epoch = epoch

theorem lastPosition_lt : maxItems - 1 < maxItems := by decide

/-- `idx` is set to the last position, and then every slot is pushed over. -/
def initial : CircBufCluster where
  idx := maxItems - 1
  isEmpty := true
  arr _ := .unset
  inBounds := lastPosition_lt

end CircBufCluster

namespace ClusterHistoryEntry

def withBlocks (blocksInEpoch : Nat) (entry : ClusterHistoryEntry) : ClusterHistoryEntry :=
  { entry with totalBlocks := blocksInEpoch }

def withStart (epochStartTimestamp : Nat) (entry : ClusterHistoryEntry) : ClusterHistoryEntry :=
  { entry with epochStartTimestamp := epochStartTimestamp }

/-- An entry without the time at which the epoch starts. -/
def ofBlocks (epoch blocksInEpoch : Nat) : ClusterHistoryEntry :=
  { ClusterHistoryEntry.unset with epoch := epoch, totalBlocks := blocksInEpoch }

end ClusterHistoryEntry

namespace ClusterHistory

def push (account : ClusterHistory) (item : ClusterHistoryEntry) : ClusterHistory :=
  { account with history := account.history.push item }

def updateAt (account : ClusterHistory) (position : Nat)
    (change : ClusterHistoryEntry → ClusterHistoryEntry) : ClusterHistory :=
  { account with history := account.history.updateAt position change }

/-- Sets total blocks for the target epoch. One that is missing among later epochs is skipped. -/
def setBlocks (account : ClusterHistory) (epoch blocksInEpoch : Nat) : ClusterHistory :=
  match account.history.last with
  | none => account.push (.ofBlocks epoch blocksInEpoch)
  | some entry =>
      match compare entry.epoch epoch with
      | .eq => account.updateAt account.history.idx (ClusterHistoryEntry.withBlocks blocksInEpoch)
      | .gt =>
          match account.history.findEpoch epoch with
          | some position =>
              account.updateAt position (ClusterHistoryEntry.withBlocks blocksInEpoch)
          | none => account
      | .lt => account.push (.ofBlocks epoch blocksInEpoch)

/-- Only the newest entry is looked at. -/
def setEpochStartTimestamp (account : ClusterHistory) (epoch epochStartTimestamp : Nat) :
    ClusterHistory :=
  match account.history.last with
  | none => account
  | some entry =>
      if entry.epoch = epoch then
        account.updateAt account.history.idx (ClusterHistoryEntry.withStart epochStartTimestamp)
      else
        account

end ClusterHistory

namespace ClusterProgram

open Program (Config ConfigInstruction Failure authorized lift present require)

/-! ## Accounts -/

/-- `ClusterHistory::SIZE`, with the discriminator. -/
def clusterHistorySize : Nat := 131352

structure ClusterHistoryAccount extends ClusterHistory where
  bump : Nat

/-- An account that has not reached its full size is zero after the discriminator, and cannot be
loaded. -/
inductive ClusterAccount
  | allocated (size : Fin clusterHistorySize)
  | complete (account : ClusterHistoryAccount)

structure State where
  config : Option Config
  clusterHistory : Option ClusterAccount

/-- Before the first instruction. -/
def State.empty : State where
  config := none
  clusterHistory := none

structure Clock where
  epoch : Nat
  slot : Nat
  epochStartTimestamp : Int

structure EpochSchedule where
  getFirstSlotInEpoch : Nat → Nat
  getLastSlotInEpoch : Nat → Nat

/-! ## Creation -/

/-- `init` fails if there is an account already. -/
def handleInitializeClusterHistoryAccount (state : State) : Program.Result State := do
  require (state.clusterHistory.isNone = true) .constraint
  return { state with
    clusterHistory := some (.allocated ⟨Program.maxAllocBytes, by decide⟩) }

/-- The bytes that are compared with zero are those of the bump and of the last update. -/
def isInitialized (account : ClusterHistoryAccount) : Bool :=
  account.bump ≠ 0 || account.clusterHistoryLastUpdateSlot ≠ 0

def handleReallocClusterHistoryAccount (bump : Nat) (state : State) : Program.Result State := do
  match ← present state.clusterHistory with
  | .allocated size =>
      if larger : size + Program.maxAllocBytes < clusterHistorySize then
        return { state with
          clusterHistory := some (.allocated ⟨size + Program.maxAllocBytes, larger⟩) }
      else
        return { state with clusterHistory := some (.complete
          { clusterHistoryLastUpdateSlot := 0, history := .initial, bump := bump }) }
  | .complete account =>
      if isInitialized account then
        return state
      else
        return { state with clusterHistory := some (.complete
          { account with history := .initial, bump := bump }) }

/-! ## Blocks -/

/-- A conversion of `i64` to `u64` that is unwrapped. -/
def castEpochStartTimestamp (startTimestamp : Int) : Result Nat :=
  if 0 ≤ startTimestamp then .ok startTimestamp.toNat else .error .panicked

section Instructions

/- `SlotHistory::check`, the schedule of the cluster, and the bump of the address. -/
variable (check : SlotHistory → Nat → Check) (epochSchedule : EpochSchedule) (bump : Nat)

/-- Sets the slot history for the previous epoch, since the total number of blocks in the epoch is
now final. -/
def copyPreviousEpoch (epoch : Nat) (slotHistory : SlotHistory) (account : ClusterHistory) :
    Result (ClusterHistory × SlotHistory) := do
  if 0 < epoch then
    let startSlot := epochSchedule.getFirstSlotInEpoch (epoch - 1)
    let endSlot := epochSchedule.getLastSlotInEpoch (epoch - 1)
    let (numBlocks, bitvecInner) ← confirmedBlocksInEpoch check startSlot endSlot slotHistory
    return (account.setBlocks (epoch - 1) numBlocks, { slotHistory with bits := bitvecInner })
  else
    return (account, slotHistory)

def handleCopyClusterInfo (clock : Clock) (slotHistory : SlotHistory) (account : ClusterHistory) :
    Result ClusterHistory := do
  let epoch ← castEpoch clock.epoch
  let epochStartTimestamp ← castEpochStartTimestamp clock.epochStartTimestamp
  let (account, slotHistory) ← copyPreviousEpoch check epochSchedule epoch slotHistory account
  let startSlot := epochSchedule.getFirstSlotInEpoch epoch
  let (numBlocks, _) ← confirmedBlocksInEpoch check startSlot clock.slot slotHistory
  let account := account.setBlocks epoch numBlocks
  let account := account.setEpochStartTimestamp epoch epochStartTimestamp
  return { account with clusterHistoryLastUpdateSlot := clock.slot }

/-- Need to backfill in ascending order when initially filling in the account otherwise entries
will be out of order. -/
def handleBackfillTotalBlocks (epoch blocksInEpoch : Nat) (account : ClusterHistory) :
    Result ClusterHistory := do
  let epoch ← castEpoch epoch
  rejectIf (∃ entry ∈ account.history.last, epoch ≠ entry.epoch + 1) .epochOutOfRange
  return account.setBlocks epoch blocksInEpoch

/-! ## Calls -/

inductive DataInstruction
  | copyClusterInfo (slotHistory : SlotHistory)
  | backfillTotalBlocks (epoch blocksInEpoch : Nat)

def DataInstruction.handle (config : Option Config) (clock : Clock) (signer : Pubkey)
    (account : ClusterHistory) : DataInstruction → Program.Result ClusterHistory
  | .copyClusterInfo slotHistory =>
      lift (handleCopyClusterInfo check epochSchedule clock slotHistory account)
  | .backfillTotalBlocks epoch blocksInEpoch => do
      let _ ← authorized Config.oracleAuthority config signer
      lift (handleBackfillTotalBlocks epoch blocksInEpoch account)

inductive Instruction
  | configure (instruction : ConfigInstruction)
  | initializeClusterHistoryAccount
  | reallocClusterHistoryAccount
  | data (instruction : DataInstruction)

structure Call where
  clock : Clock
  signer : Pubkey
  instruction : Instruction

/-- Loading an account that is too small panics. -/
def loadMut (state : State) : Program.Result ClusterHistoryAccount := do
  match ← present state.clusterHistory with
  | .complete account => return account
  | .allocated _ => .error (.history .panicked)

def Call.handle (state : State) (call : Call) : Program.Result State :=
  match call.instruction with
  | .configure instruction => do
      return { state with config := some (← instruction.handle state.config call.signer) }
  | .initializeClusterHistoryAccount => handleInitializeClusterHistoryAccount state
  | .reallocClusterHistoryAccount => handleReallocClusterHistoryAccount bump state
  | .data instruction => do
      let account ← loadMut state
      let written ← instruction.handle check epochSchedule state.config call.clock call.signer
        account.toClusterHistory
      return { state with
        clusterHistory := some (.complete { account with toClusterHistory := written }) }

/-- A call that fails changes nothing. -/
def execute (state : State) (call : Call) : State :=
  Outcome.commit state (call.handle check epochSchedule bump state)

end Instructions

end ClusterProgram

end Stakenet.History

import Mathlib.Algebra.Order.Group.Nat
import Stakenet.Foundation.Outcome
import Stakenet.Foundation.Ring

/-! The ring of epoch entries that a validator history account keeps. -/

namespace Stakenet.History

/-! ## Errors -/

/-- The `ValidatorHistoryError` variants that the modelled functions return. -/
inductive ValidatorHistoryError
  | invalidEpochCredits
  | epochOutOfRange
  | notSigVerified
  | gossipDataInvalid
  | unsupportedIpFormat
  | gossipDataTooOld
  | gossipDataInFuture
  | arithmeticError
  | epochTooLarge
  | duplicateEpoch
  | slotHistoryOutOfDate
  deriving DecidableEq, Repr

/-- The errors of the vote account parser. -/
inductive VoteStateError
  | constraintOwner
  | voteAccountDataNotValid
  deriving DecidableEq, Repr

/-- How an instruction fails: with an error of the program or of the vote account
parser, by a panic, or because a library returned an error. All of them abort the
transaction. -/
inductive Failure
  | error (error : ValidatorHistoryError)
  | voteState (error : VoteStateError)
  | panicked
  | external
  deriving DecidableEq, Repr

abbrev Result (α : Type) := Except Failure α

def fail (error : ValidatorHistoryError) : Result α := .error (.error error)

@[simp] theorem fail_eq_ok {error : ValidatorHistoryError} {value : α} :
    (fail error : Result α) = .ok value ↔ False := by
  simp [fail]

/-! ## Entries -/

/-- `u16::MAX`, the epoch of a slot that has not been filled. -/
def epochDefault : Nat := 2 ^ 16 - 1

/-- `cast_epoch`: the default is not a valid epoch. -/
def castEpoch (epoch : Nat) : Result Nat :=
  if epoch < epochDefault then .ok epoch else fail .epochTooLarge

@[simp] theorem castEpoch_eq_ok {epoch value : Nat} :
    castEpoch epoch = .ok value ↔ epoch < epochDefault ∧ epoch = value := by
  unfold castEpoch
  split <;> simp_all

inductive MerkleRootUploadAuthority
  | unset
  | other
  | oldJitoLabs
  | tipRouter
  | dne
  deriving DecidableEq, Repr

structure ClientVersion where
  major : Nat
  minor : Nat
  patch : Nat
  deriving DecidableEq, Repr

/-- The four octets of an IPv4 address. -/
structure Ip where
  octets : BitVec 32
  deriving DecidableEq, Repr

structure ValidatorHistoryEntry where
  activatedStakeLamports : Nat
  epoch : Nat
  mevCommission : Nat
  epochCredits : Nat
  commission : Nat
  clientType : Nat
  version : ClientVersion
  ip : Ip
  merkleRootUploadAuthority : MerkleRootUploadAuthority
  isSuperminority : Nat
  rank : Nat
  voteAccountLastUpdateSlot : Nat
  mevEarned : Nat
  priorityFeeCommission : Nat
  priorityFeeTips : Nat
  totalPriorityFees : Nat
  totalLeaderSlots : Nat
  blocksProduced : Nat
  blockDataUpdatedAtSlot : Nat
  priorityFeeMerkleRootUploadAuthority : MerkleRootUploadAuthority
  isBamConnected : Nat
  deriving DecidableEq, Repr

/-- `ValidatorHistoryEntry::default()`: every field has the largest value of its
type, which stands for a field that has not been set. -/
def ValidatorHistoryEntry.unset : ValidatorHistoryEntry where
  activatedStakeLamports := 2 ^ 64 - 1
  epoch := epochDefault
  mevCommission := 2 ^ 16 - 1
  epochCredits := 2 ^ 32 - 1
  commission := 2 ^ 8 - 1
  clientType := 2 ^ 8 - 1
  version := ⟨2 ^ 8 - 1, 2 ^ 8 - 1, 2 ^ 16 - 1⟩
  ip := ⟨BitVec.allOnes 32⟩
  merkleRootUploadAuthority := .unset
  isSuperminority := 2 ^ 8 - 1
  rank := 2 ^ 32 - 1
  voteAccountLastUpdateSlot := 2 ^ 64 - 1
  mevEarned := 2 ^ 32 - 1
  priorityFeeCommission := 2 ^ 16 - 1
  priorityFeeTips := 2 ^ 64 - 1
  totalPriorityFees := 2 ^ 64 - 1
  totalLeaderSlots := 2 ^ 32 - 1
  blocksProduced := 2 ^ 32 - 1
  blockDataUpdatedAtSlot := 2 ^ 64 - 1
  priorityFeeMerkleRootUploadAuthority := .unset
  isBamConnected := 2 ^ 8 - 1

/-- An entry of which only the epoch is set. -/
def ValidatorHistoryEntry.ofEpoch (epoch : Nat) : ValidatorHistoryEntry :=
  { ValidatorHistoryEntry.unset with epoch := epoch }

/-! ## The ring -/

def maxItems : Nat := 512

/-- `idx` is the position of the newest entry. -/
structure CircBuf where
  idx : Nat
  isEmpty : Bool
  arr : Nat → ValidatorHistoryEntry
  inBounds : idx < maxItems

theorem maxItems_pos : 0 < maxItems := by decide

namespace CircBuf

def push (history : CircBuf) (item : ValidatorHistoryEntry) : CircBuf :=
  let idx := (history.idx + 1) % maxItems
  { idx := idx
    isEmpty := false
    arr := Function.update history.arr idx item
    inBounds := Nat.mod_lt _ maxItems_pos }

def last (history : CircBuf) : Option ValidatorHistoryEntry :=
  if history.isEmpty then none else some (history.arr history.idx)

/-- A change of one entry in place. -/
def updateAt (history : CircBuf) (position : Nat)
    (change : ValidatorHistoryEntry → ValidatorHistoryEntry) : CircBuf :=
  { history with
    arr := Function.update history.arr position (change (history.arr position)) }

/-- Finds the position to insert a new entry with the given epoch, where the
epoch is greater than that of the entry before and less than that of the next. -/
def findInsertPosition (arr : Nat → ValidatorHistoryEntry) (len idx epoch : Nat) : Option Nat :=
  if len = 0 then
    none
  else
    let insertPos :=
      if idx ≠ len - 1 ∧ (arr (idx + 1)).epoch = epochDefault then
        (Ring.bisect (fun mid => compare (arr mid).epoch epoch) 0 (idx + 1)).map
          fun left => left % len
      else
        (Ring.bisect (fun mid => compare (arr (((idx + 1) + mid) % len)).epoch epoch) 0 len).map
          fun left => ((idx + 1) + left) % len
    insertPos.bind fun insertPos =>
      if (arr insertPos).epoch = epoch then none else some insertPos

/-- The lowest epoch of a ring that is not empty. -/
def minEpoch (history : CircBuf) : Nat :=
  let nextI := (history.idx + 1) % maxItems
  if (history.arr nextI).epoch = epochDefault then
    (history.arr 0).epoch
  else
    (history.arr nextI).epoch

/-- Inserts the entry in sorted order, unless the epoch is out of range or already
there. If the insertion position lies after `idx` the shift wraps around. -/
def insert (history : CircBuf) (entry : ValidatorHistoryEntry) (epoch : Nat) : Result CircBuf :=
  if history.isEmpty then
    fail .epochOutOfRange
  else if epoch < history.minEpoch ∨ (history.arr history.idx).epoch < epoch then
    fail .epochOutOfRange
  else
    match findInsertPosition history.arr maxItems history.idx epoch with
    | none => fail .duplicateEpoch
    | some insertPos =>
        let endIndex :=
          if history.idx < insertPos then history.idx + maxItems else history.idx
        let shifted := Ring.shiftUp maxItems insertPos (endIndex + 1 - insertPos) history.arr
        .ok { history with
          arr := Function.update shifted insertPos entry
          idx := (history.idx + 1) % maxItems
          inBounds := Nat.mod_lt _ maxItems_pos }

/-- The epochs from `startEpoch` to `endEpoch` inclusive. -/
def epochs (startEpoch endEpoch : Nat) : List Nat :=
  List.range' startEpoch (endEpoch + 1 - startEpoch)

/-- One pass over epochs and entries: an entry is taken when its epoch comes up. -/
def matchEpochs : List Nat → List ValidatorHistoryEntry → List (Option ValidatorHistoryEntry)
  | [], _ => []
  | _ :: epochs, [] => none :: matchEpochs epochs []
  | epoch :: epochs, entry :: entries =>
      if entry.epoch = epoch then
        some entry :: matchEpochs epochs entries
      else
        none :: matchEpochs epochs (entry :: entries)

def epochRange (history : CircBuf) (startEpoch endEpoch : Nat) :
    List (Option ValidatorHistoryEntry) :=
  let consecutive :=
    (List.range' (history.idx + 1) (maxItems - (history.idx + 1))).map history.arr ++
      (List.range (history.idx + 1)).map history.arr
  matchEpochs (epochs startEpoch endEpoch) (consecutive.filter fun entry =>
    decide (startEpoch ≤ entry.epoch ∧ entry.epoch ≤ endEpoch))

def epochCreditsRange (history : CircBuf) (startEpoch endEpoch : Nat) : List (Option Nat) :=
  (history.epochRange startEpoch endEpoch).map fun found => do
    let entry ← found
    if entry.epochCredits = ValidatorHistoryEntry.unset.epochCredits then none
    else some entry.epochCredits

/-- The ring of a full-size account before its first use. -/
def unused (arr : Nat → ValidatorHistoryEntry) : CircBuf where
  idx := maxItems - 1
  isEmpty := false
  arr := arr
  inBounds := by decide

/-- `for _ in 0..count`. -/
def pushUnset (history : CircBuf) (count : Nat) : CircBuf :=
  (List.range count).foldl (fun history _ => history.push .unset) history

/-- The ring that `realloc_validator_history_account` leaves, whatever the account
held. -/
def initial (arr : Nat → ValidatorHistoryEntry) : CircBuf :=
  { (unused arr).pushUnset maxItems with isEmpty := true }

end CircBuf

end Stakenet.History

import Stakenet.History.CircBuf

/-! The cluster history account: a ring of the blocks of each epoch. -/

namespace Stakenet.History

/-! ## One pass over epochs and entries -/

section MatchByEpoch

variable {β : Type} {epochOf : β → Nat}

/-- An entry is taken when its epoch comes up. -/
def matchByEpoch (epochOf : β → Nat) : List Nat → List β → List (Option β)
  | [], _ => []
  | _ :: epochs, [] => none :: matchByEpoch epochOf epochs []
  | epoch :: epochs, entry :: entries =>
      if epochOf entry = epoch then
        some entry :: matchByEpoch epochOf epochs entries
      else
        none :: matchByEpoch epochOf epochs (entry :: entries)

/-- One item for each epoch. -/
theorem length_matchByEpoch (epochs : List Nat) (entries : List β) :
    (matchByEpoch epochOf epochs entries).length = epochs.length := by
  induction epochs generalizing entries with
  | nil => rfl
  | cons epoch epochs induction =>
      cases entries with
      | nil => exact congrArg Nat.succ (induction [])
      | cons entry entries =>
          rw [matchByEpoch]
          split
          · exact congrArg Nat.succ (induction entries)
          · exact congrArg Nat.succ (induction (entry :: entries))

theorem filterMap_matchByEpoch_nil (epochs : List Nat) :
    (matchByEpoch epochOf epochs []).filterMap id = [] := by
  induction epochs with
  | nil => rfl
  | cons epoch epochs induction => exact induction

/-- A single entry is found once. -/
theorem filterMap_matchByEpoch_singleton {epochs : List Nat} {entry : β}
    (listed : epochOf entry ∈ epochs) :
    (matchByEpoch epochOf epochs [entry]).filterMap id = [entry] := by
  induction epochs with
  | nil => cases listed
  | cons epoch epochs induction =>
      rw [matchByEpoch]
      split
      case isTrue => exact congrArg (entry :: ·) (filterMap_matchByEpoch_nil epochs)
      case isFalse other => exact induction ((List.mem_cons.mp listed).resolve_left other)

end MatchByEpoch

/-! ## The account -/

structure ClusterHistoryEntry where
  totalBlocks : Nat
  epoch : Nat
  epochStartTimestamp : Nat
  deriving DecidableEq, Repr

/-- `ClusterHistoryEntry::default()` -/
def ClusterHistoryEntry.unset : ClusterHistoryEntry where
  totalBlocks := 2 ^ 32 - 1
  epoch := epochDefault
  epochStartTimestamp := 2 ^ 64 - 1

/-- `idx` is the position of the newest entry. -/
structure CircBufCluster where
  idx : Nat
  isEmpty : Bool
  arr : Nat → ClusterHistoryEntry
  inBounds : idx < maxItems

structure ClusterHistory where
  clusterHistoryLastUpdateSlot : Nat
  history : CircBufCluster

namespace CircBufCluster

def last (history : CircBufCluster) : Option ClusterHistoryEntry :=
  if history.isEmpty then none else some (history.arr history.idx)

def epochRange (history : CircBufCluster) (startEpoch endEpoch : Nat) :
    List (Option ClusterHistoryEntry) :=
  let consecutive :=
    (List.range' (history.idx + 1) (maxItems - (history.idx + 1))).map history.arr ++
      (List.range (history.idx + 1)).map history.arr
  matchByEpoch ClusterHistoryEntry.epoch (CircBuf.epochs startEpoch endEpoch)
    (consecutive.filter fun entry =>
      decide (startEpoch ≤ entry.epoch ∧ entry.epoch ≤ endEpoch))

def blocksOf (maybeEntry : Option ClusterHistoryEntry) : Option Nat :=
  (maybeEntry.map ClusterHistoryEntry.totalBlocks).filter fun blocks =>
    decide (blocks ≠ ClusterHistoryEntry.unset.totalBlocks)

def totalBlocksLatest (history : CircBufCluster) : Option Nat := blocksOf history.last

def totalBlocksRange (history : CircBufCluster) (startEpoch endEpoch : Nat) : List (Option Nat) :=
  (history.epochRange startEpoch endEpoch).map blocksOf

theorem length_totalBlocksRange (history : CircBufCluster) (startEpoch endEpoch : Nat) :
    (history.totalBlocksRange startEpoch endEpoch).length = endEpoch + 1 - startEpoch := by
  rw [totalBlocksRange, List.length_map, epochRange, length_matchByEpoch, CircBuf.epochs,
    List.length_range']

end CircBufCluster

end Stakenet.History

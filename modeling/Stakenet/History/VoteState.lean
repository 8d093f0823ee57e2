import Stakenet.Foundation.Bincode
import Stakenet.History.Setters

/-! The parser of vote accounts: it jumps to the fields that are needed instead of
decoding the whole state. -/

namespace Stakenet.History

open Bytes (Byte)
open Bincode (Reader)

/-! ## Slices -/

/-- `data[first..last]`. -/
def slice (data : List Byte) (first last : Nat) : Result (List Byte) :=
  if first ≤ last ∧ last ≤ data.length then .ok ((data.take last).drop first)
  else .error .panicked

/-- `data[first..]`. -/
def sliceFrom (data : List Byte) (first : Nat) : Result (List Byte) :=
  if first ≤ data.length then .ok (data.drop first) else .error .panicked

/-- `data[index]`. -/
def byteAt (data : List Byte) (index : Nat) : Result Nat :=
  match data[index]? with
  | some byte => .ok byte.toNat
  | none => .error .panicked

theorem slice_eq_ok {data bytes : List Byte} {first last : Nat} :
    slice data first last = .ok bytes ↔
      (first ≤ last ∧ last ≤ data.length) ∧ (data.drop first).take (last - first) = bytes := by
  rw [slice, ← List.drop_take]
  split <;> simp_all

theorem sliceFrom_eq_ok {data bytes : List Byte} {first : Nat} :
    sliceFrom data first = .ok bytes ↔ first ≤ data.length ∧ data.drop first = bytes := by
  rw [sliceFrom]
  split <;> simp_all

/-- A public key is its 32 bytes. -/
def pubkey : Reader Pubkey := return BitVec.ofNat 256 (← Reader.word 32)

/-- An account as the parser sees it. -/
structure AccountInfo where
  ownedByVoteProgram : Bool
  data : List Byte

namespace VoteStateVersions

def invalid : Result α := .error (.voteState .voteAccountDataNotValid)

/-- `bincode::deserialize` with any error replaced. -/
def deserializeAs (reader : Reader α) (bytes : List Byte) : Result α :=
  match reader.deserialize bytes with
  | some value => .ok value
  | none => invalid

/-- Every entry point begins with the check of the owner. -/
def ownedData (account : AccountInfo) : Result (List Byte) :=
  if account.ownedByVoteProgram then .ok account.data
  else .error (.voteState .constraintOwner)

/-! ## Layout -/

def voteStateCommissionIndex : Nat := 132
def voteState1160CommissionIndex : Nat := 68
def voteState1141CommissionIndex : Nat := 68
def voteState0235CommissionIndex : Nat := 1909
def maxCommissionBps : Nat := 10000
def bpsPerPercent : Nat := 100
def inflationRewardsCommissionBpsBytes : Nat := 2
def blockRevenueCommissionBpsBytes : Nat := 2
def pendingDelegatorRewardsBytes : Nat := 8
def collectionLenBytes : Nat := 8
def enumLenBytes : Nat := 4
def slotBytes : Nat := 8
def epochBytes : Nat := 8
def pubkeyBytes : Nat := 32

/-- `MAX_ITEMS` of the prior voters. -/
def maxPriorVoters : Nat := 32

/-! ## The node key -/

def deserializeNodePubkey (account : AccountInfo) : Result Pubkey := do
  let data ← ownedData account
  let nodePubkeyBytes ← slice data enumLenBytes (enumLenBytes + pubkeyBytes)
  deserializeAs pubkey nodePubkeyBytes

/-! ## Commission -/

def enumValueAtIndex (data : List Byte) (index : Nat) : Result Nat := do
  deserializeAs Reader.u32 (← slice data index (index + enumLenBytes))

/-- The byte at the index of the commission. -/
def commissionAt (data : List Byte) (index : Nat) : Result Nat := do
  if data.length < index then
    invalid
  else
    deserializeAs Reader.u8 (← sliceFrom data index)

/-- The commission of the newest version is in basis points. -/
def commissionFromBps (data : List Byte) : Result Nat := do
  if data.length < voteStateCommissionIndex + inflationRewardsCommissionBpsBytes then
    invalid
  else
    let bps ← deserializeAs Reader.u16 (← sliceFrom data voteStateCommissionIndex)
    if maxCommissionBps < bps then
      invalid
    else
      let commission := bps / bpsPerPercent
      if commission < 2 ^ 8 then .ok commission else invalid

def deserializeCommission (account : AccountInfo) : Result Nat := do
  let data ← ownedData account
  match ← enumValueAtIndex data 0 with
  | 0 => commissionAt data voteState0235CommissionIndex
  | 1 => commissionAt data voteState1141CommissionIndex
  | 2 => commissionAt data voteState1160CommissionIndex
  | 3 => commissionFromBps data
  | _ => invalid

/-! ## Epoch credits -/

def collectionLengthAtIndex (data : List Byte) (index : Nat) : Result Nat := do
  deserializeAs Reader.u64 (← slice data index (index + collectionLenBytes))

/-- The index after a collection whose elements have the given size. -/
def skipCollection (data : List Byte) (index elementBytes : Nat) : Result Nat := do
  let length ← collectionLengthAtIndex data index
  return index + collectionLenBytes + length * elementBytes

/-- The index after an option whose value has the given size. -/
def skipOption (data : List Byte) (index valueBytes : Nat) : Result Nat := do
  match ← byteAt data index with
  | 0 => return index + 1
  | 1 => return index + 1 + valueBytes
  | _ => invalid

def epochCreditsReader : Reader EpochCredits :=
  return ⟨← Reader.u64, ← Reader.u64, ← Reader.u64⟩

def deserializeEpochCreditsAtIndex (data : List Byte) (index : Nat) :
    Result (List EpochCredits) := do
  let length ← collectionLengthAtIndex data index
  let size := length * (epochBytes + 8 + 8)
  deserializeAs (Reader.vec epochCreditsReader)
    (← slice data index (index + collectionLenBytes + size))

def deserializeEpochCredits (account : AccountInfo) : Result (List EpochCredits) := do
  let data ← ownedData account
  match ← enumValueAtIndex data 0 with
  | 0 =>
      let priorVotersIdx := enumLenBytes + 2 * pubkeyBytes + epochBytes
      let priorVotersSize := maxPriorVoters * (pubkeyBytes + 2 * epochBytes + slotBytes) + 8 + 1
      let votesIdx := priorVotersIdx + priorVotersSize + pubkeyBytes + 1
      let rootSlotIdx ← skipCollection data votesIdx (slotBytes + 4)
      let epochCreditsIdx ← skipOption data rootSlotIdx 8
      deserializeEpochCreditsAtIndex data epochCreditsIdx
  | 1 =>
      let votesIdx := enumLenBytes + 2 * pubkeyBytes + 1
      let rootSlotIdx ← skipCollection data votesIdx (slotBytes + 4)
      let authorizedVotersIdx ← skipOption data rootSlotIdx slotBytes
      let priorVotersIdx ← skipCollection data authorizedVotersIdx (epochBytes + pubkeyBytes)
      let priorVotersLen := maxPriorVoters * (pubkeyBytes + 2 * epochBytes) + 8 + 1
      deserializeEpochCreditsAtIndex data (priorVotersIdx + priorVotersLen)
  | 2 =>
      let votesIdx := enumLenBytes + 2 * pubkeyBytes + 1
      let rootSlotIdx ← skipCollection data votesIdx (1 + slotBytes + 4)
      let authorizedVotersIdx ← skipOption data rootSlotIdx slotBytes
      let priorVotersIdx ← skipCollection data authorizedVotersIdx (epochBytes + pubkeyBytes)
      let priorVotersLen := maxPriorVoters * (pubkeyBytes + 2 * epochBytes) + 8 + 1
      deserializeEpochCreditsAtIndex data (priorVotersIdx + priorVotersLen)
  | 3 =>
      let blsKeyOptionVariantIdx := enumLenBytes + 4 * pubkeyBytes +
        inflationRewardsCommissionBpsBytes + blockRevenueCommissionBpsBytes +
        pendingDelegatorRewardsBytes
      let votesIdx ← skipOption data blsKeyOptionVariantIdx 48
      let rootSlotIdx ← skipCollection data votesIdx (1 + slotBytes + 4)
      let authorizedVotersIdx ← skipOption data rootSlotIdx slotBytes
      let epochCreditsIdx ← skipCollection data authorizedVotersIdx (epochBytes + pubkeyBytes)
      deserializeEpochCreditsAtIndex data epochCreditsIdx
  | _ => return []

end VoteStateVersions

end Stakenet.History

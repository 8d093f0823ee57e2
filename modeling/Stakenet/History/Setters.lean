import Stakenet.History.CircBuf

/-! The validator history account: the functions that write to its ring, the
update of the validator age and the copy of a vote account. -/

namespace Stakenet.History

abbrev Pubkey := BitVec 256

structure ValidatorHistory where
  lastIpTimestamp : Nat
  lastVersionTimestamp : Nat
  validatorAge : Nat
  validatorAgeLastUpdatedEpoch : Nat
  history : CircBuf

/-! ## Gossip data -/

inductive IpAddr
  | v4 (address : Ip)
  | v6 (address : BitVec 128)
  deriving DecidableEq, Repr

structure SocketAddr where
  ip : IpAddr
  port : Nat
  deriving DecidableEq, Repr

structure SocketEntry where
  key : Nat
  index : Nat
  offset : Nat
  deriving DecidableEq, Repr

structure Version where
  major : Nat
  minor : Nat
  patch : Nat
  commit : Nat
  featureSet : Nat
  client : Nat
  deriving DecidableEq, Repr

/-- Without the cache of socket addresses, which is the same for all. -/
structure ContactInfo where
  pubkey : Pubkey
  wallclock : Nat
  outset : Nat
  shredVersion : Nat
  version : Version
  addrs : List IpAddr
  sockets : List SocketEntry
  deriving DecidableEq, Repr

structure LegacyContactInfo where
  id : Pubkey
  gossip : SocketAddr
  tvu : SocketAddr
  tvuForwards : SocketAddr
  repair : SocketAddr
  tpu : SocketAddr
  tpuForwards : SocketAddr
  tpuVote : SocketAddr
  rpc : SocketAddr
  rpcPubsub : SocketAddr
  serveRepair : SocketAddr
  wallclock : Nat
  shredVersion : Nat
  deriving DecidableEq, Repr

structure LegacyVersion1 where
  major : Nat
  minor : Nat
  patch : Nat
  commit : Option Nat
  deriving DecidableEq, Repr

structure LegacyVersion2 where
  major : Nat
  minor : Nat
  patch : Nat
  commit : Option Nat
  featureSet : Nat
  deriving DecidableEq, Repr

structure LegacyVersion where
  sender : Pubkey
  wallclock : Nat
  version : LegacyVersion1
  deriving DecidableEq, Repr

structure Version2 where
  sender : Pubkey
  wallclock : Nat
  version : LegacyVersion2
  deriving DecidableEq, Repr

/-- `value as u8`. -/
def castU8 (value : Nat) : Nat := value % 2 ^ 8

def IpAddr.octets : IpAddr → Result Ip
  | .v4 address => .ok address
  | .v6 _ => fail .unsupportedIpFormat

/-- `contact_info.addrs[0]` panics on an empty list. -/
def ContactInfo.ip (contactInfo : ContactInfo) : Result Ip :=
  match contactInfo.addrs with
  | [] => .error .panicked
  | address :: _ => address.octets

/-! ## One entry per epoch -/

/-- What becomes of a write to an epoch before the newest that has no entry. -/
inductive LateWrite
  | skipped
  | refused

/-- The position of the first entry of an epoch, in the order of the array. -/
def CircBuf.findEpoch (history : CircBuf) (epoch : Nat) : Option Nat :=
  (List.range maxItems).find? fun position => (history.arr position).epoch = epoch

/-- The common shape of the setters: the entry of the epoch is changed, and one is
appended for an epoch after the newest. -/
def CircBuf.setEntry (late : LateWrite) (epoch : Nat)
    (change : ValidatorHistoryEntry → ValidatorHistoryEntry) (history : CircBuf) :
    Result CircBuf :=
  match history.last with
  | none => .ok (history.push (change (.ofEpoch epoch)))
  | some entry =>
      match compare entry.epoch epoch with
      | .eq => .ok (history.updateAt history.idx change)
      | .gt =>
          match history.findEpoch epoch, late with
          | some position, _ => .ok (history.updateAt position change)
          | none, .skipped => .ok history
          | none, .refused => fail .epochOutOfRange
      | .lt => .ok (history.push (change (.ofEpoch epoch)))

namespace ValidatorHistory

def setEntry (account : ValidatorHistory) (late : LateWrite) (epoch : Nat)
    (change : ValidatorHistoryEntry → ValidatorHistoryEntry) : Result ValidatorHistory := do
  return { account with history := ← account.history.setEntry late epoch change }

def setMevCommission (account : ValidatorHistory) (epoch commission mevEarned : Nat)
    (merkleRootUploadAuthority : MerkleRootUploadAuthority) : Result ValidatorHistory :=
  account.setEntry .skipped epoch fun entry =>
    { entry with
      mevEarned := mevEarned
      mevCommission := commission
      merkleRootUploadAuthority := merkleRootUploadAuthority }

def setPriorityFeesTransferredAndCommission (account : ValidatorHistory)
    (epoch commission priorityFeeTips : Nat)
    (merkleRootUploadAuthority : MerkleRootUploadAuthority) : Result ValidatorHistory :=
  account.setEntry .skipped epoch fun entry =>
    { entry with
      priorityFeeCommission := commission
      priorityFeeTips := priorityFeeTips
      priorityFeeMerkleRootUploadAuthority := merkleRootUploadAuthority }

def setStake (account : ValidatorHistory) (epoch stake rank : Nat) (isSuperminority : Bool) :
    Result ValidatorHistory :=
  account.setEntry .refused epoch fun entry =>
    { entry with
      activatedStakeLamports := stake
      rank := rank
      isSuperminority := isSuperminority.toNat }

def setTotalPriorityFeesAndBlockMetadata (account : ValidatorHistory)
    (epoch totalPriorityFees totalLeaderSlots blocksProduced highestOracleRecordedSlot : Nat) :
    Result ValidatorHistory :=
  account.setEntry .refused epoch fun entry =>
    { entry with
      totalPriorityFees := totalPriorityFees
      totalLeaderSlots := totalLeaderSlots
      blocksProduced := blocksProduced
      blockDataUpdatedAtSlot := highestOracleRecordedSlot }

def setCommissionAndSlot (account : ValidatorHistory) (epoch commission slot : Nat) :
    Result ValidatorHistory :=
  account.setEntry .skipped epoch fun entry =>
    { entry with commission := commission, voteAccountLastUpdateSlot := slot }

def setIsBamConnected (account : ValidatorHistory) (epoch isBamConnected : Nat) :
    Result ValidatorHistory :=
  account.setEntry .refused epoch fun entry => { entry with isBamConnected := isBamConnected }

def setContactInfo (account : ValidatorHistory) (epoch : Nat) (contactInfo : ContactInfo)
    (contactInfoTs : Nat) : Result ValidatorHistory := do
  let ip ← contactInfo.ip
  if contactInfoTs < account.lastIpTimestamp ∨ contactInfoTs < account.lastVersionTimestamp then
    fail .gossipDataTooOld
  else
    let dated := { account with
      lastIpTimestamp := contactInfoTs
      lastVersionTimestamp := contactInfoTs }
    dated.setEntry .skipped epoch fun entry =>
      { entry with
        ip := ip
        clientType := castU8 contactInfo.version.client
        version := ⟨castU8 contactInfo.version.major, castU8 contactInfo.version.minor,
          contactInfo.version.patch⟩ }

def setLegacyContactInfo (account : ValidatorHistory) (epoch : Nat)
    (legacyContactInfo : LegacyContactInfo) (contactInfoTs : Nat) : Result ValidatorHistory := do
  let ip ← legacyContactInfo.gossip.ip.octets
  if contactInfoTs < account.lastIpTimestamp then
    fail .gossipDataTooOld
  else
    let dated := { account with lastIpTimestamp := contactInfoTs }
    dated.setEntry .skipped epoch fun entry => { entry with ip := ip }

/-- What both kinds of version messages set. -/
def setClientVersion (account : ValidatorHistory) (epoch major minor patch versionTs : Nat) :
    Result ValidatorHistory :=
  if versionTs < account.lastVersionTimestamp then
    fail .gossipDataTooOld
  else
    let dated := { account with lastVersionTimestamp := versionTs }
    dated.setEntry .skipped epoch fun entry =>
      { entry with version := ⟨castU8 major, castU8 minor, patch⟩ }

def setVersion (account : ValidatorHistory) (epoch : Nat) (version : Version2)
    (versionTs : Nat) : Result ValidatorHistory :=
  account.setClientVersion epoch version.version.major version.version.minor
    version.version.patch versionTs

def setLegacyVersion (account : ValidatorHistory) (epoch : Nat) (legacyVersion : LegacyVersion)
    (versionTs : Nat) : Result ValidatorHistory :=
  account.setClientVersion epoch legacyVersion.version.major legacyVersion.version.minor
    legacyVersion.version.patch versionTs

end ValidatorHistory

/-! ## Vote credits -/

/-- One epoch of a vote account: the credits at its end and at its start. -/
structure EpochCredits where
  epoch : Nat
  current : Nat
  previous : Nat
  deriving DecidableEq, Repr

def getMinEpoch (epochCredits : List EpochCredits) : Result Nat :=
  match (epochCredits.map EpochCredits.epoch).min? with
  | none => fail .invalidEpochCredits
  | some epoch => castEpoch epoch

def getMaxEpoch (epochCredits : List EpochCredits) : Result Nat :=
  match (epochCredits.map EpochCredits.epoch).max? with
  | none => fail .invalidEpochCredits
  | some epoch => castEpoch epoch

/-- The credits earned in an epoch, as `u32`. Both `unwrap`s can panic. -/
def creditsEarned (credits : EpochCredits) : Result (Nat × Nat) :=
  if credits.epoch < epochDefault ∧ credits.previous ≤ credits.current then
    .ok (credits.epoch, (credits.current - credits.previous) % 2 ^ 32)
  else
    .error .panicked

/-- `HashMap::from_iter`: of two values for one key the later one stays. -/
def epochCreditsMap (epochCredits : List EpochCredits) : Result (List (Nat × Nat)) := do
  let earned ← epochCredits.mapM creditsEarned
  return earned.reverse

namespace CircBuf

/-- Inserts a blank entry for an epoch, if that is possible. -/
def insertBlank (history : CircBuf) (epoch : Nat) : CircBuf :=
  Outcome.commit history (history.insert (.ofEpoch epoch) epoch)

/-- Writes the credits of the epoch of one slot, if there are any. -/
def creditAt (history : CircBuf) (creditsMap : List (Nat × Nat)) (position : Nat) : CircBuf :=
  match creditsMap.lookup (history.arr position).epoch with
  | some credits => history.updateAt position fun entry => { entry with epochCredits := credits }
  | none => history

/-- The entries of the ring from the newest on, up to the one of the lowest epoch. -/
def writeCredits (creditsMap : List (Nat × Nat)) (minEpoch : Nat) :
    List Nat → CircBuf → CircBuf
  | [], history => history
  | i :: rest, history =>
      let position := (history.idx + maxItems - i) % maxItems
      let written := history.creditAt creditsMap position
      if (written.arr position).epoch = minEpoch then
        written
      else
        writeCredits creditsMap minEpoch rest written

end CircBuf

namespace ValidatorHistory

/-- Inserts entries for the epochs that have credits and no entry, as far as they
lie between the oldest and the newest. -/
def insertMissingEntries (account : ValidatorHistory) (epochCredits : List EpochCredits) :
    Result ValidatorHistory := do
  let startEpoch ← getMinEpoch epochCredits
  let endEpoch ← getMaxEpoch epochCredits
  let entries := (account.history.epochRange startEpoch endEpoch).map Option.isSome
  let creditsMap ← epochCreditsMap epochCredits
  let history := (entries.zip (CircBuf.epochs startEpoch endEpoch)).foldl
    (fun history (entryIsSome, epoch) =>
      if !entryIsSome && (creditsMap.lookup epoch).isSome then
        history.insertBlank epoch
      else
        history)
    account.history
  return { account with history := history }

def setEpochCredits (account : ValidatorHistory) (epochCredits : List EpochCredits) :
    Result ValidatorHistory :=
  if epochCredits.isEmpty then
    .ok account
  else do
    let creditsMap ← epochCreditsMap epochCredits
    let minEpoch ← getMinEpoch epochCredits
    return { account with
      history := account.history.writeCredits creditsMap minEpoch (List.range maxItems) }

/-! ## Validator age -/

/-- `u32::saturating_add`. -/
def saturatingAddU32 (left right : Nat) : Nat := min (left + right) (2 ^ 32 - 1)

/-- The age of an account that has never been counted. -/
def validatorAgeEpochDefault : Nat := 0

/-- Counts the completed epochs with credits. -/
def initializeValidatorAge (account : ValidatorHistory) (currentEpoch : Nat) :
    ValidatorHistory :=
  if currentEpoch = 0 then
    { account with validatorAge := 0, validatorAgeLastUpdatedEpoch := 0 }
  else
    let endEpoch := currentEpoch - 1
    let entries := (List.range maxItems).map account.history.arr
    let counted := entries.filter fun entry => decide (entry.epoch ≠ epochDefault ∧
      entry.epoch ≤ endEpoch ∧
      entry.epochCredits ≠ ValidatorHistoryEntry.unset.epochCredits ∧ 0 < entry.epochCredits)
    { account with
      validatorAge := counted.foldl (fun count _ => saturatingAddU32 count 1) 0
      validatorAgeLastUpdatedEpoch := endEpoch }

def countEpochsWithCreditsFromRange (creditsRange : List (Option Nat)) : Nat :=
  (creditsRange.filterMap id).foldl
    (fun total credits => if 0 < credits then saturatingAddU32 total 1 else total) 0

def updateValidatorAge (account : ValidatorHistory) (currentEpoch : Nat) : ValidatorHistory :=
  if account.validatorAgeLastUpdatedEpoch = validatorAgeEpochDefault then
    account.initializeValidatorAge currentEpoch
  else
    let endEpoch := currentEpoch - 1
    if endEpoch ≤ account.validatorAgeLastUpdatedEpoch then
      account
    else
      let startEpoch := min (account.validatorAgeLastUpdatedEpoch + 1) (2 ^ 16 - 1)
      if endEpoch < startEpoch then
        account
      else
        let newEpochsWithCredits := countEpochsWithCreditsFromRange
          (account.history.epochCreditsRange startEpoch endEpoch)
        { account with
          validatorAge := saturatingAddU32 account.validatorAge newEpochsWithCredits
          validatorAgeLastUpdatedEpoch := endEpoch }

/-- `handle_copy_vote_account`, after the vote account has been read. -/
def copyVoteAccount (account : ValidatorHistory) (clockEpoch slot commission : Nat)
    (epochCredits : List EpochCredits) : Result ValidatorHistory := do
  let epoch ← castEpoch clockEpoch
  let account ← account.setCommissionAndSlot epoch commission slot
  let account ← account.insertMissingEntries epochCredits
  let account ← account.setEpochCredits epochCredits
  return account.updateValidatorAge epoch

end ValidatorHistory

/-! ## Calls -/

/-- The functions that write to the ring, with their arguments. -/
inductive Setter
  | setMevCommission (epoch commission mevEarned : Nat)
      (merkleRootUploadAuthority : MerkleRootUploadAuthority)
  | setPriorityFeesTransferredAndCommission (epoch commission priorityFeeTips : Nat)
      (merkleRootUploadAuthority : MerkleRootUploadAuthority)
  | setStake (epoch stake rank : Nat) (isSuperminority : Bool)
  | setTotalPriorityFeesAndBlockMetadata
      (epoch totalPriorityFees totalLeaderSlots blocksProduced highestOracleRecordedSlot : Nat)
  | setCommissionAndSlot (epoch commission slot : Nat)
  | setContactInfo (epoch : Nat) (contactInfo : ContactInfo) (contactInfoTs : Nat)
  | setLegacyContactInfo (epoch : Nat) (legacyContactInfo : LegacyContactInfo)
      (contactInfoTs : Nat)
  | setVersion (epoch : Nat) (version : Version2) (versionTs : Nat)
  | setLegacyVersion (epoch : Nat) (legacyVersion : LegacyVersion) (versionTs : Nat)
  | setIsBamConnected (epoch isBamConnected : Nat)
  | insertMissingEntries (epochCredits : List EpochCredits)
  | setEpochCredits (epochCredits : List EpochCredits)

namespace Setter

/-- The epochs that a call names. -/
def epochs : Setter → List Nat
  | .setMevCommission epoch _ _ _ => [epoch]
  | .setPriorityFeesTransferredAndCommission epoch _ _ _ => [epoch]
  | .setStake epoch _ _ _ => [epoch]
  | .setTotalPriorityFeesAndBlockMetadata epoch _ _ _ _ => [epoch]
  | .setCommissionAndSlot epoch _ _ => [epoch]
  | .setContactInfo epoch _ _ => [epoch]
  | .setLegacyContactInfo epoch _ _ => [epoch]
  | .setVersion epoch _ _ => [epoch]
  | .setLegacyVersion epoch _ _ => [epoch]
  | .setIsBamConnected epoch _ => [epoch]
  | .insertMissingEntries epochCredits => epochCredits.map EpochCredits.epoch
  | .setEpochCredits epochCredits => epochCredits.map EpochCredits.epoch

def call (account : ValidatorHistory) : Setter → Result ValidatorHistory
  | .setMevCommission epoch commission mevEarned authority =>
      account.setMevCommission epoch commission mevEarned authority
  | .setPriorityFeesTransferredAndCommission epoch commission priorityFeeTips authority =>
      account.setPriorityFeesTransferredAndCommission epoch commission priorityFeeTips authority
  | .setStake epoch stake rank isSuperminority =>
      account.setStake epoch stake rank isSuperminority
  | .setTotalPriorityFeesAndBlockMetadata epoch fees leaderSlots blocks slot =>
      account.setTotalPriorityFeesAndBlockMetadata epoch fees leaderSlots blocks slot
  | .setCommissionAndSlot epoch commission slot =>
      account.setCommissionAndSlot epoch commission slot
  | .setContactInfo epoch contactInfo contactInfoTs =>
      account.setContactInfo epoch contactInfo contactInfoTs
  | .setLegacyContactInfo epoch legacyContactInfo contactInfoTs =>
      account.setLegacyContactInfo epoch legacyContactInfo contactInfoTs
  | .setVersion epoch version versionTs => account.setVersion epoch version versionTs
  | .setLegacyVersion epoch legacyVersion versionTs =>
      account.setLegacyVersion epoch legacyVersion versionTs
  | .setIsBamConnected epoch isBamConnected => account.setIsBamConnected epoch isBamConnected
  | .insertMissingEntries epochCredits => account.insertMissingEntries epochCredits
  | .setEpochCredits epochCredits => account.setEpochCredits epochCredits

/-- A failing call leaves the account as it was. -/
def execute (account : ValidatorHistory) (setter : Setter) : ValidatorHistory :=
  Outcome.commit account (setter.call account)

end Setter

end Stakenet.History

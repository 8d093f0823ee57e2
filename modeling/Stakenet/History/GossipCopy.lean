import Stakenet.History.VoteState

/-! Copying gossip data that the preceding instruction of the transaction has had
verified: the encoding of the data, and the handler. -/

namespace Stakenet.History

open Bytes (Byte)
open Bincode (Reader)

/-! ## Encodings -/

/-- The loop of `serde_varint`, with the number of bytes that may still come. Each
byte holds seven bits, and the last one is below 128. -/
def varintFrom (bits shift out : Nat) : Nat → Reader Nat
  | 0 => Reader.fail
  | remaining + 1 => do
      let byte ← Reader.u8
      let out := out ||| ((byte % 128) <<< shift) % 2 ^ bits
      if byte < 128 then
        if (out >>> shift) % 256 ≠ byte then Reader.fail
        else if byte = 0 ∧ (shift ≠ 0 ∨ out ≠ 0) then Reader.fail
        else return out
      else
        varintFrom bits (shift + 7) out remaining

def varint (bits : Nat) : Reader Nat := varintFrom bits 0 0 ((bits + 6) / 7)

def ipv4 : Reader Ip := return ⟨BitVec.ofNat 32 (← Reader.word 4)⟩

def ipv6 : Reader (BitVec 128) := return BitVec.ofNat 128 (← Reader.word 16)

def ipAddr : Reader IpAddr := do
  match ← Reader.u32 with
  | 0 => return .v4 (← ipv4)
  | 1 => return .v6 (← ipv6)
  | _ => Reader.fail

def socketAddr : Reader SocketAddr := return ⟨← ipAddr, ← Reader.u16⟩

def socketEntry : Reader SocketEntry := return ⟨← Reader.u8, ← Reader.u8, ← varint 16⟩

def versionReader : Reader Version := do
  let major ← varint 16
  let minor ← varint 16
  let patch ← varint 16
  let commit ← Reader.u32
  let featureSet ← Reader.u32
  let client ← varint 16
  return { major, minor, patch, commit, featureSet, client }

def legacyContactInfoReader : Reader LegacyContactInfo := do
  let id ← pubkey
  let gossip ← socketAddr
  let tvu ← socketAddr
  let tvuForwards ← socketAddr
  let repair ← socketAddr
  let tpu ← socketAddr
  let tpuForwards ← socketAddr
  let tpuVote ← socketAddr
  let rpc ← socketAddr
  let rpcPubsub ← socketAddr
  let serveRepair ← socketAddr
  let wallclock ← Reader.u64
  let shredVersion ← Reader.u16
  return { id, gossip, tvu, tvuForwards, repair, tpu, tpuForwards, tpuVote, rpc, rpcPubsub,
           serveRepair, wallclock, shredVersion }

def legacyVersion1 : Reader LegacyVersion1 :=
  return ⟨← Reader.u16, ← Reader.u16, ← Reader.u16, ← Reader.option Reader.u32⟩

def legacyVersion2 : Reader LegacyVersion2 :=
  return ⟨← Reader.u16, ← Reader.u16, ← Reader.u16, ← Reader.option Reader.u32, ← Reader.u32⟩

def legacyVersionReader : Reader LegacyVersion :=
  return ⟨← pubkey, ← Reader.u64, ← legacyVersion1⟩

def version2Reader : Reader Version2 :=
  return ⟨← pubkey, ← Reader.u64, ← legacyVersion2⟩

/-- The payloads that the program does not use have been left out of the type. -/
inductive CrdsData
  | legacyContactInfo (contactInfo : LegacyContactInfo)
  | vote
  | lowestSlot
  | legacySnapshotHashes
  | accountsHashes
  | epochSlots
  | legacyVersion (version : LegacyVersion)
  | version (version : Version2)
  | nodeInstance
  | duplicateShred
  | snapshotHashes
  | contactInfo (contactInfo : ContactInfo)
  deriving DecidableEq, Repr

section Decoding

/- The length of a `short_vec`, as the library reads it. -/
variable (shortU16 : Reader Nat)

def shortVec (reader : Reader α) : Reader (List α) := do Reader.times reader (← shortU16)

def contactInfoReader : Reader ContactInfo := do
  let pubkey ← pubkey
  let wallclock ← varint 64
  let outset ← Reader.u64
  let shredVersion ← Reader.u16
  let version ← versionReader
  let addrs ← shortVec shortU16 ipAddr
  let sockets ← shortVec shortU16 socketEntry
  return { pubkey, wallclock, outset, shredVersion, version, addrs, sockets }

def crdsData : Reader CrdsData := do
  match ← Reader.u32 with
  | 0 => return .legacyContactInfo (← legacyContactInfoReader)
  | 1 => return .vote
  | 2 => return .lowestSlot
  | 3 => return .legacySnapshotHashes
  | 4 => return .accountsHashes
  | 5 => return .epochSlots
  | 6 => return .legacyVersion (← legacyVersionReader)
  | 7 => return .version (← version2Reader)
  | 8 => return .nodeInstance
  | 9 => return .duplicateShred
  | 10 => return .snapshotHashes
  | 11 => return .contactInfo (← contactInfoReader shortU16)
  | _ => Reader.fail

end Decoding

/-! ## Transactions -/

inductive ProgramId
  | ed25519
  | other (key : Pubkey)
  deriving DecidableEq, Repr

structure Instruction where
  programId : ProgramId
  data : List Byte
  deriving DecidableEq, Repr

/-- The instructions of a transaction and the index of the running one, as the
instructions sysvar gives them. -/
structure Transaction where
  instructions : List Instruction
  current : Nat
  deriving DecidableEq, Repr

/-- `get_instruction_relative(-1, …)`. -/
def Transaction.precedingInstruction (transaction : Transaction) : Result Instruction :=
  if transaction.current = 0 then
    .error .external
  else
    match transaction.instructions[transaction.current - 1]? with
    | some preceding => .ok preceding
    | none => .error .external

structure Ed25519SignatureOffsets where
  signatureOffset : Nat
  signatureInstructionIndex : Nat
  publicKeyOffset : Nat
  publicKeyInstructionIndex : Nat
  messageDataOffset : Nat
  messageDataSize : Nat
  messageInstructionIndex : Nat
  deriving DecidableEq, Repr

/-- The fields in the order of the struct. -/
def Ed25519SignatureOffsets.reader : Reader Ed25519SignatureOffsets :=
  return ⟨← Reader.u16, ← Reader.u16, ← Reader.u16, ← Reader.u16, ← Reader.u16, ← Reader.u16,
    ← Reader.u16⟩

def pubkeySerializedSize : Nat := 32
def signatureSerializedSize : Nat := 64
def signatureOffsetsSerializedSize : Nat := 14
def signatureOffsetsStart : Nat := 2

/-! ## The handler -/

structure Clock where
  epoch : Nat
  unixTimestamp : Int
  deriving DecidableEq, Repr

/-- An early return with an error if the condition holds. -/
def rejectIf (condition : Prop) [Decidable condition] (error : ValidatorHistoryError) :
    Result Unit :=
  if condition then fail error else .ok ()

@[simp] theorem rejectIf_eq_ok {condition : Prop} [Decidable condition]
    {error : ValidatorHistoryError} {done : Unit} :
    rejectIf condition error = .ok done ↔ ¬condition := by
  unfold rejectIf
  split <;> simp_all

/-- The key and the time that a value names, for the supported kinds. -/
def CrdsData.origin : CrdsData → Result (Pubkey × Nat)
  | .legacyContactInfo data => .ok (data.id, data.wallclock)
  | .contactInfo data => .ok (data.pubkey, data.wallclock)
  | .version data => .ok (data.sender, data.wallclock)
  | .legacyVersion data => .ok (data.sender, data.wallclock)
  | _ => fail .gossipDataInvalid

/-- `clock.unix_timestamp.checked_add(600)? as u64`. -/
def Clock.latestTimestamp (clock : Clock) : Result Nat :=
  if clock.unixTimestamp + 600 < 2 ^ 63 then
    .ok ((clock.unixTimestamp + 600) % 2 ^ 64).toNat
  else
    fail .arithmeticError

def ValidatorHistory.setCrdsData (account : ValidatorHistory) (epoch lastSignedTs : Nat) :
    CrdsData → Result ValidatorHistory
  | .legacyContactInfo data => account.setLegacyContactInfo epoch data lastSignedTs
  | .contactInfo data => account.setContactInfo epoch data lastSignedTs
  | .version data => account.setVersion epoch data lastSignedTs
  | .legacyVersion data => account.setLegacyVersion epoch data lastSignedTs
  | _ => fail .gossipDataInvalid

def Ed25519SignatureOffsets.Misplaced (offsets : Ed25519SignatureOffsets) : Prop :=
  offsets.signatureInstructionIndex ≠ offsets.publicKeyInstructionIndex ∨
  offsets.signatureInstructionIndex ≠ offsets.messageInstructionIndex ∨
  offsets.publicKeyOffset ≠ signatureOffsetsStart + signatureOffsetsSerializedSize ∨
  offsets.signatureOffset ≠ offsets.publicKeyOffset + pubkeySerializedSize ∨
  offsets.messageDataOffset ≠ offsets.signatureOffset + signatureSerializedSize

instance (offsets : Ed25519SignatureOffsets) : Decidable offsets.Misplaced :=
  inferInstanceAs (Decidable (_ ∨ _ ∨ _ ∨ _ ∨ _))

/-- A value that the library could not decode. -/
def decoded (error : Failure) : Option α → Result α
  | some value => .ok value
  | none => .error error

@[simp] theorem decoded_eq_ok {error : Failure} {found : Option α} {value : α} :
    decoded error found = .ok value ↔ found = some value := by
  cases found <;> simp [decoded]

/-- The signer and the value that the verify instruction carries. -/
def readVerifyInstruction (shortU16 : Reader Nat) (data : List Byte) :
    Result (Pubkey × CrdsData) := do
  let offsetBytes ← slice data signatureOffsetsStart
    (signatureOffsetsStart + signatureOffsetsSerializedSize)
  let offsets ← decoded .panicked (Ed25519SignatureOffsets.reader.deserialize offsetBytes)
  rejectIf offsets.Misplaced .gossipDataInvalid
  let signerBytes ← slice data offsets.publicKeyOffset
    (offsets.publicKeyOffset + pubkeySerializedSize)
  let messageSigner ← decoded (.error .gossipDataInvalid) (pubkey.deserialize signerBytes)
  let messageData ← sliceFrom data offsets.messageDataOffset
  let crdsData ← decoded (.error .gossipDataInvalid) ((crdsData shortU16).deserialize messageData)
  return (messageSigner, crdsData)

/-- What is going to be stored. -/
structure GossipUpdate where
  epoch : Nat
  lastSignedTs : Nat
  crdsData : CrdsData
  deriving DecidableEq, Repr

/-- The checks of the handler. -/
def checkGossip (shortU16 : Reader Nat) (clock : Clock) (transaction : Transaction)
    (voteAccount : AccountInfo) : Result GossipUpdate := do
  let epoch ← castEpoch clock.epoch
  let verifyInstruction ← transaction.precedingInstruction
  rejectIf (verifyInstruction.programId ≠ .ed25519) .notSigVerified
  let (messageSigner, crdsData) ← readVerifyInstruction shortU16 verifyInstruction.data
  let (crdsDataPubkey, lastSignedTs) ← crdsData.origin
  let nodePubkey ← VoteStateVersions.deserializeNodePubkey voteAccount
  rejectIf (crdsDataPubkey ≠ nodePubkey ∨ messageSigner ≠ nodePubkey) .gossipDataInvalid
  let latestTimestamp ← clock.latestTimestamp
  rejectIf (latestTimestamp < lastSignedTs / 1000) .gossipDataInFuture
  return { epoch, lastSignedTs, crdsData }

def handleCopyGossipContactInfo (shortU16 : Reader Nat) (clock : Clock)
    (transaction : Transaction) (voteAccount : AccountInfo) (account : ValidatorHistory) :
    Result ValidatorHistory := do
  let update ← checkGossip shortU16 clock transaction voteAccount
  account.setCrdsData update.epoch update.lastSignedTs update.crdsData

end Stakenet.History

import Stakenet.History.GossipCopy
import Stakenet.History.RingInvariant

/-! What the ed25519 program verifies and what the handler stores: the two read the
same instruction independently. -/

namespace Stakenet.History

open Bytes (Byte)
open Bincode (Reader)

/-! ## The ed25519 program -/

/-- An index into the instructions, or the largest one for the instruction itself. -/
def Transaction.dataAt (transaction : Transaction) (own : List Byte) (index : Nat) :
    Option (List Byte) :=
  if index = 2 ^ 16 - 1 then some own
  else transaction.instructions[index]?.map Instruction.data

/-- So many bytes from an offset on. -/
def bytesAt (data : List Byte) (offset size : Nat) : Option (List Byte) :=
  if offset + size ≤ data.length then some ((data.drop offset).take size) else none

structure SignedMessage where
  key : Pubkey
  message : List Byte
  signature : List Byte
  deriving DecidableEq, Repr

/-- What an offset record refers to. -/
def Transaction.locate (transaction : Transaction) (own : List Byte)
    (offsets : Ed25519SignatureOffsets) : Option SignedMessage := do
  let signatureData ← transaction.dataAt own offsets.signatureInstructionIndex
  let signature ← bytesAt signatureData offsets.signatureOffset signatureSerializedSize
  let keyData ← transaction.dataAt own offsets.publicKeyInstructionIndex
  let key ← pubkey.deserialize (← bytesAt keyData offsets.publicKeyOffset pubkeySerializedSize)
  let messageData ← transaction.dataAt own offsets.messageInstructionIndex
  let message ← bytesAt messageData offsets.messageDataOffset offsets.messageDataSize
  return { key, message, signature }

/-- The number of offset records stands in the first byte. -/
def recordCount (data : List Byte) : Nat := (data.head?.map BitVec.toNat).getD 0

def recordAt (data : List Byte) (record : Nat) : Option Ed25519SignatureOffsets :=
  Ed25519SignatureOffsets.reader.deserialize
    (data.drop (signatureOffsetsStart + record * signatureOffsetsSerializedSize))

def Transaction.signedMessage (transaction : Transaction) (own : List Byte) (record : Nat) :
    Option SignedMessage :=
  (recordAt own record).bind (transaction.locate own)

/-- The program accepts an instruction if every record refers to a valid signature. -/
def Transaction.Accepted (transaction : Transaction) (Valid : SignedMessage → Prop)
    (own : List Byte) : Prop :=
  ∀ record < recordCount own, ∃ found, transaction.signedMessage own record = some found ∧
    Valid found

/-! ## What the handler stores -/

section Handler

variable (shortU16 : Reader Nat) (clock : Clock) (transaction : Transaction)
variable (voteAccount : AccountInfo) (account : ValidatorHistory)

/-- If the ed25519 program accepted the preceding instruction, a successful call
stores a value of which the node key has signed an encoding. -/
def StoresOnlySigned : Prop :=
  ∀ (Valid : SignedMessage → Prop) (verifyInstruction : Instruction),
    transaction.precedingInstruction = .ok verifyInstruction →
    transaction.Accepted Valid verifyInstruction.data →
    ∀ next, handleCopyGossipContactInfo shortU16 clock transaction voteAccount account = .ok next →
      ∃ update nodePubkey signed, checkGossip shortU16 clock transaction voteAccount = .ok update ∧
        VoteStateVersions.deserializeNodePubkey voteAccount = .ok nodePubkey ∧
        Valid signed ∧ signed.key = nodePubkey ∧
        (crdsData shortU16).deserialize signed.message = some update.crdsData

/-- Some record refers to the node key and to a message of the same value as the
bytes after the first signature. -/
def SignedRecord (own : List Byte) : Prop :=
  ∃ record < recordCount own, ∃ found, transaction.signedMessage own record = some found ∧
    VoteStateVersions.deserializeNodePubkey voteAccount = .ok found.key ∧
    (crdsData shortU16).deserialize found.message =
      (crdsData shortU16).deserialize (own.drop 112)

/-- The first record refers to the instruction itself, and its message is not
shorter than the value. -/
def SelfContained (own : List Byte) : Prop :=
  0 < recordCount own ∧ ∃ offsets value rest, recordAt own 0 = some offsets ∧
    (offsets.messageInstructionIndex = 2 ^ 16 - 1 ∨
      offsets.messageInstructionIndex + 1 = transaction.current) ∧
    (crdsData shortU16).run (own.drop 112) = some (value, rest) ∧
    (own.drop 112).length - rest.length ≤ offsets.messageDataSize

variable {shortU16 clock transaction voteAccount account}

/-- A record in its proper place has all fields but the message size fixed. -/
theorem Ed25519SignatureOffsets.eq_of_not_misplaced {offsets : Ed25519SignatureOffsets}
    (placed : ¬offsets.Misplaced) :
    offsets.publicKeyOffset = 16 ∧ offsets.signatureOffset = 48 ∧
      offsets.messageDataOffset = 112 ∧
      offsets.signatureInstructionIndex = offsets.messageInstructionIndex ∧
      offsets.publicKeyInstructionIndex = offsets.messageInstructionIndex := by
  simp only [Misplaced, not_or, Decidable.not_not, signatureOffsetsStart,
    signatureOffsetsSerializedSize, pubkeySerializedSize, signatureSerializedSize] at placed
  omega

/-- The handler reads the first record and takes the fields from fixed places. -/
theorem readVerifyInstruction_eq_ok {own : List Byte} {signer : Pubkey} {value : CrdsData}
    (read : readVerifyInstruction shortU16 own = .ok (signer, value)) :
    ∃ offsets, recordAt own 0 = some offsets ∧ ¬offsets.Misplaced ∧
      pubkey.deserialize ((own.drop 16).take 32) = some signer ∧
      (crdsData shortU16).deserialize (own.drop 112) = some value := by
  simp only [readVerifyInstruction, Outcome.bind_eq_ok, slice_eq_ok, sliceFrom_eq_ok,
    decoded_eq_ok, rejectIf_eq_ok, Outcome.pure_eq_ok, Prod.mk.injEq] at read
  rcases read with ⟨_, ⟨_, rfl⟩, offsets, isOffsets, _, placed, _, ⟨_, rfl⟩, _, isSigner, _,
    ⟨_, rfl⟩, _, isValue, rfl, rfl⟩
  rcases Ed25519SignatureOffsets.eq_of_not_misplaced placed with
    ⟨keyOffset, _, messageOffset, _, _⟩
  rw [keyOffset] at isSigner
  rw [messageOffset] at isValue
  exact ⟨offsets, Reader.deserialize_of_take isOffsets, placed, isSigner, isValue⟩

theorem checkGossip_eq_ok {update : GossipUpdate} {verifyInstruction : Instruction}
    (preceding : transaction.precedingInstruction = .ok verifyInstruction)
    (checked : checkGossip shortU16 clock transaction voteAccount = .ok update) :
    ∃ nodePubkey, VoteStateVersions.deserializeNodePubkey voteAccount = .ok nodePubkey ∧
      readVerifyInstruction shortU16 verifyInstruction.data =
        .ok (nodePubkey, update.crdsData) := by
  simp only [checkGossip, preceding, Outcome.ok_bind, Outcome.bind_eq_ok, rejectIf_eq_ok,
    Outcome.pure_eq_ok] at checked
  rcases checked with ⟨_, _, _, _, ⟨signer, crdsData⟩, read, _, _, nodePubkey, isNode, _, matching,
    _, _, _, _, rfl⟩
  rw [not_or, Decidable.not_not, Decidable.not_not] at matching
  have isSigner : signer = nodePubkey := matching.2
  rw [isSigner] at read
  exact ⟨nodePubkey, isNode, read⟩

theorem handleCopyGossipContactInfo_eq_ok {next : ValidatorHistory}
    (succeeded : handleCopyGossipContactInfo shortU16 clock transaction voteAccount account =
      .ok next) :
    ∃ update, checkGossip shortU16 clock transaction voteAccount = .ok update := by
  simp only [handleCopyGossipContactInfo, Outcome.bind_eq_ok] at succeeded
  rcases succeeded with ⟨update, checked, _⟩
  exact ⟨update, checked⟩

/-- Both ways of referring to the preceding instruction. -/
theorem dataAt_itself {verifyInstruction : Instruction}
    (preceding : transaction.precedingInstruction = .ok verifyInstruction) {index : Nat}
    (itself : index = 2 ^ 16 - 1 ∨ index + 1 = transaction.current) :
    transaction.dataAt verifyInstruction.data index = some verifyInstruction.data := by
  rw [Transaction.dataAt]
  split
  case isTrue => rfl
  case isFalse other =>
    have place : transaction.current - 1 = index := by omega
    rw [Transaction.precedingInstruction, if_neg (by omega), place] at preceding
    split at preceding
    case h_1 found there =>
      cases preceding
      rw [there]
      rfl
    case h_2 => cases preceding

/-- A record of the instruction itself refers to what the handler reads. -/
theorem signedRecord_of_selfContained {verifyInstruction : Instruction}
    (preceding : transaction.precedingInstruction = .ok verifyInstruction)
    {nodePubkey : Pubkey} {value : CrdsData}
    (isNode : VoteStateVersions.deserializeNodePubkey voteAccount = .ok nodePubkey)
    (read : readVerifyInstruction shortU16 verifyInstruction.data = .ok (nodePubkey, value))
    {Valid : SignedMessage → Prop} (accepted : transaction.Accepted Valid verifyInstruction.data)
    (selfContained : SelfContained shortU16 transaction verifyInstruction.data) :
    SignedRecord shortU16 transaction voteAccount verifyInstruction.data := by
  rcases selfContained with ⟨counted, offsets, decodedValue, rest, isRecord, itself, run, covers⟩
  rcases readVerifyInstruction_eq_ok read with ⟨_, sameRecord, placed, isSigner, _⟩
  rw [isRecord] at sameRecord
  cases sameRecord
  rcases Ed25519SignatureOffsets.eq_of_not_misplaced placed with
    ⟨keyOffset, _, messageOffset, signatureIndex, keyIndex⟩
  rcases accepted 0 counted with ⟨found, located, _⟩
  refine ⟨0, counted, found, located, ?_⟩
  simp only [Transaction.signedMessage, isRecord, Option.bind_some, Transaction.locate, keyIndex,
    signatureIndex, dataAt_itself preceding itself, keyOffset, messageOffset, bytesAt,
    pubkeySerializedSize, bind, Option.bind_eq_some_iff] at located
  rcases located with ⟨signature, _, keyBytes, isKeyBytes, key, isKey, message, isMessage, isFound⟩
  cases isFound
  split at isKeyBytes
  case isFalse => cases isKeyBytes
  case isTrue =>
    cases isKeyBytes
    rw [isSigner, Option.some.injEq] at isKey
    split at isMessage
    case isFalse => cases isMessage
    case isTrue =>
      cases isMessage
      rw [← isKey]
      refine ⟨isNode, ?_⟩
      rw [Reader.deserialize_take run covers]
      exact (Reader.deserialize_eq_some.mpr ⟨rest, run⟩).symm

/-- Exactly the calls for which some record refers to what is stored are safe; a
first record of the instruction itself is one. -/
theorem storesOnlySigned_iff {verifyInstruction : Instruction} {next : ValidatorHistory}
    (preceding : transaction.precedingInstruction = .ok verifyInstruction)
    (acceptable : ∃ Valid, transaction.Accepted Valid verifyInstruction.data)
    (succeeded : handleCopyGossipContactInfo shortU16 clock transaction voteAccount account =
      .ok next) :
    (StoresOnlySigned shortU16 clock transaction voteAccount account ↔
      SignedRecord shortU16 transaction voteAccount verifyInstruction.data) ∧
    (SelfContained shortU16 transaction verifyInstruction.data →
      SignedRecord shortU16 transaction voteAccount verifyInstruction.data) := by
  rcases handleCopyGossipContactInfo_eq_ok succeeded with ⟨update, checked⟩
  rcases checkGossip_eq_ok preceding checked with ⟨nodePubkey, isNode, read⟩
  rcases readVerifyInstruction_eq_ok read with ⟨_, _, _, _, isValue⟩
  rcases acceptable with ⟨Valid, accepted⟩
  refine ⟨⟨fun onlySigned => ?_, fun signedRecord => ?_⟩,
    signedRecord_of_selfContained preceding isNode read accepted⟩
  · -- The weakest verifier that accepts knows only what the records refer to.
    have weakest : transaction.Accepted
        (fun found => ∃ record < recordCount verifyInstruction.data,
          transaction.signedMessage verifyInstruction.data record = some found)
        verifyInstruction.data := by
      intro record counted
      rcases accepted record counted with ⟨found, located, _⟩
      exact ⟨found, located, record, counted, located⟩
    rcases onlySigned _ verifyInstruction preceding weakest next succeeded with
      ⟨sameUpdate, sameNode, signed, checkedAgain, isSameNode, ⟨record, counted, located⟩, isKey,
        isMessage⟩
    rw [checked] at checkedAgain
    cases checkedAgain
    refine ⟨record, counted, signed, located, ?_, ?_⟩
    · rw [isKey]
      exact isSameNode
    · rw [isMessage, isValue]
  · intro anyValid otherInstruction precedingAgain acceptedAgain _ _
    rw [preceding] at precedingAgain
    cases precedingAgain
    rcases signedRecord with ⟨record, counted, found, located, isKey, isMessage⟩
    rcases acceptedAgain record counted with ⟨signed, locatedAgain, valid⟩
    rw [located] at locatedAgain
    cases locatedAgain
    rw [isValue] at isMessage
    exact ⟨update, found.key, found, checked, isKey, valid, rfl, isMessage⟩

end Handler

/-! ## Two transactions -/

/-- Lengths below 128 take one byte. -/
def shortLength : Reader Nat := do
  let byte ← Reader.u8
  if byte < 128 then return byte else Reader.fail

/-- A version message of the key that consists of one byte repeated. -/
def versionMessage (key : Byte) (wallclock : Nat) : List Byte :=
  Bincode.digits 4 7 ++ List.replicate 32 key ++ Bincode.digits 8 wallclock ++ Bincode.digits 2 2 ++
    Bincode.digits 2 0 ++ Bincode.digits 2 14 ++ [0] ++ Bincode.digits 4 0

/-- An instruction with one record that refers to the given instruction. -/
def verifyData (index size : Nat) (key : Byte) (message : List Byte) : List Byte :=
  [1, 0] ++ Bincode.digits 2 48 ++ Bincode.digits 2 index ++ Bincode.digits 2 16 ++
    Bincode.digits 2 index ++ Bincode.digits 2 112 ++ Bincode.digits 2 size ++
    Bincode.digits 2 index ++ List.replicate 32 key ++ List.replicate 64 0 ++ message

def noon : Clock := ⟨800, 1700000000⟩

/-- The vote account of the node whose key consists of sevens. -/
def nodeVoteAccount : AccountInfo := ⟨true, Bincode.digits 4 3 ++ List.replicate 32 7⟩

/-- The record refers to its own instruction, which holds the message. -/
def versionTransaction (wallclock : Nat) : Transaction where
  instructions :=
    [⟨.ed25519, verifyData (2 ^ 16 - 1) 55 7 (versionMessage 7 wallclock)⟩, ⟨.other 1, []⟩]
  current := 1

def honestTransaction : Transaction := versionTransaction 5000

/-- The record refers to the first instruction, which holds a message of another
key. -/
def forgedTransaction : Transaction where
  instructions := [⟨.other 0, verifyData 0 1 9 [5]⟩,
    ⟨.ed25519, verifyData 0 1 7 (versionMessage 7 5000)⟩, ⟨.other 1, []⟩]
  current := 2

theorem handle_versionMessage {transaction : Transaction} {version : Version2}
    (checked : checkGossip shortLength noon transaction nodeVoteAccount =
      .ok ⟨800, 5000, .version version⟩) :
    ∃ next, handleCopyGossipContactInfo shortLength noon transaction nodeVoteAccount .blank =
      .ok next := by
  rcases ValidatorHistory.blank.history.setEntry_skipped 800 fun entry =>
    { entry with version := ⟨castU8 version.version.major, castU8 version.version.minor,
        version.version.patch⟩ } with ⟨history, written⟩
  refine ⟨{ ValidatorHistory.blank with lastVersionTimestamp := 5000, history := history }, ?_⟩
  rw [handleCopyGossipContactInfo, checked, Outcome.ok_bind]
  simp only [ValidatorHistory.setCrdsData, ValidatorHistory.setVersion,
    ValidatorHistory.setClientVersion]
  rw [if_neg (by decide), ValidatorHistory.setEntry, written]
  rfl

theorem checkGossip_honest :
    checkGossip shortLength noon honestTransaction nodeVoteAccount =
      .ok ⟨800, 5000, .version ⟨BitVec.ofNat 256 (Bincode.number (List.replicate 32 7)), 5000,
        ⟨2, 0, 14, none, 0⟩⟩⟩ := by
  decide +kernel

theorem checkGossip_forged :
    checkGossip shortLength noon forgedTransaction nodeVoteAccount =
      .ok ⟨800, 5000, .version ⟨BitVec.ofNat 256 (Bincode.number (List.replicate 32 7)), 5000,
        ⟨2, 0, 14, none, 0⟩⟩⟩ := by
  decide +kernel

theorem storesOnlySigned_iff_honest :
    ∃ next, handleCopyGossipContactInfo shortLength noon honestTransaction nodeVoteAccount .blank =
        .ok next ∧
      (StoresOnlySigned shortLength noon honestTransaction nodeVoteAccount .blank ↔
        SignedRecord shortLength honestTransaction nodeVoteAccount
          (verifyData (2 ^ 16 - 1) 55 7 (versionMessage 7 5000))) ∧
      (SelfContained shortLength honestTransaction
          (verifyData (2 ^ 16 - 1) 55 7 (versionMessage 7 5000)) →
        SignedRecord shortLength honestTransaction nodeVoteAccount
          (verifyData (2 ^ 16 - 1) 55 7 (versionMessage 7 5000))) := by
  rcases handle_versionMessage checkGossip_honest with ⟨next, succeeded⟩
  have accepted : honestTransaction.Accepted (fun _ => True)
      (verifyData (2 ^ 16 - 1) 55 7 (versionMessage 7 5000)) := by
    intro record counted
    have only : record = 0 := Nat.lt_one_iff.mp counted
    have located : (honestTransaction.signedMessage
        (verifyData (2 ^ 16 - 1) 55 7 (versionMessage 7 5000)) 0).isSome = true := by
      decide +kernel
    rcases Option.isSome_iff_exists.mp located with ⟨found, isFound⟩
    refine ⟨found, ?_, trivial⟩
    rw [only]
    exact isFound
  exact ⟨next, succeeded, storesOnlySigned_iff rfl ⟨_, accepted⟩ succeeded⟩

/-- A message of another key is verified, and one that nobody signed is stored. -/
theorem not_storesOnlySigned :
    ¬StoresOnlySigned shortLength noon forgedTransaction nodeVoteAccount .blank := by
  intro onlySigned
  rcases handle_versionMessage checkGossip_forged with ⟨next, succeeded⟩
  have accepted : forgedTransaction.Accepted
      (fun signed => signed.key = BitVec.ofNat 256 (Bincode.number (List.replicate 32 9)))
      (verifyData 0 1 7 (versionMessage 7 5000)) := by
    intro record counted
    have only : record = 0 := Nat.lt_one_iff.mp counted
    have located : (forgedTransaction.signedMessage
        (verifyData 0 1 7 (versionMessage 7 5000)) 0).map SignedMessage.key =
          some (BitVec.ofNat 256 (Bincode.number (List.replicate 32 9))) := by
      decide +kernel
    rcases Option.map_eq_some_iff.mp located with ⟨found, isFound, isKey⟩
    refine ⟨found, ?_, isKey⟩
    rw [only]
    exact isFound
  have preceding : forgedTransaction.precedingInstruction =
      .ok ⟨.ed25519, verifyData 0 1 7 (versionMessage 7 5000)⟩ := by
    decide +kernel
  rcases onlySigned _ _ preceding accepted next succeeded with
    ⟨_, nodePubkey, signed, _, isNode, isOther, isKey, _⟩
  have node : VoteStateVersions.deserializeNodePubkey nodeVoteAccount =
      .ok (BitVec.ofNat 256 (Bincode.number (List.replicate 32 7))) := by
    decide +kernel
  rw [node, Except.ok.injEq] at isNode
  rw [isOther, ← isNode] at isKey
  have different : BitVec.ofNat 256 (Bincode.number (List.replicate 32 9)) ≠
      BitVec.ofNat 256 (Bincode.number (List.replicate 32 7)) := by
    decide +kernel
  exact different isKey

end Stakenet.History

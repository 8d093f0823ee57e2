import Stakenet.History.CrdsFormat
import Stakenet.History.ProgramHistories
import Stakenet.Keeper.Basic

/-! The upload of gossip data: the transaction that the keeper builds from a signed contact info,
and what the ed25519 program and the history program make of it. -/

namespace Stakenet.Keeper.GossipUpload

open Bytes (Byte)
open Bincode (Canonical Reader canonical_word digits)
open History

/-! ## The verify instruction -/

/-- An ed25519 signature has 64 bytes. -/
abbrev Signature := { bytes : List Byte // bytes.length = signatureSerializedSize }

def dataStart : Nat := signatureOffsetsSerializedSize + signatureOffsetsStart

/-- The bytes of the struct, in the order of its fields. -/
def writeOffsets (offsets : Ed25519SignatureOffsets) : List Byte :=
  digits 2 offsets.signatureOffset ++ digits 2 offsets.signatureInstructionIndex ++
    digits 2 offsets.publicKeyOffset ++ digits 2 offsets.publicKeyInstructionIndex ++
    digits 2 offsets.messageDataOffset ++ digits 2 offsets.messageDataSize ++
    digits 2 offsets.messageInstructionIndex

/-- The size of the message is cut to `u16`. -/
def verifyOffsets (message : List Byte) : Ed25519SignatureOffsets :=
  let publicKeyOffset := dataStart
  let signatureOffset := publicKeyOffset + pubkeySerializedSize
  let messageDataOffset := signatureOffset + signatureSerializedSize
  { signatureOffset := signatureOffset % 2 ^ 16
    signatureInstructionIndex := 2 ^ 16 - 1
    publicKeyOffset := publicKeyOffset % 2 ^ 16
    publicKeyInstructionIndex := 2 ^ 16 - 1
    messageDataOffset := messageDataOffset % 2 ^ 16
    messageDataSize := message.length % 2 ^ 16
    messageInstructionIndex := 2 ^ 16 - 1 }

/-- One signature, a byte of padding, the offsets, and what they refer to. -/
def buildVerifySignatureIx (signature : Signature) (pubkey : Pubkey) (message : List Byte) :
    Instruction where
  programId := .ed25519
  data := [1, 0] ++ (writeOffsets (verifyOffsets message) ++ (Pubkey.write pubkey ++
    (signature.val ++ message)))

/-! ## The transaction -/

structure GossipEntry where
  voteAccount : Pubkey
  signature : Signature
  message : List Byte
  identity : Pubkey
  signer : Pubkey

def setComputeUnitLimit (units : Nat) : Instruction :=
  ⟨.other computeBudgetProgram, setComputeUnitLimitData units⟩

def setComputeUnitPrice (microLamports : Nat) : Instruction :=
  ⟨.other computeBudgetProgram, setComputeUnitPriceData microLamports⟩

section Transactions

/- The key of the history program, and the discriminator of its instruction. -/
variable (programId : Pubkey) (discriminator : List Byte)

def GossipEntry.buildUpdateTx (entry : GossipEntry) (priorityFee : Nat) : List Instruction :=
  [setComputeUnitLimit 100000, setComputeUnitPrice priorityFee,
    buildVerifySignatureIx entry.signature entry.identity entry.message,
    ⟨.other programId, discriminator⟩]

/-- The transaction when its last instruction runs. -/
def GossipEntry.transaction (entry : GossipEntry) (priorityFee : Nat) : Transaction where
  instructions := entry.buildUpdateTx programId discriminator priorityFee
  current := 3

end Transactions

/-! ## The choice of entries -/

/-- A signed value of the gossip table. Only contact infos are looked at. -/
structure CrdsValue where
  contactInfo : Option ContactInfo
  signature : Signature
  signableData : List Byte

/-- The value can be expected to pass the checks of the program. -/
def checkEntryValid (entry : CrdsValue) (validatorHistory : ValidatorHistory)
    (validatorIdentity : Pubkey) : Bool :=
  match entry.contactInfo with
  | none => false
  | some contactInfo =>
      if contactInfo.wallclock < validatorHistory.lastIpTimestamp ∨
          contactInfo.wallclock < validatorHistory.lastVersionTimestamp then
        false
      else
        decide (contactInfo.pubkey = validatorIdentity)

/-- The entry of a validator, if the table has a value that is valid. -/
def buildGossipEntry (voteAccount validatorIdentity : Pubkey) (validatorHistory : ValidatorHistory)
    (crds : Pubkey → Option CrdsValue) (signer : Pubkey) : Option GossipEntry :=
  match crds validatorIdentity with
  | none => none
  | some entry =>
      if checkEntryValid entry validatorHistory validatorIdentity then
        entry.contactInfo.map fun contactInfo =>
          { voteAccount := voteAccount
            signature := entry.signature
            message := entry.signableData
            identity := contactInfo.pubkey
            signer := signer }
      else
        none

/-! ## What the programs read -/

/-- A part of a string, with what is before and after it. -/
theorem slice_middle {front middle back : List Byte} {first last : Nat}
    (isFirst : front.length = first) (isLast : last = first + middle.length) :
    slice (front ++ (middle ++ back)) first last = .ok middle := by
  rw [slice_eq_ok, List.drop_left' isFirst, isLast, Nat.add_sub_cancel_left, List.take_left' rfl]
  refine ⟨⟨Nat.le_add_right _ _, ?_⟩, rfl⟩
  rw [List.length_append, List.length_append, isFirst, ← Nat.add_assoc]
  exact Nat.le_add_right _ _

theorem sliceFrom_end {front back : List Byte} {first : Nat} (isFirst : front.length = first) :
    sliceFrom (front ++ back) first = .ok back := by
  rw [sliceFrom_eq_ok, List.drop_left' isFirst, List.length_append, isFirst]
  exact ⟨Nat.le_add_right _ _, rfl⟩

theorem bytesAt_middle {front middle back : List Byte} {offset size : Nat}
    (isOffset : front.length = offset) (isSize : middle.length = size) :
    bytesAt (front ++ (middle ++ back)) offset size = some middle := by
  rw [bytesAt, List.drop_left' isOffset, List.take_left' isSize, if_pos]
  rw [List.length_append, List.length_append, isOffset, isSize, ← Nat.add_assoc]
  exact Nat.le_add_right _ _

theorem bytesAt_end {front back : List Byte} {offset : Nat} (isOffset : front.length = offset) :
    bytesAt (front ++ back) offset back.length = some back := by
  rw [bytesAt, List.drop_left' isOffset, List.take_length, List.length_append, isOffset,
    if_pos (Nat.le_refl _)]

structure OffsetsInRange (offsets : Ed25519SignatureOffsets) : Prop where
  signatureOffset : offsets.signatureOffset < 2 ^ 16
  signatureInstructionIndex : offsets.signatureInstructionIndex < 2 ^ 16
  publicKeyOffset : offsets.publicKeyOffset < 2 ^ 16
  publicKeyInstructionIndex : offsets.publicKeyInstructionIndex < 2 ^ 16
  messageDataOffset : offsets.messageDataOffset < 2 ^ 16
  messageDataSize : offsets.messageDataSize < 2 ^ 16
  messageInstructionIndex : offsets.messageInstructionIndex < 2 ^ 16

theorem offsets_canonical :
    Canonical Ed25519SignatureOffsets.reader writeOffsets OffsetsInRange := by
  refine .record ((canonical_word 2).field Ed25519SignatureOffsets.signatureOffset fun _ =>
    (canonical_word 2).field Ed25519SignatureOffsets.signatureInstructionIndex fun _ =>
    (canonical_word 2).field Ed25519SignatureOffsets.publicKeyOffset fun _ =>
    (canonical_word 2).field Ed25519SignatureOffsets.publicKeyInstructionIndex fun _ =>
    (canonical_word 2).field Ed25519SignatureOffsets.messageDataOffset fun _ =>
    (canonical_word 2).field Ed25519SignatureOffsets.messageDataSize fun _ =>
    (canonical_word 2).field Ed25519SignatureOffsets.messageInstructionIndex fun _ =>
    .finish fun offsets => ?_) (fun offsets => ?_) fun offsets => ?_
  · cases offsets
    simp [and_assoc]
  · simp [writeOffsets]
  · constructor
    · intro ranges
      rcases ranges with ⟨first, second, third, fourth, fifth, sixth, seventh, _⟩
      exact ⟨first, second, third, fourth, fifth, sixth, seventh⟩
    · intro ranges
      exact ⟨ranges.signatureOffset, ranges.signatureInstructionIndex, ranges.publicKeyOffset,
        ranges.publicKeyInstructionIndex, ranges.messageDataOffset, ranges.messageDataSize,
        ranges.messageInstructionIndex, trivial⟩

theorem verifyOffsets_inRange (message : List Byte) : OffsetsInRange (verifyOffsets message) := by
  constructor
  all_goals
    simp only [verifyOffsets]
    omega

theorem verifyOffsets_placed (message : List Byte) : ¬(verifyOffsets message).Misplaced := by
  simp [verifyOffsets, Ed25519SignatureOffsets.Misplaced, dataStart, signatureOffsetsStart,
    signatureOffsetsSerializedSize, pubkeySerializedSize, signatureSerializedSize]

theorem length_writeOffsets (offsets : Ed25519SignatureOffsets) :
    (writeOffsets offsets).length = signatureOffsetsSerializedSize := by
  simp [writeOffsets, signatureOffsetsSerializedSize]

theorem length_writePubkey (key : Pubkey) : (Pubkey.write key).length = pubkeySerializedSize :=
  Bincode.length_digits _ _

section Verify

variable {shortU16 : Reader Nat} (signature : Signature) (key : Pubkey) (message : List Byte)

/-- The parts of the data, each after what is in front of it. -/
theorem verifyData_parts :
    let data := (buildVerifySignatureIx signature key message).data
    let header := [1, 0] ++ writeOffsets (verifyOffsets message)
    data = header ++ (Pubkey.write key ++ (signature.val ++ message)) ∧
      data = (header ++ Pubkey.write key) ++ (signature.val ++ message) ∧
      data = (header ++ Pubkey.write key ++ signature.val) ++ message := by
  simp [buildVerifySignatureIx]

theorem length_header :
    ([1, 0] ++ writeOffsets (verifyOffsets message)).length = dataStart := by
  rw [List.length_append, length_writeOffsets]
  rfl

theorem length_beforeSignature :
    ([1, 0] ++ writeOffsets (verifyOffsets message) ++ Pubkey.write key).length =
      dataStart + pubkeySerializedSize := by
  rw [List.length_append, length_header, length_writePubkey]

theorem length_beforeMessage :
    ([1, 0] ++ writeOffsets (verifyOffsets message) ++ Pubkey.write key ++
      signature.val).length = dataStart + pubkeySerializedSize + signatureSerializedSize := by
  rw [List.length_append, length_beforeSignature, signature.property]

theorem deserialize_key : pubkey.deserialize (Pubkey.write key) = some key :=
  pubkey_canonical.deserialize.mpr ⟨trivial, List.prefix_refl _⟩

/-- The handler finds the key, and the value of which the message is an encoding. -/
theorem readVerifyInstruction_build {data : CrdsData}
    (decodes : (crdsData shortU16).deserialize message = some data) :
    readVerifyInstruction shortU16 (buildVerifySignatureIx signature key message).data =
      .ok (key, data) := by
  rcases verifyData_parts signature key message with ⟨keyPart, _, messagePart⟩
  have offsetBytes : slice (buildVerifySignatureIx signature key message).data
      signatureOffsetsStart (signatureOffsetsStart + signatureOffsetsSerializedSize) =
        .ok (writeOffsets (verifyOffsets message)) :=
    slice_middle rfl (by rw [length_writeOffsets])
  have offsets : Ed25519SignatureOffsets.reader.deserialize (writeOffsets (verifyOffsets message)) =
      some (verifyOffsets message) :=
    offsets_canonical.deserialize.mpr ⟨verifyOffsets_inRange message, List.prefix_refl _⟩
  have signerBytes : slice (buildVerifySignatureIx signature key message).data dataStart
      (dataStart + pubkeySerializedSize) = .ok (Pubkey.write key) := by
    rw [keyPart]
    exact slice_middle (length_header message) (by rw [length_writePubkey])
  have messageBytes : sliceFrom (buildVerifySignatureIx signature key message).data
      (dataStart + pubkeySerializedSize + signatureSerializedSize) = .ok message := by
    rw [messagePart]
    exact sliceFrom_end (length_beforeMessage signature key message)
  have keyOffset : (verifyOffsets message).publicKeyOffset = dataStart := rfl
  have messageOffset : (verifyOffsets message).messageDataOffset =
      dataStart + pubkeySerializedSize + signatureSerializedSize := rfl
  rw [readVerifyInstruction, offsetBytes, Outcome.ok_bind, offsets]
  simp only [decoded, Outcome.ok_bind, rejectIf, if_neg (verifyOffsets_placed message), keyOffset,
    messageOffset, signerBytes, deserialize_key, messageBytes, decodes]
  rfl

/-- The ed25519 program verifies one signature, of the whole message by the key. -/
theorem signedMessage_build (transaction : Transaction) (short : message.length < 2 ^ 16) :
    recordCount (buildVerifySignatureIx signature key message).data = 1 ∧
      transaction.signedMessage (buildVerifySignatureIx signature key message).data 0 =
        some ⟨key, message, signature.val⟩ := by
  refine ⟨rfl, ?_⟩
  rcases verifyData_parts signature key message with ⟨keyPart, signaturePart, messagePart⟩
  have offsets : recordAt (buildVerifySignatureIx signature key message).data 0 =
      some (verifyOffsets message) := by
    rw [recordAt]
    exact offsets_canonical.deserialize.mpr
      ⟨verifyOffsets_inRange message, List.prefix_append _ _⟩
  have signatureBytes : bytesAt (buildVerifySignatureIx signature key message).data
      (dataStart + pubkeySerializedSize) signatureSerializedSize = some signature.val := by
    rw [signaturePart]
    exact bytesAt_middle (length_beforeSignature key message) signature.property
  have keyBytes : bytesAt (buildVerifySignatureIx signature key message).data dataStart
      pubkeySerializedSize = some (Pubkey.write key) := by
    rw [keyPart]
    exact bytesAt_middle (length_header message) (length_writePubkey key)
  have messageBytes : bytesAt (buildVerifySignatureIx signature key message).data
      (dataStart + pubkeySerializedSize + signatureSerializedSize) message.length =
        some message := by
    rw [messagePart]
    exact bytesAt_end (length_beforeMessage signature key message)
  have size : (verifyOffsets message).messageDataSize = message.length := Nat.mod_eq_of_lt short
  have itself : ∀ own, transaction.dataAt own (2 ^ 16 - 1) = some own := fun own => if_pos rfl
  have signatureIndex : (verifyOffsets message).signatureInstructionIndex = 2 ^ 16 - 1 := rfl
  have keyIndex : (verifyOffsets message).publicKeyInstructionIndex = 2 ^ 16 - 1 := rfl
  have messageIndex : (verifyOffsets message).messageInstructionIndex = 2 ^ 16 - 1 := rfl
  have signatureOffset : (verifyOffsets message).signatureOffset =
      dataStart + pubkeySerializedSize := rfl
  have keyOffset : (verifyOffsets message).publicKeyOffset = dataStart := rfl
  have messageOffset : (verifyOffsets message).messageDataOffset =
      dataStart + pubkeySerializedSize + signatureSerializedSize := rfl
  rw [Transaction.signedMessage, offsets, Option.bind_some, Transaction.locate]
  simp only [bind, Option.bind_some, signatureIndex, keyIndex, messageIndex, itself,
    signatureOffset, keyOffset, messageOffset, size, signatureBytes, keyBytes, messageBytes,
    deserialize_key]
  rfl

end Verify

/-! ## What is stored -/

/-- A write to an epoch that is not before the newest one is there afterwards. -/
theorem exists_mem_record {epoch : Nat} (change : ValidatorHistoryEntry → ValidatorHistoryEntry)
    {stored : List ValidatorHistoryEntry} (atMost : ∀ entry ∈ stored, entry.epoch ≤ epoch) :
    ∃ original : ValidatorHistoryEntry, original.epoch = epoch ∧
      change original ∈ record epoch change stored := by
  unfold record
  split
  case isTrue =>
    refine ⟨.ofEpoch epoch, rfl, ?_⟩
    rw [newest, Window.last, List.length_append, List.length_singleton,
      List.drop_append_of_le_length (by have := maxItems_pos; omega)]
    exact List.mem_append_right _ (List.mem_singleton_self _)
  case isFalse reached =>
    push Not at reached
    rcases reached with ⟨entry, member, atLeast⟩
    have atEpoch : entry.epoch = epoch := Nat.le_antisymm (atMost entry member) atLeast
    refine ⟨entry, atEpoch, ?_⟩
    have amended := List.mem_map_of_mem (f := fun entry => if entry.epoch = epoch then
      change entry else entry) member
    rwa [if_pos atEpoch] at amended

section Handler

variable {shortU16 : Reader Nat} {clock : Clock} {transaction : Transaction}
  {info : AccountInfo} {account : ValidatorHistory} {contactInfo : ContactInfo}

/-- The checks of the program, one by one. -/
theorem checkGossip_build {signature : Signature} {message : List Byte}
    (preceding : transaction.precedingInstruction =
      .ok (buildVerifySignatureIx signature contactInfo.pubkey message))
    (decodes : (crdsData shortU16).deserialize message = some (.contactInfo contactInfo))
    (isNode : VoteStateVersions.deserializeNodePubkey info = .ok contactInfo.pubkey)
    (valid : clock.epoch < epochDefault) (fits : clock.unixTimestamp + 600 < 2 ^ 63)
    (recent : (contactInfo.wallclock / 1000 : Int) ≤ clock.unixTimestamp + 600) :
    checkGossip shortU16 clock transaction info =
      .ok ⟨clock.epoch, contactInfo.wallclock, .contactInfo contactInfo⟩ := by
  have epoch : castEpoch clock.epoch = .ok clock.epoch := castEpoch_eq_ok.mpr ⟨valid, rfl⟩
  have latest : clock.latestTimestamp = .ok (clock.unixTimestamp + 600).toNat := by
    rw [Clock.latestTimestamp, if_pos fits, Int.emod_eq_of_lt (by omega) (by omega)]
  have notFuture : ¬(clock.unixTimestamp + 600).toNat < contactInfo.wallclock / 1000 := by omega
  simp only [checkGossip, epoch, preceding, Outcome.ok_bind,
    readVerifyInstruction_build signature contactInfo.pubkey message decodes, CrdsData.origin,
    isNode, latest, rejectIf, if_neg notFuture]
  simp [buildVerifySignatureIx, pure, Except.pure]

/-- What a contact info says, put into an entry. -/
def describe (contactInfo : ContactInfo) (ip : Ip) (entry : ValidatorHistoryEntry) :
    ValidatorHistoryEntry :=
  { entry with
    ip := ip
    clientType := castU8 contactInfo.version.client
    version := ⟨castU8 contactInfo.version.major, castU8 contactInfo.version.minor,
      contactInfo.version.patch⟩ }

/-- Contact info that is not older than the history is written to the entry of the epoch. -/
theorem setContactInfo_eq_ok (epoch : Nat) {ip : Ip} {others : List IpAddr}
    (isFirst : contactInfo.addrs = .v4 ip :: others)
    (notOlder : account.lastIpTimestamp ≤ contactInfo.wallclock ∧
      account.lastVersionTimestamp ≤ contactInfo.wallclock) :
    ∃ data, account.setContactInfo epoch contactInfo contactInfo.wallclock = .ok data ∧
      account.history.setEntry .skipped epoch (describe contactInfo ip) = .ok data.history := by
  rcases account.history.setEntry_skipped epoch (describe contactInfo ip) with ⟨history, written⟩
  refine ⟨{ account with
    lastIpTimestamp := contactInfo.wallclock
    lastVersionTimestamp := contactInfo.wallclock
    history := history }, ?_, written⟩
  have isIp : contactInfo.ip = .ok ip := by
    rw [ContactInfo.ip, isFirst]
    rfl
  rw [ValidatorHistory.setContactInfo, isIp, Outcome.ok_bind, if_neg (by omega),
    ValidatorHistory.setEntry]
  exact congrArg (fun outcome : History.Result CircBuf => outcome >>= _) written

end Handler

theorem checkEntryValid_eq_true {entry : CrdsValue} {contactInfo : ContactInfo}
    {validatorHistory : ValidatorHistory} {validatorIdentity : Pubkey}
    (isInfo : entry.contactInfo = some contactInfo)
    (valid : checkEntryValid entry validatorHistory validatorIdentity = true) :
    (validatorHistory.lastIpTimestamp ≤ contactInfo.wallclock ∧
      validatorHistory.lastVersionTimestamp ≤ contactInfo.wallclock) ∧
    contactInfo.pubkey = validatorIdentity := by
  simp only [checkEntryValid, isInfo] at valid
  split at valid
  case isTrue => cases valid
  case isFalse recent =>
    rw [not_or, Nat.not_lt, Nat.not_lt] at recent
    exact ⟨recent, of_decide_eq_true valid⟩

/-- Contact info that passes the checks of the keeper is uploaded: the ed25519 program is asked to
verify the signature of the whole message by the identity, and the history program accepts the
call and writes the address and the version that were signed to the entry of its epoch.

The first assumption is about the gossip library: a contact info is encoded as the history program
reads it, and more fields may follow. -/
theorem upload_stored (shortU16 : Reader Nat) (writeShortU16 : Nat → List Byte)
    (lengths : Canonical shortU16 writeShortU16 (· < 2 ^ 16))
    (arr : Nat → ValidatorHistoryEntry) (calls : List Program.Call)
    (genuine : ∀ call ∈ calls, call.instruction.Genuine)
    (now : Program.Clock) (clocks : ∀ call ∈ calls, call.clock.epoch ≤ now.epoch)
    (validEpoch : now.epoch < epochDefault) (fits : now.unixTimestamp + 600 < 2 ^ 63)
    (config : Program.Config) (voteAccount : Pubkey) (account : ValidatorHistoryAccount)
    (isConfig : (Execution.run (Program.execute shortU16 arr) .empty calls).config = some config)
    (isComplete : (Execution.run (Program.execute shortU16 arr) .empty calls).Complete voteAccount
      account)
    (info : AccountInfo) (owned : info.ownedByVoteProgram = true) (identity : Pubkey)
    (isNode : VoteStateVersions.deserializeNodePubkey info = .ok identity)
    (crds : Pubkey → Option CrdsValue) (value : CrdsValue) (contactInfo : ContactInfo)
    (listed : crds identity = some value) (isInfo : value.contactInfo = some contactInfo)
    (inRange : contactInfo.InRange) (extensions : List Byte)
    (encoded : value.signableData =
      CrdsData.write writeShortU16 (.contactInfo contactInfo) ++ extensions)
    (short : value.signableData.length < 2 ^ 16)
    (recent : (contactInfo.wallclock / 1000 : Int) ≤ now.unixTimestamp + 600)
    (ip : Ip) (others : List IpAddr) (isFirst : contactInfo.addrs = .v4 ip :: others)
    (valid : checkEntryValid value account.toValidatorHistory identity = true)
    (programId : Pubkey) (discriminator : List Byte) (priorityFee : Nat) :
    ∃ entry, buildGossipEntry voteAccount identity account.toValidatorHistory crds
        config.oracleAuthority = some entry ∧
      let transaction := entry.transaction programId discriminator priorityFee
      let state := Execution.run (Program.execute shortU16 arr) .empty calls
      let call : Program.Call := ⟨now, entry.signer,
        .copy voteAccount info (.copyGossipContactInfo transaction)⟩
      (∃ verify, transaction.precedingInstruction = .ok verify ∧ verify.programId = .ed25519 ∧
        recordCount verify.data = 1 ∧ transaction.signedMessage verify.data 0 =
          some ⟨identity, value.signableData, value.signature⟩) ∧
      (∃ next, call.handle shortU16 arr state = .ok next) ∧
      ∃ stored ∈ (Program.execute shortU16 arr state call).entries voteAccount,
        stored.epoch = now.epoch ∧ stored.ip = ip ∧
        stored.clientType = castU8 contactInfo.version.client ∧
        stored.version = ⟨castU8 contactInfo.version.major, castU8 contactInfo.version.minor,
          contactInfo.version.patch⟩ := by
  rcases checkEntryValid_eq_true isInfo valid with ⟨notOlder, rfl⟩
  have built : buildGossipEntry voteAccount contactInfo.pubkey account.toValidatorHistory crds
      config.oracleAuthority = some ⟨voteAccount, value.signature, value.signableData,
        contactInfo.pubkey, config.oracleAuthority⟩ := by
    simp only [buildGossipEntry, listed, if_pos valid, isInfo, Option.map_some]
  refine ⟨_, built, ?_⟩
  intro transaction state call
  have preceding : transaction.precedingInstruction =
      .ok (buildVerifySignatureIx value.signature contactInfo.pubkey value.signableData) := rfl
  have decodes : (crdsData shortU16).deserialize value.signableData =
      some (.contactInfo contactInfo) := by
    rw [encoded]
    exact (canonical_crdsData lengths).deserialize.mpr ⟨inRange, List.prefix_append _ _⟩
  have checked := checkGossip_build preceding decodes isNode validEpoch fits recent
  rcases setContactInfo_eq_ok now.epoch isFirst notOlder with ⟨data, accepted, written⟩
  have stored : handleCopyGossipContactInfo shortU16 now.toClock transaction info
      account.toValidatorHistory = .ok data := by
    rw [handleCopyGossipContactInfo, checked]
    exact accepted
  have loaded : Program.loadMut state voteAccount = .ok account :=
    Program.loadMut_eq_ok.mpr isComplete
  have signed : Program.authorized Program.Config.oracleAuthority state.config
      config.oracleAuthority = .ok config := Program.authorized_eq_ok.mpr ⟨isConfig, rfl⟩
  have handled : call.handle shortU16 arr state = .ok
      (state.setHistory voteAccount (.complete { account with toValidatorHistory := data })) := by
    simp only [call, Program.Call.handle, Program.DataInstruction.execute, loaded,
      Outcome.ok_bind, Program.DataInstruction.hasOneVoteAccount, Program.require,
      Program.DataInstruction.acceptsOwner, owned, Program.DataInstruction.handle, signed, stored,
      Program.lift]
    rfl
  refine ⟨⟨_, preceding, rfl, signedMessage_build _ _ _ transaction short⟩, ⟨_, handled⟩, ?_⟩
  have sound : Program.Sound state := Program.sound_run genuine
  have holds := sound.holds voteAccount account isComplete
  have atMost : ∀ entry ∈ state.entries voteAccount, entry.epoch ≤ now.epoch :=
    Program.entries_notFuture genuine clocks voteAccount
  have keepsEpoch : ∀ entry, (describe contactInfo ip entry).epoch = entry.epoch := fun _ => rfl
  have later : data.history.Holds (record now.epoch (describe contactInfo ip)
      (state.entries voteAccount)) := holds.setEntry keepsEpoch validEpoch written
  have executed : (Program.execute shortU16 arr state call).Complete voteAccount
      { account with toValidatorHistory := data } := by
    rw [Program.execute, handled, Outcome.commit_ok]
    exact Program.State.setHistory_same
  rw [Program.State.entries_of_complete executed, later.entries_eq]
  rcases exists_mem_record (describe contactInfo ip) atMost with ⟨original, atEpoch, member⟩
  exact ⟨_, member, atEpoch, rfl, rfl, rfl⟩

/-! ## An upload -/

/-- The key that consists of sevens. -/
def sevens : Pubkey := BitVec.ofNat 256 (Bincode.number (List.replicate 32 7))

def sampleInfo : ContactInfo where
  pubkey := sevens
  wallclock := 1699999000000
  outset := 1690000000000
  shredVersion := 50093
  version := ⟨2, 300, 14, 0, 0, 3⟩
  addrs := [.v4 ⟨0x0a000001⟩]
  sockets := [⟨0, 0, 8000⟩]

def sampleValue : CrdsValue where
  contactInfo := some sampleInfo
  signature := ⟨List.replicate 64 1, rfl⟩
  signableData := CrdsData.write writeVarint (.contactInfo sampleInfo) ++ [0]

theorem sampleInfo_inRange : sampleInfo.InRange where
  wallclock := by decide
  outset := by decide
  shredVersion := by decide
  version := by constructor <;> decide
  addrs := by decide
  sockets := ⟨by decide, by
    intro entry member
    rw [List.mem_singleton.mp member]
    exact ⟨by decide, by decide, by decide⟩⟩

/-- The history of the vote account is there, and older than the value. -/
theorem sampleAccount : ∃ account,
    (Execution.run (Program.execute (varint 16) fun _ => .unset) .empty
      Program.oneRegistration).Complete 7 account ∧
    checkEntryValid sampleValue account.toValidatorHistory sevens = true := by
  have accepted : (Program.loadMut (Execution.run (Program.execute (varint 16) fun _ => .unset)
      .empty Program.oneRegistration) 7).toOption.map (fun account =>
        checkEntryValid sampleValue account.toValidatorHistory sevens) = some true := by
    decide +kernel
  cases loaded : Program.loadMut (Execution.run (Program.execute (varint 16) fun _ => .unset)
      .empty Program.oneRegistration) 7 with
  | error e =>
      rw [loaded] at accepted
      cases accepted
  | ok account =>
      rw [loaded] at accepted
      exact ⟨account, Program.loadMut_eq_ok.mp loaded, Option.some.inj accepted⟩

theorem upload_stored_sample : ∃ account, ∃ entry,
    buildGossipEntry 7 sevens account (fun _ => some sampleValue) 3 = some entry ∧
    let transaction := entry.transaction 1 [] 100
    let state := Execution.run (Program.execute (varint 16) fun _ => .unset) .empty
      Program.oneRegistration
    let call : Program.Call := ⟨⟨⟨10, 1700000000⟩, 4320000⟩, entry.signer,
      .copy 7 nodeVoteAccount (.copyGossipContactInfo transaction)⟩
    (∃ verify, transaction.precedingInstruction = .ok verify ∧ verify.programId = .ed25519 ∧
      recordCount verify.data = 1 ∧ transaction.signedMessage verify.data 0 =
        some ⟨sevens, sampleValue.signableData, sampleValue.signature⟩) ∧
    (∃ next, call.handle (varint 16) (fun _ => .unset) state = .ok next) ∧
    ∃ stored ∈ (Program.execute (varint 16) (fun _ => .unset) state call).entries 7,
      stored.epoch = 10 ∧ stored.ip = ⟨0x0a000001⟩ ∧ stored.clientType = castU8 3 ∧
      stored.version = ⟨castU8 2, castU8 300, 14⟩ := by
  rcases sampleAccount with ⟨account, isComplete, valid⟩
  have configured : (Execution.run (Program.execute (varint 16) fun _ => .unset) .empty
      Program.oneRegistration).config = some ⟨0, 3, 3, 1, 0, 0⟩ := by
    decide +kernel
  refine ⟨account.toValidatorHistory, ?_⟩
  exact upload_stored (varint 16) writeVarint (canonical_varint (by decide)) (fun _ => .unset)
    Program.oneRegistration Program.oneRegistration_genuine ⟨⟨10, 1700000000⟩, 4320000⟩
    (by simp [Program.oneRegistration]) (by decide) (by decide) ⟨0, 3, 3, 1, 0, 0⟩ 7 account
    configured
    isComplete nodeVoteAccount rfl sevens (by decide +kernel) (fun _ => some sampleValue)
    sampleValue sampleInfo rfl rfl sampleInfo_inRange [0] rfl (by decide +kernel) (by decide)
    ⟨0x0a000001⟩ [] rfl valid 1 [] 100

end Stakenet.Keeper.GossipUpload

import Stakenet.History.GossipSignature
import Stakenet.History.Registration
import Stakenet.History.ValidatorAge

/-! What one call of the program does to the entries of a history account. -/

namespace Stakenet.History

/-! ## Fields of an entry -/

namespace ValidatorHistoryEntry

/-- What is known of the priority fees that a validator shared. -/
def feeRecord (entry : ValidatorHistoryEntry) : Nat × Nat × MerkleRootUploadAuthority :=
  (entry.priorityFeeCommission, entry.priorityFeeTips, entry.priorityFeeMerkleRootUploadAuthority)

end ValidatorHistoryEntry

/-- The authorities that publish fields of their own. -/
inductive Publisher
  | oracle
  | priorityFeeOracle

namespace Publisher

def key (config : Program.Config) : Publisher → Pubkey
  | .oracle => config.oracleAuthority
  | .priorityFeeOracle => config.priorityFeeOracleAuthority

/-- An entry without the fields of others. -/
def fields : Publisher → ValidatorHistoryEntry → ValidatorHistoryEntry
  | .oracle, entry =>
      { ValidatorHistoryEntry.unset with
        activatedStakeLamports := entry.activatedStakeLamports
        rank := entry.rank
        isSuperminority := entry.isSuperminority
        isBamConnected := entry.isBamConnected
        ip := entry.ip
        clientType := entry.clientType
        version := entry.version }
  | .priorityFeeOracle, entry =>
      { ValidatorHistoryEntry.unset with
        totalPriorityFees := entry.totalPriorityFees
        totalLeaderSlots := entry.totalLeaderSlots
        blocksProduced := entry.blocksProduced
        blockDataUpdatedAtSlot := entry.blockDataUpdatedAtSlot }

def other : Publisher → Publisher
  | .oracle => .priorityFeeOracle
  | .priorityFeeOracle => .oracle

theorem eq_or_eq_other (first second : Publisher) : second = first ∨ second = first.other := by
  cases first <;> cases second <;> simp [other]

end Publisher

/-! ## Gossip -/

def CrdsData.setsIp : CrdsData → Bool
  | .legacyContactInfo _ | .contactInfo _ => true
  | _ => false

def CrdsData.setsVersion : CrdsData → Bool
  | .contactInfo _ | .version _ | .legacyVersion _ => true
  | _ => false

/-- Gossip data is stored if it is not older than what it replaces, in the entry of the epoch. -/
theorem ValidatorHistory.setCrdsData_eq_ok {account next : ValidatorHistory}
    {epoch lastSignedTs : Nat} {data : CrdsData}
    (stored : account.setCrdsData epoch lastSignedTs data = .ok next) :
    (data.setsIp = true → account.lastIpTimestamp ≤ lastSignedTs) ∧
      (data.setsVersion = true → account.lastVersionTimestamp ≤ lastSignedTs) ∧
      next.lastIpTimestamp = (if data.setsIp then lastSignedTs else account.lastIpTimestamp) ∧
      next.lastVersionTimestamp =
        (if data.setsVersion then lastSignedTs else account.lastVersionTimestamp) ∧
      ∃ change, (∀ entry, ∃ ip clientType version,
          change entry = { entry with ip := ip, clientType := clientType, version := version }) ∧
        account.history.setEntry .skipped epoch change = .ok next.history := by
  have written : ∀ {dated : ValidatorHistory}
      {change : ValidatorHistoryEntry → ValidatorHistoryEntry},
      dated.setEntry .skipped epoch change = .ok next → dated.history = account.history →
        next.lastIpTimestamp = dated.lastIpTimestamp ∧
          next.lastVersionTimestamp = dated.lastVersionTimestamp ∧
          account.history.setEntry .skipped epoch change = .ok next.history := by
    intro dated change written sameHistory
    simp only [setEntry, Outcome.bind_eq_ok, Outcome.pure_eq_ok] at written
    rcases written with ⟨history, written, rfl⟩
    exact ⟨rfl, rfl, sameHistory ▸ written⟩
  cases data with
  | contactInfo info =>
      simp only [setCrdsData, setContactInfo, Outcome.bind_eq_ok] at stored
      rcases stored with ⟨ip, _, stored⟩
      split at stored
      case isTrue => simp at stored
      case isFalse recent =>
        rw [not_or, Nat.not_lt, Nat.not_lt] at recent
        rcases written stored rfl with ⟨ipTimestamp, versionTimestamp, stored⟩
        exact ⟨fun _ => recent.1, fun _ => recent.2, ipTimestamp, versionTimestamp, _,
          fun _ => ⟨_, _, _, rfl⟩, stored⟩
  | legacyContactInfo info =>
      simp only [setCrdsData, setLegacyContactInfo, Outcome.bind_eq_ok] at stored
      rcases stored with ⟨ip, _, stored⟩
      split at stored
      case isTrue => simp at stored
      case isFalse recent =>
        rcases written stored rfl with ⟨ipTimestamp, versionTimestamp, stored⟩
        exact ⟨fun _ => Nat.not_lt.mp recent, fun contradictory => (by cases contradictory),
          ipTimestamp, versionTimestamp, _, fun _ => ⟨_, _, _, rfl⟩, stored⟩
  | version message | legacyVersion message =>
      simp only [setCrdsData, setVersion, setLegacyVersion, setClientVersion] at stored
      split at stored
      case isTrue => simp at stored
      case isFalse recent =>
        rcases written stored rfl with ⟨ipTimestamp, versionTimestamp, stored⟩
        exact ⟨fun contradictory => (by cases contradictory), fun _ => Nat.not_lt.mp recent,
          ipTimestamp, versionTimestamp, _, fun _ => ⟨_, _, _, rfl⟩, stored⟩
  | vote | lowestSlot | legacySnapshotHashes | accountsHashes | epochSlots | nodeInstance
  | duplicateShred | snapshotHashes =>
      simp [setCrdsData] at stored

/-! ## Writes -/

namespace Program

/-- What the program asks of a write to the entry of an epoch: the epoch is not in the future, a
fee record is not replaced, and the fields of an authority are left alone if it does not sign. -/
structure Permitted (config : Option Config) (clock : Clock) (signer : Pubkey)
    (stored : List ValidatorHistoryEntry) (epoch : Nat)
    (change : ValidatorHistoryEntry → ValidatorHistoryEntry) : Prop where
  valid : epoch < epochDefault
  notFuture : epoch ≤ clock.epoch
  keepsEpoch : ∀ entry, (change entry).epoch = entry.epoch
  feeRecord : (∀ entry, (change entry).feeRecord = entry.feeRecord) ∨
    ∀ entry ∈ stored, entry.epoch = epoch → entry.priorityFeeMerkleRootUploadAuthority = .unset
  published : ∀ publisher : Publisher,
    (∀ entry, publisher.fields (change entry) = publisher.fields entry) ∨
      ∃ found, config = some found ∧ publisher.key found = signer

/-- An authority that signs may write the fields that are its own. -/
theorem Permitted.publish {config : Option Config} {clock : Clock} {signer : Pubkey}
    {stored : List ValidatorHistoryEntry} {epoch : Nat}
    {change : ValidatorHistoryEntry → ValidatorHistoryEntry} (publisher : Publisher)
    (valid : epoch < epochDefault) (notFuture : epoch ≤ clock.epoch)
    (signed : ∃ found, config = some found ∧ publisher.key found = signer)
    (keeps : ∀ entry, (change entry).epoch = entry.epoch ∧
      (change entry).feeRecord = entry.feeRecord ∧
      publisher.other.fields (change entry) = publisher.other.fields entry) :
    Permitted config clock signer stored epoch change where
  valid := valid
  notFuture := notFuture
  keepsEpoch entry := (keeps entry).1
  feeRecord := .inl fun entry => (keeps entry).2.1
  published reader := by
    rcases publisher.eq_or_eq_other reader with rfl | rfl
    · exact .inr signed
    · exact .inl fun entry => (keeps entry).2.2

/-- One change of the entries: a write, a blank entry between others, or a list of credits. -/
inductive Rewrite (config : Option Config) (clock : Clock) (signer : Pubkey)
    (stored : List ValidatorHistoryEntry) : List ValidatorHistoryEntry → Prop
  | write {epoch : Nat} {change : ValidatorHistoryEntry → ValidatorHistoryEntry}
      (permitted : Permitted config clock signer stored epoch change) :
      Rewrite config clock signer stored (record epoch change stored)
  | fill {epoch : Nat} (valid : epoch < epochDefault) :
      Rewrite config clock signer stored (backfill epoch stored)
  | credit (creditsMap : List (Nat × Nat)) :
      Rewrite config clock signer stored (stored.map (credit creditsMap))

abbrev Rewrites (config : Option Config) (clock : Clock) (signer : Pubkey) :
    List ValidatorHistoryEntry → List ValidatorHistoryEntry → Prop :=
  Relation.ReflTransGen (Rewrite config clock signer)

section Handlers

variable {shortU16 : Bincode.Reader Nat} {config : Option Config} {clock : Clock}
  {signer voteAccount : Pubkey} {info : AccountInfo} {account data : ValidatorHistory}
  {stored : List ValidatorHistoryEntry}

/-- The entries of the account are rewritten by the rules of the program. -/
def Rewritten (config : Option Config) (clock : Clock) (signer : Pubkey)
    (stored : List ValidatorHistoryEntry) (data : ValidatorHistory) : Prop :=
  ∃ later, data.history.Holds later ∧ Rewrites config clock signer stored later

theorem notFuture_eq_ok {epoch : Nat} {done : Unit} :
    notFuture clock epoch = .ok done ↔ epoch ≤ clock.epoch :=
  require_eq_ok

theorem rewritten_setEntry (holds : account.history.Holds stored) {late : LateWrite} {epoch : Nat}
    {change : ValidatorHistoryEntry → ValidatorHistoryEntry}
    (permitted : Permitted config clock signer stored epoch change)
    (written : account.setEntry late epoch change = .ok data) :
    Rewritten config clock signer stored data :=
  ⟨_, ValidatorHistory.setEntry_holds holds permitted.keepsEpoch permitted.valid written,
    .single (.write permitted)⟩

theorem rewrites_backfill (epochs : List Nat) (valid : ∀ epoch ∈ epochs, epoch < epochDefault)
    (stored : List ValidatorHistoryEntry) :
    Rewrites config clock signer stored
      (epochs.foldl (fun stored epoch => backfill epoch stored) stored) := by
  induction epochs generalizing stored with
  | nil => exact .refl
  | cons epoch epochs induction =>
      rw [List.forall_mem_cons] at valid
      exact .head (.fill valid.1) (induction valid.2 _)

theorem rewritten_copyVoteAccount (holds : account.history.Holds stored)
    (handled : handleCopyVoteAccount clock info account = .ok data) :
    Rewritten config clock signer stored data := by
  simp only [handleCopyVoteAccount, Outcome.bind_eq_ok, castEpoch_eq_ok,
    Outcome.pure_eq_ok] at handled
  rcases handled with ⟨_, ⟨valid, rfl⟩, commission, _, first, commissioned, credits, _, second,
    inserted, third, credited, rfl⟩
  have permitted : Permitted config clock signer stored clock.epoch fun entry =>
      { entry with commission := commission, voteAccountLastUpdateSlot := clock.slot } :=
    ⟨valid, Nat.le_refl _, fun _ => rfl, .inl fun _ => rfl,
      fun publisher => .inl fun _ => by cases publisher <;> rfl⟩
  rcases rewritten_setEntry holds permitted commissioned with ⟨copied, firstHolds, firstSteps⟩
  rcases ValidatorHistory.insertMissingEntries_holds firstHolds inserted with
    ⟨startEpoch, endEpoch, creditsMap, _, greatest, _, secondHolds⟩
  rcases ValidatorHistory.setEpochCredits_holds secondHolds credited with ⟨written, _, thirdHolds⟩
  have last := (getMaxEpoch_eq_ok greatest).1
  have filled : Rewrites config clock signer copied _ :=
    rewrites_backfill (ValidatorHistory.missingEpochs copied creditsMap startEpoch endEpoch)
      (fun epoch member => by
        have bounds := List.mem_range'_1.mp (List.mem_of_mem_filter member)
        omega) copied
  refine ⟨_, ?_, (firstSteps.trans filled).tail (.credit written)⟩
  rw [history_updateValidatorAge]
  exact thirdHolds

/-- The entry that is found first is the only one of its epoch. -/
theorem unset_of_findEpoch (holds : account.history.Holds stored) {epoch : Nat}
    (valid : epoch < epochDefault)
    (unset : ∀ entry ∈ (account.history.findEpoch epoch).map account.history.arr,
      entry.priorityFeeMerkleRootUploadAuthority = .unset) :
    ∀ entry ∈ stored, entry.epoch = epoch →
      entry.priorityFeeMerkleRootUploadAuthority = .unset := by
  intro entry member atEpoch
  rcases holds.exists_slot member with ⟨place, inside, here⟩
  cases found : account.history.findEpoch epoch with
  | none =>
      rw [CircBuf.findEpoch, List.find?_eq_none] at found
      have differs := found place (List.mem_range.mpr inside)
      exact absurd (by simp [here, atEpoch]) differs
  | some position =>
      have search := found
      rw [CircBuf.findEpoch] at search
      have foundEpoch := List.find?_some search
      have foundInside := List.mem_range.mp (List.mem_of_find?_eq_some search)
      simp only [decide_eq_true_eq] at foundEpoch
      have same : position = place := by
        apply holds.epoch_inj foundInside inside
        · rw [foundEpoch]
          exact valid
        · rw [foundEpoch, here, atEpoch]
      rw [← here, ← same]
      exact unset _ (by rw [found]; rfl)

theorem rewritten_copyPriorityFee {found : Config} (holds : account.history.Holds stored)
    {epoch : Nat} {distributionAccount : DerivedAccount PriorityFeeDistributionAccount}
    (handled : handleCopyPriorityFeeDistributionAccount found clock voteAccount account epoch
      distributionAccount = .ok data) : Rewritten config clock signer stored data := by
  simp only [handleCopyPriorityFeeDistributionAccount, Outcome.bind_eq_ok, require_eq_ok,
    notFuture_eq_ok, lift_eq_ok, castEpoch_eq_ok] at handled
  rcases handled with ⟨_, _, _, notFuture, _, _, _, ⟨valid, rfl⟩, _, unset, written⟩
  have permitted : Permitted config clock signer stored epoch fun entry =>
      { entry with
        priorityFeeCommission := (distributionAccount.content.getD .missing).validatorCommissionBps
        priorityFeeTips := (distributionAccount.content.getD .missing).totalLamportsTransferred
        priorityFeeMerkleRootUploadAuthority := fromPubkey
          (distributionAccount.content.getD .missing).merkleRootUploadAuthority } :=
    ⟨valid, notFuture, fun _ => rfl, .inr (unset_of_findEpoch holds valid unset),
      fun publisher => .inl fun _ => by cases publisher <;> rfl⟩
  exact rewritten_setEntry holds permitted written

theorem rewritten_copyGossip (holds : account.history.Holds stored) {transaction : Transaction}
    (signed : ∃ found, config = some found ∧ found.oracleAuthority = signer)
    (handled : handleCopyGossipContactInfo shortU16 clock.toClock transaction info account =
      .ok data) : Rewritten config clock signer stored data := by
  simp only [handleCopyGossipContactInfo, checkGossip, Outcome.bind_eq_ok, castEpoch_eq_ok,
    Outcome.pure_eq_ok] at handled
  rcases handled with ⟨update, ⟨_, ⟨valid, rfl⟩, _, _, _, _, _, _, _, _, _, _, _, _, _, _, _, _,
    rfl⟩, handled⟩
  rcases ValidatorHistory.setCrdsData_eq_ok handled with ⟨_, _, _, _, change, changes, written⟩
  have keeps : ∀ {β : Type} (view : ValidatorHistoryEntry → β), (∀ entry ip clientType version,
      view { entry with ip := ip, clientType := clientType, version := version } = view entry) →
        ∀ entry, view (change entry) = view entry := by
    intro β view independent entry
    rcases changes entry with ⟨ip, clientType, version, changed⟩
    rw [changed, independent]
  have permitted : Permitted config clock signer stored clock.epoch change :=
    .publish .oracle valid (Nat.le_refl _) signed fun entry =>
      ⟨keeps _ (fun _ _ _ _ => rfl) entry, keeps _ (fun _ _ _ _ => rfl) entry,
        keeps _ (fun _ _ _ _ => rfl) entry⟩
  exact ⟨_, holds.setEntry permitted.keepsEpoch valid written, .single (.write permitted)⟩

/-- Every instruction follows the rules. -/
theorem rewritten_of_handle (holds : account.history.Holds stored)
    {instruction : DataInstruction}
    (handled : instruction.handle shortU16 config clock signer voteAccount info account =
      .ok data) : Rewritten config clock signer stored data := by
  cases instruction with
  | copyVoteAccount => exact rewritten_copyVoteAccount holds (lift_eq_ok.mp handled)
  | copyTipDistributionAccount epoch tipDistributionAccount =>
      simp only [DataInstruction.handle, handleCopyTipDistributionAccount, Outcome.bind_eq_ok,
        present_eq_ok, require_eq_ok, notFuture_eq_ok, lift_eq_ok, castEpoch_eq_ok] at handled
      rcases handled with ⟨_, _, _, _, _, notFuture, _, ⟨valid, rfl⟩, handled⟩
      split at handled
      case h_1 => cases handled
      case h_2 content _ =>
        refine rewritten_setEntry holds ?permitted (lift_eq_ok.mp handled)
        exact ⟨valid, notFuture, fun _ => rfl, .inl fun _ => rfl,
          fun publisher => .inl fun _ => by cases publisher <;> rfl⟩
  | copyPriorityFeeDistribution epoch distributionAccount =>
      simp only [DataInstruction.handle, Outcome.bind_eq_ok, present_eq_ok] at handled
      rcases handled with ⟨found, _, handled⟩
      exact rewritten_copyPriorityFee holds handled
  | updateStakeHistory epoch lamports rank isSuperminority =>
      simp only [DataInstruction.handle, handleUpdateStakeHistory, Outcome.bind_eq_ok,
        authorized_eq_ok, notFuture_eq_ok, lift_eq_ok, castEpoch_eq_ok] at handled
      rcases handled with ⟨found, signed, _, notFuture, _, ⟨valid, rfl⟩, written⟩
      have permitted : Permitted config clock signer stored epoch fun entry =>
          { entry with
            activatedStakeLamports := lamports
            rank := rank
            isSuperminority := isSuperminority.toNat } :=
        .publish .oracle valid notFuture ⟨found, signed⟩ fun _ => ⟨rfl, rfl, rfl⟩
      exact rewritten_setEntry holds permitted written
  | updatePriorityFeeHistory epoch totalPriorityFees totalLeaderSlots blocksProduced slot =>
      simp only [DataInstruction.handle, handleUpdatePriorityFeeHistory, Outcome.bind_eq_ok,
        authorized_eq_ok, notFuture_eq_ok, lift_eq_ok, castEpoch_eq_ok] at handled
      rcases handled with ⟨found, signed, _, notFuture, _, ⟨valid, rfl⟩, written⟩
      have permitted : Permitted config clock signer stored epoch fun entry =>
          { entry with
            totalPriorityFees := totalPriorityFees
            totalLeaderSlots := totalLeaderSlots
            blocksProduced := blocksProduced
            blockDataUpdatedAtSlot := slot } :=
        .publish .priorityFeeOracle valid notFuture ⟨found, signed⟩ fun _ => ⟨rfl, rfl, rfl⟩
      exact rewritten_setEntry holds permitted written
  | copyIsBamConnected epoch isBamConnected =>
      simp only [DataInstruction.handle, handleCopyIsBamConnected, Outcome.bind_eq_ok,
        authorized_eq_ok, notFuture_eq_ok, require_eq_ok, lift_eq_ok, castEpoch_eq_ok] at handled
      rcases handled with ⟨found, signed, _, notFuture, _, _, _, ⟨valid, rfl⟩, written⟩
      have permitted : Permitted config clock signer stored epoch fun entry =>
          { entry with isBamConnected := isBamConnected } :=
        .publish .oracle valid notFuture ⟨found, signed⟩ fun _ => ⟨rfl, rfl, rfl⟩
      exact rewritten_setEntry holds permitted written
  | uploadValidatorAge validatorAge lastUpdatedEpoch ownedBySystemProgram =>
      simp only [DataInstruction.handle, handleUploadValidatorAge, Outcome.bind_eq_ok,
        authorized_eq_ok, require_eq_ok, Outcome.pure_eq_ok] at handled
      rcases handled with ⟨_, _, _, _, rfl⟩
      exact ⟨stored, holds, .refl⟩
  | copyGossipContactInfo transaction =>
      simp only [DataInstruction.handle, Outcome.bind_eq_ok, authorized_eq_ok,
        lift_eq_ok] at handled
      rcases handled with ⟨found, signed, handled⟩
      exact rewritten_copyGossip holds ⟨found, signed⟩ handled

/-! ## Timestamps -/

/-- The timestamps of the gossip data did not go back. -/
def NotOlder (account data : ValidatorHistory) : Prop :=
  account.lastIpTimestamp ≤ data.lastIpTimestamp ∧
    account.lastVersionTimestamp ≤ data.lastVersionTimestamp

theorem NotOlder.of_eq (sameIp : data.lastIpTimestamp = account.lastIpTimestamp)
    (sameVersion : data.lastVersionTimestamp = account.lastVersionTimestamp) :
    NotOlder account data :=
  ⟨Nat.le_of_eq sameIp.symm, Nat.le_of_eq sameVersion.symm⟩

theorem NotOlder.trans {first second third : ValidatorHistory} (early : NotOlder first second)
    (late : NotOlder second third) : NotOlder first third :=
  ⟨early.1.trans late.1, early.2.trans late.2⟩

theorem notOlder_setEntry {late : LateWrite} {epoch : Nat}
    {change : ValidatorHistoryEntry → ValidatorHistoryEntry}
    (written : account.setEntry late epoch change = .ok data) : NotOlder account data := by
  simp only [ValidatorHistory.setEntry, Outcome.bind_eq_ok, Outcome.pure_eq_ok] at written
  rcases written with ⟨history, _, rfl⟩
  exact .of_eq rfl rfl

theorem notOlder_setCrdsData {epoch lastSignedTs : Nat} {crdsData : CrdsData}
    (stored : account.setCrdsData epoch lastSignedTs crdsData = .ok data) :
    NotOlder account data := by
  rcases ValidatorHistory.setCrdsData_eq_ok stored with
    ⟨ipRecent, versionRecent, ipTimestamp, versionTimestamp, _⟩
  constructor
  · rw [ipTimestamp]
    split
    case isTrue sets => exact ipRecent sets
    case isFalse => exact Nat.le_refl _
  · rw [versionTimestamp]
    split
    case isTrue sets => exact versionRecent sets
    case isFalse => exact Nat.le_refl _

theorem notOlder_copyVoteAccount (handled : handleCopyVoteAccount clock info account = .ok data) :
    NotOlder account data := by
  simp only [handleCopyVoteAccount, Outcome.bind_eq_ok, Outcome.pure_eq_ok] at handled
  rcases handled with ⟨epoch, _, _, _, first, commissioned, credits, _, second, inserted, third,
    credited, rfl⟩
  have filled : NotOlder first second := by
    simp only [ValidatorHistory.insertMissingEntries, Outcome.bind_eq_ok,
      Outcome.pure_eq_ok] at inserted
    rcases inserted with ⟨_, _, _, _, _, _, rfl⟩
    exact .of_eq rfl rfl
  have recorded : NotOlder second third := by
    unfold ValidatorHistory.setEpochCredits at credited
    split at credited
    case isTrue =>
      cases credited
      exact .of_eq rfl rfl
    case isFalse =>
      simp only [Outcome.bind_eq_ok, Outcome.pure_eq_ok] at credited
      rcases credited with ⟨_, _, _, _, rfl⟩
      exact .of_eq rfl rfl
  have aged : NotOlder third (third.updateValidatorAge epoch) := by
    simp only [ValidatorHistory.updateValidatorAge, ValidatorHistory.initializeValidatorAge]
    repeat' split
    all_goals exact .of_eq rfl rfl
  exact (notOlder_setEntry commissioned).trans (filled.trans (recorded.trans aged))

theorem notOlder_of_handle {instruction : DataInstruction}
    (handled : instruction.handle shortU16 config clock signer voteAccount info account =
      .ok data) : NotOlder account data := by
  cases instruction with
  | copyVoteAccount => exact notOlder_copyVoteAccount (lift_eq_ok.mp handled)
  | copyTipDistributionAccount epoch tipDistributionAccount =>
      simp only [DataInstruction.handle, handleCopyTipDistributionAccount,
        Outcome.bind_eq_ok] at handled
      rcases handled with ⟨_, _, _, _, _, _, _, _, handled⟩
      split at handled
      case h_1 => cases handled
      case h_2 => exact notOlder_setEntry (lift_eq_ok.mp handled)
  | copyPriorityFeeDistribution epoch distributionAccount =>
      simp only [DataInstruction.handle, handleCopyPriorityFeeDistributionAccount,
        Outcome.bind_eq_ok, lift_eq_ok] at handled
      rcases handled with ⟨_, _, _, _, _, _, _, _, _, _, _, _, written⟩
      exact notOlder_setEntry written
  | updateStakeHistory | updatePriorityFeeHistory =>
      simp only [DataInstruction.handle, handleUpdateStakeHistory,
        handleUpdatePriorityFeeHistory, Outcome.bind_eq_ok, lift_eq_ok] at handled
      rcases handled with ⟨_, _, _, _, _, _, written⟩
      exact notOlder_setEntry written
  | copyIsBamConnected =>
      simp only [DataInstruction.handle, handleCopyIsBamConnected, Outcome.bind_eq_ok,
        lift_eq_ok] at handled
      rcases handled with ⟨_, _, _, _, _, _, _, _, written⟩
      exact notOlder_setEntry written
  | uploadValidatorAge =>
      simp only [DataInstruction.handle, handleUploadValidatorAge, Outcome.bind_eq_ok,
        Outcome.pure_eq_ok] at handled
      rcases handled with ⟨_, _, _, _, rfl⟩
      exact .of_eq rfl rfl
  | copyGossipContactInfo transaction =>
      simp only [DataInstruction.handle, handleCopyGossipContactInfo, Outcome.bind_eq_ok,
        lift_eq_ok] at handled
      rcases handled with ⟨_, _, _, _, stored⟩
      exact notOlder_setCrdsData stored

end Handlers

end Program

end Stakenet.History

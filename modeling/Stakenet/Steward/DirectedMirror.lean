import Stakenet.Steward.DirectedCall
import Stakenet.Steward.RankingEffect

/-! Directed stake is recorded twice: with the target, in upload order, and with
the row of its validator, in list order.

The two records agree along every run that avoids four gaps: a removal leaves the
staked lamports of the target behind and does not move the rows of added
validators, a validator that comes back is not wired to its old target, and a new
target may be wired to a row that is not the one of its validator. -/

namespace Stakenet.Steward

open Stakenet.Execution

/-! ## The list beside the accounts -/

/-- The accounts, and the vote keys of the rows they describe. While no removal is
pending these are the keys of the validator list. -/
structure Directory where
  accounts : Accounts
  keys : List Pubkey

/-- A transaction, with the vote key that the stake pool program appends to the
list for an addition. -/
structure DirectoryStep where
  transaction : Transaction
  addedKey : Pubkey

namespace Directory

def keysWithout (keys : List Pubkey) : Option Nat → List Pubkey
  | some index => keys.eraseIdx index
  | none => keys

def keysAfter (directory : Directory) (step : DirectoryStep) : List Pubkey :=
  if step.transaction.instruction.addsValidator then
    directory.keys ++ [step.addedKey]
  else
    keysWithout directory.keys step.transaction.instruction.removedIndex

def step (directory : Directory) (input : DirectoryStep) : Directory :=
  match input.transaction.process directory.accounts with
  | .ok next => ⟨next, directory.keysAfter input⟩
  | .error _ => directory

/-- The target is one of those in use, and its validator has this row. -/
structure Targets (directory : Directory) (row target : Nat) : Prop where
  used : target < directory.accounts.stakeMeta.totalStakeTargets
  listed : directory.keys[row]? =
    some (directory.accounts.stakeMeta.targets target).votePubkey

/-- Target and row are wired and record the same stake, and a target without a
row has none. -/
structure Mirrored (directory : Directory) : Prop where
  wired : ∀ row target, directory.Targets row target →
    directory.accounts.stakeMeta.directedStakeMetaIndices row = target ∧
      directory.accounts.stakeMeta.directedStakeLamports row =
        (directory.accounts.stakeMeta.targets target).totalStakedLamports
  unlisted : ∀ target < directory.accounts.stakeMeta.totalStakeTargets,
    (directory.accounts.stakeMeta.targets target).votePubkey ∉ directory.keys →
    (directory.accounts.stakeMeta.targets target).totalStakedLamports = 0

/-- No directed stake was recorded yet. -/
structure Opened (directory : Directory) : Prop where
  empty : directory.accounts.stakeMeta = .initial
  distinct : directory.keys.Nodup

end Directory

/-- The condition under which a transaction keeps the two records together. The
stake pool program adds a vote key only once. -/
structure KeepsMirror (directory : Directory) (step : DirectoryStep) : Prop where
  fresh : step.transaction.instruction.addsValidator = true → step.addedKey ∉ directory.keys
  untargeted : step.transaction.instruction.addsValidator = true →
    ∀ target < directory.accounts.stakeMeta.totalStakeTargets,
      (directory.accounts.stakeMeta.targets target).votePubkey ≠ step.addedKey
  unstaked : ∀ index, step.transaction.instruction.removedIndex = some index →
    ∀ target, directory.Targets index target →
      (directory.accounts.stakeMeta.targets target).totalStakedLamports = 0
  unmoved : ∀ index, step.transaction.instruction.removedIndex = some index →
    ∀ row, row ≠ index → directory.accounts.state.numPoolValidators ≤ row →
      (row = directory.accounts.state.numPoolValidators ∨ index < row) →
      ∀ target, ¬directory.Targets row target
  copied : ∀ votePubkey targetLamports row, step.transaction.instruction =
      .copyDirectedStakeTargets votePubkey targetLamports row →
    directory.accounts.stakeMeta.getTargetIndex votePubkey = none →
    directory.keys[row]? = some votePubkey
  rebalanced : ∀ inputs, step.transaction.instruction = .rebalanceDirected inputs →
    ∀ row, RebalanceDirected.findVoteAccount step.transaction.environment.validatorList
        (directory.accounts.stakeMeta.targets inputs.directedStakeMetaIndex).votePubkey =
          some row →
      directory.keys[row]? = some
          (directory.accounts.stakeMeta.targets inputs.directedStakeMetaIndex).votePubkey ∧
        ∀ listed transient,
          stakeLamportsAtValidatorListIndex step.transaction.environment.validatorList row =
            .ok (listed, transient) → listed < u64Max

/-! ## The invariant -/

/-- Besides the mirror: a vote key has one row, and the targets in use are those
with a vote key. -/
structure DirectorySound (directory : Directory) : Prop where
  mirrored : directory.Mirrored
  distinct : directory.keys.Nodup
  used : ∀ target < directory.accounts.stakeMeta.totalStakeTargets,
    (directory.accounts.stakeMeta.targets target).votePubkey ≠ defaultPubkey
  unused : ∀ target, directory.accounts.stakeMeta.totalStakeTargets ≤ target →
    (directory.accounts.stakeMeta.targets target).votePubkey = defaultPubkey

theorem Directory.row_unique {keys : List Pubkey} (distinct : keys.Nodup) {row other : Nat}
    {key : Pubkey} (first : keys[row]? = some key) (second : keys[other]? = some key) :
    row = other := by
  rcases List.getElem?_eq_some_iff.mp first with ⟨bounded, _⟩
  exact (List.getElem?_inj bounded distinct).mp (first.trans second.symm)

namespace DirectorySound

variable {accounts next : Accounts} {keys : List Pubkey} {row index : Nat}

/-- The vote keys, the counts and the staked lamports are all that matters. -/
theorem keep (sound : DirectorySound ⟨accounts, keys⟩)
    (count : next.stakeMeta.totalStakeTargets = accounts.stakeMeta.totalStakeTargets)
    (sameKeys : ∀ target, (next.stakeMeta.targets target).votePubkey =
      (accounts.stakeMeta.targets target).votePubkey)
    (staked : ∀ target, (next.stakeMeta.targets target).totalStakedLamports =
      (accounts.stakeMeta.targets target).totalStakedLamports)
    (lamports : next.stakeMeta.directedStakeLamports = accounts.stakeMeta.directedStakeLamports)
    (indices : next.stakeMeta.directedStakeMetaIndices =
      accounts.stakeMeta.directedStakeMetaIndices) : DirectorySound ⟨next, keys⟩ := by
  rcases sound with ⟨⟨wired, unlisted⟩, distinct, used, unused⟩
  refine ⟨⟨?_, ?_⟩, distinct, ?_, ?_⟩
  · intro row target targets
    rcases targets with ⟨inUse, listed⟩
    simp only [count, sameKeys, staked, lamports, indices] at inUse listed ⊢
    exact wired row target ⟨inUse, listed⟩
  · simp only [count, sameKeys, staked]
    exact unlisted
  · simp only [count, sameKeys]
    exact used
  · simp only [count, sameKeys]
    exact unused

theorem keep_of_moved (sound : DirectorySound ⟨accounts, keys⟩)
    (moved : ∀ row index, StakedMoved accounts.stakeMeta row index next.stakeMeta) :
    DirectorySound ⟨next, keys⟩ := by
  apply sound.keep (moved 0 0).totalStakeTargets (moved 0 0).keys _ _ (moved 0 0).indices
  · intro target
    exact (moved 0 (target + 1)).others target (Nat.ne_of_lt (Nat.lt_succ_self target))
  · funext other
    exact (moved (other + 1) 0).rows other (Nat.ne_of_lt (Nat.lt_succ_self other))

/-- Stake moves with a target at the row of its validator. -/
theorem move (sound : DirectorySound ⟨accounts, keys⟩)
    (listed : keys[row]? = some (accounts.stakeMeta.targets index).votePubkey)
    (moved : StakedMoved accounts.stakeMeta row index next.stakeMeta) :
    DirectorySound ⟨next, keys⟩ := by
  rcases sound with ⟨⟨wired, unlisted⟩, distinct, used, unused⟩
  refine ⟨⟨?_, ?_⟩, distinct, ?_, ?_⟩
  · intro position target targets
    rcases targets with ⟨inUse, atPosition⟩
    simp only [moved.totalStakeTargets, moved.keys] at inUse atPosition
    have before := wired position target ⟨inUse, atPosition⟩
    simp only [moved.indices]
    refine ⟨before.1, ?_⟩
    by_cases same : target = index
    · subst target
      have samePosition : position = row := Directory.row_unique distinct atPosition listed
      subst position
      exact (moved.agrees before.2.symm).symm
    · have otherPosition : position ≠ row := by
        intro samePosition
        subst position
        have sameKey := Option.some.inj (atPosition.symm.trans listed)
        rcases Nat.lt_or_ge index accounts.stakeMeta.totalStakeTargets with indexUsed | indexUnused
        · exact same (before.1.symm.trans (wired row index ⟨indexUsed, listed⟩).1)
        · exact used target inUse (sameKey.trans (unused index indexUnused))
      rw [moved.rows position otherPosition, moved.others target same]
      exact before.2
  · simp only [moved.totalStakeTargets, moved.keys]
    intro target inUse missing
    have other : target ≠ index := by
      intro same
      subst target
      exact missing (List.mem_of_getElem? listed)
    rw [moved.others target other]
    exact unlisted target inUse missing
  · simp only [moved.totalStakeTargets, moved.keys]
    exact used
  · simp only [moved.totalStakeTargets, moved.keys]
    exact unused

/-! ## Administration -/

/-- A new target is wired to the row of its validator. -/
theorem append {clock : Clock} {votePubkey : Pubkey} {targetLamports : Nat}
    (sound : DirectorySound ⟨accounts, keys⟩)
    (absent : accounts.stakeMeta.getTargetIndex votePubkey = none)
    (listed : keys[row]? = some votePubkey)
    (appended : CopyDirectedStakeTargets.appendTarget clock votePubkey targetLamports row
      accounts.stakeMeta = .ok next.stakeMeta) : DirectorySound ⟨next, keys⟩ := by
  simp only [CopyDirectedStakeTargets.appendTarget, Outcome.bind_eq_ok, writeRow_eq_ok,
    Outcome.pure_eq_ok] at appended
  rcases appended with ⟨_, ⟨room, rfl⟩, _, ⟨_, rfl⟩, _, ⟨_, rfl⟩, written⟩
  rcases sound with ⟨⟨wired, unlisted⟩, distinct, used, unused⟩
  have newKey : ∀ target < maxValidators,
      (accounts.stakeMeta.targets target).votePubkey ≠ votePubkey := by
    intro target bounded same
    have missing := List.find?_eq_none.mp absent target (List.mem_range.mpr bounded)
    simp [same] at missing
  have keyed : votePubkey ≠ defaultPubkey := by
    rw [← unused _ (Nat.le_refl _)]
    exact (newKey _ room).symm
  have usedRoom : ∀ target < accounts.stakeMeta.totalStakeTargets, target < maxValidators :=
    fun target inUse => inUse.trans room
  refine ⟨⟨?_, ?_⟩, distinct, ?_, ?_⟩
  · intro position target targets
    rcases targets with ⟨inUse, atPosition⟩
    simp only [← written] at inUse atPosition ⊢
    by_cases isNew : target = accounts.stakeMeta.totalStakeTargets
    · subst target
      rw [Function.update_self] at atPosition
      have samePosition : position = row := Directory.row_unique distinct atPosition listed
      subst position
      simp
    · have inUseBefore : target < accounts.stakeMeta.totalStakeTargets := by omega
      rw [Function.update_of_ne isNew] at atPosition ⊢
      have other : position ≠ row := by
        intro samePosition
        subst position
        exact newKey target (usedRoom target inUseBefore)
          (Option.some.inj (atPosition.symm.trans listed))
      rw [Function.update_of_ne other, Function.update_of_ne other]
      exact wired position target ⟨inUseBefore, atPosition⟩
  · simp only [← written]
    intro target inUse missing
    by_cases isNew : target = accounts.stakeMeta.totalStakeTargets
    · subst target
      rw [Function.update_self]
    · rw [Function.update_of_ne isNew] at missing ⊢
      exact unlisted target (by simp only; omega) missing
  · simp only [← written]
    intro target inUse
    by_cases isNew : target = accounts.stakeMeta.totalStakeTargets
    · subst target
      rw [Function.update_self]
      exact keyed
    · rw [Function.update_of_ne isNew]
      exact used target (by simp only; omega)
  · simp only [← written]
    intro target beyond
    rw [Function.update_of_ne (by omega)]
    exact unused target (by simp only; omega)

theorem copy {clock : Clock} {validatorList : ValidatorList} {votePubkey : Pubkey}
    {targetLamports : Nat} (sound : DirectorySound ⟨accounts, keys⟩)
    (listed : accounts.stakeMeta.getTargetIndex votePubkey = none →
      keys[row]? = some votePubkey)
    (copied : CopyDirectedStakeTargets.handler clock validatorList votePubkey targetLamports row
      accounts.stakeMeta = .ok next.stakeMeta) : DirectorySound ⟨next, keys⟩ := by
  simp only [CopyDirectedStakeTargets.handler, Outcome.bind_eq_ok] at copied
  rcases copied with ⟨_, _, _, _, _, _, copied⟩
  split at copied
  case h_1 target found =>
      apply sound.keep_of_moved
      apply StakedMoved.of_updateTarget _ _ copied
      · intro target
        rfl
      · intro target
        rfl
  case h_2 absent => exact sound.append absent (listed absent) copied

/-- A synchronised row takes over what it already had. -/
theorem syncRow {validatorList : ValidatorList} {state : StewardStateV2}
    {stakeMeta synced : DirectedStakeMeta} (sound : DirectorySound ⟨⟨state, stakeMeta⟩, keys⟩)
    (syncing : SyncDirectedStakeLamports.syncRow validatorList row stakeMeta = .ok synced) :
    DirectorySound ⟨⟨state, synced⟩, keys⟩ := by
  simp only [SyncDirectedStakeLamports.syncRow, Outcome.bind_eq_ok, readRow_eq_ok] at syncing
  rcases syncing with ⟨_, _, _, ⟨_, rfl⟩, syncing⟩
  split at syncing
  · cases syncing
    exact sound
  simp only [Outcome.bind_eq_ok, readRow_eq_ok] at syncing
  rcases syncing with ⟨_, ⟨_, rfl⟩, syncing⟩
  split at syncing
  · cases syncing
    exact sound
  simp only [Outcome.bind_eq_ok, writeRow_eq_ok, Outcome.pure_eq_ok] at syncing
  rcases syncing with ⟨_, ⟨_, rfl⟩, rfl⟩
  rcases sound with ⟨⟨wired, unlisted⟩, distinct, used, unused⟩
  refine ⟨⟨?_, unlisted⟩, distinct, used, unused⟩
  intro position target targets
  have before := wired position target ⟨targets.used, targets.listed⟩
  simp only at before ⊢
  refine ⟨before.1, ?_⟩
  by_cases same : position = row
  · subst position
    rw [Function.update_self, before.1]
  · rw [Function.update_of_ne same]
    exact before.2

theorem sync {validatorList : ValidatorList} (sound : DirectorySound ⟨accounts, keys⟩)
    (synced : SyncDirectedStakeLamports.handler validatorList accounts.stakeMeta =
      .ok next.stakeMeta) (state : next.state = accounts.state) :
    DirectorySound ⟨next, keys⟩ := by
  simp only [SyncDirectedStakeLamports.handler, Outcome.bind_eq_ok] at synced
  rcases synced with ⟨_, _, looped⟩
  have synced : DirectorySound ⟨⟨accounts.state, next.stakeMeta⟩, keys⟩ :=
    forRange.invariant
      (fun _ stakeMeta => DirectorySound ⟨⟨accounts.state, stakeMeta⟩, keys⟩) (Nat.zero_le _)
      sound (fun _ _ _ _ _ holds syncing => holds.syncRow syncing) looped
  rw [← state] at synced
  exact synced

theorem migrate {clock : Clock} (sound : DirectorySound ⟨accounts, keys⟩)
    (migrated : MigrateDirectedToAlgorithmic.handler clock accounts.stakeMeta =
      next.stakeMeta) : DirectorySound ⟨next, keys⟩ := by
  rcases sound with ⟨⟨wired, unlisted⟩, distinct, used, unused⟩
  have sameKey : ∀ target,
      (MigrateDirectedToAlgorithmic.clearTarget clock target).votePubkey = target.votePubkey := by
    intro target
    unfold MigrateDirectedToAlgorithmic.clearTarget
    split <;> rfl
  have cleared : ∀ target < accounts.stakeMeta.totalStakeTargets,
      (MigrateDirectedToAlgorithmic.clearTarget clock
        (accounts.stakeMeta.targets target)).totalStakedLamports = 0 := by
    intro target inUse
    rw [MigrateDirectedToAlgorithmic.clearTarget, if_pos (used target inUse)]
  refine ⟨⟨?_, ?_⟩, distinct, ?_, ?_⟩
  · intro position target targets
    rcases targets with ⟨inUse, atPosition⟩
    simp only [← migrated, MigrateDirectedToAlgorithmic.handler, sameKey] at inUse atPosition ⊢
    exact ⟨(wired position target ⟨inUse, atPosition⟩).1, (cleared target inUse).symm⟩
  · simp only [← migrated, MigrateDirectedToAlgorithmic.handler]
    intro target inUse _
    exact cleared target inUse
  · simp only [← migrated, MigrateDirectedToAlgorithmic.handler, sameKey]
    exact used
  · simp only [← migrated, MigrateDirectedToAlgorithmic.handler, sameKey]
    exact unused

/-! ## Changes of the list -/

/-- A validator without a target may be added. -/
theorem add (sound : DirectorySound ⟨accounts, keys⟩) {key : Pubkey} (fresh : key ∉ keys)
    (untargeted : ∀ target < accounts.stakeMeta.totalStakeTargets,
      (accounts.stakeMeta.targets target).votePubkey ≠ key) :
    DirectorySound ⟨accounts, keys ++ [key]⟩ := by
  rcases sound with ⟨⟨wired, unlisted⟩, distinct, used, unused⟩
  refine ⟨⟨?_, ?_⟩, ?_, used, unused⟩
  · intro position target targets
    rcases targets with ⟨inUse, atPosition⟩
    apply wired position target
    refine ⟨inUse, ?_⟩
    rcases Nat.lt_or_ge position keys.length with before | after
    · rwa [List.getElem?_append_left before] at atPosition
    · rw [List.getElem?_append_right after] at atPosition
      have member := List.mem_of_getElem? atPosition
      rw [List.mem_singleton] at member
      exact absurd member (untargeted target inUse)
  · intro target inUse missing
    apply unlisted target inUse
    intro member
    exact missing (List.mem_append_left _ member)
  · rw [List.nodup_append]
    refine ⟨distinct, List.nodup_singleton key, ?_⟩
    intro member inKeys other isKey same
    rw [List.mem_singleton] at isKey
    subst other
    exact fresh (same ▸ inKeys)

theorem remove (sound : DirectorySound ⟨accounts, keys⟩)
    (unstaked : ∀ target, Directory.Targets ⟨accounts, keys⟩ index target →
      (accounts.stakeMeta.targets target).totalStakedLamports = 0)
    (unmoved : ∀ row, row ≠ index → accounts.state.numPoolValidators ≤ row →
      (row = accounts.state.numPoolValidators ∨ index < row) →
      ∀ target, ¬Directory.Targets ⟨accounts, keys⟩ row target)
    (removed : Removed accounts index next) :
    DirectorySound ⟨next, keys.eraseIdx index⟩ := by
  rcases sound with ⟨⟨wired, unlisted⟩, distinct, used, unused⟩
  have shrunk := poolShrunk_of_removed removed
  have within := shrunk.within
  have beyond := shrunk.beyond
  have wiredBefore := fun position target inUse listed => wired position target ⟨inUse, listed⟩
  simp only at wiredBefore unmoved used unused unlisted
  refine ⟨⟨?_, ?_⟩, distinct.eraseIdx index, ?_, ?_⟩
  · intro position target targets
    rcases targets with ⟨inUse, atPosition⟩
    simp only [removed.totalStakeTargets, removed.targets] at inUse atPosition ⊢
    rw [List.getElem?_eraseIdx] at atPosition
    rw [removed.directedStakeMetaIndices, removed.directedStakeLamports]
    split at atPosition
    case isTrue before =>
        have kept : position ≠ next.state.numPoolValidators := by
          intro isBound
          exact unmoved position (by omega) (by omega) (by omega) target ⟨inUse, atPosition⟩
        rw [deleteRow_of_lt _ _ before kept, deleteRow_of_lt _ _ before kept]
        exact wiredBefore position target inUse atPosition
    case isFalse after =>
        have moved : position < next.state.numPoolValidators := by
          by_contra outside
          exact unmoved (position + 1) (by omega) (by omega) (by omega) target
            ⟨inUse, atPosition⟩
        rw [deleteRow_of_le _ _ (by omega) moved, deleteRow_of_le _ _ (by omega) moved]
        exact wiredBefore (position + 1) target inUse atPosition
  · simp only [removed.totalStakeTargets, removed.targets]
    intro target inUse missing
    by_cases listed : (accounts.stakeMeta.targets target).votePubkey ∈ keys
    · rcases List.mem_iff_getElem?.mp listed with ⟨position, atPosition⟩
      have isRemoved : position = index := by
        by_contra other
        apply missing
        rw [List.mem_eraseIdx_iff_getElem?]
        exact ⟨position, other, atPosition⟩
      subst position
      exact unstaked target ⟨inUse, atPosition⟩
    · exact unlisted target inUse listed
  · simp only [removed.totalStakeTargets, removed.targets]
    exact used
  · simp only [removed.totalStakeTargets, removed.targets]
    exact unused

/-! ## Runs -/

theorem of_opened {directory : Directory} (opened : directory.Opened) :
    DirectorySound directory := by
  rcases opened with ⟨empty, distinct⟩
  refine ⟨⟨?_, ?_⟩, distinct, ?_, ?_⟩
  · intro row target targets
    have inUse := targets.used
    simp [empty, DirectedStakeMeta.initial] at inUse
  · simp [empty, DirectedStakeMeta.initial]
  · simp [empty, DirectedStakeMeta.initial]
  · simp [empty, DirectedStakeMeta.initial, DirectedStakeTarget.none]

/-- An instruction that writes the state account only. -/
theorem keep_withState {outcome : Result StewardStateV2}
    (sound : DirectorySound ⟨accounts, keys⟩) (written : accounts.withState outcome = .ok next) :
    DirectorySound ⟨next, keys⟩ := by
  rw [Accounts.withState_eq_ok] at written
  apply sound.keep <;> simp [written.2]

theorem epochMaintenance {environment : Environment} {lastUpdateEpoch : Nat}
    {toRemove : Option Nat} (sound : DirectorySound ⟨accounts, keys⟩)
    (unstaked : ∀ index, toRemove = some index →
      ∀ target, Directory.Targets ⟨accounts, keys⟩ index target →
        (accounts.stakeMeta.targets target).totalStakedLamports = 0)
    (unmoved : ∀ index, toRemove = some index → ∀ row, row ≠ index →
      accounts.state.numPoolValidators ≤ row →
      (row = accounts.state.numPoolValidators ∨ index < row) →
      ∀ target, ¬Directory.Targets ⟨accounts, keys⟩ row target)
    (succeeded : EpochMaintenance.handler environment lastUpdateEpoch toRemove accounts =
      .ok next) :
    DirectorySound ⟨next, Directory.keysWithout keys toRemove⟩ := by
  simp only [EpochMaintenance.handler, Outcome.bind_eq_ok] at succeeded
  rcases succeeded with ⟨_, _, _, _, _, _, _, _, _, _, _, _, _, _, removed, removing, succeeded⟩
  have unset : DirectorySound
      ⟨⟨accounts.state.unsetFlag epochMaintenanceFlag, accounts.stakeMeta⟩, keys⟩ :=
    sound.keep rfl (fun _ => rfl) (fun _ => rfl) rfl rfl
  have reached : DirectorySound ⟨removed, Directory.keysWithout keys toRemove⟩ := by
    cases toRemove with
    | none =>
        cases removing
        exact unset
    | some index =>
        have removal : Removed
            ⟨accounts.state.unsetFlag epochMaintenanceFlag, accounts.stakeMeta⟩ index removed :=
          removed_of_removeValidator removing
        apply unset.remove _ _ removal
        · intro target targets
          exact unstaked index rfl target ⟨targets.used, targets.listed⟩
        · intro row other added affected target targets
          exact unmoved index rfl row other added affected target ⟨targets.used, targets.listed⟩
  split at succeeded
  · cases succeeded
    apply reached.keep
    all_goals
      simp only [EpochMaintenance.openEpoch]
      split <;> simp
  · cases succeeded
    exact reached

end DirectorySound

/-- Every transaction that meets the condition keeps the records together. -/
theorem DirectorySound.process {directory : Directory} {step : DirectoryStep} {next : Accounts}
    (sound : DirectorySound directory) (keeps : KeepsMirror directory step)
    (succeeded : step.transaction.process directory.accounts = .ok next) :
    DirectorySound ⟨next, directory.keysAfter step⟩ := by
  rcases directory with ⟨accounts, keys⟩
  rcases step with ⟨⟨environment, instruction⟩, addedKey⟩
  cases instruction with
  | computeScore inputs => exact sound.keep_withState succeeded
  | computeDelegations => exact sound.keep_withState succeeded
  | idle => exact sound.keep_withState succeeded
  | computeInstantUnstake inputs => exact sound.keep_withState succeeded
  | rebalance inputs => exact sound.keep_withState succeeded
  | rebalanceDirected inputs =>
      simp only [Transaction.process, Outcome.map_eq_ok] at succeeded
      rcases succeeded with ⟨⟨last, rebalanceType⟩, handled, rfl⟩
      have rebalanced := keeps.rebalanced inputs rfl
      rcases (RebalanceDirected.directedCall_of_handler handled).stakedMoved
          (fun row listed transient found => (rebalanced row found).2 listed transient) with
        untouched | ⟨row, found, moved⟩
      · exact sound.keep_of_moved untouched
      · exact sound.move (rebalanced row found).1 moved
  | epochMaintenance lastUpdateEpoch toRemove =>
      exact sound.epochMaintenance keeps.unstaked keeps.unmoved succeeded
  | instantRemoveValidator lastUpdateEpoch index =>
      simp only [Transaction.process, InstantRemoveValidator.handler,
        Outcome.bind_eq_ok] at succeeded
      rcases succeeded with
        ⟨_, _, _, _, _, _, _, _, _, _, _, _, _, _, _, _, _, _, _, _, removing⟩
      exact sound.remove (keeps.unstaked index rfl) (keeps.unmoved index rfl)
        (removed_of_removeValidator removing)
  | adminMarkForRemoval index markForRemoval immediate => exact sound.keep_withState succeeded
  | autoAddValidatorToPool eligibility invoke =>
      have added := sound.add (keeps.fresh rfl) (keeps.untargeted rfl)
      exact added.keep_withState succeeded
  | addValidatorToPool invoke =>
      have added := sound.add (keeps.fresh rfl) (keeps.untargeted rfl)
      exact added.keep_withState succeeded
  | resetStewardState => exact sound.keep_withState succeeded
  | resetValidatorLamportBalances => exact sound.keep_withState succeeded
  | copyDirectedStakeTargets votePubkey targetLamports row =>
      simp only [Transaction.process, Accounts.withStakeMeta_eq_ok] at succeeded
      exact sound.copy (keeps.copied votePubkey targetLamports row rfl) succeeded.1
  | syncDirectedStakeLamports =>
      simp only [Transaction.process, Accounts.withStakeMeta_eq_ok] at succeeded
      exact sound.sync succeeded.1 succeeded.2
  | migrateDirectedToAlgorithmic =>
      simp only [Transaction.process, Accounts.withStakeMeta_eq_ok, Except.ok.injEq] at succeeded
      exact sound.migrate succeeded.1

/-- Along a run whose transactions all meet the condition, target and row record
the same directed stake. -/
theorem run_mirrored {start : Directory} (opened : start.Opened) {steps : List DirectoryStep}
    (conditions : EveryStep Directory.step (fun directory step =>
      (step.transaction.process directory.accounts).isOk = true → KeepsMirror directory step)
      start steps) :
    (run Directory.step start steps).Mirrored := by
  apply DirectorySound.mirrored
  apply run_invariant DirectorySound _ (.of_opened opened) conditions
  intro directory step sound keeps
  unfold Directory.step
  cases processed : step.transaction.process directory.accounts with
  | error failure => exact sound
  | ok next => exact sound.process (keeps (by rw [processed]; rfl)) processed

/-! A pool of one validator, with a target. -/

def mirrorEnvironment (epoch : Nat) (keys : List Pubkey) : Environment where
  clock := ⟨epoch, 1000 * epoch⟩
  epochSchedule := .withoutWarmup 1000
  config := ⟨.fixture, false⟩
  validatorList := ⟨.validatorList, keys.map fun key => ⟨2, 0, 0, .active, key⟩, []⟩

def mirrorStart : Directory := ⟨⟨ReallocState.initialState 1 10 0, .initial⟩, [1]⟩

def mirrorCopied : DirectoryStep :=
  ⟨⟨mirrorEnvironment 0 [1], .copyDirectedStakeTargets 1 100 0⟩, 0⟩

def mirrorAdded (epoch : Nat) (keys : List Pubkey) (key : Pubkey) : DirectoryStep :=
  ⟨⟨mirrorEnvironment epoch keys, .addValidatorToPool (.ok ())⟩, key⟩

theorem mirrorStart_opened : mirrorStart.Opened :=
  ⟨rfl, by simp [mirrorStart]⟩

theorem run_mirrored_copied :
    (run Directory.step mirrorStart [mirrorCopied, mirrorAdded 0 [1] 2]).Targets 0 0 ∧
      (run Directory.step mirrorStart [mirrorCopied, mirrorAdded 0 [1] 2]).Mirrored := by
  refine ⟨⟨by decide +kernel, by decide +kernel⟩, run_mirrored mirrorStart_opened ?_⟩
  refine ⟨fun _ => ?_, fun _ => ?_, trivial⟩
  · exact {
      fresh := fun adds => by cases adds
      untargeted := fun adds => by cases adds
      unstaked := fun _ removes => by cases removes
      unmoved := fun _ removes => by cases removes
      copied := fun _ _ _ copies _ => by
        cases copies
        rfl
      rebalanced := fun _ rebalances => by cases rebalances }
  · exact {
      fresh := fun _ => by decide +kernel
      untargeted := fun _ target inUse => by
        have one : (mirrorStart.step mirrorCopied).accounts.stakeMeta.totalStakeTargets = 1 := by
          decide +kernel
        rw [one] at inUse
        rw [Nat.lt_one_iff.mp inUse]
        decide +kernel
      unstaked := fun _ removes => by cases removes
      unmoved := fun _ removes => by cases removes
      copied := fun _ _ _ copies => by cases copies
      rebalanced := fun _ rebalances => by cases rebalances }

/-- The validator is removed and comes back. -/
def mirrorRejoined : Directory :=
  run Directory.step mirrorStart [mirrorCopied,
    ⟨⟨mirrorEnvironment 0 [1], .adminMarkForRemoval 0 true false⟩, 0⟩,
    ⟨⟨mirrorEnvironment 1 [], .epochMaintenance 1 (some 0)⟩, 0⟩,
    mirrorAdded 1 [] 1]

/-- The row of a validator that came back is no longer wired. -/
theorem not_run_mirrored :
    mirrorStart.Opened ∧
      ¬(run Directory.step mirrorStart [mirrorCopied,
        ⟨⟨mirrorEnvironment 0 [1], .adminMarkForRemoval 0 true false⟩, 0⟩,
        ⟨⟨mirrorEnvironment 1 [], .epochMaintenance 1 (some 0)⟩, 0⟩,
        mirrorAdded 1 [] 1]).Mirrored := by
  refine ⟨mirrorStart_opened, fun mirrored => ?_⟩
  have facts : 0 < mirrorRejoined.accounts.stakeMeta.totalStakeTargets ∧
      mirrorRejoined.keys[0]? = some (mirrorRejoined.accounts.stakeMeta.targets 0).votePubkey ∧
      mirrorRejoined.accounts.stakeMeta.directedStakeMetaIndices 0 ≠ 0 := by
    decide +kernel
  rcases facts with ⟨used, listed, unwired⟩
  have targets : mirrorRejoined.Targets 0 0 := ⟨used, listed⟩
  have kept : mirrorRejoined.Mirrored := mirrored
  exact unwired (kept.wired 0 0 targets).1

end Stakenet.Steward

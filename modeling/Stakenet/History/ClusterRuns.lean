import Stakenet.History.ClusterRecord

/-! Runs of the instructions for the cluster history account. -/

namespace Stakenet.History.ClusterProgram

open Execution

/-! ## What a call can do -/

/-- The entries of an account of full size. -/
def State.entries (state : State) : List ClusterHistoryEntry :=
  match state.clusterHistory with
  | some (.complete account) => account.history.entries
  | _ => []

/-- An account of full size has a sound ring, and the bump of its address. -/
def Sound (bump : Nat) (state : State) : Prop :=
  ∀ account, state.clusterHistory = some (.complete account) →
    account.history.Sound ∧ account.bump = bump

theorem sound_empty (bump : Nat) : Sound bump .empty :=
  fun _ isComplete => by cases isComplete

section Steps

variable {check : SlotHistory → Nat → Check} {epochSchedule : EpochSchedule} {bump : Nat}

/-- The blocks of an epoch that has passed, and those of an epoch up to a slot. -/
def CountedBlocks (check : SlotHistory → Nat → Check) (startSlot endSlot : Nat)
    (slotHistory : SlotHistory) (blocks : Nat) : Prop :=
  ∃ bits, confirmedBlocksInEpoch check startSlot endSlot slotHistory = .ok (blocks, bits)

/-- The writes of a copy: the previous epoch, if there is one, and the current one. -/
structure Copies (check : SlotHistory → Nat → Check) (epochSchedule : EpochSchedule)
    (clock : Clock) (slotHistory : SlotHistory) (entries earlier next : List ClusterHistoryEntry)
    (blocks : Nat) : Prop where
  valid : clock.epoch < epochDefault
  previous : (clock.epoch = 0 ∧ earlier = entries) ∨
    0 < clock.epoch ∧ ∃ previousBlocks,
      CountedBlocks check (epochSchedule.getFirstSlotInEpoch (clock.epoch - 1))
        (epochSchedule.getLastSlotInEpoch (clock.epoch - 1)) slotHistory previousBlocks ∧
      earlier = recordBlocks (clock.epoch - 1) previousBlocks entries
  current : CountedBlocks check (epochSchedule.getFirstSlotInEpoch clock.epoch) clock.slot
    slotHistory blocks
  written : ∃ change, KeepsBlocks change ∧
    next = (recordBlocks clock.epoch blocks earlier).map change

theorem bits_of_confirmedBlocksInEpoch {startSlot endSlot blocks : Nat} {slotHistory : SlotHistory}
    {bits : WordSet.Words}
    (counted : confirmedBlocksInEpoch check startSlot endSlot slotHistory = .ok (blocks, bits)) :
    bits = slotHistory.bits := by
  simp only [confirmedBlocksInEpoch, Outcome.bind_eq_ok, Outcome.pure_eq_ok, Prod.mk.injEq]
    at counted
  rcases counted with ⟨_, _, _, _, _, _, _, _, _, same⟩
  exact same.symm

theorem copies_of_handleCopyClusterInfo {clock : Clock} {slotHistory : SlotHistory}
    {account written : ClusterHistory} (sound : account.history.Sound)
    (handled : handleCopyClusterInfo check epochSchedule clock slotHistory account =
      .ok written) :
    written.history.Sound ∧ ∃ earlier blocks, Copies check epochSchedule clock slotHistory
      account.history.entries earlier written.history.entries blocks := by
  simp only [handleCopyClusterInfo, Outcome.bind_eq_ok, castEpoch_eq_ok, Outcome.pure_eq_ok]
    at handled
  rcases handled with ⟨_, ⟨valid, rfl⟩, timestamp, _, ⟨between, slotHistory'⟩, previous,
    ⟨blocks, bits⟩, counted, rfl⟩
  have written : ∀ earlier : ClusterHistory, earlier.history.Sound →
      let stamped := (earlier.setBlocks clock.epoch blocks).setEpochStartTimestamp clock.epoch
        timestamp
      stamped.history.Sound ∧ ∃ change, KeepsBlocks change ∧ stamped.history.entries =
        (recordBlocks clock.epoch blocks earlier.history.entries).map change := by
    intro earlier earlierSound
    have recorded := ClusterHistory.setBlocks_sound earlierSound valid.ne blocks
    rw [← recorded.2]
    exact ClusterHistory.setEpochStartTimestamp_sound recorded.1 valid.ne timestamp
  rw [copyPreviousEpoch] at previous
  split at previous
  case isTrue positive =>
    simp only [Outcome.bind_eq_ok, Outcome.pure_eq_ok, Prod.mk.injEq] at previous
    rcases previous with ⟨⟨previousBlocks, previousBits⟩, previousCounted, rfl, rfl⟩
    have sameBits := bits_of_confirmedBlocksInEpoch previousCounted
    subst previousBits
    have notDefault : clock.epoch - 1 ≠ epochDefault := by omega
    have recorded := ClusterHistory.setBlocks_sound sound notDefault previousBlocks
    rcases written _ recorded.1 with ⟨stamped, change, keeps, same⟩
    rw [recorded.2] at same
    dsimp only at counted ⊢
    refine ⟨stamped, recordBlocks (clock.epoch - 1) previousBlocks account.history.entries,
      blocks, ?_⟩
    exact {
      valid := valid
      previous := .inr ⟨positive, previousBlocks, ⟨_, previousCounted⟩, rfl⟩
      current := ⟨bits, counted⟩
      written := ⟨change, keeps, same⟩ }
  case isFalse first =>
    simp only [Outcome.pure_eq_ok, Prod.mk.injEq] at previous
    rcases previous with ⟨rfl, rfl⟩
    have stamped := written account sound
    have isFirst : clock.epoch = 0 := Nat.eq_zero_of_not_pos first
    refine ⟨stamped.1, account.history.entries, blocks, ?_⟩
    exact {
      valid := valid
      previous := .inl ⟨isFirst, rfl⟩
      current := ⟨bits, counted⟩
      written := stamped.2 }

theorem backfilled_of_handleBackfillTotalBlocks {epoch blocks : Nat}
    {account written : ClusterHistory} (sound : account.history.Sound)
    (handled : handleBackfillTotalBlocks epoch blocks account = .ok written) :
    written.history.Sound ∧ (∀ entry ∈ account.history.entries, entry.epoch < epoch) ∧
      written.history.entries = recordBlocks epoch blocks account.history.entries := by
  simp only [handleBackfillTotalBlocks, Outcome.bind_eq_ok, castEpoch_eq_ok, rejectIf_eq_ok,
    Outcome.pure_eq_ok] at handled
  rcases handled with ⟨_, ⟨valid, rfl⟩, _, next, rfl⟩
  have recorded := ClusterHistory.setBlocks_sound sound valid.ne blocks
  refine ⟨recorded.1, fun entry member => ?_, recorded.2⟩
  cases isLast : account.history.last with
  | none =>
      rw [sound.last_eq_none.mp isLast] at member
      exact absurd member List.not_mem_nil
  | some last =>
      have isNext : epoch = last.epoch + 1 := by
        by_contra different
        exact next ⟨last, isLast, different⟩
      have atMost := (sound.last_eq_some isLast).2.2 entry member
      omega

theorem loadMut_eq_ok {state : State} {account : ClusterHistoryAccount} :
    loadMut state = .ok account ↔ state.clusterHistory = some (.complete account) := by
  rw [loadMut, Outcome.bind_eq_ok]
  constructor
  · intro loaded
    rcases loaded with ⟨found, isFound, loaded⟩
    cases found with
    | allocated size => cases loaded
    | complete stored =>
        cases loaded
        exact Program.present_eq_ok.mp isFound
  · exact fun found => ⟨_, Program.present_eq_ok.mpr found, rfl⟩

/-- What a call does to the entries. -/
inductive Effect (check : SlotHistory → Nat → Check) (epochSchedule : EpochSchedule)
    (state : State) (call : Call) (entries : List ClusterHistoryEntry) : Prop
  | unchanged (same : entries = state.entries)
  | copied {slotHistory : SlotHistory} {earlier : List ClusterHistoryEntry} {blocks : Nat}
      (isCopy : call.instruction = .data (.copyClusterInfo slotHistory))
      (copies : Copies check epochSchedule call.clock slotHistory state.entries earlier entries
        blocks)
  | backfilled {epoch blocks : Nat}
      (isBackfill : call.instruction = .data (.backfillTotalBlocks epoch blocks))
      (signed : ∃ config, state.config = some config ∧ config.oracleAuthority = call.signer)
      (younger : ∀ entry ∈ state.entries, entry.epoch < epoch)
      (recorded : entries = recordBlocks epoch blocks state.entries)

theorem effect_of_handle (notZero : bump ≠ 0) {state next : State} (sound : Sound bump state)
    {call : Call} (handled : call.handle check epochSchedule bump state = .ok next) :
    Sound bump next ∧ Effect check epochSchedule state call next.entries := by
  unfold Call.handle at handled
  split at handled
  case h_1 instruction _ =>
    rw [Outcome.bind_eq_ok] at handled
    rcases handled with ⟨config, _, returned⟩
    cases returned
    exact ⟨sound, .unchanged rfl⟩
  case h_2 =>
    simp only [handleInitializeClusterHistoryAccount, Outcome.bind_eq_ok, Program.require_eq_ok,
      Outcome.pure_eq_ok, Option.isNone_iff_eq_none] at handled
    rcases handled with ⟨_, missing, rfl⟩
    refine ⟨fun account isComplete => (by cases isComplete), .unchanged ?_⟩
    rw [State.entries, State.entries, missing]
  case h_3 =>
    simp only [handleReallocClusterHistoryAccount, Outcome.bind_eq_ok, Program.present_eq_ok]
      at handled
    rcases handled with ⟨found, isFound, handled⟩
    cases found with
    | allocated size =>
        dsimp only at handled
        split at handled
        case isTrue =>
          cases handled
          refine ⟨fun account isComplete => (by cases isComplete), .unchanged ?_⟩
          rw [State.entries, State.entries, isFound]
        case isFalse =>
          cases handled
          refine ⟨fun account isComplete => ?_, .unchanged ?_⟩
          · cases isComplete
            exact ⟨CircBufCluster.initial_sound.1, rfl⟩
          · rw [State.entries, State.entries, isFound]
            exact CircBufCluster.initial_sound.2
    | complete account =>
        have isBump := (sound account isFound).2
        have initialized : isInitialized account = true := by
          simp [isInitialized, isBump, notZero]
        dsimp only at handled
        rw [if_pos initialized] at handled
        cases handled
        exact ⟨sound, .unchanged rfl⟩
  case h_4 instruction isData =>
    simp only [loadMut_eq_ok, Outcome.bind_eq_ok, Outcome.pure_eq_ok] at handled
    rcases handled with ⟨account, isComplete, written, handled, rfl⟩
    rcases sound account isComplete with ⟨ring, isBump⟩
    have entries : state.entries = account.history.entries := by
      rw [State.entries, isComplete]
    cases instruction with
    | copyClusterInfo slotHistory =>
        rcases copies_of_handleCopyClusterInfo ring (Program.lift_eq_ok.mp handled) with
          ⟨writtenSound, earlier, blocks, copies⟩
        rw [← entries] at copies
        refine ⟨fun later isLater => ?_, .copied isData copies⟩
        cases isLater
        exact ⟨writtenSound, isBump⟩
    | backfillTotalBlocks epoch blocks =>
        simp only [DataInstruction.handle, Outcome.bind_eq_ok, Program.authorized_eq_ok,
          Program.lift_eq_ok] at handled
        rcases handled with ⟨config, signed, handled⟩
        rcases backfilled_of_handleBackfillTotalBlocks ring handled with
          ⟨writtenSound, younger, recorded⟩
        rw [← entries] at younger recorded
        refine ⟨fun later isLater => ?_, .backfilled isData ⟨config, signed⟩ younger recorded⟩
        cases isLater
        exact ⟨writtenSound, isBump⟩

theorem effect_of_execute (notZero : bump ≠ 0) {state : State} (sound : Sound bump state)
    (call : Call) :
    Sound bump (execute check epochSchedule bump state call) ∧
      Effect check epochSchedule state call
        (execute check epochSchedule bump state call).entries := by
  rcases Outcome.commit_cases state (call.handle check epochSchedule bump state) with
    failed | succeeded
  · rw [execute, failed]
    exact ⟨sound, .unchanged rfl⟩
  · exact effect_of_handle notZero sound succeeded

end Steps

/-! ## Where the blocks come from -/

/-- The state after some calls from the beginning. -/
def reached (check : SlotHistory → Nat → Check) (epochSchedule : EpochSchedule) (bump : Nat)
    (calls : List Call) : State :=
  run (execute check epochSchedule bump) .empty calls

/-- A call counts the blocks of an epoch in the slot history, or it is signed by the oracle and
gives them. -/
inductive Source (check : SlotHistory → Nat → Check) (epochSchedule : EpochSchedule)
    (state : State) (call : Call) (epoch blocks : Nat) : Prop
  | current {slotHistory : SlotHistory}
      (isCopy : call.instruction = .data (.copyClusterInfo slotHistory))
      (isEpoch : call.clock.epoch = epoch)
      (counted : CountedBlocks check (epochSchedule.getFirstSlotInEpoch epoch) call.clock.slot
        slotHistory blocks)
  | previous {slotHistory : SlotHistory}
      (isCopy : call.instruction = .data (.copyClusterInfo slotHistory))
      (isNext : call.clock.epoch = epoch + 1)
      (counted : CountedBlocks check (epochSchedule.getFirstSlotInEpoch epoch)
        (epochSchedule.getLastSlotInEpoch epoch) slotHistory blocks)
  | oracle (isBackfill : call.instruction = .data (.backfillTotalBlocks epoch blocks))
      (signed : ∃ config, state.config = some config ∧ config.oracleAuthority = call.signer)

section Runs

variable {check : SlotHistory → Nat → Check} {epochSchedule : EpochSchedule} {bump : Nat}

theorem source_of_recordBlocks {state : State} {call : Call} {epoch blocks : Nat}
    {entries : List ClusterHistoryEntry}
    (source : Source check epochSchedule state call epoch blocks) {entry : ClusterHistoryEntry}
    (member : entry ∈ recordBlocks epoch blocks entries) :
    Source check epochSchedule state call entry.epoch entry.totalBlocks ∨ entry ∈ entries := by
  rcases mem_recordBlocks member with ⟨rfl, rfl⟩ | ⟨_, earlier⟩
  · exact .inl source
  · exact .inr earlier

/-- An entry has its blocks from the call, or had them before. -/
theorem Effect.source {state : State} {call : Call} {entries : List ClusterHistoryEntry}
    (effect : Effect check epochSchedule state call entries) {entry : ClusterHistoryEntry}
    (member : entry ∈ entries) :
    Source check epochSchedule state call entry.epoch entry.totalBlocks ∨
      ∃ earlier ∈ state.entries, earlier.epoch = entry.epoch ∧
        earlier.totalBlocks = entry.totalBlocks := by
  cases effect with
  | unchanged same => exact .inr ⟨entry, same ▸ member, rfl, rfl⟩
  | backfilled isBackfill signed younger recorded =>
      rw [recorded] at member
      rcases source_of_recordBlocks (.oracle isBackfill signed) member with source | earlier
      · exact .inl source
      · exact .inr ⟨entry, earlier, rfl, rfl⟩
  | copied isCopy copies =>
      rcases copies.written with ⟨change, keeps, rfl⟩
      rcases List.mem_map.mp member with ⟨recorded, inRecorded, rfl⟩
      rw [keeps.epoch, keeps.totalBlocks]
      rcases source_of_recordBlocks (.current isCopy rfl copies.current) inRecorded with
        source | inEarlier
      · exact .inl source
      · rcases copies.previous with ⟨_, rfl⟩ | ⟨positive, previousBlocks, counted, rfl⟩
        · exact .inr ⟨recorded, inEarlier, rfl, rfl⟩
        · have isNext : call.clock.epoch = call.clock.epoch - 1 + 1 := by omega
          rcases source_of_recordBlocks (.previous isCopy isNext counted) inEarlier with
            source | inEntries
          · exact .inl source
          · exact .inr ⟨recorded, inEntries, rfl, rfl⟩

theorem sound_reached (notZero : bump ≠ 0) (calls : List Call) :
    Sound bump (reached check epochSchedule bump calls) :=
  run_preserves (Sound bump) (fun _ call sound => (effect_of_execute notZero sound call).1)
    (sound_empty bump) calls

theorem increasing_entries {state : State} (sound : Sound bump state) :
    Increasing state.entries := by
  rw [State.entries]
  split
  case h_1 account isComplete => exact (sound account isComplete).1.holds.increasing
  case h_2 => exact List.Pairwise.nil

theorem entries_supplied (notZero : bump ≠ 0) (calls : List Call) :
    ∀ entry ∈ (reached check epochSchedule bump calls).entries, ∃ before call after,
      calls = before ++ call :: after ∧
        Source check epochSchedule (reached check epochSchedule bump before) call entry.epoch
          entry.totalBlocks := by
  induction calls using List.reverseRecOn with
  | nil => exact fun _ member => absurd member List.not_mem_nil
  | append_singleton calls call induction =>
      intro entry member
      have next : reached check epochSchedule bump (calls ++ [call]) =
          execute check epochSchedule bump (reached check epochSchedule bump calls) call :=
        run_append State.empty calls [call]
      rw [next] at member
      have sound : Sound bump (reached check epochSchedule bump calls) :=
        sound_reached notZero calls
      rcases (effect_of_execute notZero sound call).2.source member with
        source | ⟨earlier, inEarlier, sameEpoch, sameBlocks⟩
      · exact ⟨calls, call, [], rfl, source⟩
      · rcases induction earlier inEarlier with ⟨before, cause, after, split, source⟩
        rw [← sameEpoch, ← sameBlocks]
        refine ⟨before, cause, after ++ [call], ?_, source⟩
        rw [split, List.append_assoc, List.cons_append]

/-- After any calls the entries have increasing epochs, a range of epochs is looked up among them,
and the blocks of each were counted for its epoch in a slot history or given by the oracle. -/
theorem run_blocks_supplied (check : SlotHistory → Nat → Check) (epochSchedule : EpochSchedule)
    (bump : Nat) (notZero : bump ≠ 0) (calls : List Call) :
    let state := reached check epochSchedule bump calls
    Increasing state.entries ∧
      (∀ account, state.clusterHistory = some (.complete account) →
        ∀ startEpoch endEpoch, endEpoch < epochDefault →
          account.history.epochRange startEpoch endEpoch =
            (CircBuf.epochs startEpoch endEpoch).map (entryOf state.entries)) ∧
      ∀ entry ∈ state.entries, ∃ before call after, calls = before ++ call :: after ∧
        Source check epochSchedule (reached check epochSchedule bump before) call entry.epoch
          entry.totalBlocks := by
  intro state
  have sound : Sound bump state := sound_reached notZero calls
  refine ⟨increasing_entries sound, ?_, entries_supplied notZero calls⟩
  intro account isComplete startEpoch endEpoch valid
  have same : state.entries = account.history.entries := by
    rw [State.entries, isComplete]
  rw [same]
  exact (sound account isComplete).1.epochRange_eq valid

/-! ### A first copy -/

/-- Epochs of 64 slots. -/
def sampleSchedule : EpochSchedule where
  getFirstSlotInEpoch epoch := 64 * epoch
  getLastSlotInEpoch epoch := 64 * epoch + 63

/-- Every slot so far has a block. -/
def sampleSlots : SlotHistory where
  bits _ := BitVec.allOnes 64
  nextSlot := 75

def sampleCopy : Call := ⟨⟨1, 74, 0⟩, 1, .data (.copyClusterInfo sampleSlots)⟩

/-- The account reaches its full size after twelve calls. -/
def sampleCreation : List Call :=
  ⟨⟨1, 64, 0⟩, 1, .initializeClusterHistoryAccount⟩ ::
    List.replicate 12 ⟨⟨1, 64, 0⟩, 1, .reallocClusterHistoryAccount⟩

theorem run_blocks_supplied_sampleCopy :
    ∃ entry ∈ (reached slotCheck sampleSchedule 255 (sampleCreation ++ [sampleCopy])).entries,
      entry.epoch = 0 ∧ ∃ before call after,
        sampleCreation ++ [sampleCopy] = before ++ call :: after ∧
        Source slotCheck sampleSchedule (reached slotCheck sampleSchedule 255 before) call 0
          entry.totalBlocks := by
  have listed : ∃ entry ∈ (reached slotCheck sampleSchedule 255
      (sampleCreation ++ [sampleCopy])).entries, entry.epoch = 0 := by decide +kernel
  rcases listed with ⟨entry, member, isFirst⟩
  have supplied := run_blocks_supplied slotCheck sampleSchedule 255 (by decide)
    (sampleCreation ++ [sampleCopy])
  rw [← isFirst]
  exact ⟨entry, member, rfl, supplied.2.2 entry member⟩

/-! ## When the blocks are final -/

theorem CountedBlocks.eq_card (checks : ChecksSlots check) {slotHistory : SlotHistory}
    {startSlot endSlot blocks : Nat} (ordered : startSlot ≤ endSlot) (bounded : endSlot < 2 ^ 64)
    (past : endSlot < slotHistory.nextSlot)
    (covered : slotHistory.nextSlot ≤ startSlot + maxEntries)
    (counted : CountedBlocks check startSlot endSlot slotHistory blocks) :
    blocks = ((Finset.Icc startSlot endSlot).filter
      fun slot => check slotHistory slot = .found).card := by
  rcases counted with ⟨bits, counted⟩
  have fits : startSlot % 64 = 0 ∨ startSlot < 2 ^ 64 - 64 := by
    by_contra tooHigh
    rw [confirmedBlocksInEpoch, firstFullBlockSlot_overflows (by omega) (by omega) (by omega)
      endSlot] at counted
    cases counted
  have notOld : ∀ slot, startSlot ≤ slot → slot ≤ endSlot → check slotHistory slot ≠ .tooOld := by
    intro slot atLeast _ old
    have isOld := (checks.tooOld slotHistory slot).mp old
    omega
  rcases firstFullBlockSlot_fits ordered fits with ⟨firstFull, lastFull, first, last, full⟩
  have found : CountsFound check slotHistory startSlot endSlot := by
    refine (countsFound_iff_of_full checks notOld first last full).mpr fun slot _ below future => ?_
    have ends := full.ends
    omega
  rw [CountsFound, counted, Except.ok.injEq, Prod.mk.injEq] at found
  exact found.1

theorem copies_of_handle {state next : State} (sound : Sound bump state) {call : Call}
    {slotHistory : SlotHistory} (isCopy : call.instruction = .data (.copyClusterInfo slotHistory))
    (handled : call.handle check epochSchedule bump state = .ok next) :
    ∃ earlier blocks, Copies check epochSchedule call.clock slotHistory state.entries earlier
      next.entries blocks := by
  rw [Call.handle, isCopy] at handled
  simp only [loadMut_eq_ok, Outcome.bind_eq_ok, Outcome.pure_eq_ok] at handled
  rcases handled with ⟨account, isComplete, written, handled, rfl⟩
  have entries : state.entries = account.history.entries := by
    rw [State.entries, isComplete]
  rw [entries]
  exact (copies_of_handleCopyClusterInfo (sound account isComplete).1
    (Program.lift_eq_ok.mp handled)).2

/-- The blocks of an epoch are final after a copy in the next epoch. -/
theorem Copies.final {clock : Clock} {slotHistory : SlotHistory}
    {entries earlier next : List ClusterHistoryEntry} {blocks epoch : Nat}
    (copies : Copies check epochSchedule clock slotHistory entries earlier next blocks)
    (increasing : Increasing entries) (isNext : clock.epoch = epoch + 1) :
    ∃ previousBlocks, CountedBlocks check (epochSchedule.getFirstSlotInEpoch epoch)
        (epochSchedule.getLastSlotInEpoch epoch) slotHistory previousBlocks ∧
      Final epoch previousBlocks next ∧
      ((∃ entry ∈ entries, entry.epoch = epoch) ∨ (∀ entry ∈ entries, entry.epoch < epoch) →
        Listed epoch next) := by
  rcases copies.previous with ⟨isFirst, _⟩ | ⟨_, previousBlocks, counted, rfl⟩
  · omega
  · rcases copies.written with ⟨change, keeps, rfl⟩
    rw [isNext] at *
    rw [Nat.add_sub_cancel] at counted ⊢
    refine ⟨previousBlocks, counted, Final.map ⟨?_, ?_⟩ keeps, fun present => ?_⟩
    · rcases reaches_recordBlocks.1 with ⟨entry, member, atLeast⟩
      exact ⟨entry, member, atLeast⟩
    · intro entry member isEpoch
      rcases mem_recordBlocks member with ⟨isCurrent, _⟩ | ⟨_, inEarlier⟩
      · omega
      · rcases mem_recordBlocks inEarlier with ⟨_, isBlocks⟩ | ⟨different, _⟩
        · exact isBlocks
        · exact absurd isEpoch different
    · exact (listed_recordBlocks (increasing_recordBlocks increasing)
        (listed_of_recordBlocks present)).map keeps

/-- Calls in later epochs do not write the epoch again. -/
theorem Effect.final {state : State} {call : Call} {entries : List ClusterHistoryEntry}
    (effect : Effect check epochSchedule state call entries) (increasing : Increasing state.entries)
    {epoch blocks : Nat} (isFinal : Final epoch blocks state.entries)
    (later : ∀ slotHistory, call.instruction = .data (.copyClusterInfo slotHistory) →
      epoch + 1 < call.clock.epoch) :
    Final epoch blocks entries ∧ (Listed epoch state.entries → Listed epoch entries) := by
  cases effect with
  | unchanged same =>
      rw [same]
      exact ⟨isFinal, id⟩
  | backfilled isBackfill signed younger recorded =>
      rcases isFinal.passed with ⟨entry, member, above⟩
      have beyond := younger entry member
      rw [recorded]
      exact ⟨isFinal.recordBlocks (by omega), listed_recordBlocks increasing⟩
  | copied isCopy copies =>
      have beyond := later _ isCopy
      rcases copies.written with ⟨change, keeps, rfl⟩
      rcases copies.previous with ⟨isFirst, _⟩ | ⟨_, previousBlocks, _, rfl⟩
      · omega
      · constructor
        · exact ((isFinal.recordBlocks (by omega)).recordBlocks (by omega)).map keeps
        · intro listed
          exact (listed_recordBlocks (increasing_recordBlocks increasing)
            (listed_recordBlocks increasing listed)).map keeps

theorem final_of_run (notZero : bump ≠ 0) {state : State} (sound : Sound bump state)
    {epoch blocks : Nat} (isFinal : Final epoch blocks state.entries) {calls : List Call}
    (later : ∀ call ∈ calls, ∀ slotHistory,
      call.instruction = .data (.copyClusterInfo slotHistory) → epoch + 1 < call.clock.epoch) :
    let entries := (run (execute check epochSchedule bump) state calls).entries
    Final epoch blocks entries ∧ (Listed epoch state.entries → Listed epoch entries) := by
  induction calls generalizing state with
  | nil => exact ⟨isFinal, id⟩
  | cons call calls induction =>
      rw [List.forall_mem_cons] at later
      rw [run_cons]
      have step : Sound bump (execute check epochSchedule bump state call) ∧ _ :=
        effect_of_execute notZero sound call
      have stepped := step.2.final (increasing_entries sound) isFinal later.1
      have rest := induction step.1 stepped.1 later.2
      exact ⟨rest.1, fun listed => rest.2 (stepped.2 listed)⟩

def laterSlots : SlotHistory where
  bits _ := BitVec.allOnes 64
  nextSlot := 140

def laterCopy : Call := ⟨⟨2, 139, 0⟩, 1, .data (.copyClusterInfo laterSlots)⟩

end Runs

end Stakenet.History.ClusterProgram

import Stakenet.Steward.Phases
import Stakenet.Steward.RankingEffect

/-! Scoring ranks the whole pool.

While scores come in, the live prefix of both rankings names the processed rows.
Once the scores are complete it names every row of the pool, and removals keep it
so until the next cycle is scored. -/

namespace Stakenet.Steward

open Stakenet.Execution

variable {state middle next : StewardStateV2} {rows : Finset Nat}

/-! ## The invariant -/

/-- Both rankings begin with these rows, each by its own score. -/
structure RankedRows (state : StewardStateV2) (rows : Finset Nat) : Prop where
  byScore : Ranks state.scores rows state.sortedScoreIndices rows.card
  byRawScore : Ranks state.rawScores rows state.sortedRawScoreIndices rows.card

/-- The arrays and the bound that rankings are about. -/
structure KeepsRanking (state next : StewardStateV2) : Prop where
  scores : next.scores = state.scores
  rawScores : next.rawScores = state.rawScores
  sortedScoreIndices : next.sortedScoreIndices = state.sortedScoreIndices
  sortedRawScoreIndices : next.sortedRawScoreIndices = state.sortedRawScoreIndices
  numPoolValidators : next.numPoolValidators = state.numPoolValidators

theorem RankedRows.keep (ranked : RankedRows state rows) (keeps : KeepsRanking state next) :
    RankedRows next rows where
  byScore := by
    rw [keeps.scores, keeps.sortedScoreIndices]
    exact ranked.byScore
  byRawScore := by
    rw [keeps.rawScores, keeps.sortedRawScoreIndices]
    exact ranked.byRawScore

theorem RankedRows.empty (state : StewardStateV2) : RankedRows state ∅ :=
  ⟨Ranks.empty _ _, Ranks.empty _ _⟩

/-- What holds of the rankings in every state of the machine. -/
structure RankingSound (state : StewardStateV2) : Prop where
  inPool : state.stateTag = .computeScores →
    ∀ row ∈ state.progress.rows, row < state.numPoolValidators
  scoring : state.stateTag = .computeScores → RankedRows state state.progress.rows
  fresh : state.stateTag = .computeScores → state.hasFlag computeScoreFlag = true →
    state.progress.rows = ∅
  bounded : state.hasFlag computeScoreFlag = true → state.numPoolValidators ≤ maxValidators
  complete : state.hasFlag computeScoreFlag = true →
    RankedRows state (Finset.range state.numPoolValidators)
  delegating : state.stateTag = .computeDelegations → state.hasFlag computeScoreFlag = true

namespace RankingSound

/-- Outside scoring and delegating only complete rankings matter. -/
theorem elsewhere (sound : RankingSound state) (keeps : KeepsRanking state next)
    (notScoring : next.stateTag ≠ .computeScores)
    (notDelegating : next.stateTag ≠ .computeDelegations)
    (flagged : next.hasFlag computeScoreFlag = true → state.hasFlag computeScoreFlag = true) :
    RankingSound next where
  inPool := fun scoring => absurd scoring notScoring
  scoring := fun scoring => absurd scoring notScoring
  fresh := fun scoring => absurd scoring notScoring
  bounded := fun flag => by
    rw [keeps.numPoolValidators]
    exact sound.bounded (flagged flag)
  complete := fun flag => by
    rw [keeps.numPoolValidators]
    exact (sound.complete (flagged flag)).keep keeps
  delegating := fun delegating => absurd delegating notDelegating

/-- A change that does not concern the rankings. -/
theorem keep (sound : RankingSound state) (keeps : KeepsRanking state next)
    (tag : next.stateTag = state.stateTag) (progress : next.progress = state.progress)
    (flagged : next.hasFlag computeScoreFlag = state.hasFlag computeScoreFlag) :
    RankingSound next where
  inPool := by
    rw [tag, progress, keeps.numPoolValidators]
    exact sound.inPool
  scoring := by
    rw [tag, progress]
    exact fun scoring => (sound.scoring scoring).keep keeps
  fresh := by
    rw [tag, progress, flagged]
    exact sound.fresh
  bounded := by
    rw [flagged, keeps.numPoolValidators]
    exact sound.bounded
  complete := by
    rw [flagged, keeps.numPoolValidators]
    exact fun flag => (sound.complete flag).keep keeps
  delegating := by
    rw [tag, flagged]
    exact sound.delegating

/-- Scoring that starts with nothing processed. -/
theorem start (sound : RankingSound state) (keeps : KeepsRanking state next)
    (tag : next.stateTag = .computeScores) (progress : next.progress.rows = ∅)
    (flagged : next.hasFlag computeScoreFlag = true → state.hasFlag computeScoreFlag = true) :
    RankingSound next where
  inPool := by simp [progress]
  scoring := fun _ => by
    rw [progress]
    exact .empty next
  fresh := fun _ _ => progress
  bounded := fun flag => by
    rw [keeps.numPoolValidators]
    exact sound.bounded (flagged flag)
  complete := fun flag => by
    rw [keeps.numPoolValidators]
    exact (sound.complete (flagged flag)).keep keeps
  delegating := fun delegating => by simp [tag] at delegating

/-! ## Scoring -/

/-- One more validator of the pool is scored. -/
theorem record {index score rawScore : Nat} (sound : RankingSound state)
    (tag : state.stateTag = .computeScores) (member : index < state.numPoolValidators)
    (unflagged : state.hasFlag computeScoreFlag = false)
    (unprocessed : state.progress.contains index = false)
    (recorded : ScoreRecorded state index score rawScore next) : RankingSound next := by
  have nextTag : next.stateTag = .computeScores :=
    (congrArg (·.stateTag) recorded.others).trans tag
  have nextFlag : next.hasFlag computeScoreFlag = false := by
    rw [recorded.others]
    exact unflagged
  have nextPool : next.numPoolValidators = state.numPoolValidators :=
    congrArg (·.numPoolValidators) recorded.others
  have nextRows : next.progress.rows = insert index state.progress.rows :=
    BitMask.rows_set_true recorded.progress
  have fresh : index ∉ state.progress.rows := by
    simp [BitMask.mem_rows, unprocessed]
  have nextCard : (insert index state.progress.rows).card = state.progress.rows.card + 1 :=
    Finset.card_insert_of_notMem fresh
  have ranked := sound.scoring tag
  have inserted := recorded.ranked
  have rawInserted := recorded.rawRanked
  rw [castU16_of_lt recorded.valid, BitMask.count_eq_card] at inserted rawInserted
  constructor
  · intro _ row rowMember
    rw [nextRows, Finset.mem_insert] at rowMember
    rw [nextPool]
    rcases rowMember with rfl | rowMember
    · exact member
    · exact sound.inPool tag row rowMember
  · intro _
    have scores : next.scores = Function.update state.scores index score :=
      congrArg (·.scores) recorded.others
    have rawScores : next.rawScores = Function.update state.rawScores index rawScore :=
      congrArg (·.rawScores) recorded.others
    rw [nextRows]
    constructor
    · rw [nextCard, scores]
      exact ranks_insertSortedIndex ranked.byScore fresh inserted
    · rw [nextCard, rawScores]
      exact ranks_insertSortedIndex ranked.byRawScore fresh rawInserted
  · intro _ flag
    simp [nextFlag] at flag
  · intro flag
    simp [nextFlag] at flag
  · intro flag
    simp [nextFlag] at flag
  · intro delegating
    simp [nextTag] at delegating

/-- Scoring that starts over forgets the ranking of the last cycle. -/
theorem restart {clock : Clock} {config : Config} {length : Nat}
    (tag : state.stateTag = .computeScores)
    (restarting : state.restartScoring clock config length = .ok next) :
    RankingSound next ∧ next.hasFlag computeScoreFlag = false ∧
      next.numPoolValidators = length := by
  rcases restartScoring_eq_ok restarting with ⟨reset, effect, _, rfl⟩
  have unflagged : reset.hasFlag computeScoreFlag = false := by
    rw [effect.flags 0 (by decide)]
    simp
  have resetTag : reset.stateTag = .computeScores :=
    (congrArg (·.stateTag) effect.others).trans tag
  have emptied : reset.progress = .empty := congrArg (·.progress) effect.others
  refine ⟨?_, unflagged, rfl⟩
  constructor
  · simp [emptied]
  · intro _
    simp only [emptied, BitMask.rows_empty]
    exact .empty _
  · intro _ _
    simp [emptied]
  · intro flag
    exact absurd flag (by simpa [StewardStateV2.hasFlag] using unflagged)
  · intro flag
    exact absurd flag (by simpa [StewardStateV2.hasFlag] using unflagged)
  · intro delegating
    simp [resetTag] at delegating

end RankingSound

/-- A call of `compute_score` that goes on with the current scores is for a
validator that was in the pool when scoring started. -/
def ScoresPoolMember (accounts : Accounts) (transaction : Transaction) : Prop :=
  ∀ inputs, transaction.instruction = .computeScore inputs →
    accounts.state.stateTag = .computeScores →
    accounts.state.scoringRestarts transaction.environment.clock
      transaction.environment.config = .ok false →
    inputs.validatorListIndex < accounts.state.numPoolValidators

namespace RankingSound

theorem score {accounts : Accounts} {transaction : Transaction} {inputs : ComputeScore.Inputs}
    {components : Option ScoreComponents} (sound : RankingSound accounts.state)
    (member : ScoresPoolMember accounts transaction)
    (instruction : transaction.instruction = .computeScore inputs)
    (listed : inputs.validatorListIndex < transaction.environment.validatorList.len)
    (computed : accounts.state.computeScore transaction.environment.clock
      transaction.environment.epochSchedule inputs.validatorHistory inputs.validatorListIndex
      inputs.clusterHistory transaction.environment.config
      transaction.environment.validatorList.len inputs.validatorScore = .ok (next, components)) :
    RankingSound next := by
  rcases computeScore_cases computed with ⟨tag, started, starting, cases⟩
  have ready : RankingSound started ∧ started.stateTag = .computeScores ∧
      started.hasFlag computeScoreFlag = false ∧
      inputs.validatorListIndex < started.numPoolValidators := by
    rcases startScoring_cases starting with ⟨continues, rfl⟩ | ⟨_, restarting⟩
    · have processed : accounts.state.progress.rows ≠ ∅ := by
        simp only [StewardStateV2.scoringRestarts, Outcome.bind_eq_ok,
          Outcome.pure_eq_ok, Bool.or_eq_false_iff] at continues
        rcases continues with ⟨_, _, ⟨nonempty, _⟩, _⟩
        intro none
        simp [BitMask.isEmpty_iff.mpr none] at nonempty
      refine ⟨sound, tag, ?_, member inputs instruction tag continues⟩
      apply Bool.eq_false_of_not_eq_true
      intro flag
      exact processed (sound.fresh tag flag)
    · rcases restart tag restarting with ⟨restarted, unflagged, pool⟩
      refine ⟨restarted, ?_, unflagged, pool ▸ listed⟩
      rcases restartScoring_eq_ok restarting with ⟨reset, effect, _, rfl⟩
      exact (congrArg (·.stateTag) effect.others).trans tag
  rcases ready with ⟨startedSound, startedTag, unflagged, inPool⟩
  rcases cases with ⟨_, rfl⟩ | ⟨unprocessed, score, rawScore, recorded⟩
  · exact startedSound
  · exact startedSound.record startedTag inPool unflagged unprocessed recorded

/-- The work of a crank keeps the rankings sound. -/
theorem work {accounts : Accounts} {transaction : Transaction}
    (sound : RankingSound accounts.state) (member : ScoresPoolMember accounts transaction)
    (worked : Work transaction accounts.state middle) : RankingSound middle := by
  cases worked with
  | keep => exact sound
  | score inputs components instruction _ _ listed computed =>
      exact sound.score member instruction listed computed
  | delegate tag computed =>
      rcases computeDelegations_cases computed with ⟨_, _, _, _, _, _, _, rfl⟩
      exact sound.keep ⟨rfl, rfl, rfl, rfl, rfl⟩ rfl rfl (by simp [StewardStateV2.hasFlag_eq])
  | instantUnstake inputs verdict tag computed =>
      have others := computeInstantUnstake_others computed
      rw [others]
      exact sound.elsewhere ⟨rfl, rfl, rfl, rfl, rfl⟩ (by simp [tag]) (by simp [tag]) id
  | rebalance call rebalanceType tag rebalancing =>
      have others := rebalance_others rebalancing
      rw [others]
      exact sound.elsewhere ⟨rfl, rfl, rfl, rfl, rfl⟩ (by simp [tag]) (by simp [tag]) id
  | skipTransient index tag marked =>
      rcases markProgress_eq_ok.mp marked with ⟨progress, _, rfl⟩
      exact sound.elsewhere ⟨rfl, rfl, rfl, rfl, rfl⟩ (by simp [tag]) (by simp [tag]) id
  | directed balances complete =>
      refine sound.keep ⟨rfl, rfl, rfl, rfl, rfl⟩ rfl rfl ?_
      cases complete <;> simp [StewardStateV2.hasFlag_eq]

theorem rollOverCycle_keepsRanking (state : StewardStateV2) (epoch : Nat) :
    KeepsRanking state (state.rollOverCycle epoch) := by
  rw [state.rollOverCycle_others epoch]
  exact ⟨rfl, rfl, rfl, rfl, rfl⟩

/-- Complete scores rank the whole pool. -/
theorem finish (sound : RankingSound state) (tag : state.stateTag = .computeScores)
    (bounded : state.numPoolValidators ≤ maxValidators)
    (processed : ∀ index < state.numPoolValidators, state.progress.contains index = true)
    (keeps : KeepsRanking state next) (nextTag : next.stateTag = .computeDelegations)
    (flagged : next.hasFlag computeScoreFlag = true) : RankingSound next := by
  have whole : state.progress.rows = Finset.range state.numPoolValidators := by
    ext row
    rw [Finset.mem_range]
    constructor
    · exact sound.inPool tag row
    · intro inPool
      have capacity := BitMask.lt_capacity (inPool.trans_le bounded)
      exact BitMask.mem_rows.mpr ⟨capacity, processed row inPool⟩
  constructor
  · intro scoring
    simp [nextTag] at scoring
  · intro scoring
    simp [nextTag] at scoring
  · intro scoring
    simp [nextTag] at scoring
  · intro _
    rw [keeps.numPoolValidators]
    exact bounded
  · intro _
    rw [keeps.numPoolValidators, ← whole]
    exact (sound.scoring tag).keep keeps
  · intro _
    exact flagged

theorem move {clock : Clock} {parameters : Parameters} {progress : ℚ}
    (sound : RankingSound state) (moved : Move clock parameters progress state next) :
    RankingSound next := by
  rcases rollOverCycle_keepsRanking state clock.epoch with
    ⟨scores, rawScores, ranking, rawRanking, pool⟩
  have rolledFlag : (state.rolledOver clock).hasFlag computeScoreFlag = true →
      state.hasFlag computeScoreFlag = true := by
    rw [rolledOver_hasFlag state clock (by decide)]
    exact fun flag => (Bool.and_eq_true_iff.mp flag).1
  cases moved with
  | stay => exact sound
  | scoresComplete tag bounded processed =>
      exact sound.finish tag bounded processed ⟨rfl, rfl, rfl, rfl, rfl⟩ rfl
        (by simp [StewardStateV2.hasFlag_eq])
  | startScoring =>
      exact sound.start ⟨scores, rawScores, ranking, rawRanking, pool⟩ rfl BitMask.rows_empty
        rolledFlag
  | startInstantUnstake =>
      exact sound.elsewhere ⟨scores, rawScores, ranking, rawRanking, pool⟩ (by simp) (by simp)
        (by simpa [StewardStateV2.hasFlag_eq] using rolledFlag)
  | waitBeforeLoop tag =>
      exact sound.elsewhere ⟨scores, rawScores, ranking, rawRanking, pool⟩ (by simp [tag])
        (by simp [tag]) (by simpa [StewardStateV2.hasFlag_eq] using rolledFlag)
  | waitAfterLoop tag =>
      exact sound.elsewhere ⟨scores, rawScores, ranking, rawRanking, pool⟩ (by simp [tag])
        (by simp [tag]) (by simpa [StewardStateV2.hasFlag_eq] using rolledFlag)
  | delegationsComplete =>
      exact sound.elsewhere ⟨rfl, rfl, rfl, rfl, rfl⟩ (by simp) (by simp) id
  | instantUnstakeComplete =>
      exact sound.elsewhere ⟨rfl, rfl, rfl, rfl, rfl⟩ (by simp) (by simp)
        (by simp [StewardStateV2.hasFlag_eq])
  | rebalanceAborted =>
      exact sound.elsewhere ⟨rfl, rfl, rfl, rfl, rfl⟩ (by simp) (by simp) id
  | rebalanceComplete =>
      exact sound.elsewhere ⟨rfl, rfl, rfl, rfl, rfl⟩ (by simp) (by simp)
        (by simp [StewardStateV2.hasFlag_eq])
  | directedComplete =>
      exact sound.elsewhere ⟨rfl, rfl, rfl, rfl, rfl⟩ (by simp) (by simp) id
  | directedTimeout =>
      exact sound.elsewhere ⟨rfl, rfl, rfl, rfl, rfl⟩ (by simp) (by simp)
        (by simp [StewardStateV2.hasFlag_eq])

/-! ## Removal -/

/-- The processed rows after a removal, under their new names. -/
theorem rows_deleteRow {progress following : BitMask} {index pool bound : Nat}
    (shrunk : PoolShrunk index pool bound) (inPool : ∀ row ∈ progress.rows, row < pool)
    (capacity : bound < maxValidators)
    (deleted : following.contains = deleteRow progress.contains index bound false) :
    following.rows = (progress.rows.erase index).image (lowered index) := by
  have within := shrunk.within
  have beyond := shrunk.beyond
  have fits := BitMask.lt_capacity capacity
  ext row
  simp only [Finset.mem_image, Finset.mem_erase]
  rw [BitMask.mem_rows, deleted]
  constructor
  · rintro ⟨inMask, present⟩
    by_cases last : row = bound
    · subst row
      simp at present
    by_cases shifted : index ≤ row ∧ row < bound
    · rw [deleteRow_of_le _ _ shifted.1 shifted.2] at present
      exact ⟨row + 1, ⟨by omega, BitMask.mem_rows.mpr ⟨by omega, present⟩⟩,
        if_pos (by omega)⟩
    · have kept : progress.contains row = true := by
        simpa [deleteRow, last, shiftDown, shifted] using present
      have member : row ∈ progress.rows := BitMask.mem_rows.mpr ⟨inMask, kept⟩
      have bounded := inPool row member
      exact ⟨row, ⟨by omega, member⟩, if_neg (by omega)⟩
  · rintro ⟨original, ⟨other, member⟩, rfl⟩
    have below := shrunk.lowered_lt (inPool original member) other
    rw [shrunk.deleteRow_lowered (inPool original member) other]
    exact ⟨by omega, (BitMask.mem_rows.mp member).2⟩

section Removal

variable {accounts following : Accounts} {index : Nat}

theorem rankedRows_removed (removed : Removed accounts index following)
    (inPool : ∀ row ∈ rows, row < accounts.state.numPoolValidators)
    (ranked : RankedRows accounts.state rows) :
    RankedRows following.state ((rows.erase index).image (lowered index)) := by
  have shrunk := poolShrunk_of_removed removed
  have renamed : ((rows.erase index).image (lowered index)).card = (rows.erase index).card :=
    Finset.card_image_of_injOn (lowered_injOn index rows)
  have poolCapacity : accounts.state.numPoolValidators ≤ maxValidators := by
    have within := shrunk.within
    have beyond := shrunk.beyond
    have capacity := removed.capacity.2
    omega
  have rowsCapacity : rows.card ≤ maxValidators := by
    have subset : rows ⊆ Finset.range accounts.state.numPoolValidators :=
      fun row member => Finset.mem_range.mpr (inPool row member)
    have counted := Finset.card_le_card subset
    rw [Finset.card_range] at counted
    omega
  constructor
  · rw [renamed, removed.scores]
    exact ranks_removed shrunk inPool removed.capacity.1 rowsCapacity ranked.byScore
      removed.scoreRanking
  · rw [renamed, removed.rawScores]
    exact ranks_removed shrunk inPool removed.capacity.1 rowsCapacity ranked.byRawScore
      removed.rawRanking

/-- A removal deletes one row from whatever is ranked. -/
theorem remove (sound : RankingSound accounts.state)
    (removed : Removed accounts index following) : RankingSound following.state := by
  have shrunk := poolShrunk_of_removed removed
  have capacity : following.state.numPoolValidators < maxValidators := by
    have room := removed.capacity.2
    omega
  have tag : following.state.stateTag = accounts.state.stateTag :=
    congrArg (·.stateTag) removed.control
  have flag : following.state.hasFlag computeScoreFlag =
      accounts.state.hasFlag computeScoreFlag := by
    rw [StewardStateV2.hasFlag_eq, StewardStateV2.hasFlag_eq]
    exact congrArg (fun control : Control => flagSet control.statusFlags computeScoreFlag)
      removed.control
  have renamed : accounts.state.stateTag = .computeScores → following.state.progress.rows =
      (accounts.state.progress.rows.erase index).image (lowered index) := fun scoring =>
    rows_deleteRow shrunk (sound.inPool scoring) capacity removed.progress
  constructor
  · rw [tag]
    intro scoring row member
    rw [renamed scoring, Finset.mem_image] at member
    rcases member with ⟨original, originalMember, rfl⟩
    rcases Finset.mem_erase.mp originalMember with ⟨other, originalMember⟩
    exact shrunk.lowered_lt (sound.inPool scoring original originalMember) other
  · rw [tag]
    intro scoring
    rw [renamed scoring]
    exact rankedRows_removed removed (sound.inPool scoring) (sound.scoring scoring)
  · rw [tag, flag]
    intro scoring flagged
    rw [renamed scoring, sound.fresh scoring flagged]
    simp
  · intro _
    omega
  · rw [flag]
    intro flagged
    rw [← shrunk.image_range]
    exact rankedRows_removed removed (fun row member => Finset.mem_range.mp member)
      (sound.complete flagged)
  · rw [tag, flag]
    exact sound.delegating

end Removal

/-! ## Runs -/

theorem of_initialized {accounts : Accounts} (initialized : Initialized accounts) :
    RankingSound accounts.state := by
  rcases initialized.start with ⟨tag, flags, _⟩
  have unflagged : accounts.state.hasFlag computeScoreFlag = false := by
    simp [StewardStateV2.hasFlag_eq, flags]
  constructor <;> simp [tag, unflagged]

theorem upkeep {transaction : Transaction} {origin : StewardStateV2}
    (sound : RankingSound state) (action : Upkeep transaction origin state next) :
    RankingSound next := by
  cases action with
  | balances _ => exact sound.keep ⟨rfl, rfl, rfl, rfl, rfl⟩ rfl rfl rfl
  | unsetMaintenance =>
      exact sound.keep ⟨rfl, rfl, rfl, rfl, rfl⟩ rfl rfl (by simp [StewardStateV2.hasFlag_eq])
  | remove stakeMeta nextMeta index _ _ removing =>
      exact remove sound (removed_of_removeValidator removing)
  | openEpoch stakeMeta =>
      exact sound.elsewhere ⟨rfl, rfl, rfl, rfl, rfl⟩ (by simp [EpochMaintenance.openEpoch])
        (by simp [EpochMaintenance.openEpoch]) (by
          simp [EpochMaintenance.openEpoch, StewardStateV2.unsetFlag_or,
            StewardStateV2.hasFlag_eq])
  | mark _ _ => exact sound.keep ⟨rfl, rfl, rfl, rfl, rfl⟩ rfl rfl rfl
  | add _ added =>
      simp only [StewardStateV2.incrementValidatorToAdd] at added
      split at added
      · cases added
        exact sound.keep ⟨rfl, rfl, rfl, rfl, rfl⟩ rfl rfl rfl
      · simp at added
  | reset resetting =>
      simp only [ResetStewardState.handler, Outcome.bind_eq_ok, Outcome.pure_eq_ok] at resetting
      rcases resetting with ⟨_, _, rfl⟩
      constructor <;> simp [StewardStateV2.hasFlag_eq]

/-- Every transaction keeps the rankings sound, as long as scores are for
members of the pool. -/
theorem execute {accounts : Accounts} {transaction : Transaction}
    (sound : RankingSound accounts.state) (member : ScoresPoolMember accounts transaction) :
    RankingSound (Steward.execute accounts transaction).state := by
  rcases execute_cases accounts transaction with unchanged | succeeded
  · rw [unchanged]
    exact sound
  · exact Transaction.process_preserves RankingSound
      (fun _ holds worked => holds.work member worked)
      (fun _ _ _ holds _ moved => holds.move moved)
      (fun _ _ holds action => holds.upkeep action) sound succeeded

end RankingSound

/-! ## What a full ranking is good for -/

namespace StakeCalculation

variable {calculation : StakeCalculation} {baseLamportBalance : Nat} {walk extra : List Nat}

/-- A walk that reaches its validator never looks at what comes after. -/
theorem decreaseAlong_append (reached : calculation.targetIndex ∈ walk)
    (unstake : UnstakeState) :
    calculation.decreaseAlong baseLamportBalance (walk ++ extra) unstake =
      calculation.decreaseAlong baseLamportBalance walk unstake := by
  induction walk generalizing unstake with
  | nil => cases reached
  | cons index rest induction =>
      simp only [List.cons_append, decreaseAlong]
      congr 1
      funext decreased
      rcases decreased with ⟨following, amounts⟩
      by_cases same : index = calculation.targetIndex
      · simp [same]
      · simp only [if_neg same]
        exact induction ((List.mem_cons.mp reached).resolve_left fun equal => same equal.symm)
          following

theorem increaseAlong_append (reached : calculation.targetIndex ∈ walk)
    (reserveLamports : Nat) :
    calculation.increaseAlong baseLamportBalance (walk ++ extra) reserveLamports =
      calculation.increaseAlong baseLamportBalance walk reserveLamports := by
  induction walk generalizing reserveLamports with
  | nil => cases reached
  | cons index rest induction =>
      simp only [List.cons_append, increaseAlong]
      congr 1
      funext lamports
      congr 1
      funext left
      by_cases same : index = calculation.targetIndex
      · simp [same]
      · simp only [if_neg same]
        exact induction ((List.mem_cons.mp reached).resolve_left fun equal => same equal.symm)
          left

end StakeCalculation

theorem foldlM_writeRow_succeeds {selected : List Nat} (value : Delegation)
    (valid : ∀ row ∈ selected, row < maxValidators) (delegations : Nat → Delegation) :
    ∃ written, selected.foldlM (fun delegations row => writeRow delegations row value)
      delegations = .ok written := by
  induction selected generalizing delegations with
  | nil => exact ⟨delegations, rfl⟩
  | cons row rest induction =>
      rcases induction (fun other member => valid other (by simp [member]))
        (Function.update delegations row value) with ⟨written, success⟩
      refine ⟨written, ?_⟩
      rw [List.foldlM_cons, writeRow, if_pos (valid row (by simp)), Outcome.ok_bind]
      exact success

/-- The selection reads the ranking within bounds. -/
theorem selectValidatorsToDelegate_succeeds (scores : Nat → Nat) {ranking : Nat → Nat}
    {length count : Nat} (inBounds : ∀ position < length, ranking position < length)
    (enough : count ≤ length) :
    ∃ selected, selectValidatorsToDelegate scores ranking length count = .ok selected ∧
      ∀ row ∈ selected, row < length := by
  have searched : ∃ outcome, findPosition (fun position =>
      if ranking position < length then .ok (scores (ranking position) == 0)
      else (.error .panicked : Result Bool)) 0 length = .ok outcome := by
    apply findPosition.succeeds
    intro position _ bounded
    exact ⟨_, if_pos (inBounds position (by omega))⟩
  rcases searched with ⟨outcome, searched⟩
  have short : ¬length < min (outcome.getD count) count := by omega
  refine ⟨(List.range (min (outcome.getD count) count)).map ranking, ?_, ?_⟩
  · simp only [selectValidatorsToDelegate, searched, Outcome.ok_bind, if_neg short]
    rfl
  · intro row member
    rcases List.mem_map.mp member with ⟨position, inRange, rfl⟩
    exact inBounds position (by have := List.mem_range.mp inRange; omega)

/-- The rankings of a scored pool. -/
structure FullyRanked (state : StewardStateV2) : Prop where
  scorePerm : ((List.range state.numPoolValidators).map state.sortedScoreIndices).Perm
    (List.range state.numPoolValidators)
  scoreSorted : ((List.range state.numPoolValidators).map state.sortedScoreIndices).Pairwise
    fun first second => state.scores second ≤ state.scores first
  rawScorePerm : ((List.range state.numPoolValidators).map state.sortedRawScoreIndices).Perm
    (List.range state.numPoolValidators)
  rawScoreSorted :
    ((List.range state.numPoolValidators).map state.sortedRawScoreIndices).Pairwise
      fun first second => state.rawScores second ≤ state.rawScores first
  delegates : ∀ currentEpoch config, state.stateTag = .computeDelegations →
    currentEpoch < state.nextCycleEpoch →
    config.parameters.numDelegationValidators ≤ state.numPoolValidators →
    ∃ next, state.computeDelegations currentEpoch config = .ok next
  decreaseFinds : ∀ calculation : StakeCalculation,
    calculation.targetIndex < state.numPoolValidators →
    ∀ baseLamportBalance unstake extra,
      calculation.decreaseAlong baseLamportBalance
          (((List.range state.numPoolValidators).map state.sortedRawScoreIndices).reverse ++
            extra) unstake =
        calculation.decreaseAlong baseLamportBalance
          ((List.range state.numPoolValidators).map state.sortedRawScoreIndices).reverse unstake
  increaseFinds : ∀ calculation : StakeCalculation,
    calculation.targetIndex < state.numPoolValidators →
    ∀ baseLamportBalance reserveLamports extra,
      calculation.increaseAlong baseLamportBalance
          ((List.range state.numPoolValidators).map state.sortedScoreIndices ++ extra)
          reserveLamports =
        calculation.increaseAlong baseLamportBalance
          ((List.range state.numPoolValidators).map state.sortedScoreIndices) reserveLamports

theorem RankedRows.fullyRanked (bounded : state.numPoolValidators ≤ maxValidators)
    (ranked : RankedRows state (Finset.range state.numPoolValidators)) : FullyRanked state := by
  rcases ranked with ⟨byScore, byRawScore⟩
  rw [Finset.card_range] at byScore byRawScore
  rcases byScore.perm_range with ⟨scorePerm, scoreSorted⟩
  rcases byRawScore.perm_range with ⟨rawPerm, rawSorted⟩
  refine ⟨scorePerm, scoreSorted, rawPerm, rawSorted, ?_, ?_, ?_⟩
  · intro currentEpoch config tag running enough
    have inBounds : ∀ position < state.numPoolValidators,
        state.sortedScoreIndices position < state.numPoolValidators :=
      fun position inPool => Finset.mem_range.mp (byScore.mem inPool)
    rcases selectValidatorsToDelegate_succeeds state.scores inBounds enough with
      ⟨selected, selecting, members⟩
    rcases foldlM_writeRow_succeeds ⟨1, selected.length⟩
      (fun row member => (members row member).trans_le bounded) state.delegations with
      ⟨written, writing⟩
    exact ⟨_, by
      simp only [StewardStateV2.computeDelegations, if_pos tag, if_neg (Nat.not_le.mpr running),
        if_neg (Nat.not_lt.mpr bounded), selecting, writing, Outcome.ok_bind]
      rfl⟩
  · intro calculation inPool baseLamportBalance unstake extra
    apply StakeCalculation.decreaseAlong_append
    rw [List.mem_reverse, rawPerm.mem_iff, List.mem_range]
    exact inPool
  · intro calculation inPool baseLamportBalance reserveLamports extra
    apply StakeCalculation.increaseAlong_append
    rw [scorePerm.mem_iff, List.mem_range]
    exact inPool

/-- Along a run whose scores are all for members of the pool, both rankings are
complete from the moment the scores are until the next cycle is scored. -/
theorem run_fullyRanked {origin : Accounts} (initialized : Initialized origin)
    {transactions : List Transaction}
    (members : EveryStep execute ScoresPoolMember origin transactions) :
    let state := (run execute origin transactions).state
    state.stateTag = .computeDelegations ∨ state.hasFlag computeScoreFlag = true →
      FullyRanked state := by
  have sound : RankingSound (run execute origin transactions).state :=
    run_invariant (fun accounts : Accounts => RankingSound accounts.state)
      (fun _ _ holds member => holds.execute member) (RankingSound.of_initialized initialized)
      members
  intro state scored
  have flagged : state.hasFlag computeScoreFlag = true := by
    rcases scored with delegating | flagged
    · exact sound.delegating delegating
    · exact flagged
  exact (sound.complete flagged).fullyRanked (sound.bounded flagged)

/-! A pool of two validators. While it is scored, a third one is added. -/

def scoringEnvironment (listed : Nat) : Environment where
  clock := ⟨1, 1950⟩
  epochSchedule := .withoutWarmup 1000
  config := ⟨{ Parameters.fixture with numDelegationValidators := 2 }, false⟩
  validatorList := ⟨.validatorList,
    [⟨2, 7, 0, .active, 1⟩, ⟨2, 7, 0, .active, 2⟩, ⟨2, 7, 0, .active, 3⟩].take listed, []⟩

def scoringOrigin : Accounts := ⟨ReallocState.initialState 2 10 0, .initial⟩

def scoreCall (listed index score : Nat) : Transaction :=
  ⟨scoringEnvironment listed, .computeScore ⟨index, ⟨BitVec.ofNat 256 (index + 1), some 1950⟩,
    ⟨1950⟩, .ok ⟨score, score⟩⟩⟩

/-- The transactions that lead to the state that scores. -/
def scoringOpened : List Transaction :=
  [⟨scoringEnvironment 2, .epochMaintenance 1 none⟩,
    ⟨scoringEnvironment 2, .computeInstantUnstake ⟨0, ⟨1, some 1950⟩, ⟨1950⟩, .ok false⟩⟩,
    ⟨scoringEnvironment 2, .idle⟩]

theorem run_fullyRanked_twoValidators :
    (run execute scoringOrigin
        (scoringOpened ++ [scoreCall 2 1 5, scoreCall 2 0 7])).state.stateTag =
        .computeDelegations ∧
      FullyRanked (run execute scoringOrigin
        (scoringOpened ++ [scoreCall 2 1 5, scoreCall 2 0 7])).state := by
  have delegating : (run execute scoringOrigin
      (scoringOpened ++ [scoreCall 2 1 5, scoreCall 2 0 7])).state.stateTag =
        .computeDelegations := by decide +kernel
  have initialized : Initialized scoringOrigin :=
    .realloc ⟨0, 0⟩ (scoringEnvironment 2).config (scoringEnvironment 2).validatorList rfl
  refine ⟨delegating, run_fullyRanked initialized ?_ (.inl delegating)⟩
  refine ⟨?_, ?_, ?_, ?_, ?_, trivial⟩
  · rintro _ ⟨⟩
  · rintro _ ⟨⟩
  · rintro _ ⟨⟩
  · rintro _ ⟨⟩ _ _
    decide +kernel
  · rintro _ ⟨⟩ _ _
    decide +kernel

/-- Scored before the pool is complete, the new validator takes the place of one
of the pool. -/
theorem not_run_fullyRanked :
    initialAccounts ⟨0, 0⟩ (scoringEnvironment 2).config (scoringEnvironment 2).validatorList =
        .ok scoringOrigin ∧
      (run execute scoringOrigin (scoringOpened ++ [scoreCall 2 0 7,
        ⟨scoringEnvironment 2, .addValidatorToPool (.ok ())⟩, scoreCall 3 2 5,
        scoreCall 3 1 3])).state.stateTag = .computeDelegations ∧
      ¬FullyRanked (run execute scoringOrigin (scoringOpened ++ [scoreCall 2 0 7,
        ⟨scoringEnvironment 2, .addValidatorToPool (.ok ())⟩, scoreCall 3 2 5,
        scoreCall 3 1 3])).state := by
  refine ⟨rfl, by decide +kernel, fun ranked => ?_⟩
  have permutation := ranked.scorePerm
  revert permutation
  decide +kernel

end Stakenet.Steward

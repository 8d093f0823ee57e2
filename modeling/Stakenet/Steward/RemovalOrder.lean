import Stakenet.Steward.PoolRanking
import Stakenet.Steward.RemovalMarks

/-! Removals keep both rankings, and the order of several removals does not
matter: what remains is what filtering out all of them at once would leave. -/

namespace Stakenet.Steward

/-! ## Names of the remaining rows -/

/-- The row that is called `row` after the removal of `index`. -/
def raised (index row : Nat) : Nat := if row < index then row else row + 1

/-- The rows below `bound` that were not removed. -/
def survivors (bound : Nat) (gone : List Nat) : List Nat :=
  (List.range bound).filter fun row => row ∉ gone

/-- The name of a row once all of `gone` is removed: its position among the rows
that remain. -/
def nameAfter (gone : List Nat) (row : Nat) : Nat := (survivors row gone).length

section Names

variable {index row bound : Nat} {gone : List Nat}

@[simp] theorem lowered_raised (index row : Nat) : lowered index (raised index row) = row := by
  unfold lowered raised
  split <;> split <;> omega

theorem raised_ne (index row : Nat) : raised index row ≠ index := by
  unfold raised
  split <;> omega

theorem raised_lowered (other : row ≠ index) : raised index (lowered index row) = row := by
  unfold lowered raised
  split <;> split <;> omega

theorem range_filter_ne (other : bound ≠ index) :
    (List.range bound).filter (· ≠ index) =
      (List.range (lowered index bound)).map (raised index) := by
  induction bound with
  | zero => simp [lowered]
  | succ bound induction =>
      by_cases last : bound = index
      · subst index
        have below : ∀ row ∈ List.range bound, row ≠ bound := by
          intro row member
          have bounded := List.mem_range.mp member
          omega
        have kept : (List.range bound).map (raised bound) = List.range bound := by
          rw [List.map_congr_left (g := id), List.map_id]
          intro row member
          exact if_pos (List.mem_range.mp member)
        rw [List.range_succ, List.filter_append, List.filter_eq_self.mpr (by simpa using below)]
        simp [lowered, kept]
      · have step : lowered index (bound + 1) = lowered index bound + 1 := by
          unfold lowered
          split <;> split <;> omega
        rw [List.range_succ, List.filter_append, induction last, step, List.range_succ,
          List.map_append]
        simp [last, raised_lowered last]

theorem mem_map_lowered (other : row ≠ index) (fresh : index ∉ gone) :
    lowered index row ∈ gone.map (lowered index) ↔ row ∈ gone := by
  rw [List.mem_map]
  constructor
  · intro renamed
    rcases renamed with ⟨original, member, same⟩
    have apart : original ≠ index := by
      rintro rfl
      exact fresh member
    have equal := congrArg (raised index) same
    rw [raised_lowered apart, raised_lowered other] at equal
    exact equal ▸ member
  · intro member
    exact ⟨row, member, rfl⟩

theorem nodup_map_lowered (distinct : gone.Nodup) (fresh : index ∉ gone) :
    (gone.map (lowered index)).Nodup := by
  have apart : ∀ row ∈ gone, row ≠ index := fun row member same => fresh (same ▸ member)
  apply List.Nodup.map_on _ distinct
  intro first firstMember second secondMember same
  rw [← raised_lowered (apart first firstMember), same,
    raised_lowered (apart second secondMember)]

theorem filter_notMem_cons (entries : List Nat) (index : Nat) (gone : List Nat) :
    entries.filter (· ∉ index :: gone) = (entries.filter (· ≠ index)).filter (· ∉ gone) := by
  rw [List.filter_filter]
  apply List.filter_congr
  intro row _
  simp [Bool.and_comm]

/-- Removing one row first renames the rows that remain to be removed. -/
theorem survivors_cons (other : bound ≠ index) (fresh : index ∉ gone) :
    survivors bound (index :: gone) =
      (survivors (lowered index bound) (gone.map (lowered index))).map (raised index) := by
  rw [survivors, filter_notMem_cons, range_filter_ne other, List.filter_map, survivors]
  congr 1
  apply List.filter_congr
  intro row _
  have renamed := mem_map_lowered (raised_ne index row) fresh
  rw [lowered_raised] at renamed
  simp only [Function.comp_apply, renamed]

theorem nameAfter_cons (other : row ≠ index) (fresh : index ∉ gone) :
    nameAfter (index :: gone) row =
      nameAfter (gone.map (lowered index)) (lowered index row) := by
  rw [nameAfter, survivors_cons other fresh, List.length_map, nameAfter]

/-- The same for any list of rows. -/
theorem rename_filter_cons (entries : List Nat) (fresh : index ∉ gone) :
    (((entries.filter (· ≠ index)).map (lowered index)).filter
      (· ∉ gone.map (lowered index))).map (nameAfter (gone.map (lowered index))) =
      (entries.filter (· ∉ index :: gone)).map (nameAfter (index :: gone)) := by
  have apart : ∀ row ∈ entries.filter (· ≠ index), row ≠ index := by
    intro row member
    simpa using (List.mem_filter.mp member).2
  rw [List.filter_map, List.map_map, filter_notMem_cons]
  have filtered : (entries.filter (· ≠ index)).filter
      ((fun row => decide (row ∉ gone.map (lowered index))) ∘ lowered index) =
      (entries.filter (· ≠ index)).filter (· ∉ gone) := by
    apply List.filter_congr
    intro row member
    simp only [Function.comp_apply, mem_map_lowered (apart row member) fresh]
  rw [filtered]
  apply List.map_congr_left
  intro row member
  exact (nameAfter_cons (apart row (List.mem_filter.mp member).1) fresh).symm

theorem deleteRow_raised (values : Nat → α) (index : Nat) (filler : α) (bounded : row < bound) :
    deleteRow values index bound filler row = values (raised index row) := by
  unfold raised
  split
  case isTrue below => exact deleteRow_of_lt values filler below (by omega)
  case isFalse above => exact deleteRow_of_le values filler (by omega) bounded

end Names

/-! ## The entries of a ranking that are in use -/

namespace StewardStateV2

/-- While scores come in a ranking has one entry for each processed validator,
otherwise one for each validator of the pool. -/
def liveCount (state : StewardStateV2) : Nat :=
  if state.stateTag = .computeScores then state.progress.count else state.numPoolValidators

def livePrefix (state : StewardStateV2) (ranking : Nat → Nat) : List Nat :=
  (List.range state.liveCount).map ranking

/-- The rows that a ranking has to list. -/
def liveRows (state : StewardStateV2) : Finset Nat :=
  if state.stateTag = .computeScores then state.progress.rows
  else Finset.range state.numPoolValidators

theorem card_liveRows (state : StewardStateV2) : state.liveRows.card = state.liveCount := by
  unfold liveRows liveCount
  split
  case isTrue => exact state.progress.count_eq_card.symm
  case isFalse => exact Finset.card_range _

/-- The entries in use list every row they have to once, by non-increasing score. -/
structure OrderedPrefix (state : StewardStateV2) (scores ranking : Nat → Nat) : Prop where
  distinct : (state.livePrefix ranking).Nodup
  ordered : (state.livePrefix ranking).Pairwise fun better worse => scores worse ≤ scores better
  lists : ∀ row, row ∈ state.livePrefix ranking ↔ row ∈ state.liveRows
  inPool : ∀ row ∈ state.livePrefix ranking, row < state.numPoolValidators

structure LiveRankings (state : StewardStateV2) : Prop where
  byScore : state.OrderedPrefix state.scores state.sortedScoreIndices
  byRawScore : state.OrderedPrefix state.rawScores state.sortedRawScoreIndices

end StewardStateV2

section Ranking

variable {ranking next deleted scores : Nat → Nat} {index bound count : Nat}

/-- The removed row leaves the entries in use, wherever the search found it. -/
theorem RankDeleted.entries (deletion : RankDeleted ranking index bound deleted)
    (distinct : ((List.range count).map ranking).Nodup) (valid : index < maxValidators)
    (capacity : count ≤ maxValidators)
    (room : (((List.range count).map ranking).filter (· ≠ index)).length ≤ bound) :
    (List.range (((List.range count).map ranking).filter (· ≠ index)).length).map deleted =
      ((List.range count).map ranking).filter (· ≠ index) := by
  have name : castU16 index = index := castU16_of_lt valid
  have unlisted (unchanged : ∀ position < count, deleted position = ranking position)
      (missing : ∀ position < count, ranking position ≠ index) :
      (List.range (((List.range count).map ranking).filter (· ≠ index)).length).map deleted =
        ((List.range count).map ranking).filter (· ≠ index) := by
    have all : ((List.range count).map ranking).filter (· ≠ index) =
        (List.range count).map ranking := by
      rw [List.filter_eq_self]
      simpa using missing
    rw [all, List.length_map, List.length_range]
    apply List.map_congr_left
    intro position member
    exact unchanged position (List.mem_range.mp member)
  cases deletion with
  | absent missing =>
      apply unlisted (fun _ _ => rfl)
      intro position bounded
      exact name ▸ missing position (by omega)
  | found position _ entry earlier =>
      rw [name] at entry earlier
      by_cases live : position < count
      · have erased : ((List.range count).map ranking).filter (· ≠ index) =
            ((List.range count).map ranking).eraseIdx position := by
          have listed : position < ((List.range count).map ranking).length := by simpa using live
          have removed := distinct.erase_getElem position listed
          rw [List.getElem_map, List.getElem_range, entry, distinct.erase_eq_filter] at removed
          rw [← removed]
          apply List.filter_congr
          intro row _
          rw [Bool.eq_iff_iff]
          simp
        rw [erased] at room ⊢
        apply List.ext_getElem
        · simp
        · intro place first second
          simp only [List.length_eraseIdx_of_lt, List.length_map, List.length_range, live]
            at second room
          rw [List.getElem_eraseIdx]
          simp only [List.getElem_map, List.getElem_range]
          split
          case isTrue before => exact if_neg (by omega)
          case isFalse after => exact if_pos (by omega)
      · apply unlisted
        · intro place bounded
          exact if_neg (by omega)
        · intro place bounded
          exact earlier place (by omega)

theorem RankRemoved.entries (removed : RankRemoved ranking index bound next)
    (distinct : ((List.range count).map ranking).Nodup) (valid : index < maxValidators)
    (capacity : count ≤ maxValidators)
    (room : (((List.range count).map ranking).filter (· ≠ index)).length ≤ bound) :
    (List.range (((List.range count).map ranking).filter (· ≠ index)).length).map next =
      (((List.range count).map ranking).filter (· ≠ index)).map (lowered index) := by
  rcases removed with ⟨deleted, deletion, rfl⟩
  have kept := deletion.entries distinct valid capacity room
  conv_rhs => rw [← kept]
  rw [List.map_map]
  apply List.map_congr_left
  intro position member
  have below : position < bound := by
    have bounded := List.mem_range.mp member
    omega
  rw [Function.update_of_ne (by omega)]
  simp [relabelDown, lowered, below]

end Ranking

section Removal

variable {accounts following : Accounts} {index : Nat}

theorem liveRows_removed (removed : Removed accounts index following)
    (inPool : ∀ row ∈ accounts.state.liveRows, row < accounts.state.numPoolValidators) :
    following.state.liveRows = (accounts.state.liveRows.erase index).image (lowered index) := by
  have shrunk := poolShrunk_of_removed removed
  have tag : following.state.stateTag = accounts.state.stateTag :=
    congrArg (·.stateTag) removed.control
  unfold StewardStateV2.liveRows at inPool ⊢
  rw [tag]
  split
  case isTrue scoring =>
      rw [if_pos scoring] at inPool
      have capacity : following.state.numPoolValidators < maxValidators := by
        have room := removed.capacity.2
        omega
      exact RankingSound.rows_deleteRow shrunk inPool capacity removed.progress
  case isFalse => exact shrunk.image_range.symm

theorem StewardStateV2.OrderedPrefix.remove {scores ranking nextRanking : Nat → Nat}
    (rows : accounts.state.OrderedPrefix scores ranking)
    (removed : Removed accounts index following)
    (ranked : RankRemoved ranking index following.state.numPoolValidators nextRanking) :
    following.state.livePrefix nextRanking =
        ((accounts.state.livePrefix ranking).filter (· ≠ index)).map (lowered index) ∧
      following.state.OrderedPrefix
        (deleteRow scores index following.state.numPoolValidators 0) nextRanking := by
  have shrunk := poolShrunk_of_removed removed
  have renamed := liveRows_removed removed fun row member =>
    rows.inPool row ((rows.lists row).mpr member)
  have listed : ∀ row, row ∈ (accounts.state.livePrefix ranking).filter (· ≠ index) ↔
      row ∈ accounts.state.liveRows.erase index := by
    intro row
    rw [List.mem_filter, rows.lists, Finset.mem_erase]
    simp [and_comm]
  have distinct : ((accounts.state.livePrefix ranking).filter (· ≠ index)).Nodup :=
    rows.distinct.filter _
  have remaining : ((accounts.state.livePrefix ranking).filter (· ≠ index)).length =
      (accounts.state.liveRows.erase index).card := by
    rw [← List.toFinset_card_of_nodup distinct]
    congr 1
    ext row
    rw [List.mem_toFinset, listed]
  have count : following.state.liveCount =
      ((accounts.state.livePrefix ranking).filter (· ≠ index)).length := by
    rw [← StewardStateV2.card_liveRows, renamed, remaining,
      Finset.card_image_of_injOn (lowered_injOn index _)]
  have room : (accounts.state.liveRows.erase index).card ≤ following.state.numPoolValidators :=
    shrunk.card_erase_le fun row member => rows.inPool row ((rows.lists row).mpr member)
  have capacity : accounts.state.liveCount ≤ maxValidators := by
    have erased := Finset.pred_card_le_card_erase (s := accounts.state.liveRows) (a := index)
    have free := removed.capacity.2
    rw [StewardStateV2.card_liveRows] at erased
    omega
  have entries : following.state.livePrefix nextRanking =
      ((accounts.state.livePrefix ranking).filter (· ≠ index)).map (lowered index) := by
    rw [StewardStateV2.livePrefix, count]
    exact ranked.entries rows.distinct removed.capacity.1 capacity (remaining ▸ room)
  refine ⟨entries, ?_⟩
  have injective := lowered_injOn index accounts.state.liveRows
  constructor
  case distinct =>
      rw [entries]
      apply List.Nodup.map_on _ distinct
      intro first firstMember second secondMember same
      exact injective ((listed first).mp firstMember) ((listed second).mp secondMember) same
  case ordered =>
      rw [entries, List.pairwise_map]
      apply (rows.ordered.filter (· ≠ index)).imp_of_mem
      intro better worse betterMember worseMember ordered
      have score : ∀ row ∈ (accounts.state.livePrefix ranking).filter (· ≠ index),
          deleteRow scores index following.state.numPoolValidators 0 (lowered index row) =
            scores row := by
        intro row member
        rcases List.mem_filter.mp member with ⟨member, other⟩
        exact shrunk.deleteRow_lowered (rows.inPool row member) (by simpa using other)
      rw [score better betterMember, score worse worseMember]
      exact ordered
  case lists =>
      intro row
      rw [entries, renamed, List.mem_map, Finset.mem_image]
      simp only [listed]
  case inPool =>
      intro row member
      rw [entries, List.mem_map] at member
      rcases member with ⟨original, member, rfl⟩
      rcases List.mem_filter.mp member with ⟨member, other⟩
      exact shrunk.lowered_lt (rows.inPool original member) (by simpa using other)

/-- Both rankings of `next` are those of `accounts` without the row `index`. -/
structure RankingsWithout (accounts : Accounts) (index : Nat) (next : Accounts) : Prop where
  byScore : next.state.livePrefix next.state.sortedScoreIndices =
    ((accounts.state.livePrefix accounts.state.sortedScoreIndices).filter (· ≠ index)).map
      (lowered index)
  byRawScore : next.state.livePrefix next.state.sortedRawScoreIndices =
    ((accounts.state.livePrefix accounts.state.sortedRawScoreIndices).filter (· ≠ index)).map
      (lowered index)

theorem rankingsWithout_of_removed (rankings : accounts.state.LiveRankings)
    (removed : Removed accounts index following) :
    RankingsWithout accounts index following ∧ following.state.LiveRankings := by
  have byScore := rankings.byScore.remove removed removed.scoreRanking
  have byRawScore := rankings.byRawScore.remove removed removed.rawRanking
  rw [← removed.scores] at byScore
  rw [← removed.rawScores] at byRawScore
  exact ⟨⟨byScore.1, byRawScore.1⟩, ⟨byScore.2, byRawScore.2⟩⟩

end Removal

/-! ## Marked validators can be removed -/

section Success

variable {row index bound : Nat}

theorem shiftArrayRow_of_lt (rows : Nat → α) (bounded : row + 1 < maxValidators) :
    shiftArrayRow rows row = .ok (Function.update rows row (rows (row + 1))) := by
  rw [shiftArrayRow, readRow_of_lt rows bounded]
  exact writeRow_of_lt rows (by omega) _

theorem shiftMaskRow_of_lt (mask : BitMask) (bounded : row + 1 < maxValidators) :
    shiftMaskRow mask row =
      .ok ⟨WordSet.assign mask.values row (mask.contains (row + 1))⟩ := by
  rw [shiftMaskRow, mask.get_of_lt bounded]
  exact BitMask.set_of_lt (by omega) _

theorem shiftValidatorRow_succeeds (accounts : Accounts) (bounded : row + 1 < maxValidators) :
    ∃ next, shiftValidatorRow row accounts = .ok next := by
  simp only [shiftValidatorRow, shiftArrayRow_of_lt _ bounded, shiftMaskRow_of_lt _ bounded]
  exact ⟨_, rfl⟩

theorem shiftRemovalMarks_succeeds (accounts : Accounts) (bounded : row + 1 < maxValidators) :
    ∃ next, shiftRemovalMarks row accounts = .ok next := by
  simp only [shiftRemovalMarks, shiftMaskRow_of_lt _ bounded]
  exact ⟨_, rfl⟩

theorem relabelRank_succeeds (ranking : Nat → Nat) (index : Nat) (bounded : row < maxValidators) :
    ∃ next, relabelRank index row ranking = .ok next := by
  rw [relabelRank, readRow_of_lt ranking bounded]
  by_cases above : index < ranking row
  · refine ⟨Function.update ranking row (ranking row - 1), ?_⟩
    simp [above]
    omega
  · exact ⟨ranking, by simp [above, pure, Except.pure]⟩

/-- A loop over rows below the array bound whose body succeeds there. -/
theorem forRange_succeeds {σ : Type} {body : Nat → σ → Result σ} (initial : σ) (first : Nat)
    (step : ∀ row current, row < bound → ∃ next, body row current = .ok next) :
    ∃ final, forRange first bound body initial = .ok final := by
  rcases Nat.le_total bound first with empty | bounded
  · exact ⟨initial, forRange.of_le empty initial⟩
  · have started : (fun (_ : Nat) (_ : σ) => True) first initial := trivial
    have stepped : ∀ row current, first ≤ row → row < bound → True →
        ∃ next, body row current = .ok next ∧ True := by
      intro row current _ below _
      rcases step row current below with ⟨next, done⟩
      exact ⟨next, done, trivial⟩
    rcases forRange.succeeds _ bounded started stepped with ⟨final, finished, _⟩
    exact ⟨final, finished⟩

theorem deleteFromRanking_succeeds (ranking : Nat → Nat) (index : Nat)
    (capacity : bound < maxValidators) :
    ∃ next, deleteFromRanking ranking index bound = .ok next := by
  have searching : ∃ found, findPosition
      (fun position => (.ok (ranking position == castU16 index) : Result Bool)) 0 maxValidators =
        .ok found :=
    findPosition.succeeds fun _ _ _ => ⟨_, rfl⟩
  rcases searching with ⟨found, searched⟩
  rw [deleteFromRanking, searched]
  cases found with
  | none => exact ⟨ranking, rfl⟩
  | some position =>
      exact forRange_succeeds ranking position fun row current below =>
        ⟨_, shiftArrayRow_of_lt current (by omega)⟩

theorem removeFromRankings_succeeds (accounts : Accounts) (index : Nat)
    (capacity : accounts.state.numPoolValidators < maxValidators) :
    ∃ next, removeFromRankings accounts index = .ok next := by
  have relabelled (ranking : Nat → Nat) :
      ∃ next, forRange 0 accounts.state.numPoolValidators (relabelRank index) ranking =
        .ok next :=
    forRange_succeeds ranking 0 fun row current below =>
      relabelRank_succeeds current index (by omega)
  rcases deleteFromRanking_succeeds accounts.state.sortedRawScoreIndices index capacity with
    ⟨rawDeleted, rawDeletion⟩
  rcases deleteFromRanking_succeeds accounts.state.sortedScoreIndices index capacity with
    ⟨scoreDeleted, scoreDeletion⟩
  rcases relabelled rawDeleted with ⟨raw, rawRelabelled⟩
  rcases relabelled scoreDeleted with ⟨score, scoreRelabelled⟩
  simp only [removeFromRankings, rawDeletion, scoreDeletion, Outcome.ok_bind, rawRelabelled,
    scoreRelabelled]
  exact ⟨_, rfl⟩

theorem clearValidatorRow_succeeds (accounts : Accounts) (bounded : row < maxValidators) :
    ∃ next, clearValidatorRow accounts row = .ok next := by
  simp only [clearValidatorRow, writeRow_of_lt _ bounded, BitMask.set_of_lt bounded]
  exact ⟨_, rfl⟩

theorem clearRemovalMarks_succeeds (accounts : Accounts) (bounded : row < maxValidators) :
    ∃ next, clearRemovalMarks accounts row = .ok next := by
  simp only [clearRemovalMarks, BitMask.set_of_lt bounded]
  exact ⟨_, rfl⟩

/-- Within the capacity of the arrays every marked validator of the pool can be
removed. -/
theorem removeValidator_succeeds {accounts : Accounts} {index : Nat}
    (capacity : accounts.state.numPoolValidators + accounts.state.validatorsAdded ≤
      maxValidators)
    (inPool : index < accounts.state.numPoolValidators)
    (marked : accounts.state.Marked index) :
    ∃ next, removeValidator accounts index = .ok next := by
  generalize remembered : accounts.state.numPoolValidators - 1 = pool
  generalize forgotten : ({ accounts.state with numPoolValidators := pool } : StewardStateV2) =
    state
  have statePool : state.numPoolValidators = pool := by rw [← forgotten]
  have stateAdded : state.validatorsAdded = accounts.state.validatorsAdded := by
    rw [← forgotten]
  have forget : forgetValidator accounts.state index = .ok state := by
    have room : 1 ≤ accounts.state.numPoolValidators := by omega
    rw [forgetValidator, if_neg (by omega), checkedSub, if_pos room, remembered]
    exact congrArg Except.ok forgotten
  have shifts : ∃ shifted, forRange index pool shiftValidatorRow
      { accounts with state := state } = .ok shifted :=
    forRange_succeeds _ index fun row current below =>
      shiftValidatorRow_succeeds current (by omega)
  rcases shifts with ⟨shifted, shifting⟩
  have marksShifts : ∃ marksShifted, forRange index (pool + accounts.state.validatorsAdded)
      shiftRemovalMarks shifted = .ok marksShifted :=
    forRange_succeeds _ index fun row current below =>
      shiftRemovalMarks_succeeds current (by omega)
  rcases marksShifts with ⟨marksShifted, marksShifting⟩
  have rows := rowsShifted_of_forRange shifting
  have marks := marksShifted_of_forRange marksShifting
  have poolKept : marksShifted.state.numPoolValidators = pool :=
    (congrArg (·.state.numPoolValidators) marks.others).trans
      ((congrArg (·.state.numPoolValidators) rows.others).trans statePool)
  rcases removeFromRankings_succeeds marksShifted index (by omega) with ⟨ranked, ranking⟩
  have clears : ∃ cleared, clearValidatorRow ranked pool = .ok cleared :=
    clearValidatorRow_succeeds ranked (by omega)
  rcases clears with ⟨cleared, clearing⟩
  have finishes : ∃ final,
      clearRemovalMarks cleared (pool + accounts.state.validatorsAdded) = .ok final :=
    clearRemovalMarks_succeeds cleared (by omega)
  rcases finishes with ⟨final, finishing⟩
  refine ⟨final, ?_⟩
  unfold StewardStateV2.Marked at marked
  simp only [removeValidator, BitMask.get_of_lt _ (show index < maxValidators by omega),
    Outcome.ok_bind, require_of marked, require_of (show index <
      accounts.state.numPoolValidators + accounts.state.validatorsAdded by omega), forget,
    statePool, stateAdded, shifting, marksShifting, ranking, clearing]
  exact finishing

end Success

/-! ## Several removals -/

/-- One row of all the arrays that have a row for each validator. -/
structure PoolRow where
  validatorLamportBalance : Nat
  score : Nat
  rawScore : Nat
  delegation : Delegation
  instantUnstake : Bool
  progress : Bool
  toRemove : Bool
  forImmediateRemoval : Bool
  directedStakeLamports : Nat
  directedStakeMetaIndex : Nat

def poolRow (accounts : Accounts) (row : Nat) : PoolRow where
  validatorLamportBalance := accounts.state.validatorLamportBalances row
  score := accounts.state.scores row
  rawScore := accounts.state.rawScores row
  delegation := accounts.state.delegations row
  instantUnstake := accounts.state.instantUnstake.contains row
  progress := accounts.state.progress.contains row
  toRemove := accounts.state.validatorsToRemove.contains row
  forImmediateRemoval := accounts.state.validatorsForImmediateRemoval.contains row
  directedStakeLamports := accounts.stakeMeta.directedStakeLamports row
  directedStakeMetaIndex := accounts.stakeMeta.directedStakeMetaIndices row

def poolRows (accounts : Accounts) : List PoolRow :=
  (List.range accounts.state.numPoolValidators).map (poolRow accounts)

/-- Removes the listed rows one by one. The names are those before the first
removal; each removal renames what is left of the list. -/
def removeEach : List Nat → Accounts → Result Accounts
  | [], accounts => .ok accounts
  | index :: rest, accounts => do
      removeEach (rest.map (lowered index)) (← removeValidator accounts index)
termination_by order => order.length

/-- The accounts once all of `gone` is filtered out at once: the rows that remain,
and both rankings of them. -/
structure FilteredOut (accounts : Accounts) (gone : List Nat) (final : Accounts) : Prop where
  rows : poolRows final =
    (survivors accounts.state.numPoolValidators gone).map (poolRow accounts)
  byScore : final.state.livePrefix final.state.sortedScoreIndices =
    ((accounts.state.livePrefix accounts.state.sortedScoreIndices).filter (· ∉ gone)).map
      (nameAfter gone)
  byRawScore : final.state.livePrefix final.state.sortedRawScoreIndices =
    ((accounts.state.livePrefix accounts.state.sortedRawScoreIndices).filter (· ∉ gone)).map
      (nameAfter gone)

section Order

variable {accounts middle final : Accounts} {index row : Nat} {order : List Nat}

theorem poolRow_removed (removed : Removed accounts index middle)
    (bounded : row < middle.state.numPoolValidators) :
    poolRow middle row = poolRow accounts (raised index row) := by
  have marksBounded : row < middle.state.numPoolValidators + middle.state.validatorsAdded := by
    omega
  simp only [poolRow, removed.balances, removed.scores, removed.rawScores, removed.delegations,
    removed.instantUnstake, removed.progress, removed.toRemove, removed.forImmediateRemoval,
    removed.directedStakeLamports, removed.directedStakeMetaIndices,
    deleteRow_raised _ _ _ bounded, deleteRow_raised _ _ _ marksBounded]

theorem filteredOut_nil (accounts : Accounts) : FilteredOut accounts [] accounts := by
  have all (bound : Nat) : survivors bound [] = List.range bound := by simp [survivors]
  have same : nameAfter [] = id := by
    funext row
    simp [nameAfter, all]
  constructor
  · rw [all]
    rfl
  · simp [same]
  · simp [same]

/-- Removing one row and then filtering out the others, under their new names. -/
theorem filteredOut_cons (removed : Removed accounts index middle)
    (inPool : index < accounts.state.numPoolValidators)
    (without : RankingsWithout accounts index middle) (fresh : index ∉ order)
    (filtered : FilteredOut middle (order.map (lowered index)) final) :
    FilteredOut accounts (index :: order) final := by
  have pool : lowered index accounts.state.numPoolValidators = middle.state.numPoolValidators := by
    rw [removed.numPoolValidators, if_neg (by omega), lowered, if_pos inPool]
  constructor
  case rows =>
      rw [filtered.rows, survivors_cons (by omega) fresh, List.map_map, pool]
      apply List.map_congr_left
      intro row member
      have bounded : row < middle.state.numPoolValidators := by
        rw [survivors, List.mem_filter] at member
        exact List.mem_range.mp member.1
      exact poolRow_removed removed bounded
  case byScore => rw [filtered.byScore, without.byScore, rename_filter_cons _ fresh]
  case byRawScore => rw [filtered.byRawScore, without.byRawScore, rename_filter_cons _ fresh]

/-- The rows still to be removed keep their marks. -/
theorem marked_removed (removed : Removed accounts index middle)
    (bounded : row < accounts.state.numPoolValidators) (other : row ≠ index)
    (marked : accounts.state.Marked row) : middle.state.Marked (lowered index row) := by
  have shrunk := poolShrunk_of_removed removed
  have below := shrunk.lowered_lt bounded other
  have same := poolRow_removed removed below
  rw [raised_lowered other] at same
  unfold StewardStateV2.Marked at marked ⊢
  rwa [show middle.state.validatorsToRemove.contains (lowered index row) =
      accounts.state.validatorsToRemove.contains row from congrArg PoolRow.toRemove same,
    show middle.state.validatorsForImmediateRemoval.contains (lowered index row) =
      accounts.state.validatorsForImmediateRemoval.contains row from
        congrArg PoolRow.forImmediateRemoval same]

/-- Removals one by one amount to filtering all of them out. -/
theorem filteredOut_of_removeEach (rankings : accounts.state.LiveRankings)
    (distinct : order.Nodup)
    (inPool : ∀ row ∈ order, row < accounts.state.numPoolValidators)
    (removed : removeEach order accounts = .ok final) :
    FilteredOut accounts order final ∧ final.state.LiveRankings := by
  -- The list shrinks with every removal, and the names in it change.
  induction length : order.length generalizing order accounts with
  | zero =>
      rw [List.length_eq_zero_iff.mp length, removeEach] at removed
      cases removed
      rw [List.length_eq_zero_iff.mp length]
      exact ⟨filteredOut_nil _, rankings⟩
  | succ left induction =>
      rcases List.exists_of_length_succ order length with ⟨index, rest, rfl⟩
      rw [removeEach, Outcome.bind_eq_ok] at removed
      rcases removed with ⟨middle, removing, removed⟩
      rcases List.nodup_cons.mp distinct with ⟨fresh, distinct⟩
      have removal := removed_of_removeValidator removing
      have shrunk := poolShrunk_of_removed removal
      have indexBound := inPool index List.mem_cons_self
      have apart : ∀ row ∈ rest, row ≠ index := fun row member same => fresh (same ▸ member)
      rcases rankingsWithout_of_removed rankings removal with ⟨without, rankings⟩
      have renamedInPool : ∀ row ∈ rest.map (lowered index),
          row < middle.state.numPoolValidators := by
        intro row named
        rcases List.mem_map.mp named with ⟨original, member, rfl⟩
        exact shrunk.lowered_lt (inPool original (List.mem_cons_of_mem _ member))
          (apart original member)
      rcases induction rankings (nodup_map_lowered distinct fresh) renamedInPool removed
        (by simpa using length) with ⟨filtered, rankings⟩
      exact ⟨filteredOut_cons removal indexBound without fresh filtered, rankings⟩

theorem removeEach_succeeds
    (capacity : accounts.state.numPoolValidators + accounts.state.validatorsAdded ≤
      maxValidators)
    (distinct : order.Nodup)
    (inPool : ∀ row ∈ order, row < accounts.state.numPoolValidators)
    (marked : ∀ row ∈ order, accounts.state.Marked row) :
    ∃ final, removeEach order accounts = .ok final := by
  induction length : order.length generalizing order accounts with
  | zero => exact ⟨accounts, by rw [List.length_eq_zero_iff.mp length, removeEach]⟩
  | succ left induction =>
      rcases List.exists_of_length_succ order length with ⟨index, rest, rfl⟩
      rcases List.nodup_cons.mp distinct with ⟨fresh, distinct⟩
      have indexBound := inPool index List.mem_cons_self
      rcases removeValidator_succeeds capacity indexBound (marked index List.mem_cons_self) with
        ⟨middle, removing⟩
      have removal := removed_of_removeValidator removing
      have shrunk := poolShrunk_of_removed removal
      have room := removal.capacity.2
      have apart : ∀ row ∈ rest, row ≠ index := fun row member same => fresh (same ▸ member)
      have renamed : ∀ row ∈ rest.map (lowered index),
          row < middle.state.numPoolValidators ∧ middle.state.Marked row := by
        intro row named
        rcases List.mem_map.mp named with ⟨original, member, rfl⟩
        have bounded := inPool original (List.mem_cons_of_mem _ member)
        exact ⟨shrunk.lowered_lt bounded (apart original member),
          marked_removed removal bounded (apart original member)
            (marked original (List.mem_cons_of_mem _ member))⟩
      rcases induction (by omega) (nodup_map_lowered distinct fresh)
        (fun row member => (renamed row member).1) (fun row member => (renamed row member).2)
        (by simpa using length) with ⟨final, removed⟩
      refine ⟨final, ?_⟩
      rw [removeEach, removing]
      exact removed

end Order

/-- A removal deletes its row from both rankings and renames the others, and any
order of removals leaves what filtering out all of them would. -/
theorem removals_keep_rankings {accounts : Accounts} (rankings : accounts.state.LiveRankings) :
    (∀ index < accounts.state.numPoolValidators, accounts.state.Marked index →
      (accounts.state.numPoolValidators + accounts.state.validatorsAdded ≤ maxValidators →
        ∃ next, removeValidator accounts index = .ok next) ∧
      ∀ next, removeValidator accounts index = .ok next →
        RankingsWithout accounts index next ∧ next.state.LiveRankings) ∧
    (accounts.state.validatorsAdded = 0 → ∀ order : List Nat, order.Nodup →
      (∀ index ∈ order, index < accounts.state.numPoolValidators) →
      (∀ index ∈ order, accounts.state.Marked index) →
      (accounts.state.numPoolValidators ≤ maxValidators →
        ∃ final, removeEach order accounts = .ok final) ∧
      ∀ final, removeEach order accounts = .ok final →
        FilteredOut accounts order final ∧ final.state.LiveRankings) := by
  constructor
  · intro index inPool marked
    refine ⟨fun capacity => removeValidator_succeeds capacity inPool marked, ?_⟩
    intro next removing
    exact rankingsWithout_of_removed rankings (removed_of_removeValidator removing)
  · intro noneAdded order distinct inPool marked
    refine ⟨fun capacity => removeEach_succeeds (by omega) distinct inPool marked, ?_⟩
    intro final removed
    exact filteredOut_of_removeEach rankings distinct inPool removed

/-- Three validators, the first two scored so far, the first and the last one
marked for removal. -/
def partlyScoredPool : Accounts where
  state := { ReallocState.initialState 3 10 0 with
    stateTag := .computeScores
    scores := fun row => if row = 0 then 20 else if row = 1 then 30 else 0
    rawScores := fun row => if row = 0 then 20 else if row = 1 then 30 else 0
    sortedScoreIndices := fun position => if position = 0 then 1 else if position = 1 then 0 else 2
    sortedRawScoreIndices := fun position =>
      if position = 0 then 1 else if position = 1 then 0 else 2
    progress := ⟨fun word => if word = 0 then 3 else 0⟩
    validatorsToRemove := ⟨fun word => if word = 0 then 5 else 0⟩ }
  stakeMeta := .initial

theorem partlyScoredPool_liveRankings : partlyScoredPool.state.LiveRankings := by
  have rows : partlyScoredPool.state.liveRows = {0, 1} := by decide +kernel
  have entries : partlyScoredPool.state.livePrefix
      partlyScoredPool.state.sortedScoreIndices = [1, 0] := by decide +kernel
  have ordered : partlyScoredPool.state.OrderedPrefix partlyScoredPool.state.scores
      partlyScoredPool.state.sortedScoreIndices := by
    constructor
    · rw [entries]
      decide
    · rw [entries]
      decide
    · intro row
      rw [entries, rows]
      simp [or_comm]
    · rw [entries]
      decide
  exact ⟨ordered, ordered⟩

theorem removals_keep_rankings_partlyScoredPool :
    ∃ final, removeEach [2, 0] partlyScoredPool = .ok final ∧
      FilteredOut partlyScoredPool [2, 0] final := by
  have removals := (removals_keep_rankings partlyScoredPool_liveRankings).2 rfl [2, 0]
    (by decide) (by decide) (by
      intro index member
      simp at member
      rcases member with rfl | rfl
      · exact .inl (by decide +kernel)
      · exact .inl (by decide +kernel))
  rcases removals.1 (by decide) with ⟨final, removed⟩
  exact ⟨final, removed, (removals.2 final removed).1⟩

end Stakenet.Steward

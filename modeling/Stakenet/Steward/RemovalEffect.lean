import Stakenet.Foundation.RowShift
import Stakenet.Steward.Removal

/-! What a successful removal leaves in every array, in closed form. -/

namespace Stakenet.Steward

/-! ## Copying one row -/

theorem shiftArrayRow_shiftDown {rows current next : Nat → α} {first row : Nat}
    (started : first ≤ row) (reached : current = shiftDown rows first row)
    (shifted : shiftArrayRow current row = .ok next) :
    next = shiftDown rows first (row + 1) := by
  simp only [shiftArrayRow, Outcome.bind_eq_ok, readRow_eq_ok, writeRow_eq_ok] at shifted
  rcases shifted with ⟨value, ⟨_, rfl⟩, _, rfl⟩
  rw [reached, update_shiftDown rows started]

theorem shiftMaskRow_shiftDown {mask next : BitMask} {rows : Nat → Bool} {first row : Nat}
    (started : first ≤ row) (reached : mask.contains = shiftDown rows first row)
    (shifted : shiftMaskRow mask row = .ok next) :
    next.contains = shiftDown rows first (row + 1) := by
  simp only [shiftMaskRow, Outcome.bind_eq_ok, BitMask.get_eq_ok] at shifted
  rcases shifted with ⟨value, ⟨_, rfl⟩, written⟩
  have updated : next.contains =
      Function.update mask.contains row (mask.contains (row + 1)) := by
    funext other
    rw [BitMask.contains_set written other, Function.update_apply]
  rw [updated, reached, update_shiftDown rows started]

/-! ## The loops -/

/-- The accounts after the rows `[first, row)` were copied down. -/
structure RowsShifted (original : Accounts) (first row : Nat) (current : Accounts) : Prop where
  balances : current.state.validatorLamportBalances =
    shiftDown original.state.validatorLamportBalances first row
  scores : current.state.scores = shiftDown original.state.scores first row
  rawScores : current.state.rawScores = shiftDown original.state.rawScores first row
  delegations : current.state.delegations = shiftDown original.state.delegations first row
  instantUnstake : current.state.instantUnstake.contains =
    shiftDown original.state.instantUnstake.contains first row
  progress : current.state.progress.contains =
    shiftDown original.state.progress.contains first row
  directedStakeLamports : current.stakeMeta.directedStakeLamports =
    shiftDown original.stakeMeta.directedStakeLamports first row
  directedStakeMetaIndices : current.stakeMeta.directedStakeMetaIndices =
    shiftDown original.stakeMeta.directedStakeMetaIndices first row
  others : current = {
    state := { original.state with
      validatorLamportBalances := current.state.validatorLamportBalances
      scores := current.state.scores
      rawScores := current.state.rawScores
      delegations := current.state.delegations
      instantUnstake := current.state.instantUnstake
      progress := current.state.progress }
    stakeMeta := { original.stakeMeta with
      directedStakeLamports := current.stakeMeta.directedStakeLamports
      directedStakeMetaIndices := current.stakeMeta.directedStakeMetaIndices } }

theorem RowsShifted.start_of_le (accounts : Accounts) {first stop : Nat}
    (empty : stop ≤ first) : RowsShifted accounts first stop accounts where
  balances := (shiftDown_of_le _ empty).symm
  scores := (shiftDown_of_le _ empty).symm
  rawScores := (shiftDown_of_le _ empty).symm
  delegations := (shiftDown_of_le _ empty).symm
  instantUnstake := (shiftDown_of_le _ empty).symm
  progress := (shiftDown_of_le _ empty).symm
  directedStakeLamports := (shiftDown_of_le _ empty).symm
  directedStakeMetaIndices := (shiftDown_of_le _ empty).symm
  others := rfl

theorem RowsShifted.start (accounts : Accounts) (first : Nat) :
    RowsShifted accounts first first accounts :=
  .start_of_le accounts (Nat.le_refl first)

theorem RowsShifted.step {original current next : Accounts} {first row : Nat}
    (started : first ≤ row) (reached : RowsShifted original first row current)
    (shifted : shiftValidatorRow row current = .ok next) :
    RowsShifted original first (row + 1) next := by
  simp only [shiftValidatorRow, Outcome.bind_eq_ok, Outcome.pure_eq_ok] at shifted
  rcases shifted with ⟨balances, balancesShifted, scores, scoresShifted, rawScores,
    rawShifted, delegations, delegationsShifted, unstake, unstakeShifted, progress,
    progressShifted, lamports, lamportsShifted, indices, indicesShifted, rfl⟩
  exact {
    balances := shiftArrayRow_shiftDown started reached.balances balancesShifted
    scores := shiftArrayRow_shiftDown started reached.scores scoresShifted
    rawScores := shiftArrayRow_shiftDown started reached.rawScores rawShifted
    delegations := shiftArrayRow_shiftDown started reached.delegations delegationsShifted
    instantUnstake := shiftMaskRow_shiftDown started reached.instantUnstake unstakeShifted
    progress := shiftMaskRow_shiftDown started reached.progress progressShifted
    directedStakeLamports :=
      shiftArrayRow_shiftDown started reached.directedStakeLamports lamportsShifted
    directedStakeMetaIndices :=
      shiftArrayRow_shiftDown started reached.directedStakeMetaIndices indicesShifted
    others := by rw [reached.others] }

theorem rowsShifted_of_forRange {accounts next : Accounts} {first stop : Nat}
    (finished : forRange first stop shiftValidatorRow accounts = .ok next) :
    RowsShifted accounts first stop next := by
  rcases Nat.le_total first stop with bounded | empty
  · exact forRange.invariant (RowsShifted accounts first) bounded
      (RowsShifted.start accounts first)
      (fun _ _ _ started _ reached shifted => reached.step started shifted) finished
  · rw [forRange.of_le empty] at finished
    cases finished
    exact .start_of_le accounts empty

/-- The accounts after the marks of the rows `[first, row)` were copied down. -/
structure MarksShifted (original : Accounts) (first row : Nat) (current : Accounts) : Prop where
  toRemove : current.state.validatorsToRemove.contains =
    shiftDown original.state.validatorsToRemove.contains first row
  forImmediateRemoval : current.state.validatorsForImmediateRemoval.contains =
    shiftDown original.state.validatorsForImmediateRemoval.contains first row
  others : current = { original with
    state := { original.state with
      validatorsToRemove := current.state.validatorsToRemove
      validatorsForImmediateRemoval := current.state.validatorsForImmediateRemoval } }

theorem MarksShifted.start_of_le (accounts : Accounts) {first stop : Nat}
    (empty : stop ≤ first) : MarksShifted accounts first stop accounts where
  toRemove := (shiftDown_of_le _ empty).symm
  forImmediateRemoval := (shiftDown_of_le _ empty).symm
  others := rfl

theorem MarksShifted.start (accounts : Accounts) (first : Nat) :
    MarksShifted accounts first first accounts :=
  .start_of_le accounts (Nat.le_refl first)

theorem MarksShifted.step {original current next : Accounts} {first row : Nat}
    (started : first ≤ row) (reached : MarksShifted original first row current)
    (shifted : shiftRemovalMarks row current = .ok next) :
    MarksShifted original first (row + 1) next := by
  simp only [shiftRemovalMarks, Outcome.bind_eq_ok, Outcome.pure_eq_ok] at shifted
  rcases shifted with ⟨toRemove, toRemoveShifted, immediate, immediateShifted, rfl⟩
  exact {
    toRemove := shiftMaskRow_shiftDown started reached.toRemove toRemoveShifted
    forImmediateRemoval :=
      shiftMaskRow_shiftDown started reached.forImmediateRemoval immediateShifted
    others := by rw [reached.others] }

theorem marksShifted_of_forRange {accounts next : Accounts} {first stop : Nat}
    (finished : forRange first stop shiftRemovalMarks accounts = .ok next) :
    MarksShifted accounts first stop next := by
  rcases Nat.le_total first stop with bounded | empty
  · exact forRange.invariant (MarksShifted accounts first) bounded
      (MarksShifted.start accounts first)
      (fun _ _ _ started _ reached shifted => reached.step started shifted) finished
  · rw [forRange.of_le empty] at finished
    cases finished
    exact .start_of_le accounts empty

/-! ## The rankings -/

/-- Names above the removed row drop by one, at the positions below `bound`. -/
def relabelDown (sortedIndices : Nat → Nat) (index bound : Nat) : Nat → Nat := fun position =>
  if position < bound ∧ index < sortedIndices position then sortedIndices position - 1
  else sortedIndices position

/-- The ranking without the removed row: if the row occurs, the positions from
its first occurrence on are copied down. -/
inductive RankDeleted (sortedIndices : Nat → Nat) (index bound : Nat) : (Nat → Nat) → Prop
  | absent :
      (∀ position < maxValidators, sortedIndices position ≠ castU16 index) →
      RankDeleted sortedIndices index bound sortedIndices
  | found (position : Nat) :
      position < maxValidators →
      sortedIndices position = castU16 index →
      (∀ earlier < position, sortedIndices earlier ≠ castU16 index) →
      RankDeleted sortedIndices index bound (shiftDown sortedIndices position bound)

theorem forRange_shiftArrayRow {rows next : Nat → α} {first stop : Nat}
    (finished : forRange first stop (fun row rows => shiftArrayRow rows row) rows = .ok next) :
    next = shiftDown rows first stop := by
  rcases Nat.le_total first stop with bounded | empty
  · exact forRange.invariant (fun row current => current = shiftDown rows first row) bounded
      (shiftDown_of_le rows (Nat.le_refl first)).symm
      (fun _ _ _ started _ reached shifted => shiftArrayRow_shiftDown started reached shifted)
      finished
  · rw [forRange.of_le empty] at finished
    cases finished
    exact (shiftDown_of_le rows empty).symm

theorem rankDeleted_of_deleteFromRanking {sortedIndices next : Nat → Nat}
    {index bound : Nat} (deleted : deleteFromRanking sortedIndices index bound = .ok next) :
    RankDeleted sortedIndices index bound next := by
  simp only [deleteFromRanking, Outcome.bind_eq_ok] at deleted
  rcases deleted with ⟨found, searched, deleted⟩
  cases found with
  | none =>
      cases deleted
      apply RankDeleted.absent
      intro position bounded
      have tested := findPosition.eq_none searched position (Nat.zero_le _) (by omega)
      simpa using tested
  | some position =>
      rcases findPosition.eq_some searched with ⟨_, bounded, tested, before⟩
      rw [forRange_shiftArrayRow deleted]
      apply RankDeleted.found position (by omega) (by simpa using tested)
      intro earlier below
      simpa using before earlier (Nat.zero_le _) below

theorem forRange_relabelRank {sortedIndices next : Nat → Nat} {index stop : Nat}
    (finished : forRange 0 stop (relabelRank index) sortedIndices = .ok next) :
    next = relabelDown sortedIndices index stop := by
  apply forRange.invariant (fun row current => current = relabelDown sortedIndices index row)
    (Nat.zero_le stop) _ _ finished
  · funext position
    simp [relabelDown]
  · rintro row current following _ _ rfl relabelled
    simp only [relabelRank, Outcome.bind_eq_ok, readRow_eq_ok] at relabelled
    rcases relabelled with ⟨ranked, ⟨_, rfl⟩, relabelled⟩
    have untouched : relabelDown sortedIndices index row row = sortedIndices row := by
      simp [relabelDown]
    rw [untouched] at relabelled
    by_cases above : index < sortedIndices row
    · simp only [if_pos above, Outcome.bind_eq_ok, checkedSub_eq_ok, writeRow_eq_ok] at relabelled
      rcases relabelled with ⟨lowered, ⟨_, rfl⟩, _, rfl⟩
      funext position
      by_cases same : position = row
      · subst position
        simp [relabelDown, above]
      · have bounds : position < row ↔ position < row + 1 := by omega
        simp [Function.update_of_ne same, relabelDown, bounds]
    · simp only [if_neg above, Outcome.pure_eq_ok] at relabelled
      subst following
      funext position
      by_cases same : position = row
      · subst position
        simp [relabelDown, above]
      · have bounds : position < row ↔ position < row + 1 := by omega
        simp [relabelDown, bounds]

/-- A ranking before and after a removal. -/
def RankRemoved (sortedIndices : Nat → Nat) (index bound : Nat) (next : Nat → Nat) : Prop :=
  ∃ deleted, RankDeleted sortedIndices index bound deleted ∧
    next = Function.update (relabelDown deleted index bound) bound sortedIndexDefault

/-! ## The whole removal -/

/-- The accounts a removal of `index` leaves. Both bounds in it are those after
the removal. -/
structure Removed (accounts : Accounts) (index : Nat) (next : Accounts) : Prop where
  marked : accounts.state.validatorsToRemove.contains index = true ∨
    accounts.state.validatorsForImmediateRemoval.contains index = true
  bounded : index < accounts.state.numPoolValidators + accounts.state.validatorsAdded
  capacity : index < maxValidators ∧
    next.state.numPoolValidators + next.state.validatorsAdded < maxValidators
  numPoolValidators : next.state.numPoolValidators =
    if accounts.state.numPoolValidators ≤ index then accounts.state.numPoolValidators
    else accounts.state.numPoolValidators - 1
  validatorsAdded : next.state.validatorsAdded =
    if accounts.state.numPoolValidators ≤ index then accounts.state.validatorsAdded - 1
    else accounts.state.validatorsAdded
  balances : next.state.validatorLamportBalances =
    deleteRow accounts.state.validatorLamportBalances index next.state.numPoolValidators
      lamportBalanceDefault
  scores : next.state.scores =
    deleteRow accounts.state.scores index next.state.numPoolValidators 0
  rawScores : next.state.rawScores =
    deleteRow accounts.state.rawScores index next.state.numPoolValidators 0
  delegations : next.state.delegations =
    deleteRow accounts.state.delegations index next.state.numPoolValidators .none
  instantUnstake : next.state.instantUnstake.contains =
    deleteRow accounts.state.instantUnstake.contains index next.state.numPoolValidators false
  progress : next.state.progress.contains =
    deleteRow accounts.state.progress.contains index next.state.numPoolValidators false
  directedStakeLamports : next.stakeMeta.directedStakeLamports =
    deleteRow accounts.stakeMeta.directedStakeLamports index next.state.numPoolValidators 0
  directedStakeMetaIndices : next.stakeMeta.directedStakeMetaIndices =
    deleteRow accounts.stakeMeta.directedStakeMetaIndices index next.state.numPoolValidators
      metaIndexDefault
  toRemove : next.state.validatorsToRemove.contains =
    deleteRow accounts.state.validatorsToRemove.contains index
      (next.state.numPoolValidators + next.state.validatorsAdded) false
  forImmediateRemoval : next.state.validatorsForImmediateRemoval.contains =
    deleteRow accounts.state.validatorsForImmediateRemoval.contains index
      (next.state.numPoolValidators + next.state.validatorsAdded) false
  scoreRanking : RankRemoved accounts.state.sortedScoreIndices index
    next.state.numPoolValidators next.state.sortedScoreIndices
  rawRanking : RankRemoved accounts.state.sortedRawScoreIndices index
    next.state.numPoolValidators next.state.sortedRawScoreIndices
  control : next.state.control = accounts.state.control
  targets : next.stakeMeta.targets = accounts.stakeMeta.targets
  totalStakeTargets : next.stakeMeta.totalStakeTargets = accounts.stakeMeta.totalStakeTargets
  directedUnstakeTotal :
    next.stakeMeta.directedUnstakeTotal = accounts.stakeMeta.directedUnstakeTotal

theorem forgetValidator_eq_ok {state next : StewardStateV2} {index : Nat}
    (forgotten : forgetValidator state index = .ok next) :
    next = { state with
      numPoolValidators :=
        if state.numPoolValidators ≤ index then state.numPoolValidators
        else state.numPoolValidators - 1
      validatorsAdded :=
        if state.numPoolValidators ≤ index then state.validatorsAdded - 1
        else state.validatorsAdded } := by
  unfold forgetValidator at forgotten
  split at forgotten
  all_goals
    simp only [Outcome.bind_eq_ok, checkedSub_eq_ok, Outcome.pure_eq_ok] at forgotten
    rcases forgotten with ⟨_, ⟨_, rfl⟩, rfl⟩
    simp_all

theorem setFalse_shiftDown {mask next : BitMask} {rows : Nat → Bool} {index bound : Nat}
    (reached : mask.contains = shiftDown rows index bound)
    (written : mask.set bound false = .ok next) :
    next.contains = deleteRow rows index bound false := by
  rw [← update_shiftDown_filler, ← reached]
  funext other
  rw [BitMask.contains_set written other, Function.update_apply]

/-- The clearing steps that end a removal. -/
structure RowCleared (before : Accounts) (row last : Nat) (next : Accounts) : Prop where
  capacity : row < maxValidators ∧ last < maxValidators
  instantUnstake : before.state.instantUnstake.set row false = .ok next.state.instantUnstake
  progress : before.state.progress.set row false = .ok next.state.progress
  toRemove : before.state.validatorsToRemove.set last false =
    .ok next.state.validatorsToRemove
  forImmediateRemoval : before.state.validatorsForImmediateRemoval.set last false =
    .ok next.state.validatorsForImmediateRemoval
  others : next = {
    state := { before.state with
      validatorLamportBalances :=
        Function.update before.state.validatorLamportBalances row lamportBalanceDefault
      scores := Function.update before.state.scores row 0
      rawScores := Function.update before.state.rawScores row 0
      sortedScoreIndices :=
        Function.update before.state.sortedScoreIndices row sortedIndexDefault
      sortedRawScoreIndices :=
        Function.update before.state.sortedRawScoreIndices row sortedIndexDefault
      delegations := Function.update before.state.delegations row .none
      instantUnstake := next.state.instantUnstake
      progress := next.state.progress
      validatorsToRemove := next.state.validatorsToRemove
      validatorsForImmediateRemoval := next.state.validatorsForImmediateRemoval }
    stakeMeta := { before.stakeMeta with
      directedStakeLamports := Function.update before.stakeMeta.directedStakeLamports row 0
      directedStakeMetaIndices :=
        Function.update before.stakeMeta.directedStakeMetaIndices row metaIndexDefault } }

theorem rowCleared_of_clear {before cleared next : Accounts} {row last : Nat}
    (clearing : clearValidatorRow before row = .ok cleared)
    (finishing : clearRemovalMarks cleared last = .ok next) :
    RowCleared before row last next := by
  simp only [clearValidatorRow, Outcome.bind_eq_ok, writeRow_eq_ok,
    Outcome.pure_eq_ok] at clearing
  rcases clearing with ⟨_, ⟨rowValid, rfl⟩, _, ⟨_, rfl⟩, _, ⟨_, rfl⟩, _, ⟨_, rfl⟩, _, ⟨_, rfl⟩,
    _, ⟨_, rfl⟩, unstake, unstakeSet, progress, progressSet, _, ⟨_, rfl⟩, _, ⟨_, rfl⟩, rfl⟩
  simp only [clearRemovalMarks, Outcome.bind_eq_ok, Outcome.pure_eq_ok] at finishing
  rcases finishing with ⟨toRemove, toRemoveSet, immediate, immediateSet, rfl⟩
  exact {
    capacity := ⟨rowValid, (BitMask.set_eq_ok.mp toRemoveSet).1⟩
    instantUnstake := unstakeSet
    progress := progressSet
    toRemove := toRemoveSet
    forImmediateRemoval := immediateSet
    others := rfl }

theorem removeFromRankings_eq_ok {accounts next : Accounts} {index : Nat}
    (ranked : removeFromRankings accounts index = .ok next) :
    ∃ rawDeleted scoreDeleted,
      RankDeleted accounts.state.sortedRawScoreIndices index
        accounts.state.numPoolValidators rawDeleted ∧
      RankDeleted accounts.state.sortedScoreIndices index
        accounts.state.numPoolValidators scoreDeleted ∧
      next = { accounts with
        state := { accounts.state with
          sortedRawScoreIndices :=
            relabelDown rawDeleted index accounts.state.numPoolValidators
          sortedScoreIndices :=
            relabelDown scoreDeleted index accounts.state.numPoolValidators } } := by
  simp only [removeFromRankings, Outcome.bind_eq_ok, Outcome.pure_eq_ok] at ranked
  rcases ranked with ⟨rawDeleted, rawDeleting, scoreDeleted, scoreDeleting, rawRelabelled,
    rawRelabelling, scoreRelabelled, scoreRelabelling, rfl⟩
  refine ⟨rawDeleted, scoreDeleted, rankDeleted_of_deleteFromRanking rawDeleting,
    rankDeleted_of_deleteFromRanking scoreDeleting, ?_⟩
  rw [forRange_relabelRank rawRelabelling, forRange_relabelRank scoreRelabelling]

/-- One array through the steps of a removal: copied down, left alone by the
steps in between, and cleared at the bound. -/
theorem deleteRow_of_steps {first copied kept next : Nat → α} {index bound : Nat} {filler : α}
    (cleared : next = Function.update kept bound filler) (unchanged : kept = copied)
    (shifted : copied = shiftDown first index bound) :
    next = deleteRow first index bound filler := by
  rw [cleared, unchanged, shifted, update_shiftDown_filler]

theorem removed_of_removeValidator {accounts next : Accounts} {index : Nat}
    (removing : removeValidator accounts index = .ok next) : Removed accounts index next := by
  simp only [removeValidator, Outcome.bind_eq_ok, BitMask.get_eq_ok, require_eq_ok] at removing
  rcases removing with ⟨regular, ⟨valid, rfl⟩, immediate, ⟨_, rfl⟩, _, marked, _, bounded,
    forgotten, forgetting, rowsDone, rowsLoop, marksDone, marksLoop, ranked, ranking,
    cleared, clearing, finishing⟩
  have rows := rowsShifted_of_forRange rowsLoop
  have marks := marksShifted_of_forRange marksLoop
  have clears := rowCleared_of_clear clearing finishing
  rcases removeFromRankings_eq_ok ranking with ⟨rawDeleted, scoreDeleted, rawRank, scoreRank,
    rfl⟩
  have forgottenEq := forgetValidator_eq_ok forgetting
  -- The bounds of the loops are the ones the final state has.
  have keptPool : marksDone.state.numPoolValidators = forgotten.numPoolValidators :=
    (congrArg (·.state.numPoolValidators) marks.others).trans
      (congrArg (·.state.numPoolValidators) rows.others)
  have pool : next.state.numPoolValidators = forgotten.numPoolValidators :=
    (congrArg (·.state.numPoolValidators) clears.others).trans keptPool
  have added : next.state.validatorsAdded = forgotten.validatorsAdded :=
    (congrArg (·.state.validatorsAdded) clears.others).trans
      ((congrArg (·.state.validatorsAdded) marks.others).trans
        (congrArg (·.state.validatorsAdded) rows.others))
  rw [keptPool] at rawRank scoreRank clears
  constructor
  case marked => exact marked
  case bounded => exact bounded
  case capacity =>
      rw [pool, added]
      exact ⟨valid, clears.capacity.2⟩
  case numPoolValidators => rw [pool, forgottenEq]
  case validatorsAdded => rw [added, forgottenEq]
  case balances =>
      rw [pool]
      exact deleteRow_of_steps (congrArg (·.state.validatorLamportBalances) clears.others)
        (congrArg (·.state.validatorLamportBalances) marks.others)
        (rows.balances.trans (by rw [forgottenEq]))
  case scores =>
      rw [pool]
      exact deleteRow_of_steps (congrArg (·.state.scores) clears.others)
        (congrArg (·.state.scores) marks.others) (rows.scores.trans (by rw [forgottenEq]))
  case rawScores =>
      rw [pool]
      exact deleteRow_of_steps (congrArg (·.state.rawScores) clears.others)
        (congrArg (·.state.rawScores) marks.others)
        (rows.rawScores.trans (by rw [forgottenEq]))
  case delegations =>
      rw [pool]
      exact deleteRow_of_steps (congrArg (·.state.delegations) clears.others)
        (congrArg (·.state.delegations) marks.others)
        (rows.delegations.trans (by rw [forgottenEq]))
  case directedStakeLamports =>
      rw [pool]
      exact deleteRow_of_steps (congrArg (·.stakeMeta.directedStakeLamports) clears.others)
        (congrArg (·.stakeMeta.directedStakeLamports) marks.others) rows.directedStakeLamports
  case directedStakeMetaIndices =>
      rw [pool]
      exact deleteRow_of_steps (congrArg (·.stakeMeta.directedStakeMetaIndices) clears.others)
        (congrArg (·.stakeMeta.directedStakeMetaIndices) marks.others)
        rows.directedStakeMetaIndices
  case instantUnstake =>
      rw [pool]
      have kept : marksDone.state.instantUnstake = rowsDone.state.instantUnstake :=
        congrArg (·.state.instantUnstake) marks.others
      apply setFalse_shiftDown _ clears.instantUnstake
      show marksDone.state.instantUnstake.contains = _
      rw [kept, rows.instantUnstake, forgottenEq]
  case progress =>
      rw [pool]
      have kept : marksDone.state.progress = rowsDone.state.progress :=
        congrArg (·.state.progress) marks.others
      apply setFalse_shiftDown _ clears.progress
      show marksDone.state.progress.contains = _
      rw [kept, rows.progress, forgottenEq]
  case toRemove =>
      rw [pool, added]
      have kept : rowsDone.state.validatorsToRemove = forgotten.validatorsToRemove :=
        congrArg (·.state.validatorsToRemove) rows.others
      apply setFalse_shiftDown _ clears.toRemove
      show marksDone.state.validatorsToRemove.contains = _
      rw [marks.toRemove, kept, forgottenEq]
  case forImmediateRemoval =>
      rw [pool, added]
      have kept : rowsDone.state.validatorsForImmediateRemoval =
          forgotten.validatorsForImmediateRemoval :=
        congrArg (·.state.validatorsForImmediateRemoval) rows.others
      apply setFalse_shiftDown _ clears.forImmediateRemoval
      show marksDone.state.validatorsForImmediateRemoval.contains = _
      rw [marks.forImmediateRemoval, kept, forgottenEq]
  case scoreRanking =>
      rw [pool]
      have kept : marksDone.state.sortedScoreIndices = accounts.state.sortedScoreIndices :=
        (congrArg (·.state.sortedScoreIndices) marks.others).trans
          ((congrArg (·.state.sortedScoreIndices) rows.others).trans
            (congrArg (·.sortedScoreIndices) forgottenEq))
      exact ⟨scoreDeleted, kept ▸ scoreRank,
        congrArg (·.state.sortedScoreIndices) clears.others⟩
  case rawRanking =>
      rw [pool]
      have kept : marksDone.state.sortedRawScoreIndices =
          accounts.state.sortedRawScoreIndices :=
        (congrArg (·.state.sortedRawScoreIndices) marks.others).trans
          ((congrArg (·.state.sortedRawScoreIndices) rows.others).trans
            (congrArg (·.sortedRawScoreIndices) forgottenEq))
      exact ⟨rawDeleted, kept ▸ rawRank,
        congrArg (·.state.sortedRawScoreIndices) clears.others⟩
  case control =>
      exact (congrArg (·.state.control) clears.others).trans
        ((congrArg (·.state.control) marks.others).trans
          ((congrArg (·.state.control) rows.others).trans
            (congrArg (·.control) forgottenEq)))
  case targets =>
      exact (congrArg (·.stakeMeta.targets) clears.others).trans
        ((congrArg (·.stakeMeta.targets) marks.others).trans
          (congrArg (·.stakeMeta.targets) rows.others))
  case totalStakeTargets =>
      exact (congrArg (·.stakeMeta.totalStakeTargets) clears.others).trans
        ((congrArg (·.stakeMeta.totalStakeTargets) marks.others).trans
          (congrArg (·.stakeMeta.totalStakeTargets) rows.others))
  case directedUnstakeTotal =>
      exact (congrArg (·.stakeMeta.directedUnstakeTotal) clears.others).trans
        ((congrArg (·.stakeMeta.directedUnstakeTotal) marks.others).trans
          (congrArg (·.stakeMeta.directedUnstakeTotal) rows.others))

end Stakenet.Steward

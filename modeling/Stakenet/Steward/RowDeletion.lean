import Stakenet.Steward.RemovalEffect
import Stakenet.Steward.Maintenance

/-! When a removal is the deletion of one position from every per-validator
array. The removal marks are always deleted properly; the other eight arrays are
shifted up to the pool rows only, so the rows of validators added in the current
cycle have to be empty. -/

namespace Stakenet.Steward

/-- `next` is `old` with position `index` deleted, over the first `size` rows. -/
def IsDeletion (old next : Nat → α) (index size : Nat) (filler : α) : Prop :=
  (∀ row < index, next row = old row) ∧
  (∀ row, index ≤ row → row + 1 < size → next row = old (row + 1)) ∧
  next (size - 1) = filler

/-- The rows past the pool that a removal of `index` would have to move. When
`index` is the first such row itself, that row is overwritten anyway. -/
def DisplacedRow (numPoolValidators validatorsAdded index row : Nat) : Prop :=
  numPoolValidators ≤ row ∧ row < numPoolValidators + validatorsAdded ∧
    (row = numPoolValidators ∨ index ≤ row) ∧
    ¬(row = index ∧ index = numPoolValidators)

section Array

variable {old : Nat → α} {filler : α} {pool added index : Nat}

/-- Shifting all rows deletes the position. -/
theorem isDeletion_deleteRow (bounded : index < pool + added) :
    IsDeletion old (deleteRow old index (pool + added - 1) filler) index (pool + added)
      filler := by
  refine ⟨?_, ?_, deleteRow_bound _ _ _ _⟩
  · intro row below
    exact deleteRow_of_lt old filler below (by omega)
  · intro row atLeast inside
    exact deleteRow_of_le old filler atLeast (by omega)

/-- Once the position lies in the pool, the array is deleted up to the pool size
and the added rows stay where they are. -/
theorem isDeletion_iff_of_lt (inPool : index < pool) :
    IsDeletion old (deleteRow old index (pool - 1) filler) index (pool + added) filler ↔
      ∀ row, DisplacedRow pool added index row → old row = filler := by
  have kept : ∀ row, pool ≤ row → deleteRow old index (pool - 1) filler row = old row := by
    intro row beyond
    have apart : row ≠ pool - 1 := by omega
    have unshifted : ¬(index ≤ row ∧ row < pool - 1) := by omega
    simp [deleteRow, apart, shiftDown, unshifted]
  constructor
  · rintro ⟨_, moved, freed⟩ row ⟨beyond, inside, _⟩
    -- The filler written at the end of the pool travels along the added rows.
    induction row, beyond using Nat.le_induction with
    | base =>
        have first := moved (pool - 1) (by omega) (by omega)
        rw [deleteRow_bound, Nat.sub_add_cancel (by omega)] at first
        exact first.symm
    | succ row beyond induction =>
        have copied := moved row (by omega) (by omega)
        rw [kept row beyond] at copied
        rw [← copied]
        exact induction (by omega) ⟨by omega, by omega⟩
  · intro empty
    have emptyRow : ∀ row, pool ≤ row → row < pool + added → old row = filler := by
      intro row beyond inside
      exact empty row ⟨beyond, inside, .inr (by omega), by omega⟩
    refine ⟨?_, ?_, ?_⟩
    · intro row below
      exact deleteRow_of_lt old filler below (by omega)
    · intro row atLeast inside
      rcases Nat.lt_trichotomy row (pool - 1) with below | last | above
      · exact deleteRow_of_le old filler atLeast below
      · subst row
        rw [deleteRow_bound, Nat.sub_add_cancel (by omega)]
        exact (emptyRow pool (Nat.le_refl _) (by omega)).symm
      · rw [kept row (by omega), emptyRow row (by omega) (by omega),
          emptyRow (row + 1) (by omega) (by omega)]
    · by_cases none : added = 0
      · subst added
        exact deleteRow_bound _ _ _ _
      · rw [kept _ (by omega), emptyRow _ (by omega) (by omega)]

/-- For a position past the pool, only the first row past the pool is cleared. -/
theorem isDeletion_iff_of_le (beyondPool : pool ≤ index) (bounded : index < pool + added) :
    IsDeletion old (deleteRow old index pool filler) index (pool + added) filler ↔
      ∀ row, DisplacedRow pool added index row → old row = filler := by
  have kept : ∀ row, row ≠ pool → deleteRow old index pool filler row = old row := by
    intro row apart
    have unshifted : ¬(index ≤ row ∧ row < pool) := by omega
    simp [deleteRow, apart, shiftDown, unshifted]
  constructor
  · rintro ⟨unchanged, moved, freed⟩ row ⟨beyond, inside, affected, notSame⟩
    by_cases first : row = pool
    · have equal := unchanged pool (by omega)
      rw [deleteRow_bound] at equal
      rw [first, ← equal]
    · -- From here on every row equals the next one, and the last is the filler.
      induction remaining : pool + added - 1 - row generalizing row with
      | zero =>
          have last : row = pool + added - 1 := by omega
          rw [last]
          rw [kept _ (by omega)] at freed
          exact freed
      | succ left induction =>
          have copied := moved row (by omega) (by omega)
          rw [kept row first] at copied
          rw [copied]
          exact induction (row + 1) (by omega) (by omega) (.inr (by omega)) (by omega)
            (by omega) (by omega)
  · intro empty
    have emptyRow : ∀ row, index ≤ row → row < pool + added → row ≠ pool →
        old row = filler := by
      intro row atLeast inside apart
      exact empty row ⟨by omega, inside, .inr atLeast, by omega⟩
    refine ⟨?_, ?_, ?_⟩
    · intro row below
      by_cases first : row = pool
      · rw [first, deleteRow_bound]
        exact (empty pool ⟨Nat.le_refl _, by omega, .inl rfl, by omega⟩).symm
      · exact kept row first
    · intro row atLeast inside
      rw [emptyRow (row + 1) (by omega) inside (by omega)]
      by_cases first : row = pool
      · rw [first, deleteRow_bound]
      · rw [kept row first, emptyRow row atLeast (by omega) first]
    · by_cases first : pool + added - 1 = pool
      · rw [first, deleteRow_bound]
      · rw [kept _ first, emptyRow _ (by omega) (by omega) first]

/-- Both cases, with the bound that the removal leaves. -/
theorem isDeletion_iff (bounded : index < pool + added) :
    IsDeletion old (deleteRow old index (if pool ≤ index then pool else pool - 1) filler) index
        (pool + added) filler ↔
      ∀ row, DisplacedRow pool added index row → old row = filler := by
  by_cases beyondPool : pool ≤ index
  · rw [if_pos beyondPool]
    exact isDeletion_iff_of_le beyondPool bounded
  · rw [if_neg beyondPool]
    exact isDeletion_iff_of_lt (by omega)

end Array

/-! ## All ten arrays -/

/-- The removal of `index` deleted that position from every array. -/
structure DeletedEverywhere (accounts : Accounts) (index : Nat) (next : Accounts) : Prop where
  balances : IsDeletion accounts.state.validatorLamportBalances
    next.state.validatorLamportBalances index
    (accounts.state.numPoolValidators + accounts.state.validatorsAdded) lamportBalanceDefault
  scores : IsDeletion accounts.state.scores next.state.scores index
    (accounts.state.numPoolValidators + accounts.state.validatorsAdded) 0
  rawScores : IsDeletion accounts.state.rawScores next.state.rawScores index
    (accounts.state.numPoolValidators + accounts.state.validatorsAdded) 0
  delegations : IsDeletion accounts.state.delegations next.state.delegations index
    (accounts.state.numPoolValidators + accounts.state.validatorsAdded) .none
  instantUnstake : IsDeletion accounts.state.instantUnstake.contains
    next.state.instantUnstake.contains index
    (accounts.state.numPoolValidators + accounts.state.validatorsAdded) false
  progress : IsDeletion accounts.state.progress.contains next.state.progress.contains index
    (accounts.state.numPoolValidators + accounts.state.validatorsAdded) false
  toRemove : IsDeletion accounts.state.validatorsToRemove.contains
    next.state.validatorsToRemove.contains index
    (accounts.state.numPoolValidators + accounts.state.validatorsAdded) false
  forImmediateRemoval : IsDeletion accounts.state.validatorsForImmediateRemoval.contains
    next.state.validatorsForImmediateRemoval.contains index
    (accounts.state.numPoolValidators + accounts.state.validatorsAdded) false
  directedStakeLamports : IsDeletion accounts.stakeMeta.directedStakeLamports
    next.stakeMeta.directedStakeLamports index
    (accounts.state.numPoolValidators + accounts.state.validatorsAdded) 0
  directedStakeMetaIndices : IsDeletion accounts.stakeMeta.directedStakeMetaIndices
    next.stakeMeta.directedStakeMetaIndices index
    (accounts.state.numPoolValidators + accounts.state.validatorsAdded) metaIndexDefault

/-- A row nobody has written yet, the removal marks apart. -/
structure EmptyRow (accounts : Accounts) (row : Nat) : Prop where
  balance : accounts.state.validatorLamportBalances row = lamportBalanceDefault
  score : accounts.state.scores row = 0
  rawScore : accounts.state.rawScores row = 0
  delegation : accounts.state.delegations row = .none
  instantUnstake : accounts.state.instantUnstake.contains row = false
  progress : accounts.state.progress.contains row = false
  directedStakeLamports : accounts.stakeMeta.directedStakeLamports row = 0
  directedStakeMetaIndex : accounts.stakeMeta.directedStakeMetaIndices row = metaIndexDefault

/-- A removal deletes its position everywhere exactly when the displaced rows of
added validators are empty. -/
theorem removeValidator_deletedEverywhere_iff {accounts next : Accounts} {index : Nat}
    (removing : removeValidator accounts index = .ok next) :
    DeletedEverywhere accounts index next ↔
      ∀ row, DisplacedRow accounts.state.numPoolValidators accounts.state.validatorsAdded
        index row → EmptyRow accounts row := by
  have removed := removed_of_removeValidator removing
  have bounded := removed.bounded
  have pool := removed.numPoolValidators
  have size : next.state.numPoolValidators + next.state.validatorsAdded =
      accounts.state.numPoolValidators + accounts.state.validatorsAdded - 1 := by
    rw [removed.numPoolValidators, removed.validatorsAdded]
    split <;> omega
  constructor
  · intro deleted row displaced
    have array {α : Type} {old new : Nat → α} {filler : α}
        (shape : new = deleteRow old index next.state.numPoolValidators filler)
        (deletion : IsDeletion old new index
          (accounts.state.numPoolValidators + accounts.state.validatorsAdded) filler) :
        old row = filler := by
      rw [shape, pool] at deletion
      exact (isDeletion_iff bounded).mp deletion row displaced
    exact {
      balance := array removed.balances deleted.balances
      score := array removed.scores deleted.scores
      rawScore := array removed.rawScores deleted.rawScores
      delegation := array removed.delegations deleted.delegations
      instantUnstake := array removed.instantUnstake deleted.instantUnstake
      progress := array removed.progress deleted.progress
      directedStakeLamports :=
        array removed.directedStakeLamports deleted.directedStakeLamports
      directedStakeMetaIndex :=
        array removed.directedStakeMetaIndices deleted.directedStakeMetaIndices }
  · intro empty
    have array {α : Type} {old new : Nat → α} {filler : α}
        (shape : new = deleteRow old index next.state.numPoolValidators filler)
        (cleared : ∀ row, EmptyRow accounts row → old row = filler) :
        IsDeletion old new index
          (accounts.state.numPoolValidators + accounts.state.validatorsAdded) filler := by
      rw [shape, pool]
      exact (isDeletion_iff bounded).mpr fun row displaced => cleared row (empty row displaced)
    have marks {old new : Nat → Bool}
        (shape : new = deleteRow old index
          (next.state.numPoolValidators + next.state.validatorsAdded) false) :
        IsDeletion old new index
          (accounts.state.numPoolValidators + accounts.state.validatorsAdded) false := by
      rw [shape, size]
      exact isDeletion_deleteRow bounded
    exact {
      balances := array removed.balances fun _ row => row.balance
      scores := array removed.scores fun _ row => row.score
      rawScores := array removed.rawScores fun _ row => row.rawScore
      delegations := array removed.delegations fun _ row => row.delegation
      instantUnstake := array removed.instantUnstake fun _ row => row.instantUnstake
      progress := array removed.progress fun _ row => row.progress
      toRemove := marks removed.toRemove
      forImmediateRemoval := marks removed.forImmediateRemoval
      directedStakeLamports :=
        array removed.directedStakeLamports fun _ row => row.directedStakeLamports
      directedStakeMetaIndices :=
        array removed.directedStakeMetaIndices fun _ row => row.directedStakeMetaIndex }

/-- Two pool validators, the first one marked for removal. -/
def markedPool : Accounts where
  state := { ReallocState.initialState 2 10 0 with
    sortedScoreIndices := fun position => if position < 2 then position else sortedIndexDefault
    sortedRawScoreIndices := fun position =>
      if position < 2 then position else sortedIndexDefault
    validatorsToRemove := ⟨fun word => if word = 0 then 1 else 0⟩ }
  stakeMeta := .initial

theorem removeValidator_deletedEverywhere_markedPool :
    ∃ next, removeValidator markedPool 0 = .ok next ∧ DeletedEverywhere markedPool 0 next := by
  have succeeded : (removeValidator markedPool 0).isOk = true := by decide +kernel
  rcases Outcome.exists_eq_ok succeeded with ⟨next, removing⟩
  refine ⟨next, removing, (removeValidator_deletedEverywhere_iff removing).mpr ?_⟩
  rintro row ⟨beyond, inside, _⟩
  have noneAdded : markedPool.state.validatorsAdded = 0 := rfl
  omega

/-- One pool validator marked for removal, and one validator added since, on
which 500 lamports of directed stake were put. -/
def markedBeforeAdded : Accounts where
  state := { ReallocState.initialState 1 10 0 with
    validatorLamportBalances := fun row => if row = 1 then 500 else lamportBalanceDefault
    sortedScoreIndices := fun position => if position = 0 then 0 else sortedIndexDefault
    sortedRawScoreIndices := fun position => if position = 0 then 0 else sortedIndexDefault
    validatorsToRemove := ⟨fun word => if word = 0 then 1 else 0⟩
    validatorsAdded := 1 }
  stakeMeta := { DirectedStakeMeta.initial with
    totalStakeTargets := 1
    targets := fun index => if index = 0 then ⟨1, 500, 500, 0, 0⟩ else .none
    directedStakeLamports := fun row => if row = 1 then 500 else 0
    directedStakeMetaIndices := fun row => if row = 1 then 0 else metaIndexDefault }

/-- The removal loses the directed stake of the added validator. -/
theorem removeValidator_not_deletedEverywhere_markedBeforeAdded :
    ∃ next, removeValidator markedBeforeAdded 0 = .ok next ∧
      ¬DeletedEverywhere markedBeforeAdded 0 next := by
  have succeeded : (removeValidator markedBeforeAdded 0).isOk = true := by decide +kernel
  rcases Outcome.exists_eq_ok succeeded with ⟨next, removing⟩
  refine ⟨next, removing, fun deleted => ?_⟩
  have removed := removed_of_removeValidator removing
  have pool : next.state.numPoolValidators = 0 := removed.numPoolValidators
  have moved := deleted.directedStakeLamports.2.1 0 (Nat.le_refl 0) (by decide)
  rw [removed.directedStakeLamports, pool, deleteRow_bound] at moved
  exact absurd moved (by decide)

end Stakenet.Steward

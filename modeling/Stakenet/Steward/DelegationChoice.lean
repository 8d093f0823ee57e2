import Mathlib.Data.Nat.Count
import Stakenet.Steward.Shares

/-! Which rows of a scored pool are delegated to. -/

namespace Stakenet.Steward

variable {state : StewardStateV2} {config : Config} {scores ranking : Nat → Nat}
variable {length limit : Nat}

/-! ## The cut of a ranking -/

/-- Number of rows with a score. -/
def eligible (scores : Nat → Nat) (length : Nat) : Nat :=
  Nat.count (fun row => scores row ≠ 0) length

/-- A ranking by falling scores names every row once. -/
structure RankedByScore (scores ranking : Nat → Nat) (length : Nat) : Prop where
  permutation : ((List.range length).map ranking).Perm (List.range length)
  sorted : ((List.range length).map ranking).Pairwise
    fun first second => scores second ≤ scores first

theorem eligible_le (scores : Nat → Nat) (length : Nat) : eligible scores length ≤ length :=
  Nat.count_le _

theorem eligible_lt_iff : eligible scores length < length ↔ ∃ row < length, scores row = 0 := by
  have all : eligible scores length = length ↔ ∀ row < length, scores row ≠ 0 :=
    Nat.count_iff_forall
  have bound : eligible scores length ≤ length := eligible_le scores length
  constructor
  · intro missing
    by_contra nowhere
    push Not at nowhere
    exact missing.ne (all.mpr nowhere)
  · rintro ⟨row, inPool, zero⟩
    apply Nat.lt_of_le_of_ne bound
    intro same
    exact all.mp same row inPool zero

namespace RankedByScore

variable (ranked : RankedByScore scores ranking length)
include ranked

theorem bounded {position : Nat} (inside : position < length) : ranking position < length := by
  apply List.mem_range.mp
  apply ranked.permutation.subset
  exact List.mem_map_of_mem (List.mem_range.mpr inside)

theorem falling {low high : Nat} (below : low < high) (inside : high < length) :
    scores (ranking high) ≤ scores (ranking low) := by
  have sorted := ranked.sorted
  rw [List.pairwise_map] at sorted
  have positions := List.pairwise_iff_getElem.mp sorted low high
    (by simp; omega) (by simpa using inside) below
  simpa using positions

/-- The rows with a score can be counted along the ranking. -/
theorem count_positions :
    Nat.count (fun position => scores (ranking position) ≠ 0) length =
      eligible scores length := by
  have counted := ranked.permutation.countP_eq fun row => decide (scores row ≠ 0)
  rw [List.countP_map] at counted
  exact counted

/-- They come first, so that the first zero score is behind all of them. -/
theorem eligible_eq {cut : Nat} (inside : cut ≤ length)
    (before : ∀ position < cut, scores (ranking position) ≠ 0)
    (zero : cut < length → scores (ranking cut) = 0) : eligible scores length = cut := by
  rcases Nat.le.dest inside with ⟨behind, whole⟩
  have after : ∀ offset < behind, ¬scores (ranking (cut + offset)) ≠ 0 := by
    intro offset upTo
    have cutZero := zero (by omega)
    by_cases first : offset = 0
    · simpa [first] using cutZero
    · have lower := ranked.falling (show cut < cut + offset by omega) (by omega)
      omega
  calc eligible scores length
      = Nat.count (fun position => scores (ranking position) ≠ 0) (cut + behind) := by
        rw [whole, ranked.count_positions]
    _ = cut + 0 := by
        rw [Nat.count_add, Nat.count_of_forall fun position upTo => before position upTo,
          Nat.count_of_forall_not fun offset upTo => after offset upTo]
    _ = cut := Nat.add_zero cut

/-- What the selection returns: the first rows with a score, at most as many as
allowed. If every row has a score and fewer are there than allowed, the slice of the
ranking goes out of bounds. -/
theorem selectValidatorsToDelegate_eq :
    selectValidatorsToDelegate scores ranking length limit =
      if eligible scores length < length ∨ limit ≤ length then
        .ok ((List.range (min (eligible scores length) limit)).map ranking)
      else
        .error .panicked := by
  have total : ∀ position, 0 ≤ position → position < 0 + length →
      ∃ outcome, (if ranking position < length then
        .ok (scores (ranking position) == 0) else .error .panicked : Result Bool) = .ok outcome :=
    fun position _ inside => ⟨_, if_pos (ranked.bounded (by omega))⟩
  rcases findPosition.succeeds total with ⟨firstZero, searched⟩
  cases firstZero with
  | some cut =>
      rcases findPosition.eq_some searched with ⟨_, inside, found, before⟩
      have inPool : cut < length := by omega
      rw [if_pos (ranked.bounded inPool), Except.ok.injEq, beq_iff_eq] at found
      have positive : ∀ position < cut, scores (ranking position) ≠ 0 := by
        intro position upTo
        have tested := before position (Nat.zero_le _) upTo
        rw [if_pos (ranked.bounded (by omega)), Except.ok.injEq, beq_eq_false_iff_ne] at tested
        exact tested
      have counted : eligible scores length = cut :=
        ranked.eligible_eq inPool.le positive fun _ => found
      have short : ¬length < min cut limit := by omega
      have selectable : cut < length ∨ limit ≤ length := .inl inPool
      rw [counted, if_pos selectable]
      simp only [selectValidatorsToDelegate, searched, Outcome.ok_bind, Option.getD_some,
        if_neg short]
      rfl
  | none =>
      have missing := findPosition.eq_none searched
      have positive : ∀ position < length, scores (ranking position) ≠ 0 := by
        intro position inside
        have tested := missing position (Nat.zero_le _) (by omega)
        rw [if_pos (ranked.bounded inside), Except.ok.injEq, beq_eq_false_iff_ne] at tested
        exact tested
      have counted : eligible scores length = length :=
        ranked.eligible_eq (Nat.le_refl _) positive fun absurd => by omega
      by_cases enough : limit ≤ length
      · have short : ¬length < min limit limit := by omega
        have least : min length limit = min limit limit := by omega
        simp only [selectValidatorsToDelegate, searched, Outcome.ok_bind, Option.getD_none,
          if_neg short, counted, enough, or_true, if_true, least]
        rfl
      · have long : length < min limit limit := by omega
        simp only [selectValidatorsToDelegate, searched, Outcome.ok_bind, Option.getD_none,
          if_pos long, counted, enough, Nat.lt_irrefl, or_false, if_false]
        rfl

end RankedByScore

/-! ## Delegations -/

/-- The rows to delegate to: the first of the ranking that have a score, at most as many
as configured. -/
def topRows (state : StewardStateV2) (config : Config) : List Nat :=
  (List.range (min config.parameters.numDelegationValidators
    (eligible state.scores state.numPoolValidators))).map state.sortedScoreIndices

/-- Delegations are computed, and the top rows share the pool in equal parts. All other
rows are left as they are, without a share in a new cycle. -/
def DelegatesTop (state : StewardStateV2) (currentEpoch : Nat) (config : Config) : Prop :=
  ∃ next, state.computeDelegations currentEpoch config = .ok next ∧
    ∀ row, next.delegations row =
      if row ∈ topRows state config then ⟨1, (topRows state config).length⟩
      else state.delegations row

/-- The computation fails exactly if all of the pool could be delegated to, and this
is less than what is configured. -/
theorem computeDelegations_delegatesTop_iff {currentEpoch : Nat}
    (bounded : state.numPoolValidators ≤ maxValidators)
    (ranked : RankedByScore state.scores state.sortedScoreIndices state.numPoolValidators)
    (delegating : state.stateTag = .computeDelegations)
    (running : currentEpoch < state.nextCycleEpoch) :
    DelegatesTop state currentEpoch config ↔
      (∃ row < state.numPoolValidators, state.scores row = 0) ∨
        config.parameters.numDelegationValidators ≤ state.numPoolValidators := by
  have selection : selectValidatorsToDelegate state.scores state.sortedScoreIndices
      state.numPoolValidators config.parameters.numDelegationValidators = _ :=
    ranked.selectValidatorsToDelegate_eq
  have top : (List.range (min (eligible state.scores state.numPoolValidators)
      config.parameters.numDelegationValidators)).map state.sortedScoreIndices =
        topRows state config := by
    rw [topRows, Nat.min_comm]
  rw [top] at selection
  rw [← eligible_lt_iff]
  constructor
  · rintro ⟨next, computed, _⟩
    by_contra beyond
    rw [if_neg beyond] at selection
    simp [StewardStateV2.computeDelegations, delegating, Nat.not_le.mpr running,
      Nat.not_lt.mpr bounded, selection] at computed
  · intro selectable
    rw [if_pos selectable] at selection
    have members : ∀ row ∈ topRows state config, row < maxValidators := by
      intro row member
      rcases List.mem_map.mp member with ⟨position, inside, rfl⟩
      have upTo := List.mem_range.mp inside
      have scored := eligible_le state.scores state.numPoolValidators
      exact (ranked.bounded (by omega)).trans_le bounded
    rcases foldlM_writeRow_succeeds ⟨1, (topRows state config).length⟩ members
      state.delegations with ⟨written, writing⟩
    have shares := foldlM_writeRow_eq_ok writing
    refine ⟨{ state with delegations := written }.setFlag computeDelegationsFlag, ?_, ?_⟩
    · simp only [StewardStateV2.computeDelegations, if_pos delegating,
        if_neg (Nat.not_le.mpr running), if_neg (Nat.not_lt.mpr bounded), selection, writing,
        Outcome.ok_bind]
      rfl
    · intro row
      exact congrFun shares row

/-! A pool of two validators with these scores, the second one ranked first. -/

def scoredPair (first second : Nat) : StewardStateV2 :=
  { ReallocState.initialState 2 10 0 with
    stateTag := .computeDelegations
    scores := fun row => if row = 0 then first else second
    sortedScoreIndices := fun position => 1 - position }

def delegationConfig (numDelegationValidators : Nat) : Config :=
  ⟨{ Parameters.fixture with numDelegationValidators := numDelegationValidators }, false⟩

theorem scoredPair_ranked {first second : Nat} (ordered : first ≤ second) :
    RankedByScore (scoredPair first second).scores (scoredPair first second).sortedScoreIndices
      (scoredPair first second).numPoolValidators := by
  refine ⟨(by decide : [1, 0].Perm [0, 1]), ?_⟩
  change List.Pairwise _ [1, 0]
  simp [scoredPair, ordered]

theorem computeDelegations_delegatesTop_oneEligible :
    DelegatesTop (scoredPair 0 7) 1 (delegationConfig 200) :=
  (computeDelegations_delegatesTop_iff (by decide) (scoredPair_ranked (by decide)) rfl
    (by decide)).mpr (.inl ⟨0, by decide, rfl⟩)

/-- With the default configuration a pool of two eligible validators is not delegated to. -/
theorem not_computeDelegations_delegatesTop :
    (delegationConfig 200).parameters.Accepted ∧
      RankedByScore (scoredPair 5 7).scores (scoredPair 5 7).sortedScoreIndices 2 ∧
      (scoredPair 5 7).computeDelegations 1 (delegationConfig 200) = .error .panicked ∧
      ¬DelegatesTop (scoredPair 5 7) 1 (delegationConfig 200) := by
  have panics : (scoredPair 5 7).computeDelegations 1 (delegationConfig 200) =
      .error .panicked := by rfl
  refine ⟨⟨0, 1, 1000, by decide +kernel⟩, scoredPair_ranked (by decide), panics, ?_⟩
  rintro ⟨next, computed, _⟩
  rw [panics] at computed
  cases computed

end Stakenet.Steward

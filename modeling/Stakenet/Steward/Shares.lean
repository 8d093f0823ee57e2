import Mathlib.Algebra.Order.BigOperators.Group.Finset
import Stakenet.Steward.PoolRanking

/-! Delegation shares never promise more than the pool has.

The delegated rows hold equal shares at all times. Redistribution keeps the
shares complete, and a removal can only leave part of the pool unassigned. -/

namespace Stakenet.Steward

open Stakenet.Execution

variable {state middle next : StewardStateV2} {rows : Finset Nat} {parts index : Nat}

/-! ## Equal shares -/

/-- One share of `1 / parts` for each of the rows. -/
def equalShares (rows : Finset Nat) (parts : Nat) : Nat → Delegation := fun row =>
  if row ∈ rows then ⟨1, parts⟩ else .none

theorem equalShares_empty (parts : Nat) : equalShares ∅ parts = fun _ => .none := by
  funext row
  simp [equalShares]

@[simp] theorem equalShares_numerator_pos {row : Nat} :
    0 < (equalShares rows parts row).numerator ↔ row ∈ rows := by
  unfold equalShares
  split <;> simp_all [Delegation.none]

/-! ## What the program does to shares -/

theorem foldlM_writeRow_eq_ok {selected : List Nat} {value : Delegation}
    {delegations written : Nat → Delegation}
    (writing : selected.foldlM (fun delegations row => writeRow delegations row value)
      delegations = .ok written) :
    written = fun row => if row ∈ selected then value else delegations row := by
  induction selected generalizing delegations with
  | nil =>
      cases writing
      simp
  | cons first rest induction =>
      rw [List.foldlM_cons, Outcome.bind_eq_ok] at writing
      rcases writing with ⟨following, first_written, writing⟩
      rw [writeRow_eq_ok] at first_written
      rw [induction writing, ← first_written.2]
      funext row
      by_cases same : row = first
      · subst row
        simp
      · simp [same]

/-- Only rows of the pool are selected, in the order of the ranking. -/
theorem selectValidatorsToDelegate_eq_ok {scores ranking : Nat → Nat} {length limit : Nat}
    {selected : List Nat}
    (selecting : selectValidatorsToDelegate scores ranking length limit = .ok selected) :
    ∃ count ≤ length, selected = (List.range count).map ranking ∧
      ∀ position < count, ranking position < length := by
  simp only [selectValidatorsToDelegate, Outcome.bind_eq_ok] at selecting
  rcases selecting with ⟨firstZero, searched, selecting⟩
  split at selecting
  case isTrue => simp at selecting
  case isFalse short =>
      simp only [Outcome.pure_eq_ok] at selecting
      rcases selecting with ⟨_, _, rfl⟩
      refine ⟨_, Nat.le_of_not_lt short, rfl, fun position bounded => ?_⟩
      cases firstZero with
      | none =>
          have tested := findPosition.eq_none searched position (Nat.zero_le _) (by omega)
          by_contra outside
          simp [outside] at tested
      | some first =>
          rw [Option.getD_some] at bounded
          rcases findPosition.eq_some searched with ⟨_, _, _, before⟩
          have tested := before position (Nat.zero_le _) (by omega)
          by_contra outside
          simp [outside] at tested

/-- A share once another validator has lost its own. -/
def lowerShare (delegation : Delegation) : Delegation :=
  if 0 < delegation.numerator then
    { delegation with denominator := max (delegation.denominator - 1) 1 }
  else delegation

theorem forRange_lowerDenominator {delegations lowered : Nat → Delegation} {start stop : Nat}
    (lowering : forRange start stop lowerDenominator delegations = .ok lowered) :
    lowered = fun row =>
      if start ≤ row ∧ row < stop then lowerShare (delegations row) else delegations row := by
  rcases Nat.le_total start stop with bounded | empty
  · apply forRange.invariant
      (fun reached current => current = fun row =>
        if start ≤ row ∧ row < reached then lowerShare (delegations row) else delegations row)
      bounded _ _ lowering
    · funext row
      exact (if_neg (by omega)).symm
    · intro row current following started _ reached written
      simp only [lowerDenominator, Outcome.bind_eq_ok, readRow_eq_ok] at written
      rcases written with ⟨_, ⟨_, rfl⟩, written⟩
      have unread : current row = delegations row := by
        rw [reached]
        exact if_neg (by omega)
      have updated : following = Function.update current row (lowerShare (delegations row)) := by
        rw [unread] at written
        unfold lowerShare
        split at written
        case isTrue shared =>
            rw [if_pos shared, ← (writeRow_eq_ok.mp written).2]
        case isFalse unshared =>
            rw [if_neg unshared, ← unread, Function.update_eq_self]
            exact (Outcome.pure_eq_ok.mp written).symm
      rw [updated, reached]
      funext other
      by_cases same : other = row
      · subst other
        rw [Function.update_self, if_pos ⟨started, Nat.lt_succ_self _⟩]
      · rw [Function.update_of_ne same]
        have unaffected : (start ≤ other ∧ other < row) ↔
            (start ≤ other ∧ other < row + 1) := by omega
        simp only [unaffected]
  · rw [forRange.of_le empty] at lowering
    cases lowering
    funext row
    exact (if_neg (by omega)).symm

/-- The others divide the pool among themselves. -/
theorem redistributeDelegation_equalShares {pool : Nat} {delegations : Nat → Delegation}
    (inPool : ∀ row ∈ rows, row < pool)
    (redistributed : redistributeDelegation (equalShares rows parts) index pool =
      .ok delegations) :
    delegations = equalShares (rows.erase index) (max (parts - 1) 1) := by
  simp only [redistributeDelegation, Outcome.bind_eq_ok] at redistributed
  rcases redistributed with ⟨before, loweredBefore, after, loweredAfter, cleared⟩
  rw [← (writeRow_eq_ok.mp cleared).2, forRange_lowerDenominator loweredAfter,
    forRange_lowerDenominator loweredBefore]
  funext row
  by_cases same : row = index
  · subst row
    simp [equalShares]
  rw [Function.update_of_ne same]
  beta_reduce
  by_cases member : row ∈ rows
  · have bounded := inPool row member
    rcases Nat.lt_or_gt_of_ne same with below | above
    · rw [if_neg (by omega), if_pos ⟨Nat.zero_le _, below⟩]
      simp [equalShares, lowerShare, member, same]
    · rw [if_pos ⟨above, bounded⟩, if_neg (by omega)]
      simp [equalShares, lowerShare, member, same]
  · simp [equalShares, lowerShare, member, Delegation.none]

/-! ## The invariant -/

/-- The rows share the pool, and there are not more of them than parts. -/
structure SharedBy (state : StewardStateV2) (rows : Finset Nat) (parts : Nat) : Prop where
  positive : 1 ≤ parts
  delegations : state.delegations = equalShares rows parts
  inPool : ∀ row ∈ rows, row < state.numPoolValidators
  valid : ∀ row ∈ rows, row < maxValidators
  within : rows.card ≤ parts

/-- Whoever asks for `exact` shares has every part assigned, as long as any is. -/
def Shared (exact : Prop) (state : StewardStateV2) : Prop :=
  ∃ rows parts, SharedBy state rows parts ∧ (exact → rows.card = parts ∨ rows.card = 0)

namespace Shared

variable {exact : Prop}

theorem keep (shared : Shared exact state) (delegations : next.delegations = state.delegations)
    (pool : next.numPoolValidators = state.numPoolValidators) : Shared exact next := by
  rcases shared with ⟨rows, parts, ⟨positive, shares, inPool, valid, within⟩, complete⟩
  exact ⟨rows, parts, ⟨positive, delegations.trans shares, pool ▸ inPool, valid, within⟩,
    complete⟩

theorem clear (delegations : state.delegations = fun _ => .none) : Shared exact state := by
  refine ⟨∅, 1, ⟨Nat.le_refl 1, ?_, by simp, by simp, by simp⟩, fun _ => .inr rfl⟩
  rw [delegations, equalShares_empty]

/-- Every selected validator gets a share; a validator selected twice gets one
share all the same. -/
theorem delegate {currentEpoch : Nat} {config : Config}
    (unassigned : state.delegations = fun _ => .none)
    (distinct : exact → ∀ first < state.numPoolValidators, ∀ second < state.numPoolValidators,
      state.sortedScoreIndices first = state.sortedScoreIndices second → first = second)
    (computed : state.computeDelegations currentEpoch config = .ok next) : Shared exact next := by
  rcases computeDelegations_cases computed with
    ⟨_, _, capacity, selected, delegations, selecting, writing, rfl⟩
  rcases selectValidatorsToDelegate_eq_ok selecting with ⟨count, enough, rfl, inPool⟩
  have written := foldlM_writeRow_eq_ok writing
  rw [unassigned, List.length_map, List.length_range] at written
  cases count with
  | zero =>
      apply clear
      exact written.trans (by simp)
  | succ count =>
      have members : ∀ row ∈ ((List.range (count + 1)).map state.sortedScoreIndices).toFinset,
          row < state.numPoolValidators := by
        intro row member
        rcases List.mem_map.mp (List.mem_toFinset.mp member) with ⟨position, inRange, rfl⟩
        exact inPool position (List.mem_range.mp inRange)
      refine ⟨((List.range (count + 1)).map state.sortedScoreIndices).toFinset, count + 1,
        ⟨Nat.le_add_left 1 count, ?_, members,
          fun row member => (members row member).trans_le capacity, ?_⟩, ?_⟩
      · refine written.trans ?_
        funext row
        simp only [equalShares, List.mem_toFinset]
      · have selectedTwice := List.toFinset_card_le
          ((List.range (count + 1)).map state.sortedScoreIndices)
        rwa [List.length_map, List.length_range] at selectedTwice
      · intro wanted
        left
        rw [List.toFinset_card_of_nodup, List.length_map, List.length_range]
        apply List.nodup_range.map_on
        intro first firstMember second secondMember
        rw [List.mem_range] at firstMember secondMember
        exact distinct wanted first (by omega) second (by omega)

theorem redistribute (shared : Shared exact state)
    (shared_index : 0 < (state.delegations index).numerator)
    (redistributed : redistributeDelegation state.delegations index state.numPoolValidators =
      .ok next.delegations)
    (pool : next.numPoolValidators = state.numPoolValidators) : Shared exact next := by
  rcases shared with ⟨rows, parts, ⟨positive, shares, inPool, valid, within⟩, complete⟩
  rw [shares] at shared_index redistributed
  have member := equalShares_numerator_pos.mp shared_index
  have erased := Finset.card_erase_add_one member
  refine ⟨rows.erase index, max (parts - 1) 1, ⟨Nat.le_max_right _ _,
    redistributeDelegation_equalShares inPool redistributed, ?_, ?_, by omega⟩, ?_⟩
  · rw [pool]
    exact fun row kept => inPool row (Finset.mem_of_mem_erase kept)
  · exact fun row kept => valid row (Finset.mem_of_mem_erase kept)
  · intro wanted
    have exactly := complete wanted
    omega

/-- Removing a validator leaves its part unassigned. -/
theorem remove {accounts following : Accounts} (shared : Shared exact accounts.state)
    (unshared : exact → (accounts.state.delegations index).numerator = 0)
    (removed : Removed accounts index following) : Shared exact following.state := by
  rcases shared with ⟨rows, parts, ⟨positive, shares, inPool, valid, within⟩, complete⟩
  have shrunk := poolShrunk_of_removed removed
  have renamed : ((rows.erase index).image (lowered index)).card = (rows.erase index).card :=
    Finset.card_image_of_injOn (lowered_injOn index rows)
  have fewer : (rows.erase index).card ≤ rows.card := Finset.card_erase_le
  refine ⟨(rows.erase index).image (lowered index), parts, ⟨positive, ?_, ?_, ?_, by omega⟩,
    ?_⟩
  · rw [removed.delegations, shares]
    exact shrunk.deleteRow_ite inPool (⟨1, parts⟩ : Delegation) Delegation.none
  · intro row member
    rcases Finset.mem_image.mp member with ⟨original, kept, rfl⟩
    rcases Finset.mem_erase.mp kept with ⟨other, member⟩
    exact shrunk.lowered_lt (inPool original member) other
  · intro row member
    rcases Finset.mem_image.mp member with ⟨original, kept, rfl⟩
    have bounded := valid original (Finset.mem_of_mem_erase kept)
    unfold lowered
    split <;> omega
  · intro wanted
    have notMember : index ∉ rows := by
      intro member
      have sharing : 0 < (equalShares rows parts index).numerator :=
        equalShares_numerator_pos.mpr member
      rw [← shares, unshared wanted] at sharing
      exact absurd sharing (Nat.lt_irrefl 0)
    rw [renamed, Finset.erase_eq_of_notMem notMember]
    exact complete wanted

end Shared

/-- What holds of the shares between transactions: they are assigned in one go. -/
structure SharesSound (exact : Prop) (state : StewardStateV2) : Prop where
  shared : Shared exact state
  unassigned : state.stateTag = .computeDelegations → state.delegations = fun _ => .none

/-- What holds of them when a crank has done its work. -/
structure SharesWorked (exact : Prop) (state : StewardStateV2) : Prop where
  shared : Shared exact state
  assigned : state.stateTag = .computeDelegations →
    state.hasFlag computeDelegationsFlag = false → state.delegations = fun _ => .none

/-- Exact shares need distinct validators. -/
def DistinctRanking (state : StewardStateV2) : Prop :=
  state.stateTag = .computeDelegations →
    ∀ first < state.numPoolValidators, ∀ second < state.numPoolValidators,
      state.sortedScoreIndices first = state.sortedScoreIndices second → first = second

theorem RankingSound.distinctRanking (sound : RankingSound state) : DistinctRanking state := by
  intro delegating first firstInPool second secondInPool same
  have ranked := (sound.complete (sound.delegating delegating)).byScore
  rw [Finset.card_range] at ranked
  exact ranked.injective first second firstInPool secondInPool same

theorem sharesWorked_of_computeDelegations {exact : Prop} {currentEpoch : Nat} {config : Config}
    (unassigned : state.delegations = fun _ => .none)
    (distinct : exact → DistinctRanking state)
    (computed : state.computeDelegations currentEpoch config = .ok next) :
    SharesWorked exact next := by
  rcases computeDelegations_cases computed with ⟨tag, _, _, _, _, _, _, written⟩
  refine ⟨.delegate unassigned (fun wanted => distinct wanted tag) computed, ?_⟩
  intro _ unflagged
  rw [written] at unflagged
  simp [StewardStateV2.hasFlag_eq] at unflagged

namespace SharesSound

variable {exact : Prop}

theorem of_unassigned (delegations : state.delegations = fun _ => .none) :
    SharesSound exact state :=
  ⟨.clear delegations, fun _ => delegations⟩

theorem worked (sound : SharesSound exact state) : SharesWorked exact state :=
  ⟨sound.shared, fun delegating _ => sound.unassigned delegating⟩

theorem rebalance {call : RebalanceCall} {rebalanceType : RebalanceType}
    (sound : SharesSound exact state)
    (rebalancing : state.rebalance call = .ok (next, rebalanceType)) : Shared exact next := by
  rcases (rebalance_cases rebalancing).2.2 with
    ⟨_, rfl, _⟩ | ⟨_, marked, _⟩ | ⟨_, terms, applied, rebalanced⟩
  · exact sound.shared
  · rcases markProgress_eq_ok.mp marked with ⟨progress, _, rfl⟩
    exact sound.shared.keep rfl rfl
  · rcases markProgress_eq_ok.mp rebalanced.marked with ⟨progress, _, rfl⟩
    have pool : applied.numPoolValidators = state.numPoolValidators :=
      congrArg (·.numPoolValidators) rebalanced.effect.others
    rcases rebalanced.effect.delegations with kept | ⟨sharing, redistributed⟩
    · exact sound.shared.keep kept pool
    · exact sound.shared.redistribute sharing redistributed pool

theorem score {clock : Clock} {epochSchedule : EpochSchedule} {validator : ValidatorHistory}
    {cluster : ClusterHistory} {config : Config} {length : Nat}
    {validatorScore : Result ScoreComponents} {components : Option ScoreComponents}
    (sound : SharesSound exact state)
    (computed : state.computeScore clock epochSchedule validator index cluster config length
      validatorScore = .ok (next, components)) : Shared exact next := by
  rcases computeScore_cases computed with ⟨_, started, starting, cases⟩
  have ready : Shared exact started := by
    rcases startScoring_cases starting with ⟨_, rfl⟩ | ⟨_, restarting⟩
    · exact sound.shared
    · rcases restartScoring_eq_ok restarting with ⟨reset, effect, _, rfl⟩
      exact .clear (congrArg (·.delegations) effect.others)
  rcases cases with ⟨_, rfl⟩ | ⟨_, score, rawScore, recorded⟩
  · exact ready
  · exact ready.keep (congrArg (·.delegations) recorded.others)
      (congrArg (·.numPoolValidators) recorded.others)

theorem work {transaction : Transaction} (sound : SharesSound exact state)
    (distinct : exact → DistinctRanking state) (worked : Work transaction state middle) :
    SharesWorked exact middle := by
  have sameTag := worked.steady.1
  cases worked with
  | keep => exact sound.worked
  | score inputs components _ tag _ _ computed =>
      refine ⟨sound.score computed, fun delegating => ?_⟩
      simp [sameTag, tag] at delegating
  | delegate tag computed =>
      exact sharesWorked_of_computeDelegations (sound.unassigned tag) distinct computed
  | instantUnstake inputs verdict tag computed =>
      have others := computeInstantUnstake_others computed
      refine ⟨sound.shared.keep (congrArg (·.delegations) others)
        (congrArg (·.numPoolValidators) others), fun delegating => ?_⟩
      simp [sameTag, tag] at delegating
  | rebalance call rebalanceType tag rebalancing =>
      refine ⟨sound.rebalance rebalancing, fun delegating => ?_⟩
      simp [sameTag, tag] at delegating
  | skipTransient index tag marked =>
      rcases markProgress_eq_ok.mp marked with ⟨progress, _, rfl⟩
      exact ⟨sound.shared.keep rfl rfl, fun delegating _ => sound.unassigned delegating⟩
  | directed balances complete =>
      exact ⟨sound.shared.keep rfl rfl, fun delegating _ => sound.unassigned delegating⟩

/-- Complete scores clear the shares, and the state that assigns them is left at
once. -/
theorem move {clock : Clock} {parameters : Parameters} {progress : ℚ}
    (worked : SharesWorked exact state) (moved : Move clock parameters progress state next) :
    SharesSound exact next := by
  have rolled := state.rollOverCycle_others clock.epoch
  have rolledPool : (state.rolledOver clock).numPoolValidators = state.numPoolValidators :=
    congrArg (·.numPoolValidators) rolled
  have rolledDelegations : (state.rolledOver clock).delegations = state.delegations :=
    congrArg (·.delegations) rolled
  cases moved with
  | stay notIdle pending =>
      exact ⟨worked.shared, fun delegating => worked.assigned delegating (pending delegating)⟩
  | scoresComplete => exact .of_unassigned rfl
  | delegationsComplete => exact ⟨worked.shared.keep rfl rfl, by simp⟩
  | startScoring =>
      exact ⟨worked.shared.keep rolledDelegations rolledPool, by simp⟩
  | startInstantUnstake =>
      exact ⟨worked.shared.keep rolledDelegations rolledPool, by simp⟩
  | waitBeforeLoop tag =>
      exact ⟨worked.shared.keep rolledDelegations rolledPool, by simp [tag]⟩
  | waitAfterLoop tag =>
      exact ⟨worked.shared.keep rolledDelegations rolledPool, by simp [tag]⟩
  | instantUnstakeComplete => exact ⟨worked.shared.keep rfl rfl, by simp⟩
  | rebalanceAborted => exact ⟨worked.shared.keep rfl rfl, by simp⟩
  | rebalanceComplete => exact ⟨worked.shared.keep rfl rfl, by simp⟩
  | directedComplete => exact ⟨worked.shared.keep rfl rfl, by simp⟩
  | directedTimeout => exact ⟨worked.shared.keep rfl rfl, by simp⟩

theorem upkeep {transaction : Transaction} {origin : StewardStateV2}
    (sound : SharesSound exact state)
    (unshared : exact → ∀ index, transaction.instruction.removedIndex = some index →
      (origin.delegations index).numerator = 0)
    (action : Upkeep transaction origin state next) : SharesSound exact next := by
  cases action with
  | balances _ => exact ⟨sound.shared.keep rfl rfl, sound.unassigned⟩
  | unsetMaintenance => exact ⟨sound.shared.keep rfl rfl, sound.unassigned⟩
  | remove stakeMeta nextMeta index requested same removing =>
      have removed := removed_of_removeValidator removing
      have sameDelegations : state.delegations = origin.delegations :=
        congrArg (·.delegations) same
      have shared : Shared exact (Accounts.mk state stakeMeta).state := sound.shared
      constructor
      · apply shared.remove _ removed
        intro wanted
        show (state.delegations index).numerator = 0
        rw [sameDelegations]
        exact unshared wanted index requested
      · intro delegating
        have tag : next.stateTag = state.stateTag := congrArg (·.stateTag) removed.control
        have none := sound.unassigned (tag.symm.trans delegating)
        refine removed.delegations.trans ?_
        funext row
        simp [none, deleteRow, shiftDown]
  | openEpoch stakeMeta =>
      exact ⟨sound.shared.keep rfl rfl, by simp [EpochMaintenance.openEpoch]⟩
  | mark _ _ => exact ⟨sound.shared.keep rfl rfl, sound.unassigned⟩
  | add _ added =>
      simp only [StewardStateV2.incrementValidatorToAdd] at added
      split at added
      · cases added
        exact ⟨sound.shared.keep rfl rfl, sound.unassigned⟩
      · simp at added
  | reset resetting =>
      simp only [ResetStewardState.handler, Outcome.bind_eq_ok, Outcome.pure_eq_ok] at resetting
      rcases resetting with ⟨_, _, rfl⟩
      exact .of_unassigned rfl

end SharesSound

/-! ## Transactions -/

/-- The transaction does not remove a validator that holds a share. -/
def KeepsDelegated (accounts : Accounts) (transaction : Transaction) : Prop :=
  ∀ index, transaction.instruction.removedIndex = some index →
    (transaction.process accounts).isOk = true →
    (accounts.state.delegations index).numerator = 0

theorem SharesSound.execute {exact : Prop} {accounts : Accounts} {transaction : Transaction}
    (sound : SharesSound exact accounts.state)
    (distinct : exact → DistinctRanking accounts.state)
    (keeps : exact → KeepsDelegated accounts transaction) :
    SharesSound exact (Steward.execute accounts transaction).state := by
  rcases execute_cases accounts transaction with unchanged | succeeded
  · rw [unchanged]
    exact sound
  · apply Transaction.process_preserves_between (SharesSound exact) (SharesWorked exact)
      _ _ _ _ sound succeeded
    · intro middle holds worked
      exact holds.work distinct worked
    · intro middle tag worked ready
      refine ⟨ready.shared, fun delegating => ?_⟩
      simp [worked.steady.1, tag] at delegating
    · intro progress middle last ready _ moved
      exact .move ready moved
    · intro middle last holds action
      refine holds.upkeep (fun wanted index requested => ?_) action
      exact keeps wanted index requested (by rw [succeeded]; rfl)

/-- A successful computation of the delegations assigns every part. -/
theorem sharesSound_of_computeDelegations {accounts : Accounts} {transaction : Transaction}
    (instruction : transaction.instruction = .computeDelegations)
    (succeeded : (transaction.process accounts).isOk = true)
    (sound : SharesSound False accounts.state) (distinct : DistinctRanking accounts.state) :
    SharesSound True (execute accounts transaction).state := by
  have succeeded : transaction.process accounts = .ok (execute accounts transaction) := by
    unfold execute
    cases processed : transaction.process accounts with
    | error _ => simp [processed, Except.isOk, Except.toBool] at succeeded
    | ok next => rfl
  simp only [Transaction.process, instruction, Accounts.withState_eq_ok] at succeeded
  rcases ComputeDelegations.handler_cases succeeded.1 with ⟨tag, _, delegated, computed, moved⟩
  have worked : SharesWorked True delegated :=
    sharesWorked_of_computeDelegations (sound.unassigned tag) (fun _ => distinct) computed
  rcases move_of_transition moved with ⟨progress, _, moved⟩
  exact .move worked moved

/-! ## Pools that only shrink -/

/-- Without additions the list is the pool, so every score is for a member. -/
theorem scoresPoolMember_of_process {accounts next : Accounts} {transaction : Transaction}
    (noneAdded : accounts.state.validatorsAdded = 0)
    (succeeded : transaction.process accounts = .ok next) :
    ScoresPoolMember accounts transaction := by
  intro inputs instruction tag _
  simp only [Transaction.process, instruction, Accounts.withState_eq_ok] at succeeded
  rcases ComputeScore.handler_cases succeeded.1 with ⟨checked, listed, _⟩
  rw [stateChecks_eq_ok] at checked
  rcases checked with ⟨_, _, _, _, _, sizes⟩
  omega

/-- Rankings in a run that adds no validator. -/
structure RankedPool (state : StewardStateV2) : Prop where
  noneAdded : state.validatorsAdded = 0
  ranking : RankingSound state

theorem validatorsAdded_execute {accounts : Accounts} {transaction : Transaction}
    (noneAdded : accounts.state.validatorsAdded = 0)
    (addsNone : transaction.instruction.addsValidator = false) :
    (execute accounts transaction).state.validatorsAdded = 0 := by
  rcases execute_cases accounts transaction with unchanged | succeeded
  · rw [unchanged]
    exact noneAdded
  apply Transaction.process_preserves (fun state => state.validatorsAdded = 0) _ _ _ noneAdded
    succeeded
  · intro middle holds worked
    cases worked with
    | keep => exact holds
    | score inputs components _ _ _ _ computed =>
        rcases computeScore_cases computed with ⟨_, started, starting, cases⟩
        have ready : started.validatorsAdded = 0 := by
          rcases startScoring_cases starting with ⟨_, rfl⟩ | ⟨_, restarting⟩
          · exact holds
          · rcases restartScoring_eq_ok restarting with ⟨_, _, _, rfl⟩
            rfl
        rcases cases with ⟨_, rfl⟩ | ⟨_, score, rawScore, recorded⟩
        · exact ready
        · exact (congrArg (·.validatorsAdded) recorded.others).trans ready
    | delegate _ computed =>
        rcases computeDelegations_cases computed with ⟨_, _, _, _, _, _, _, rfl⟩
        exact holds
    | instantUnstake _ _ _ computed =>
        exact (congrArg (·.validatorsAdded) (computeInstantUnstake_others computed)).trans holds
    | rebalance _ _ _ rebalancing =>
        exact (congrArg (·.validatorsAdded) (rebalance_others rebalancing)).trans holds
    | skipTransient _ _ marked =>
        rcases markProgress_eq_ok.mp marked with ⟨_, _, rfl⟩
        exact holds
    | directed _ _ => exact holds
  · intro progress middle last holds _ moved
    have rolled : (middle.rolledOver transaction.environment.clock).validatorsAdded =
        middle.validatorsAdded :=
      congrArg (·.validatorsAdded) (middle.rollOverCycle_others _)
    cases moved with
    | startScoring => exact rolled.trans holds
    | startInstantUnstake => exact rolled.trans holds
    | waitBeforeLoop => exact rolled.trans holds
    | waitAfterLoop => exact rolled.trans holds
    | _ => exact holds
  · intro middle last holds action
    cases action with
    | remove _ _ _ _ _ removing =>
        have removed := (removed_of_removeValidator removing).validatorsAdded
        simp only [holds] at removed
        simpa using removed
    | add adds => simp [addsNone] at adds
    | reset resetting =>
        simp only [ResetStewardState.handler, Outcome.bind_eq_ok, Outcome.pure_eq_ok] at resetting
        rcases resetting with ⟨_, _, rfl⟩
        rfl
    | _ => exact holds

namespace RankedPool

theorem of_initialized {accounts : Accounts} (initialized : Initialized accounts) :
    RankedPool accounts.state :=
  ⟨initialized.start.2.2.1, .of_initialized initialized⟩

theorem execute {accounts : Accounts} {transaction : Transaction}
    (ranked : RankedPool accounts.state)
    (addsNone : transaction.instruction.addsValidator = false) :
    RankedPool (Steward.execute accounts transaction).state := by
  refine ⟨validatorsAdded_execute ranked.noneAdded addsNone, ?_⟩
  rcases execute_cases accounts transaction with unchanged | succeeded
  · rw [unchanged]
    exact ranked.ranking
  · exact ranked.ranking.execute (scoresPoolMember_of_process ranked.noneAdded succeeded)

end RankedPool

/-! ## Runs -/

/-- The rows of the delegation array that hold a share. -/
def delegatedRows (state : StewardStateV2) : Finset Nat :=
  (Finset.range maxValidators).filter fun row => 0 < (state.delegations row).numerator

/-- One size of share for all, and targets that fit into any pool. -/
structure FitsPool (state : StewardStateV2) (parts : Nat) : Prop where
  positive : 1 ≤ parts
  equal : ∀ row < maxValidators,
    state.delegations row = ⟨0, 1⟩ ∨ state.delegations row = ⟨1, parts⟩
  count : (delegatedRows state).card ≤ parts
  targets : ∀ stakePoolLamports, ∃ target : Nat → Nat,
    (∀ row < maxValidators, getTargetLamports (state.delegations row) stakePoolLamports =
      .ok (target row)) ∧
    ∑ row ∈ Finset.range maxValidators, target row ≤ stakePoolLamports

/-- The delegations were computed at some point of the run, and since then no
validator with a share was removed. -/
def Undiminished (origin : Accounts) (transactions : List Transaction) : Prop :=
  ∃ earlier delegation later, transactions = earlier ++ delegation :: later ∧
    delegation.instruction = .computeDelegations ∧
    (delegation.process (run execute origin earlier)).isOk = true ∧
    EveryStep execute KeepsDelegated (run execute origin (earlier ++ [delegation])) later

namespace SharedBy

theorem delegatedRows_eq (shared : SharedBy state rows parts) : delegatedRows state = rows := by
  ext row
  rw [delegatedRows, Finset.mem_filter, Finset.mem_range, shared.delegations,
    equalShares_numerator_pos]
  exact ⟨fun both => both.2, fun member => ⟨shared.valid row member, member⟩⟩

theorem fitsPool (shared : SharedBy state rows parts) : FitsPool state parts := by
  refine ⟨shared.positive, ?_, ?_, ?_⟩
  · intro row _
    rw [shared.delegations]
    unfold equalShares
    split
    · exact .inr rfl
    · exact .inl rfl
  · rw [shared.delegatedRows_eq]
    exact shared.within
  · intro stakePoolLamports
    refine ⟨fun row => if row ∈ rows then stakePoolLamports / parts else 0, ?_, ?_⟩
    · intro row _
      have nonzero : parts ≠ 0 := Nat.ne_of_gt shared.positive
      rw [shared.delegations]
      by_cases member : row ∈ rows
      · simp [equalShares, member, getTargetLamports, nonzero]
      · simp [equalShares, member, getTargetLamports, Delegation.none]
    · calc ∑ row ∈ Finset.range maxValidators, (if row ∈ rows then stakePoolLamports / parts else 0)
          ≤ ∑ row ∈ rows, stakePoolLamports / parts := by
            rw [← Finset.sum_filter]
            apply Finset.sum_le_sum_of_subset
            exact fun row member => (Finset.mem_filter.mp member).2
        _ = rows.card * (stakePoolLamports / parts) := by
            simp
        _ ≤ parts * (stakePoolLamports / parts) := Nat.mul_le_mul_right _ shared.within
        _ ≤ stakePoolLamports := Nat.mul_div_le stakePoolLamports parts

/-- Every part assigned, the shares add up to the whole. -/
theorem sum_shares (shared : SharedBy state rows parts) (complete : rows.card = parts) :
    ∑ row ∈ Finset.range maxValidators,
      ((state.delegations row).numerator : ℚ) / (state.delegations row).denominator = 1 := by
  have nonzero : (parts : ℚ) ≠ 0 := by
    have positive := shared.positive
    exact_mod_cast Nat.ne_of_gt positive
  have subset : rows ⊆ Finset.range maxValidators :=
    fun row member => Finset.mem_range.mpr (shared.valid row member)
  calc ∑ row ∈ Finset.range maxValidators,
        ((state.delegations row).numerator : ℚ) / (state.delegations row).denominator
      = ∑ row ∈ rows,
          ((state.delegations row).numerator : ℚ) / (state.delegations row).denominator := by
        apply (Finset.sum_subset subset _).symm
        intro row _ notMember
        simp [shared.delegations, equalShares, notMember, Delegation.none]
    _ = ∑ row ∈ rows, (1 : ℚ) / parts := by
        apply Finset.sum_congr rfl
        intro row member
        simp [shared.delegations, equalShares, member]
    _ = 1 := by
        rw [Finset.sum_const, complete, nsmul_eq_mul]
        exact mul_one_div_cancel nonzero

end SharedBy

theorem run_sharesSound {origin : Accounts} (initialized : Initialized origin)
    (transactions : List Transaction) :
    SharesSound False (run execute origin transactions).state := by
  apply run_preserves (fun accounts : Accounts => SharesSound False accounts.state)
  · intro accounts transaction sound
    exact sound.execute False.elim False.elim
  · exact .of_unassigned initialized.start.2.2.2

theorem RankedPool.run {accounts : Accounts} {transactions : List Transaction}
    (ranked : RankedPool accounts.state)
    (addsNone : ∀ transaction ∈ transactions, transaction.instruction.addsValidator = false) :
    RankedPool (Execution.run Steward.execute accounts transactions).state := by
  induction transactions generalizing accounts with
  | nil => exact ranked
  | cons transaction rest induction =>
      exact induction (ranked.execute (addsNone transaction (by simp)))
        fun later member => addsNone later (by simp [member])

/-- Exact shares stay exact as long as nobody with a share is removed. -/
theorem run_exact {accounts : Accounts} {transactions : List Transaction}
    (sound : SharesSound True accounts.state) (ranked : RankedPool accounts.state)
    (addsNone : ∀ transaction ∈ transactions, transaction.instruction.addsValidator = false)
    (keeps : EveryStep execute KeepsDelegated accounts transactions) :
    SharesSound True (run execute accounts transactions).state := by
  induction transactions generalizing accounts with
  | nil => exact sound
  | cons transaction rest induction =>
      apply induction
      · exact sound.execute (fun _ => ranked.ranking.distinctRanking) fun _ => keeps.1
      · exact ranked.execute (addsNone transaction (by simp))
      · exact fun later member => addsNone later (by simp [member])
      · exact keeps.2

theorem run_undiminished {origin : Accounts} (initialized : Initialized origin)
    {transactions : List Transaction}
    (addsNone : ∀ transaction ∈ transactions, transaction.instruction.addsValidator = false)
    (undiminished : Undiminished origin transactions) :
    SharesSound True (run execute origin transactions).state := by
  rcases undiminished with ⟨earlier, delegation, later, rfl, instruction, succeeded, keeps⟩
  have rankedBefore : RankedPool (run execute origin earlier).state :=
    (RankedPool.of_initialized initialized).run
      fun transaction member => addsNone transaction (by simp [member])
  have delegated : SharesSound True (execute (run execute origin earlier) delegation).state :=
    sharesSound_of_computeDelegations instruction succeeded
      (run_sharesSound initialized earlier) rankedBefore.ranking.distinctRanking
  rw [run_append] at keeps
  rw [run_append, run_cons]
  exact run_exact delegated (rankedBefore.execute (addsNone delegation (by simp)))
    (fun transaction member => addsNone transaction (by simp [member])) keeps

/-- In every reachable state the shares fit into the pool. Computed in a pool that
only shrinks, they fill it until a validator with a share is removed. -/
theorem run_fitsPool {origin : Accounts} (initialized : Initialized origin)
    (transactions : List Transaction) :
    let state := (run execute origin transactions).state
    ∃ parts, FitsPool state parts ∧
      ((∀ transaction ∈ transactions, transaction.instruction.addsValidator = false) →
        Undiminished origin transactions → (delegatedRows state).Nonempty →
        (delegatedRows state).card = parts ∧
          ∑ row ∈ Finset.range maxValidators,
            ((state.delegations row).numerator : ℚ) / (state.delegations row).denominator = 1) := by
  intro state
  rcases (run_sharesSound initialized transactions).shared with ⟨rows, parts, shared, _⟩
  refine ⟨parts, shared.fitsPool, fun addsNone undiminished nonempty => ?_⟩
  rcases (run_undiminished initialized addsNone undiminished).shared with
    ⟨exactRows, exactParts, exactShared, complete⟩
  have sameRows : exactRows = rows :=
    exactShared.delegatedRows_eq.symm.trans shared.delegatedRows_eq
  subst exactRows
  rw [shared.delegatedRows_eq] at nonempty ⊢
  have filled : rows.card = exactParts :=
    (complete trivial).resolve_right (Finset.card_ne_zero.mpr nonempty)
  -- A row with a share tells how many parts there are.
  have sameParts : exactParts = parts := by
    rcases nonempty with ⟨row, member⟩
    have same := congrFun (exactShared.delegations.symm.trans shared.delegations) row
    simpa [equalShares, member] using same
  rw [← sameParts]
  exact ⟨filled, exactShared.sum_shares filled⟩

/-- A pool of two validators is scored and delegated. -/
def twoDelegated : List Transaction :=
  scoringOpened ++ [scoreCall 2 1 5, scoreCall 2 0 7, ⟨scoringEnvironment 2, .computeDelegations⟩]

theorem run_fitsPool_twoDelegated :
    let state := (run execute scoringOrigin twoDelegated).state
    state.delegations 0 = ⟨1, 2⟩ ∧
      ∃ parts, FitsPool state parts ∧ (delegatedRows state).card = parts := by
  intro state
  have half : state.delegations 0 = ⟨1, 2⟩ := by decide +kernel
  have initialized : Initialized scoringOrigin :=
    .realloc ⟨0, 0⟩ (scoringEnvironment 2).config (scoringEnvironment 2).validatorList rfl
  rcases run_fitsPool initialized twoDelegated with ⟨parts, fits, exactly⟩
  refine ⟨half, parts, fits, (exactly ?_ ?_ ?_).1⟩
  · intro transaction member
    simp only [twoDelegated, scoringOpened, scoreCall, List.cons_append, List.nil_append,
      List.mem_cons, List.not_mem_nil, or_false] at member
    rcases member with rfl | rfl | rfl | rfl | rfl | rfl <;> rfl
  · refine ⟨scoringOpened ++ [scoreCall 2 1 5, scoreCall 2 0 7], _, [], rfl, rfl, ?_, trivial⟩
    decide +kernel
  · refine ⟨0, Finset.mem_filter.mpr ⟨by simp [maxValidators], ?_⟩⟩
    rw [half]
    exact Nat.one_pos

end Stakenet.Steward

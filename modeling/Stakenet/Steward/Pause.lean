import Stakenet.Steward.Phases

/-! What a crank can still change while the steward is paused.

The pause is checked together with the other state checks. Three handlers check
it first; the others reach it only after they tried a transition, and a directed
rebalance of a validator that left the pool never does. -/

namespace Stakenet.Steward

variable {environment : Environment} {state next : StewardStateV2}
variable {accounts : Accounts}

/-! ## Due transitions -/

/-- Every validator of the pool was processed. -/
def StewardStateV2.AllProcessed (state : StewardStateV2) : Prop :=
  state.numPoolValidators ≤ maxValidators ∧
    ∀ index < state.numPoolValidators, state.progress.contains index = true

/-- A cycle is to be scored: the last one is over or was never delegated. -/
def StewardStateV2.ScoringDue (state : StewardStateV2) (epoch : Nat) : Prop :=
  state.hasFlag rebalanceDirectedCompleteFlag = true ∧
    (state.hasFlag computeDelegationsFlag = false ∨ state.nextCycleEpoch ≤ epoch)

/-- The transition function leaves the state tag it finds, at this progress. -/
def DueAt (environment : Environment) (state : StewardStateV2) (progress : ℚ) : Prop :=
  let parameters := environment.config.parameters
  match state.stateTag with
  | .computeScores => state.AllProcessed
  | .computeDelegations => state.hasFlag computeDelegationsFlag = true
  | .idle =>
      (state.ScoringDue environment.clock.epoch ∧
        parameters.computeScoreEpochProgress ≤ progress) ∨
      (state.hasFlag rebalanceFlag = false ∧
        parameters.instantUnstakeEpochProgress ≤ progress)
  | .computeInstantUnstake => state.AllProcessed
  | .rebalance => state.hasFlag resetToIdleFlag = true ∨ state.AllProcessed
  | .rebalanceDirected =>
      state.hasFlag rebalanceDirectedCompleteFlag = true ∨
        parameters.computeScoreEpochProgress ≤ progress

/-- The slot lies in the epoch of the clock, and a transition is due there. -/
def TransitionDue (environment : Environment) (state : StewardStateV2) : Prop :=
  ∃ progress, epochProgress environment.clock environment.epochSchedule = .ok progress ∧
    DueAt environment state progress

/-- A transition that waits for the whole pool moves once all of it was
processed. -/
theorem isComplete_moves_iff {following : StewardStateV2}
    (changed : state.stateTag ≠ following.stateTag) :
    (∃ next, (do
        if ← state.progress.isComplete state.numPoolValidators then
          return following
        else
          return state : Result StewardStateV2) = .ok next ∧
      state.stateTag ≠ next.stateTag) ↔ state.AllProcessed := by
  simp only [Outcome.bind_eq_ok, BitMask.isComplete_eq_ok, StewardStateV2.AllProcessed]
  constructor
  · rintro ⟨next, ⟨complete, ⟨bounded, processed⟩, moved⟩, different⟩
    cases complete with
    | true => exact ⟨bounded, processed.mp rfl⟩
    | false =>
        cases moved
        exact absurd rfl different
  · rintro ⟨bounded, processed⟩
    exact ⟨following, ⟨true, ⟨bounded, by simpa using processed⟩, rfl⟩, changed⟩

theorem scoringDue_iff {epoch : Nat} :
    state.ScoringDue epoch ↔
      (state.rollOverCycle epoch).hasFlag rebalanceDirectedCompleteFlag = true ∧
        (state.rollOverCycle epoch).hasFlag computeDelegationsFlag = false := by
  have complete := rolledOver_hasFlag state ⟨epoch, 0⟩ (show 7 < 32 by decide)
  have delegated := rolledOver_hasFlag state ⟨epoch, 0⟩ (show 1 < 32 by decide)
  simp only [StewardStateV2.ScoringDue]
  rw [complete, delegated]
  by_cases due : state.nextCycleEpoch ≤ epoch <;> simp [due]

theorem transitionIdle_moves_iff (tag : state.stateTag = .idle) (epoch : Nat)
    (progress forInstantUnstake forScoring : ℚ) :
    state.stateTag ≠
        (state.transitionIdle epoch progress forInstantUnstake forScoring).stateTag ↔
      (state.ScoringDue epoch ∧ forScoring ≤ progress) ∨
        (state.hasFlag rebalanceFlag = false ∧ forInstantUnstake ≤ progress) := by
  have looped : (state.rollOverCycle epoch).hasFlag rebalanceFlag =
      state.hasFlag rebalanceFlag := by
    simpa using rolledOver_hasFlag state ⟨epoch, 0⟩ (show 5 < 32 by decide)
  rw [scoringDue_iff]
  simp only [StewardStateV2.transitionIdle, looped, tag]
  split
  case isTrue scoring =>
      simp only [Bool.and_eq_true, Bool.not_eq_true', decide_eq_true_eq] at scoring
      simp [scoring]
  case isFalse notScoring =>
      simp only [Bool.and_eq_true, Bool.not_eq_true', decide_eq_true_eq] at notScoring
      split
      case isTrue pending =>
          split
          case isTrue late => simp_all
          case isFalse early => simp_all
      case isFalse completed => simp_all

theorem dueAt_iff {progress : ℚ}
    (measured : epochProgress environment.clock environment.epochSchedule = .ok progress) :
    (∃ next, environment.transition state = .ok next ∧ state.stateTag ≠ next.stateTag) ↔
      DueAt environment state progress := by
  simp only [Environment.transition, StewardStateV2.transition, measured, DueAt,
    Outcome.ok_bind]
  cases tag : state.stateTag with
  | computeScores =>
      simp only [StewardStateV2.transitionComputeScores]
      rw [← tag]
      exact isComplete_moves_iff (by simp [tag])
  | computeDelegations =>
      simp only [StewardStateV2.transitionComputeDelegations, Except.ok.injEq, exists_eq_left']
      cases state.hasFlag computeDelegationsFlag <;> simp [tag]
  | idle =>
      simp only [Except.ok.injEq, exists_eq_left']
      rw [← tag]
      exact transitionIdle_moves_iff tag ..
  | computeInstantUnstake =>
      simp only [StewardStateV2.transitionComputeInstantUnstake]
      rw [← tag]
      exact isComplete_moves_iff (by simp [tag])
  | rebalance =>
      simp only [StewardStateV2.transitionRebalance]
      cases state.hasFlag resetToIdleFlag with
      | true => simp
      | false =>
          simp only [Bool.false_eq_true, if_false, false_or]
          rw [← tag]
          exact isComplete_moves_iff (by simp [tag])
  | rebalanceDirected =>
      simp only [StewardStateV2.transitionRebalanceDirected, Except.ok.injEq, exists_eq_left']
      cases state.hasFlag rebalanceDirectedCompleteFlag with
      | true => simp
      | false =>
          by_cases late : environment.config.parameters.computeScoreEpochProgress ≤ progress
          · simp [late]
          · simp [late, tag]

theorem transition_moves_iff :
    (∃ next, environment.transition state = .ok next ∧ state.stateTag ≠ next.stateTag) ↔
      TransitionDue environment state := by
  constructor
  · rintro ⟨next, moved, changed⟩
    rcases move_of_transition moved with ⟨progress, measured, _⟩
    exact ⟨progress, measured, (dueAt_iff measured).mp ⟨next, moved, changed⟩⟩
  · rintro ⟨progress, measured, due⟩
    exact (dueAt_iff measured).mpr due

/-- The transition function does not fail: the slot lies in the epoch of the
clock, and a pool it has to check fits the progress mask. -/
def TransitionRuns (environment : Environment) (state : StewardStateV2) : Prop :=
  (∃ progress, epochProgress environment.clock environment.epochSchedule = .ok progress) ∧
    (state.stateTag = .computeScores ∨ state.stateTag = .computeInstantUnstake ∨
        (state.stateTag = .rebalance ∧ state.hasFlag resetToIdleFlag = false) →
      state.numPoolValidators ≤ maxValidators)

theorem isComplete_succeeds_iff {following : StewardStateV2} :
    (∃ next, (do
        if ← state.progress.isComplete state.numPoolValidators then
          return following
        else
          return state : Result StewardStateV2) = .ok next) ↔
      state.numPoolValidators ≤ maxValidators := by
  simp only [Outcome.bind_eq_ok, BitMask.isComplete_eq_ok]
  constructor
  · rintro ⟨_, _, ⟨bounded, _⟩, _⟩
    exact bounded
  · intro bounded
    by_cases processed : ∀ index < state.numPoolValidators, state.progress.contains index = true
    · exact ⟨following, true, ⟨bounded, by simpa using processed⟩, rfl⟩
    · exact ⟨state, false, ⟨bounded, by simpa using processed⟩, rfl⟩

theorem transition_succeeds_iff :
    (∃ next, environment.transition state = .ok next) ↔ TransitionRuns environment state := by
  have unfolded : (∃ next, environment.transition state = .ok next) ↔
      ∃ progress, epochProgress environment.clock environment.epochSchedule = .ok progress ∧
        (state.stateTag = .computeScores ∨ state.stateTag = .computeInstantUnstake ∨
            (state.stateTag = .rebalance ∧ state.hasFlag resetToIdleFlag = false) →
          state.numPoolValidators ≤ maxValidators) := by
    simp only [Environment.transition, StewardStateV2.transition, Outcome.bind_eq_ok]
    rw [exists_comm]
    apply exists_congr
    intro progress
    rw [exists_and_left]
    apply and_congr_right
    intro _
    cases tag : state.stateTag with
    | computeScores =>
        simp only [StewardStateV2.transitionComputeScores]
        rw [isComplete_succeeds_iff]
        simp
    | computeInstantUnstake =>
        simp only [StewardStateV2.transitionComputeInstantUnstake]
        rw [isComplete_succeeds_iff]
        simp
    | rebalance =>
        simp only [StewardStateV2.transitionRebalance]
        cases state.hasFlag resetToIdleFlag with
        | true => simp
        | false =>
            simp only [Bool.false_eq_true, if_false]
            rw [isComplete_succeeds_iff]
            simp
    | computeDelegations => simp
    | idle => simp
    | rebalanceDirected => simp
  rw [unfolded, exists_and_right]
  rfl

/-- Waiting in `Idle` writes nothing that is not there already. -/
def IdleSettled (environment : Environment) (state : StewardStateV2) : Prop :=
  (state.nextCycleEpoch ≤ environment.clock.epoch →
    state.hasFlag computeScoreFlag = false ∧ state.hasFlag computeDelegationsFlag = false ∧
      state.instantUnstake = .empty ∧ state.progress = .empty) ∧
  (state.hasFlag rebalanceFlag = false →
    state.hasFlag resetToIdleFlag = false ∧ state.hasFlag preLoopIdleFlag = true) ∧
  (state.hasFlag rebalanceFlag = true → state.hasFlag postLoopIdleFlag = true)

/-- The fields of the state account that a pause is to freeze. -/
structure StateFrozen (state next : StewardStateV2) : Prop where
  stateTag : next.stateTag = state.stateTag
  statusFlags : next.statusFlags = state.statusFlags
  progress : next.progress = state.progress
  instantUnstake : next.instantUnstake = state.instantUnstake
  balances : next.validatorLamportBalances = state.validatorLamportBalances

theorem rollOverCycle_masks (state : StewardStateV2) (epoch : Nat) :
    (state.rollOverCycle epoch).progress =
        (if state.nextCycleEpoch ≤ epoch then .empty else state.progress) ∧
      (state.rollOverCycle epoch).instantUnstake =
        (if state.nextCycleEpoch ≤ epoch then .empty else state.instantUnstake) ∧
      (state.rollOverCycle epoch).validatorLamportBalances =
        state.validatorLamportBalances := by
  simp only [StewardStateV2.rollOverCycle]
  split <;> exact ⟨rfl, rfl, rfl⟩

/-- Dropping some flags and setting another changes nothing when the first were
unset and the other was set. -/
theorem flags_kept_iff {flags next : BitVec 32} {dropped : Nat → Bool} {added : Nat}
    (bounded : added < 32) (apart : dropped added = false)
    (written : ∀ bit < 32, flagSet next (flagAt bit) =
      ((flagSet flags (flagAt bit) && !dropped bit) || decide (bit = added))) :
    next = flags ↔
      (∀ bit < 32, dropped bit = true → flagSet flags (flagAt bit) = false) ∧
        flagSet flags (flagAt added) = true := by
  rw [flags_eq_iff]
  constructor
  · intro same
    constructor
    · intro bit bitBound isDropped
      have notAdded : bit ≠ added := by
        rintro rfl
        simp [apart] at isDropped
      have atBit := same bit bitBound
      rw [written bit bitBound] at atBit
      simpa [isDropped, notAdded] using atBit.symm
    · have atAdded := same added bounded
      rw [written added bounded] at atAdded
      simpa using atAdded.symm
  · rintro ⟨unset, present⟩ bit bitBound
    rw [written bit bitBound]
    by_cases isAdded : bit = added
    · subst bit
      simp [present]
    · cases isDropped : dropped bit with
      | true => simp [unset bit bitBound isDropped, isAdded]
      | false => simp [isAdded]

/-- Rolling over and writing the flags changes nothing when the flags stay and a
due cycle finds empty masks. -/
theorem rolledOver_frozen_iff {clock : Clock} {flags : BitVec 32} :
    StateFrozen state { state.rolledOver clock with statusFlags := flags } ↔
      flags = state.statusFlags ∧
        (state.nextCycleEpoch ≤ clock.epoch →
          state.instantUnstake = .empty ∧ state.progress = .empty) := by
  rcases rollOverCycle_masks state clock.epoch with ⟨processed, unstaked, balances⟩
  constructor
  · rintro ⟨_, sameFlags, sameProgress, sameUnstake, _⟩
    refine ⟨sameFlags, fun due => ?_⟩
    rw [if_pos due] at processed unstaked
    exact ⟨sameUnstake.symm.trans unstaked, sameProgress.symm.trans processed⟩
  · rintro ⟨sameFlags, emptied⟩
    refine ⟨rollOverCycle_stateTag state clock.epoch, sameFlags, processed.trans ?_,
      unstaked.trans ?_, balances⟩
    · split
      case isTrue due => exact (emptied due).2.symm
      case isFalse => rfl
    · split
      case isTrue due => exact (emptied due).1.symm
      case isFalse => rfl

theorem waitBeforeLoop_flags_iff {clock : Clock} :
    (state.rolledOver clock).statusFlags &&& ~~~resetToIdleFlag ||| preLoopIdleFlag =
        state.statusFlags ↔
      (state.nextCycleEpoch ≤ clock.epoch →
        state.hasFlag computeScoreFlag = false ∧ state.hasFlag computeDelegationsFlag = false) ∧
      state.hasFlag resetToIdleFlag = false ∧ state.hasFlag preLoopIdleFlag = true := by
  have flags := fun bit (bounded : bit < 32) => rolledOver_hasFlag state clock bounded
  simp only [StewardStateV2.hasFlag_eq] at flags ⊢
  rw [@flags_kept_iff _ _ (fun bit => (decide (state.nextCycleEpoch ≤ clock.epoch) &&
      (decide (bit = 0) || decide (bit = 1))) || decide (bit = 16)) 3 (by decide) (by simp)
    (fun bit bounded => by simp [bounded, flags, Bool.and_assoc])]
  constructor
  · rintro ⟨unset, waiting⟩
    exact ⟨fun due => ⟨unset 0 (by decide) (by simp [due]), unset 1 (by decide) (by simp [due])⟩,
      unset 16 (by decide) (by simp), waiting⟩
  · rintro ⟨rolled, aborted, waiting⟩
    refine ⟨fun bit bounded isDropped => ?_, waiting⟩
    simp only [Bool.or_eq_true, Bool.and_eq_true, decide_eq_true_eq] at isDropped
    rcases isDropped with ⟨due, rfl | rfl⟩ | rfl
    · exact (rolled due).1
    · exact (rolled due).2
    · exact aborted

theorem waitAfterLoop_flags_iff {clock : Clock} :
    (state.rolledOver clock).statusFlags ||| postLoopIdleFlag = state.statusFlags ↔
      (state.nextCycleEpoch ≤ clock.epoch →
        state.hasFlag computeScoreFlag = false ∧ state.hasFlag computeDelegationsFlag = false) ∧
      state.hasFlag postLoopIdleFlag = true := by
  have flags := fun bit (bounded : bit < 32) => rolledOver_hasFlag state clock bounded
  simp only [StewardStateV2.hasFlag_eq] at flags ⊢
  rw [@flags_kept_iff _ _ (fun bit => decide (state.nextCycleEpoch ≤ clock.epoch) &&
      (decide (bit = 0) || decide (bit = 1))) 6 (by decide) (by simp)
    (fun bit bounded => by simp [bounded, flags])]
  constructor
  · rintro ⟨unset, waiting⟩
    exact ⟨fun due => ⟨unset 0 (by decide) (by simp [due]), unset 1 (by decide) (by simp [due])⟩,
      waiting⟩
  · rintro ⟨rolled, waiting⟩
    refine ⟨fun bit bounded isDropped => ?_, waiting⟩
    simp only [Bool.or_eq_true, Bool.and_eq_true, decide_eq_true_eq] at isDropped
    rcases isDropped with ⟨due, rfl | rfl⟩
    · exact (rolled due).1
    · exact (rolled due).2

theorem wait_frozen_iff (tag : state.stateTag = .idle)
    (moved : environment.transition state = .ok next) (same : state.stateTag = next.stateTag) :
    StateFrozen state next ↔ IdleSettled environment state := by
  rcases move_of_transition moved with ⟨progress, _, move⟩
  have looped : (state.rolledOver environment.clock).hasFlag rebalanceFlag =
      state.hasFlag rebalanceFlag := by
    simpa using rolledOver_hasFlag state environment.clock (show 5 < 32 by decide)
  cases move with
  | waitBeforeLoop _ pending =>
      rw [looped] at pending
      have frozen : StateFrozen state (((state.rolledOver environment.clock).unsetFlag
          resetToIdleFlag).setFlag preLoopIdleFlag) ↔ _ := rolledOver_frozen_iff
      rw [frozen, StewardStateV2.unsetFlag_statusFlags, waitBeforeLoop_flags_iff, IdleSettled,
        pending]
      simp only [Bool.false_eq_true, false_imp_iff, and_true, true_imp_iff]
      tauto
  | waitAfterLoop _ completed =>
      rw [looped] at completed
      have frozen : StateFrozen state ((state.rolledOver environment.clock).setFlag
          postLoopIdleFlag) ↔ _ := rolledOver_frozen_iff
      rw [frozen, waitAfterLoop_flags_iff, IdleSettled, completed]
      simp only [Bool.true_eq_false, false_imp_iff, true_and, true_imp_iff]
      tauto
  | stay notIdle => exact absurd tag notIdle
  | _ => simp_all

/-! ## Handlers under a pause -/

theorem stateChecks_paused {expectedState : Option StewardStateEnum}
    (paused : environment.config.paused = true) :
    stateChecks environment state expectedState = fail .stateMachinePaused := by
  simp [stateChecks, require, paused, fail]

section Handlers

variable (paused : environment.config.paused = true)

include paused

theorem ComputeInstantUnstake.handler_paused_iff {inputs : ComputeInstantUnstake.Inputs} :
    ComputeInstantUnstake.handler environment inputs state = .ok next ↔
      environment.transition state = .ok next ∧ state.stateTag ≠ next.stateTag := by
  simp only [handler, Outcome.bind_eq_ok, stateChecks_paused paused]
  constructor
  · rintro ⟨⟨moved, event⟩, first, succeeded⟩
    rcases maybeTransition_eq_ok first with ⟨transitioned, reported⟩
    by_cases emitted : event.isSome = true
    · simp only [emitted, if_true, Outcome.pure_eq_ok] at succeeded
      subst next
      exact ⟨transitioned, reported.mp emitted⟩
    · simp [emitted, fail] at succeeded
  · rintro ⟨transitioned, changed⟩
    exact ⟨_, maybeTransition_eq_ok_iff.mpr ⟨transitioned, rfl⟩, by simp [changed]⟩

theorem Rebalance.handler_paused_iff {inputs : Rebalance.Inputs}
    {stakeMeta : DirectedStakeMeta} {rebalanceType : RebalanceType} :
    Rebalance.handler environment inputs stakeMeta state = .ok (next, rebalanceType) ↔
      (environment.validatorList.accountType = .validatorList ∧
        inputs.validatorListIndex < environment.validatorList.len) ∧
      (environment.transition state = .ok next ∧ state.stateTag ≠ next.stateTag) ∧
      rebalanceType = .none := by
  simp only [handler, Outcome.bind_eq_ok, stateChecks_paused paused,
    getValidatorStakeInfoAtIndex_eq_ok]
  constructor
  · rintro ⟨entry, ⟨kind, found⟩, ⟨moved, event⟩, first, succeeded⟩
    rcases maybeTransition_eq_ok first with ⟨transitioned, reported⟩
    by_cases emitted : event.isSome = true
    · simp only [emitted, if_true, Outcome.pure_eq_ok, Prod.mk.injEq] at succeeded
      rcases succeeded with ⟨rfl, rfl⟩
      exact ⟨⟨kind, (List.getElem?_eq_some_iff.mp found).1⟩,
        ⟨transitioned, reported.mp emitted⟩, rfl⟩
    · simp [emitted, fail] at succeeded
  · rintro ⟨⟨kind, bounded⟩, ⟨transitioned, changed⟩, rfl⟩
    exact ⟨_, ⟨kind, List.getElem?_eq_getElem bounded⟩, _,
      maybeTransition_eq_ok_iff.mpr ⟨transitioned, rfl⟩, by simp [changed]⟩

end Handlers

/-! ## Directed rebalance under a pause -/

namespace RebalanceDirected

/-- A directed rebalance leaves its state: no target is left for the epoch, or it
is time to score. -/
def DirectedDue (environment : Environment) (accounts : Accounts) : Prop :=
  ∃ progress, epochProgress environment.clock environment.epochSchedule = .ok progress ∧
    (accounts.stakeMeta.allTargetsRebalancedForEpoch environment.clock.epoch = true ∨
      accounts.state.hasFlag rebalanceDirectedCompleteFlag = true ∨
      environment.config.parameters.computeScoreEpochProgress ≤ progress)

theorem flagCompletion_hasFlag (clock : Clock) (accounts : Accounts) {bit : Nat}
    (bounded : bit < 32) :
    (flagCompletion clock accounts).state.hasFlag (flagAt bit) =
      (accounts.state.hasFlag (flagAt bit) ||
        (accounts.stakeMeta.allTargetsRebalancedForEpoch clock.epoch && decide (bit = 7))) := by
  unfold flagCompletion
  split
  case isTrue complete => simp [StewardStateV2.hasFlag_eq, bounded, complete]
  case isFalse pending => simp [pending]

theorem flagCompletion_stateTag (clock : Clock) (accounts : Accounts) :
    (flagCompletion clock accounts).state.stateTag = accounts.state.stateTag := by
  unfold flagCompletion
  split <;> rfl

theorem flagCompletion_due_iff (tag : accounts.state.stateTag = .rebalanceDirected) :
    TransitionDue environment (flagCompletion environment.clock accounts).state ↔
      DirectedDue environment accounts := by
  simp only [TransitionDue, DueAt, DirectedDue, flagCompletion_stateTag, tag,
    flagCompletion_hasFlag _ _ (show 7 < 32 by decide), decide_true, Bool.and_true,
    Bool.or_eq_true, or_assoc]
  apply exists_congr
  intro progress
  apply and_congr_right
  intro _
  exact or_left_comm

/-- Moving directed stake does not change which targets are left. -/
theorem directedMoved_due_iff {row index : Nat} {adjusted : Accounts}
    (moved : DirectedMoved accounts row index adjusted) :
    DirectedDue environment adjusted ↔ DirectedDue environment accounts := by
  rcases moved with ⟨balances, staked, lamports, rfl, _⟩
  have same : ∀ epoch,
      (accounts.withDirected balances index staked row
        lamports).stakeMeta.allTargetsRebalancedForEpoch epoch =
      accounts.stakeMeta.allTargetsRebalancedForEpoch epoch := by
    intro epoch
    unfold DirectedStakeMeta.allTargetsRebalancedForEpoch
    congr 1
    funext position
    by_cases isIndex : position = index
    · subst position
      simp [Accounts.withDirected]
    · simp [Accounts.withDirected, isIndex]
  simp only [DirectedDue, same]
  rfl

section Found

variable {inputs : Inputs} {row : Nat}

theorem rebalanceFound_paused_moves (paused : environment.config.paused = true)
    {result : Accounts × RebalanceType}
    (succeeded : rebalanceFound environment inputs row accounts = .ok result) :
    result.1.state.stateTag ≠ accounts.state.stateTag := by
  simp only [rebalanceFound, move, stateChecks_paused paused, Outcome.bind_eq_ok] at succeeded
  rcases succeeded with ⟨_, _, adjusted, reconciled, _, _, ⟨moved, event⟩, first, succeeded⟩
  rcases maybeTransition_eq_ok first with ⟨transitioned, reported⟩
  by_cases emitted : event.isSome = true
  · simp only [emitted, if_true, Outcome.pure_eq_ok] at succeeded
    subst result
    have changed := reported.mp emitted
    rw [flagCompletion_stateTag] at changed
    rcases Directed.adjust_moved reconciled with ⟨_, _, _, rfl, _⟩
    exact changed.symm
  · simp [emitted, fail] at succeeded

theorem rebalanceFound_paused_iff (paused : environment.config.paused = true)
    (listed : row < environment.validatorList.len) :
    (∃ result, rebalanceFound environment inputs row accounts = .ok result) ↔
      (row < maxValidators ∧ inputs.directedStakeMetaIndex < maxValidators) ∧
        accounts.state.stateTag = .rebalanceDirected ∧ DirectedDue environment accounts := by
  simp only [rebalanceFound, move, stateChecks_paused paused, Outcome.bind_eq_ok,
    stakeLamportsAtValidatorListIndex, ValidatorList.slotAt_of_lt listed, require_eq_ok]
  constructor
  · rintro ⟨result, _, _, adjusted, reconciled, _, tag, ⟨moved, event⟩, first, succeeded⟩
    rcases maybeTransition_eq_ok first with ⟨transitioned, reported⟩
    by_cases emitted : event.isSome = true
    · have due := transition_moves_iff.mp ⟨moved, transitioned, reported.mp emitted⟩
      have effect := Directed.adjust_moved reconciled
      rw [flagCompletion_due_iff tag, directedMoved_due_iff effect] at due
      rcases effect with ⟨_, _, _, rfl, _⟩
      exact ⟨Directed.adjust_succeeds_iff.mp ⟨_, reconciled⟩, tag, due⟩
    · simp [emitted, fail] at succeeded
  · rintro ⟨bounds, tag, due⟩
    rcases Directed.adjust_succeeds_iff.mpr bounds with ⟨adjusted, reconciled⟩
    have effect := Directed.adjust_moved reconciled
    have adjustedTag : adjusted.state.stateTag = .rebalanceDirected := by
      rcases effect with ⟨_, _, _, rfl, _⟩
      exact tag
    rw [← directedMoved_due_iff effect, ← flagCompletion_due_iff adjustedTag,
      ← transition_moves_iff] at due
    rcases due with ⟨moved, transitioned, changed⟩
    exact ⟨_, _, ⟨_, rfl, rfl⟩, adjusted, reconciled, (), adjustedTag, _,
      maybeTransition_eq_ok_iff.mpr ⟨transitioned, rfl⟩, by simp [changed]; rfl⟩

end Found

/-- The skip of a target whose validator left the pool finds all that it would
write in place. -/
structure SkipSettled (environment : Environment) (index : Nat) (accounts : Accounts) :
    Prop where
  counted : (accounts.stakeMeta.targets index).stakedLastUpdatedEpoch = environment.clock.epoch
  flagged : accounts.stakeMeta.allTargetsRebalancedForEpoch environment.clock.epoch = true →
    accounts.state.hasFlag rebalanceDirectedCompleteFlag = true
  notDue : ¬TransitionDue environment accounts.state
  idle : accounts.state.stateTag = .idle → IdleSettled environment accounts.state

theorem setFlag_of_hasFlag {bit : Nat} (present : state.hasFlag (flagAt bit) = true) :
    state.setFlag (flagAt bit) = state := by
  have same : state.statusFlags ||| flagAt bit = state.statusFlags := by
    apply flags_eq_iff.mpr
    intro other otherBound
    rw [flagSet_or _ _ _ otherBound]
    by_cases isBit : other = bit
    · subst other
      rw [StewardStateV2.hasFlag_eq] at present
      simp [present]
    · simp [isBit]
  simp only [StewardStateV2.setFlag, same]

/-- A transition never takes the completion flag away. -/
theorem transition_keeps_directed (moved : environment.transition state = .ok next)
    (complete : state.hasFlag rebalanceDirectedCompleteFlag = true) :
    next.hasFlag rebalanceDirectedCompleteFlag = true := by
  rcases move_of_transition moved with ⟨progress, _, move⟩
  have rolled := rolledOver_hasFlag state environment.clock (show 7 < 32 by decide)
  rw [complete] at rolled
  simp only [StewardStateV2.hasFlag_eq] at complete rolled ⊢
  cases move <;> simp_all

theorem transition_frozen_iff (moved : environment.transition state = .ok next) :
    StateFrozen state next ↔
      ¬TransitionDue environment state ∧
        (state.stateTag = .idle → IdleSettled environment state) := by
  rw [← transition_moves_iff]
  by_cases same : state.stateTag = next.stateTag
  · have still : ¬∃ following, environment.transition state = .ok following ∧
        state.stateTag ≠ following.stateTag := by
      rintro ⟨following, again, changed⟩
      rw [moved] at again
      cases again
      exact changed same
    by_cases idle : state.stateTag = .idle
    · rw [wait_frozen_iff idle moved same]
      exact ⟨fun settled => ⟨still, fun _ => settled⟩, fun settled => settled.2 idle⟩
    · have kept := transition_silent moved same idle
      subst next
      simp only [still, not_false_eq_true, idle, false_imp_iff, and_self, iff_true]
      exact ⟨rfl, rfl, rfl, rfl, rfl⟩
  · constructor
    · intro frozen
      exact absurd frozen.stateTag.symm same
    · intro ⟨still, _⟩
      exact absurd ⟨next, moved, same⟩ still

end RebalanceDirected

/-- A pause froze what it is to freeze. -/
structure Frozen (accounts next : Accounts) : Prop where
  state : StateFrozen accounts.state next.state
  stakeMeta : next.stakeMeta = accounts.stakeMeta

namespace RebalanceDirected

theorem flagCompletion_runs_iff {clock : Clock} :
    TransitionRuns environment (flagCompletion clock accounts).state ↔
      TransitionRuns environment accounts.state := by
  have pool : (flagCompletion clock accounts).state.numPoolValidators =
      accounts.state.numPoolValidators := by
    unfold flagCompletion
    split <;> rfl
  simp [TransitionRuns, flagCompletion_stateTag, flagCompletion_hasFlag, pool]

/-- The accounts with a target counted as processed in an epoch. -/
def counted (accounts : Accounts) (index epoch : Nat) : Accounts :=
  { accounts with
    stakeMeta := { accounts.stakeMeta with
      targets := Function.update accounts.stakeMeta.targets index
        { accounts.stakeMeta.targets index with stakedLastUpdatedEpoch := epoch } } }

theorem counted_stakeMeta_eq_iff {index epoch : Nat} :
    (counted accounts index epoch).stakeMeta = accounts.stakeMeta ↔
      (accounts.stakeMeta.targets index).stakedLastUpdatedEpoch = epoch := by
  constructor
  · intro same
    have atIndex := congrArg (fun stakeMeta : DirectedStakeMeta =>
      (stakeMeta.targets index).stakedLastUpdatedEpoch) same
    simpa [counted] using atIndex.symm
  · rintro rfl
    simp [counted]

theorem skipMissing_eq_ok {index : Nat} {last : Accounts} (bounded : index < maxValidators) :
    skipMissing environment index accounts = .ok last ↔
      ∃ middle, environment.transition (flagCompletion environment.clock
          (counted accounts index environment.clock.epoch)).state = .ok middle ∧
        last = { flagCompletion environment.clock
          (counted accounts index environment.clock.epoch) with state := middle } := by
  simp only [skipMissing, DirectedStakeMeta.updateStakedLastUpdatedEpoch,
    DirectedStakeMeta.updateTarget, readRow_eq_ok, writeRow_eq_ok, Outcome.bind_eq_ok,
    Outcome.pure_eq_ok, Prod.exists, maybeTransition_eq_ok_iff]
  constructor
  · rintro ⟨_, ⟨_, ⟨_, rfl⟩, _, ⟨_, rfl⟩, rfl⟩, middle, _, ⟨moved, _⟩, rfl⟩
    exact ⟨middle, moved, rfl⟩
  · rintro ⟨middle, moved, rfl⟩
    exact ⟨_, ⟨_, ⟨bounded, rfl⟩, _, ⟨bounded, rfl⟩, rfl⟩, middle, _, ⟨moved, rfl⟩, rfl⟩

theorem flagCompletion_eq_self {clock : Clock}
    (flagged : accounts.stakeMeta.allTargetsRebalancedForEpoch clock.epoch = true →
      accounts.state.hasFlag rebalanceDirectedCompleteFlag = true) :
    flagCompletion clock accounts = accounts := by
  unfold flagCompletion
  split
  case isTrue complete => rw [setFlag_of_hasFlag (flagged complete)]
  case isFalse => rfl

/-- What a skip leaves is frozen exactly when everything it writes is in place. -/
theorem skipped_frozen_iff {index : Nat} {middle : StewardStateV2}
    (moved : environment.transition (flagCompletion environment.clock
      (counted accounts index environment.clock.epoch)).state = .ok middle) :
    Frozen accounts { flagCompletion environment.clock
        (counted accounts index environment.clock.epoch) with state := middle } ↔
      SkipSettled environment index accounts := by
  by_cases wasCounted : (accounts.stakeMeta.targets index).stakedLastUpdatedEpoch =
      environment.clock.epoch
  · have same : counted accounts index environment.clock.epoch = accounts := by
      change { accounts with
        stakeMeta := (counted accounts index environment.clock.epoch).stakeMeta } = accounts
      rw [counted_stakeMeta_eq_iff.mpr wasCounted]
    rw [same] at moved ⊢
    by_cases flagged : accounts.stakeMeta.allTargetsRebalancedForEpoch environment.clock.epoch =
        true → accounts.state.hasFlag rebalanceDirectedCompleteFlag = true
    · rw [flagCompletion_eq_self flagged] at moved ⊢
      have frozen := transition_frozen_iff moved
      constructor
      · intro ⟨state, _⟩
        rcases frozen.mp state with ⟨notDue, idle⟩
        exact ⟨wasCounted, flagged, notDue, idle⟩
      · intro ⟨_, _, notDue, idle⟩
        exact ⟨frozen.mpr ⟨notDue, idle⟩, rfl⟩
    · constructor
      · intro ⟨state, _⟩
        exfalso
        apply flagged
        intro complete
        have present : (flagCompletion environment.clock accounts).state.hasFlag
            rebalanceDirectedCompleteFlag = true := by
          rw [flagCompletion_hasFlag _ _ (by decide), complete]
          simp
        have kept := transition_keeps_directed moved present
        rw [StewardStateV2.hasFlag_eq] at kept ⊢
        rw [← state.statusFlags]
        exact kept
      · intro settled
        exact absurd settled.flagged flagged
  · constructor
    · intro frozen
      have sameMeta := frozen.stakeMeta
      simp only [flagCompletion_stakeMeta] at sameMeta
      exact absurd (counted_stakeMeta_eq_iff.mp sameMeta) wasCounted
    · intro settled
      exact absurd settled.counted wasCounted

end RebalanceDirected

/-! ## The pause -/

/-- A crank that is let through the pause, with an effect that a pause is to
prevent. -/
def BypassesPause (environment : Environment) (accounts : Accounts) : Instruction → Prop
  | .computeInstantUnstake _ => TransitionDue environment accounts.state
  | .rebalance inputs =>
      (environment.validatorList.accountType = .validatorList ∧
        inputs.validatorListIndex < environment.validatorList.len) ∧
      TransitionDue environment accounts.state
  | .rebalanceDirected inputs =>
      let index := inputs.directedStakeMetaIndex
      let votePubkey := (accounts.stakeMeta.targets index).votePubkey
      index < maxValidators ∧ votePubkey = inputs.voteAccount ∧
      environment.validatorList.accountType = .validatorList ∧
      match RebalanceDirected.findVoteAccount environment.validatorList votePubkey with
      | some row =>
          row < maxValidators ∧ accounts.state.stateTag = .rebalanceDirected ∧
            RebalanceDirected.DirectedDue environment accounts
      | none =>
          TransitionRuns environment accounts.state ∧
            ¬RebalanceDirected.SkipSettled environment index accounts
  | _ => False

theorem Frozen.refl (accounts : Accounts) : Frozen accounts accounts :=
  ⟨⟨rfl, rfl, rfl, rfl, rfl⟩, rfl⟩

/-- Where every success leaves the state tag, only failures freeze. -/
theorem execute_frozen_iff_fails {transaction : Transaction}
    (moves : ∀ next, transaction.process accounts = .ok next →
      next.state.stateTag ≠ accounts.state.stateTag) :
    Frozen accounts (execute accounts transaction) ↔
      ¬∃ next, transaction.process accounts = .ok next := by
  constructor
  · rintro frozen ⟨next, succeeded⟩
    apply moves next succeeded
    have same := frozen.state.stateTag
    simpa [execute, succeeded] using same
  · intro fails
    rcases execute_cases accounts transaction with unchanged | succeeded
    · rw [unchanged]
      exact .refl accounts
    · exact absurd ⟨_, succeeded⟩ fails

section Cranks

theorem computeInstantUnstake_frozen_iff {inputs : ComputeInstantUnstake.Inputs}
    (paused : environment.config.paused = true) :
    Frozen accounts (execute accounts ⟨environment, .computeInstantUnstake inputs⟩) ↔
      ¬TransitionDue environment accounts.state := by
  rw [execute_frozen_iff_fails, ← transition_moves_iff]
  · simp only [Transaction.process, Accounts.withState_eq_ok,
      ComputeInstantUnstake.handler_paused_iff paused]
    apply not_congr
    constructor
    · rintro ⟨next, moved, _⟩
      exact ⟨next.state, moved⟩
    · rintro ⟨next, moved⟩
      exact ⟨⟨next, accounts.stakeMeta⟩, moved, rfl⟩
  · intro next succeeded
    simp only [Transaction.process, Accounts.withState_eq_ok,
      ComputeInstantUnstake.handler_paused_iff paused] at succeeded
    exact succeeded.1.2.symm

theorem rebalance_frozen_iff {inputs : Rebalance.Inputs}
    (paused : environment.config.paused = true) :
    Frozen accounts (execute accounts ⟨environment, .rebalance inputs⟩) ↔
      ¬((environment.validatorList.accountType = .validatorList ∧
          inputs.validatorListIndex < environment.validatorList.len) ∧
        TransitionDue environment accounts.state) := by
  rw [execute_frozen_iff_fails, ← transition_moves_iff]
  · simp only [Transaction.process, Accounts.withState_eq_ok, Outcome.map_eq_ok, Prod.exists,
      Rebalance.handler_paused_iff paused]
    apply not_congr
    constructor
    · rintro ⟨next, ⟨_, _, ⟨listed, moved, _⟩, rfl⟩, _⟩
      exact ⟨listed, next.state, moved⟩
    · rintro ⟨listed, next, moved⟩
      exact ⟨⟨next, accounts.stakeMeta⟩, ⟨_, _, ⟨listed, moved, rfl⟩, rfl⟩, rfl⟩
  · intro next succeeded
    simp only [Transaction.process, Accounts.withState_eq_ok, Outcome.map_eq_ok, Prod.exists,
      Rebalance.handler_paused_iff paused] at succeeded
    rcases succeeded with ⟨⟨_, _, ⟨_, moved, _⟩, rfl⟩, _⟩
    exact moved.2.symm

theorem rebalanceDirected_skip_frozen_iff {inputs : RebalanceDirected.Inputs}
    (bounded : inputs.directedStakeMetaIndex < maxValidators)
    (handled : RebalanceDirected.handler environment inputs accounts = do
      return (← RebalanceDirected.skipMissing environment inputs.directedStakeMetaIndex accounts,
        .none)) :
    Frozen accounts (execute accounts ⟨environment, .rebalanceDirected inputs⟩) ↔
      ¬(TransitionRuns environment accounts.state ∧
        ¬RebalanceDirected.SkipSettled environment inputs.directedStakeMetaIndex accounts) := by
  have left : execute accounts ⟨environment, .rebalanceDirected inputs⟩ =
      Outcome.commit accounts (RebalanceDirected.skipMissing environment
        inputs.directedStakeMetaIndex accounts) := by
    simp only [execute, Transaction.process, handled]
    cases RebalanceDirected.skipMissing environment inputs.directedStakeMetaIndex accounts <;> rfl
  have runs : TransitionRuns environment accounts.state ↔
      ∃ middle, environment.transition (RebalanceDirected.flagCompletion environment.clock
        (RebalanceDirected.counted accounts inputs.directedStakeMetaIndex
          environment.clock.epoch)).state = .ok middle := by
    rw [transition_succeeds_iff, RebalanceDirected.flagCompletion_runs_iff]
    rfl
  rw [left, runs]
  cases skipped : RebalanceDirected.skipMissing environment inputs.directedStakeMetaIndex
      accounts with
  | error failure =>
      have fails : ¬∃ middle, environment.transition (RebalanceDirected.flagCompletion
          environment.clock (RebalanceDirected.counted accounts inputs.directedStakeMetaIndex
            environment.clock.epoch)).state = .ok middle := by
        rintro ⟨middle, moved⟩
        have succeeds := (RebalanceDirected.skipMissing_eq_ok bounded).mpr ⟨middle, moved, rfl⟩
        rw [skipped] at succeeds
        cases succeeds
      simp only [fails, false_and, not_false_eq_true, iff_true]
      exact .refl accounts
  | ok last =>
      rcases (RebalanceDirected.skipMissing_eq_ok bounded).mp skipped with ⟨middle, moved, rfl⟩
      rw [Outcome.commit_ok, RebalanceDirected.skipped_frozen_iff moved, not_and_not_right]
      exact ⟨fun settled _ => settled, fun settled => settled ⟨middle, moved⟩⟩

theorem rebalanceDirected_found_frozen_iff {inputs : RebalanceDirected.Inputs} {row : Nat}
    (paused : environment.config.paused = true)
    (bounded : inputs.directedStakeMetaIndex < maxValidators)
    (listed : row < environment.validatorList.len)
    (handled : RebalanceDirected.handler environment inputs accounts =
      RebalanceDirected.rebalanceFound environment inputs row accounts) :
    Frozen accounts (execute accounts ⟨environment, .rebalanceDirected inputs⟩) ↔
      ¬(row < maxValidators ∧ accounts.state.stateTag = .rebalanceDirected ∧
        RebalanceDirected.DirectedDue environment accounts) := by
  have found : (∃ result, RebalanceDirected.rebalanceFound environment inputs row accounts =
      .ok result) ↔ _ := RebalanceDirected.rebalanceFound_paused_iff paused listed
  simp only [bounded, and_true] at found
  rw [execute_frozen_iff_fails, ← found]
  · simp only [Transaction.process, handled, Outcome.map_eq_ok]
    apply not_congr
    constructor
    · rintro ⟨_, result, succeeded, _⟩
      exact ⟨result, succeeded⟩
    · rintro ⟨result, succeeded⟩
      exact ⟨result.1, result, succeeded, rfl⟩
  · intro next succeeded
    simp only [Transaction.process, handled, Outcome.map_eq_ok] at succeeded
    rcases succeeded with ⟨result, succeeded, rfl⟩
    exact RebalanceDirected.rebalanceFound_paused_moves paused succeeded

theorem rebalanceDirected_frozen_iff {inputs : RebalanceDirected.Inputs}
    (paused : environment.config.paused = true) :
    Frozen accounts (execute accounts ⟨environment, .rebalanceDirected inputs⟩) ↔
      ¬BypassesPause environment accounts (.rebalanceDirected inputs) := by
  by_cases admitted : inputs.directedStakeMetaIndex < maxValidators ∧
      (accounts.stakeMeta.targets inputs.directedStakeMetaIndex).votePubkey =
        inputs.voteAccount ∧
      environment.validatorList.accountType = .validatorList
  · rcases admitted with ⟨bounded, sameVote, kind⟩
    cases search : RebalanceDirected.findVoteAccount environment.validatorList
        inputs.voteAccount with
    | none =>
        rw [rebalanceDirected_skip_frozen_iff bounded (by
          simp [RebalanceDirected.handler, readRow, require, requireValidatorList, bounded,
            sameVote, kind, search])]
        simp only [BypassesPause, bounded, sameVote, kind, search, true_and]
    | some row =>
        have listed : row < environment.validatorList.len :=
          (List.findIdx?_eq_some_iff_getElem.mp search).1
        rw [rebalanceDirected_found_frozen_iff paused bounded listed (by
          simp [RebalanceDirected.handler, readRow, require, requireValidatorList, bounded,
            sameVote, kind, search])]
        simp only [BypassesPause, bounded, sameVote, kind, search, true_and]
  · have fails : ¬∃ next, (⟨environment, .rebalanceDirected inputs⟩ : Transaction).process
        accounts = .ok next := by
      rintro ⟨next, succeeded⟩
      simp only [Transaction.process, Outcome.map_eq_ok, RebalanceDirected.handler,
        Outcome.bind_eq_ok, readRow_eq_ok, require_eq_ok, requireValidatorList_eq_ok] at succeeded
      rcases succeeded with ⟨_, ⟨_, ⟨bounded, rfl⟩, _, sameVote, _, kind, _⟩, _⟩
      exact admitted ⟨bounded, sameVote, kind⟩
    have notBypassed : ¬BypassesPause environment accounts (.rebalanceDirected inputs) := by
      rintro ⟨bounded, sameVote, kind, _⟩
      exact admitted ⟨bounded, sameVote, kind⟩
    rw [execute_frozen_iff_fails fun next succeeded => absurd ⟨next, succeeded⟩ fails]
    exact iff_of_true fails notBypassed

end Cranks

/-! A paused pool of one validator, before and after the time to score. -/

def pausedTransaction (slot : Nat) : Transaction where
  environment := {
    clock := ⟨1, slot⟩
    epochSchedule := .withoutWarmup 1000
    config := ⟨.fixture, true⟩
    validatorList := ⟨.validatorList, [⟨2, 7, 0, .active, 1⟩], []⟩ }
  instruction := .computeInstantUnstake ⟨0, ⟨1, some slot⟩, ⟨slot⟩, .ok false⟩

def pausedAccounts : Accounts :=
  ⟨{ ReallocState.initialState 1 10 0 with currentEpoch := 1 }, .initial⟩

end Stakenet.Steward

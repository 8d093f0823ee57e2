import Stakenet.Steward.System

/-! What the transition function of the state machine can do, as a relation. The
invariants of the machine are derived from this relation, case by case. -/

namespace Stakenet.Steward

/-! ## Flags -/

private theorem and_flagAt_ne_zero (word : BitVec 32) {bit : Nat} (bounded : bit < 32) :
    (word &&& flagAt bit != 0) = word.getLsbD bit := by
  rw [flagAt, Bool.eq_iff_iff, bne_iff_ne]
  constructor
  · intro nonzero
    by_contra clear
    apply nonzero
    apply BitVec.eq_of_getLsbD_eq
    intro position positionBound
    by_cases same : position = bit
    · subst position
      simp_all
    · simp
      omega
  · intro present zero
    have atBit := congrArg (fun word : BitVec 32 => word.getLsbD bit) zero
    simp [bounded] at atBit
    rw [← BitVec.getLsbD_eq_getElem bounded, present] at atBit
    contradiction

private theorem getLsbD_flagAt {bit position : Nat} (bounded : position < 32) :
    (flagAt bit).getLsbD position = decide (position = bit) := by
  rw [flagAt, Bool.eq_iff_iff]
  simp [bounded]
  omega

/-- Whether a flag is among the status flags. -/
def flagSet (flags : BitVec 32) (flag : StatusFlag) : Bool := flags &&& flag != 0

/-- Turns every flag test into one on the status flags, where record updates
reduce. -/
theorem StewardStateV2.hasFlag_eq (state : StewardStateV2) (flag : StatusFlag) :
    state.hasFlag flag = flagSet state.statusFlags flag := rfl

theorem flagSet_flagAt (flags : BitVec 32) {bit : Nat} (bounded : bit < 32) :
    flagSet flags (flagAt bit) = flags.getLsbD bit :=
  and_flagAt_ne_zero flags bounded

/-- The status flags are determined by the flags they hold. -/
theorem flags_eq_iff {flags other : BitVec 32} :
    flags = other ↔ ∀ bit < 32, flagSet flags (flagAt bit) = flagSet other (flagAt bit) := by
  constructor
  · rintro rfl bit _
    rfl
  · intro same
    apply BitVec.eq_of_getLsbD_eq
    intro bit bounded
    have atBit := same bit bounded
    rwa [flagSet_flagAt _ bounded, flagSet_flagAt _ bounded] at atBit

@[simp] theorem flagSet_or (flags : BitVec 32) (bit other : Nat) (bounded : other < 32) :
    flagSet (flags ||| flagAt bit) (flagAt other) =
      (flagSet flags (flagAt other) || decide (other = bit)) := by
  rw [flagSet_flagAt _ bounded, flagSet_flagAt _ bounded, BitVec.getLsbD_or,
    getLsbD_flagAt bounded]

@[simp] theorem flagSet_and_not (flags : BitVec 32) (bit other : Nat) (bounded : other < 32) :
    flagSet (flags &&& ~~~flagAt bit) (flagAt other) =
      (flagSet flags (flagAt other) && !decide (other = bit)) := by
  rw [flagSet_flagAt _ bounded, flagSet_flagAt _ bounded, BitVec.getLsbD_and,
    BitVec.getLsbD_not, getLsbD_flagAt bounded]
  simp [bounded]

@[simp] theorem flagSet_zero (flag : StatusFlag) : flagSet 0#32 flag = false := by
  simp [flagSet]

@[simp] theorem flagSet_single (bit other : Nat) (bounded : other < 32) :
    flagSet (flagAt bit) (flagAt other) = decide (other = bit) := by
  rw [flagSet_flagAt _ bounded, getLsbD_flagAt bounded]

namespace StewardStateV2

/-- Clearing several flags at once is clearing them one by one. -/
theorem unsetFlag_or (state : StewardStateV2) (first second : StatusFlag) :
    state.unsetFlag (first ||| second) = (state.unsetFlag first).unsetFlag second := by
  simp [unsetFlag, BitVec.not_or, BitVec.and_assoc]

end StewardStateV2

/-! ## Moves of the state machine -/

/-- The state `transition_idle` works with. -/
abbrev StewardStateV2.rolledOver (state : StewardStateV2) (clock : Clock) : StewardStateV2 :=
  state.rollOverCycle clock.epoch

/-- The roll-over of a cycle writes the flags and clears two marks. -/
theorem StewardStateV2.rollOverCycle_others (state : StewardStateV2) (epoch : Nat) :
    state.rollOverCycle epoch = { state with
      statusFlags := (state.rollOverCycle epoch).statusFlags
      progress := (state.rollOverCycle epoch).progress
      instantUnstake := (state.rollOverCycle epoch).instantUnstake } := by
  simp only [rollOverCycle]
  split <;> rfl

/-- What the transition function makes of a state, one constructor for each way
through it. `progress` is the progress through the epoch of `clock`. -/
inductive Move (clock : Clock) (parameters : Parameters) (progress : ℚ) :
    StewardStateV2 → StewardStateV2 → Prop
  | stay {state} :
      state.stateTag ≠ .idle →
      (state.stateTag = .computeDelegations → state.hasFlag computeDelegationsFlag = false) →
      Move clock parameters progress state state
  | scoresComplete {state} :
      state.stateTag = .computeScores →
      state.numPoolValidators ≤ maxValidators →
      (∀ index < state.numPoolValidators, state.progress.contains index = true) →
      Move clock parameters progress state ({ state with
        stateTag := .computeDelegations
        progress := .empty
        delegations := fun _ => .none }.setFlag computeScoreFlag)
  | delegationsComplete {state} :
      state.stateTag = .computeDelegations →
      state.hasFlag computeDelegationsFlag = true →
      Move clock parameters progress state { state with stateTag := .idle }
  | startScoring {state} :
      state.stateTag = .idle →
      (state.rolledOver clock).hasFlag rebalanceDirectedCompleteFlag = true →
      (state.rolledOver clock).hasFlag computeDelegationsFlag = false →
      parameters.computeScoreEpochProgress ≤ progress →
      Move clock parameters progress state { state.rolledOver clock with
        progress := .empty, stateTag := .computeScores, instantUnstake := .empty }
  | startInstantUnstake {state} :
      state.stateTag = .idle →
      ((state.rolledOver clock).hasFlag rebalanceDirectedCompleteFlag = false ∨
        (state.rolledOver clock).hasFlag computeDelegationsFlag = true ∨
        progress < parameters.computeScoreEpochProgress) →
      (state.rolledOver clock).hasFlag rebalanceFlag = false →
      parameters.instantUnstakeEpochProgress ≤ progress →
      Move clock parameters progress state
        { ((state.rolledOver clock).unsetFlag resetToIdleFlag).setFlag preLoopIdleFlag with
          stateTag := .computeInstantUnstake, instantUnstake := .empty, progress := .empty }
  | waitBeforeLoop {state} :
      state.stateTag = .idle →
      (state.rolledOver clock).hasFlag rebalanceFlag = false →
      Move clock parameters progress state
        (((state.rolledOver clock).unsetFlag resetToIdleFlag).setFlag preLoopIdleFlag)
  | waitAfterLoop {state} :
      state.stateTag = .idle →
      (state.rolledOver clock).hasFlag rebalanceFlag = true →
      Move clock parameters progress state
        ((state.rolledOver clock).setFlag postLoopIdleFlag)
  | instantUnstakeComplete {state} :
      state.stateTag = .computeInstantUnstake →
      (∀ index < state.numPoolValidators, state.progress.contains index = true) →
      Move clock parameters progress state
        ({ state with stateTag := .rebalance, progress := .empty }.setFlag
          computeInstantUnstakesFlag)
  | rebalanceAborted {state} :
      state.stateTag = .rebalance →
      state.hasFlag resetToIdleFlag = true →
      Move clock parameters progress state { state with stateTag := .idle, progress := .empty }
  | rebalanceComplete {state} :
      state.stateTag = .rebalance →
      state.hasFlag resetToIdleFlag = false →
      (∀ index < state.numPoolValidators, state.progress.contains index = true) →
      Move clock parameters progress state
        ({ state with stateTag := .idle }.setFlag rebalanceFlag)
  | directedComplete {state} :
      state.stateTag = .rebalanceDirected →
      state.hasFlag rebalanceDirectedCompleteFlag = true →
      Move clock parameters progress state { state with stateTag := .idle }
  | directedTimeout {state} :
      state.stateTag = .rebalanceDirected →
      state.hasFlag rebalanceDirectedCompleteFlag = false →
      parameters.computeScoreEpochProgress ≤ progress →
      Move clock parameters progress state
        { state.setFlag rebalanceDirectedCompleteFlag with stateTag := .idle }

section Inversion

variable {clock : Clock} {parameters : Parameters} {epochSchedule : EpochSchedule}
variable {progress : ℚ} {state next : StewardStateV2}

theorem move_of_transitionComputeScores (tag : state.stateTag = .computeScores)
    (moved : state.transitionComputeScores = .ok next) :
    Move clock parameters progress state next := by
  simp only [StewardStateV2.transitionComputeScores, Outcome.bind_eq_ok] at moved
  rcases moved with ⟨complete, checked, moved⟩
  rw [BitMask.isComplete_eq_ok] at checked
  cases complete with
  | true =>
      simp only [if_true, Outcome.pure_eq_ok] at moved
      subst next
      exact .scoresComplete tag checked.1 (checked.2.mp rfl)
  | false =>
      simp only [Bool.false_eq_true, if_false, Outcome.pure_eq_ok] at moved
      subst next
      exact .stay (by simp [tag]) (by simp [tag])

theorem move_of_transitionComputeInstantUnstake
    (tag : state.stateTag = .computeInstantUnstake)
    (moved : state.transitionComputeInstantUnstake = .ok next) :
    Move clock parameters progress state next := by
  simp only [StewardStateV2.transitionComputeInstantUnstake, Outcome.bind_eq_ok] at moved
  rcases moved with ⟨complete, checked, moved⟩
  rw [BitMask.isComplete_eq_ok] at checked
  cases complete with
  | true =>
      simp only [if_true, Outcome.pure_eq_ok] at moved
      subst next
      exact .instantUnstakeComplete tag (checked.2.mp rfl)
  | false =>
      simp only [Bool.false_eq_true, if_false, Outcome.pure_eq_ok] at moved
      subst next
      exact .stay (by simp [tag]) (by simp [tag])

theorem move_of_transitionRebalance (tag : state.stateTag = .rebalance)
    (moved : state.transitionRebalance = .ok next) :
    Move clock parameters progress state next := by
  simp only [StewardStateV2.transitionRebalance] at moved
  cases aborted : state.hasFlag resetToIdleFlag with
  | true =>
      simp only [aborted, if_true, Outcome.pure_eq_ok] at moved
      subst next
      exact .rebalanceAborted tag aborted
  | false =>
      simp only [aborted, Bool.false_eq_true, if_false, Outcome.bind_eq_ok] at moved
      rcases moved with ⟨complete, checked, moved⟩
      rw [BitMask.isComplete_eq_ok] at checked
      cases complete with
      | true =>
          simp only [if_true, Outcome.pure_eq_ok] at moved
          subst next
          exact .rebalanceComplete tag aborted (checked.2.mp rfl)
      | false =>
          simp only [Bool.false_eq_true, if_false, Outcome.pure_eq_ok] at moved
          subst next
          exact .stay (by simp [tag]) (by simp [tag])

theorem move_of_transitionIdle (tag : state.stateTag = .idle) :
    Move clock parameters progress state (state.transitionIdle clock.epoch progress
      parameters.instantUnstakeEpochProgress parameters.computeScoreEpochProgress) := by
  simp only [StewardStateV2.transitionIdle]
  split
  case isTrue scoring =>
      simp only [Bool.and_eq_true, Bool.not_eq_true', decide_eq_true_eq] at scoring
      exact .startScoring tag scoring.1.1 scoring.1.2 scoring.2
  case isFalse notScoring =>
      split
      case isTrue pending =>
          rw [Bool.not_eq_true'] at pending
          split
          case isTrue late =>
              apply Move.startInstantUnstake tag _ pending late
              simp only [Bool.and_eq_true, Bool.not_eq_true', decide_eq_true_eq,
                not_and_or, Bool.not_eq_true, Bool.not_eq_false, not_le] at notScoring
              exact or_assoc.mp notScoring
          case isFalse early => exact .waitBeforeLoop tag pending
      case isFalse completed =>
          rw [Bool.not_eq_true', Bool.not_eq_false] at completed
          exact .waitAfterLoop tag completed

theorem move_of_transitionRebalanceDirected (tag : state.stateTag = .rebalanceDirected) :
    Move clock parameters progress state
      (state.transitionRebalanceDirected progress parameters.computeScoreEpochProgress) := by
  simp only [StewardStateV2.transitionRebalanceDirected]
  split
  case isTrue complete => exact .directedComplete tag complete
  case isFalse incomplete =>
      split
      case isTrue late =>
          exact .directedTimeout tag (Bool.eq_false_of_not_eq_true incomplete) late
      case isFalse early => exact .stay (by simp [tag]) (by simp [tag])

/-- A successful transition is a move, at the progress of its clock. -/
theorem move_of_transition
    (moved : state.transition clock parameters epochSchedule = .ok next) :
    ∃ progress, epochProgress clock epochSchedule = .ok progress ∧
      Move clock parameters progress state next := by
  simp only [StewardStateV2.transition, Outcome.bind_eq_ok] at moved
  rcases moved with ⟨progress, measured, moved⟩
  refine ⟨progress, measured, ?_⟩
  cases tag : state.stateTag with
  | computeScores =>
      rw [tag] at moved
      exact move_of_transitionComputeScores tag moved
  | computeDelegations =>
      rw [tag] at moved
      cases moved
      unfold StewardStateV2.transitionComputeDelegations
      split
      case isTrue computed => exact .delegationsComplete tag computed
      case isFalse pending =>
          exact .stay (by simp [tag]) fun _ => Bool.eq_false_of_not_eq_true pending
  | idle =>
      rw [tag] at moved
      cases moved
      exact move_of_transitionIdle tag
  | computeInstantUnstake =>
      rw [tag] at moved
      exact move_of_transitionComputeInstantUnstake tag moved
  | rebalance =>
      rw [tag] at moved
      exact move_of_transitionRebalance tag moved
  | rebalanceDirected =>
      rw [tag] at moved
      cases moved
      exact move_of_transitionRebalanceDirected tag

end Inversion

end Stakenet.Steward

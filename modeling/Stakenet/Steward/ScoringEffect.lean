import Stakenet.Steward.InstantUnstake
import Stakenet.Steward.Transitions

/-! What successful calls of the scoring functions leave in the state account. -/

namespace Stakenet.Steward

variable {state next started : StewardStateV2} {clock : Clock} {config : Config}

/-! ## Restarts -/

/-- The state at the start of a cycle. Of the flags only two survive. -/
structure CycleReset (state : StewardStateV2) (currentEpoch numEpochsBetweenScoring : Nat)
    (next : StewardStateV2) : Prop where
  flags : ∀ bit < 32, next.hasFlag (flagAt bit) =
    (state.hasFlag (flagAt bit) && (decide (bit = 2) || decide (bit = 7)))
  nextCycleEpoch : next.nextCycleEpoch = currentEpoch + numEpochsBetweenScoring
  others : next = { state with
    scores := fun _ => 0
    rawScores := fun _ => 0
    progress := .empty
    nextCycleEpoch := next.nextCycleEpoch
    startComputingScoresSlot := next.startComputingScoresSlot
    scoringUnstakeTotal := 0
    instantUnstakeTotal := 0
    stakeDepositUnstakeTotal := 0
    delegations := fun _ => .none
    instantUnstake := .empty
    statusFlags := next.statusFlags }

theorem cycleReset_of_resetStateForNewCycle {currentEpoch currentSlot count : Nat}
    (reset : state.resetStateForNewCycle currentEpoch currentSlot count = .ok next) :
    CycleReset state currentEpoch count next := by
  simp only [StewardStateV2.resetStateForNewCycle, Outcome.bind_eq_ok, checkedAdd_eq_ok,
    Outcome.pure_eq_ok] at reset
  rcases reset with ⟨_, ⟨_, rfl⟩, rfl⟩
  cases maintained : state.hasFlag epochMaintenanceFlag <;>
    cases directed : state.hasFlag rebalanceDirectedCompleteFlag
  all_goals
    refine ⟨fun bit bounded => ?_, rfl, rfl⟩
    by_cases isMaintenance : bit = 2
    · subst bit
      simp_all [StewardStateV2.hasFlag_eq]
    · by_cases isDirected : bit = 7
      · subst bit
        simp_all [StewardStateV2.hasFlag_eq]
      · simp_all [StewardStateV2.hasFlag_eq]

/-- A restart also takes over the length of the validator list. -/
theorem restartScoring_eq_ok {length : Nat}
    (restarting : state.restartScoring clock config length = .ok next) :
    ∃ reset, CycleReset state clock.epoch config.parameters.numEpochsBetweenScoring reset ∧
      length = state.numPoolValidators + state.validatorsAdded ∧
      next = { reset with numPoolValidators := length, validatorsAdded := 0 } := by
  simp only [StewardStateV2.restartScoring, Outcome.bind_eq_ok, require_eq_ok,
    Outcome.pure_eq_ok] at restarting
  rcases restarting with ⟨reset, resetting, _, matching, rfl⟩
  have effect := cycleReset_of_resetStateForNewCycle resetting
  have pool : reset.numPoolValidators = state.numPoolValidators :=
    congrArg (·.numPoolValidators) effect.others
  have added : reset.validatorsAdded = state.validatorsAdded :=
    congrArg (·.validatorsAdded) effect.others
  exact ⟨reset, effect, by rw [← pool, ← added]; exact matching, rfl⟩

/-- Scoring goes on as it is, or starts over. -/
theorem startScoring_cases {length : Nat}
    (starting : state.startScoring clock config length = .ok started) :
    (state.scoringRestarts clock config = .ok false ∧ started = state) ∨
      (state.scoringRestarts clock config = .ok true ∧
        state.restartScoring clock config length = .ok started) := by
  simp only [StewardStateV2.startScoring, Outcome.bind_eq_ok] at starting
  rcases starting with ⟨restarts, decided, starting⟩
  cases restarts with
  | true => exact .inr ⟨decided, starting⟩
  | false => exact .inl ⟨decided, (Outcome.pure_eq_ok.mp starting).symm⟩

/-! ## One scored validator -/

/-- The arrays that scoring a validator writes. -/
structure ScoreRecorded (state : StewardStateV2) (index score rawScore : Nat)
    (next : StewardStateV2) : Prop where
  valid : index < maxValidators
  ranked : insertSortedIndex state.sortedScoreIndices (Function.update state.scores index score)
    (castU16 index) score state.progress.count = .ok next.sortedScoreIndices
  rawRanked : insertSortedIndex state.sortedRawScoreIndices
    (Function.update state.rawScores index rawScore) (castU16 index) rawScore
    state.progress.count = .ok next.sortedRawScoreIndices
  progress : state.progress.set index true = .ok next.progress
  others : next = { state with
    scores := Function.update state.scores index score
    rawScores := Function.update state.rawScores index rawScore
    sortedScoreIndices := next.sortedScoreIndices
    sortedRawScoreIndices := next.sortedRawScoreIndices
    progress := next.progress }

theorem scoreRecorded_of_recordScore {index score rawScore : Nat}
    (recording : state.recordScore index score rawScore = .ok next) :
    ScoreRecorded state index score rawScore next := by
  simp only [StewardStateV2.recordScore, Outcome.bind_eq_ok, writeRow_eq_ok,
    Outcome.pure_eq_ok] at recording
  rcases recording with ⟨_, ⟨valid, rfl⟩, _, ⟨_, rfl⟩, ranking, ranked, rawRanking, rawRanked,
    progress, marked, rfl⟩
  exact ⟨valid, ranked, rawRanked, marked, rfl⟩

section Score

variable {epochSchedule : EpochSchedule} {validator : ValidatorHistory} {index : Nat}
variable {cluster : ClusterHistory} {validatorScore : Result ScoreComponents}
variable {components : Option ScoreComponents}

theorem scoreValidator_cases
    (scoring : state.scoreValidator clock epochSchedule validator index cluster validatorScore =
      .ok (next, components)) :
    (state.progress.contains index = true ∧ next = state) ∨
      (state.progress.contains index = false ∧
        ∃ score rawScore, ScoreRecorded state index score rawScore next) := by
  simp only [StewardStateV2.scoreValidator, Outcome.bind_eq_ok, BitMask.get_eq_ok] at scoring
  rcases scoring with ⟨_, ⟨_, rfl⟩, scoring⟩
  cases processed : state.progress.contains index with
  | true =>
      simp only [processed, if_true, Outcome.pure_eq_ok, Prod.mk.injEq] at scoring
      exact .inl ⟨rfl, scoring.1.symm⟩
  | false =>
      refine .inr ⟨rfl, ?_⟩
      simp only [processed, Bool.false_eq_true, if_false, Outcome.bind_eq_ok] at scoring
      rcases scoring with ⟨toRemove, _, immediate, _, scoring⟩
      split at scoring
      case isTrue =>
          simp only [Outcome.bind_eq_ok, Outcome.pure_eq_ok, Prod.mk.injEq] at scoring
          rcases scoring with ⟨last, recording, rfl, _⟩
          exact ⟨0, 0, scoreRecorded_of_recordScore recording⟩
      case isFalse =>
          simp only [Outcome.bind_eq_ok, Outcome.pure_eq_ok, Prod.mk.injEq] at scoring
          rcases scoring with ⟨_, _, computed, _, last, recording, rfl, _⟩
          exact ⟨computed.score, computed.rawScore, scoreRecorded_of_recordScore recording⟩

/-- A call of `compute_score` starts, or starts over, and then skips or records
one validator. -/
theorem computeScore_cases {length : Nat}
    (computed : state.computeScore clock epochSchedule validator index cluster config length
      validatorScore = .ok (next, components)) :
    state.stateTag = .computeScores ∧ ∃ started,
      state.startScoring clock config length = .ok started ∧
      ((started.progress.contains index = true ∧ next = started) ∨
        (started.progress.contains index = false ∧
          ∃ score rawScore, ScoreRecorded started index score rawScore next)) := by
  simp only [StewardStateV2.computeScore] at computed
  split at computed
  case isTrue tag =>
      simp only [Outcome.bind_eq_ok] at computed
      rcases computed with ⟨started, starting, scoring⟩
      exact ⟨tag, started, starting, scoreValidator_cases scoring⟩
  case isFalse => simp at computed

/-- Scoring never leaves its state or its epoch. The flags and the next cycle
change only when it starts over. -/
theorem computeScore_control {length : Nat}
    (computed : state.computeScore clock epochSchedule validator index cluster config length
      validatorScore = .ok (next, components)) :
    next.control = state.control ∨
      ∃ reset, CycleReset state clock.epoch config.parameters.numEpochsBetweenScoring reset ∧
        next.control = reset.control := by
  rcases computeScore_cases computed with ⟨_, started, starting, cases⟩
  have kept : next.control = started.control := by
    rcases cases with ⟨_, rfl⟩ | ⟨_, score, rawScore, recorded⟩
    · rfl
    · exact congrArg (·.control) recorded.others
  rcases startScoring_cases starting with ⟨_, rfl⟩ | ⟨_, restarting⟩
  · exact .inl kept
  · rcases restartScoring_eq_ok restarting with ⟨reset, effect, _, rfl⟩
    exact .inr ⟨reset, effect, kept⟩

theorem computeInstantUnstake_others {instantUnstakeValidator : Result Bool}
    {verdict : Option Bool}
    (computed : state.computeInstantUnstake clock epochSchedule validator index cluster config
      instantUnstakeValidator = .ok (next, verdict)) :
    next = { state with instantUnstake := next.instantUnstake, progress := next.progress } := by
  simp only [StewardStateV2.computeInstantUnstake] at computed
  split at computed
  case isFalse => simp at computed
  case isTrue =>
    split at computed
    case isTrue => simp at computed
    case isFalse =>
      simp only [Outcome.bind_eq_ok] at computed
      rcases computed with ⟨progress, _, computed⟩
      split at computed
      case isTrue => simp at computed
      case isFalse =>
        simp only [Outcome.bind_eq_ok] at computed
        rcases computed with ⟨processed, _, computed⟩
        split at computed
        case isTrue =>
            cases computed
            rfl
        case isFalse =>
            simp only [Outcome.bind_eq_ok] at computed
            rcases computed with ⟨toRemove, _, immediate, _, computed⟩
            split at computed
            · simp only [Outcome.bind_eq_ok, Outcome.pure_eq_ok, Prod.mk.injEq] at computed
              rcases computed with ⟨mask, _, rfl, _⟩
              rfl
            · simp only [Outcome.bind_eq_ok, Outcome.pure_eq_ok, Prod.mk.injEq] at computed
              rcases computed with ⟨_, _, value, _, unstake, _, mask, _, rfl, _⟩
              rfl

end Score

/-! ## Delegations -/

theorem computeDelegations_cases {currentEpoch : Nat}
    (computed : state.computeDelegations currentEpoch config = .ok next) :
    state.stateTag = .computeDelegations ∧ currentEpoch < state.nextCycleEpoch ∧
    state.numPoolValidators ≤ maxValidators ∧
    ∃ selected delegations,
      selectValidatorsToDelegate state.scores state.sortedScoreIndices
        state.numPoolValidators config.parameters.numDelegationValidators = .ok selected ∧
      selected.foldlM (fun delegations index =>
        writeRow delegations index ⟨1, selected.length⟩) state.delegations = .ok delegations ∧
      next = { state with delegations := delegations }.setFlag computeDelegationsFlag := by
  simp only [StewardStateV2.computeDelegations] at computed
  split at computed
  case isFalse => simp at computed
  case isTrue tag =>
    split at computed
    case isTrue => simp at computed
    case isFalse running =>
      split at computed
      case isTrue => simp at computed
      case isFalse bounded =>
        simp only [Outcome.bind_eq_ok, Outcome.pure_eq_ok] at computed
        rcases computed with ⟨selected, selecting, delegations, writing, rfl⟩
        exact ⟨tag, by omega, by omega, selected, delegations, selecting, writing, rfl⟩

end Stakenet.Steward

import Stakenet.Steward.State
import Stakenet.Steward.ValidatorList

/-! Scoring of validators, the two rankings built while scores come in, and the
delegations computed from the finished ranking. -/

namespace Stakenet.Steward

/-! ## Ranking -/

/-- Inserts `index` before the first ranked validator of a smaller score, and at
the end if there is none. Positions from `currentLen` on are not ranked yet. -/
def insertSortedIndex (sortedIndices scores : Nat → Nat) (index score currentLen : Nat) :
    Result (Nat → Nat) := do
  -- assert!(current_len <= sorted_indices.len())
  if maxValidators < currentLen then .error .panicked
  let position ← findPosition
    (fun position => do return decide ((← readRow scores (sortedIndices position)) < score))
    0 currentLen
  let insertAt := position.getD currentLen
  let shifted ← forRangeRev insertAt currentLen
    (fun position indices => do
      writeRow indices (position + 1) (← readRow indices position)) sortedIndices
  writeRow shifted insertAt index

/-! ## Scores -/

/-- The fields of `ScoreComponentsV5` that the state machine stores. -/
structure ScoreComponents where
  score : Nat
  rawScore : Nat

/-- A validator history account, as the crank instructions read it. The score
and the instant-unstake verdict computed from its entries are arguments of the
instructions. -/
structure ValidatorHistory where
  voteAccount : Pubkey
  voteAccountLastUpdateSlotLatest : Option Nat

structure ClusterHistory where
  clusterHistoryLastUpdateSlot : Nat

namespace StewardStateV2

/-- Stores a validator's scores, ranks it by both, and marks it as processed. -/
def recordScore (state : StewardStateV2) (index score rawScore : Nat) :
    Result StewardStateV2 := do
  let scores ← writeRow state.scores index score
  let rawScores ← writeRow state.rawScores index rawScore
  let numScoresCalculated := state.progress.count
  let sortedScoreIndices ← insertSortedIndex state.sortedScoreIndices scores
    (castU16 index) score numScoresCalculated
  let sortedRawScoreIndices ← insertSortedIndex state.sortedRawScoreIndices rawScores
    (castU16 index) rawScore numScoresCalculated
  let progress ← state.progress.set index true
  return { state with
    scores := scores
    rawScores := rawScores
    sortedScoreIndices := sortedScoreIndices
    sortedRawScoreIndices := sortedRawScoreIndices
    progress := progress }

/-- Scoring starts over on a new cycle, in a new epoch, and when it has been
going on for more than `compute_score_slot_range` slots. -/
def scoringRestarts (state : StewardStateV2) (clock : Clock) (config : Config) :
    Result Bool := do
  let slotsSinceScoringStarted ← checkedSub clock.slot state.startComputingScoresSlot
  return state.progress.isEmpty || decide (state.currentEpoch < clock.epoch) ||
    decide (config.parameters.computeScoreSlotRange < slotsSinceScoringStarted)

/-- Resets the cycle and takes over the length of the validator list. -/
def restartScoring (state : StewardStateV2) (clock : Clock) (config : Config)
    (numPoolValidators : Nat) : Result StewardStateV2 := do
  let reset ← state.resetStateForNewCycle clock.epoch clock.slot
    config.parameters.numEpochsBetweenScoring
  require (numPoolValidators = reset.numPoolValidators + reset.validatorsAdded)
    .listStateMismatch
  return { reset with numPoolValidators := numPoolValidators, validatorsAdded := 0 }

/-- The state that a scoring call works on. -/
def startScoring (state : StewardStateV2) (clock : Clock) (config : Config)
    (numPoolValidators : Nat) : Result StewardStateV2 := do
  if ← state.scoringRestarts clock config then
    state.restartScoring clock config numPoolValidators
  else
    return state

/-- The two freshness checks that precede scoring. -/
def checkScoringInputs (clock : Clock) (epochSchedule : EpochSchedule)
    (validator : ValidatorHistory) (cluster : ClusterHistory) : Result Unit := do
  match validator.voteAccountLastUpdateSlotLatest with
  | none => fail .voteHistoryNotRecentEnough
  | some lastUpdateSlot =>
      require (epochSchedule.getFirstSlotInEpoch clock.epoch ≤ lastUpdateSlot)
        .voteHistoryNotRecentEnough
      require (epochSchedule.getFirstSlotInEpoch clock.epoch ≤
        cluster.clusterHistoryLastUpdateSlot) .clusterHistoryNotRecentEnough

/-- The part of `compute_score` after the restart: skip what is processed, rank
what is marked for removal last, score the rest. -/
def scoreValidator (state : StewardStateV2) (clock : Clock) (epochSchedule : EpochSchedule)
    (validator : ValidatorHistory) (index : Nat) (cluster : ClusterHistory)
    (validatorScore : Result ScoreComponents) :
    Result (StewardStateV2 × Option ScoreComponents) := do
  if ← state.progress.get index then
    return (state, none)
  else if (← state.validatorsToRemove.get index) ||
      (← state.validatorsForImmediateRemoval.get index) then
    return (← state.recordScore index 0 0, none)
  else
    checkScoringInputs clock epochSchedule validator cluster
    let scoreComponents ← validatorScore
    return (← state.recordScore index scoreComponents.score scoreComponents.rawScore,
      some scoreComponents)

/-- One call per validator, in any order. `validatorScore` is the value of
`validator_score` on this history, cluster history and configuration. -/
def computeScore (state : StewardStateV2) (clock : Clock) (epochSchedule : EpochSchedule)
    (validator : ValidatorHistory) (index : Nat) (cluster : ClusterHistory)
    (config : Config) (numPoolValidators : Nat) (validatorScore : Result ScoreComponents) :
    Result (StewardStateV2 × Option ScoreComponents) := do
  if state.stateTag = .computeScores then
    let started ← state.startScoring clock config numPoolValidators
    started.scoreValidator clock epochSchedule validator index cluster validatorScore
  else
    fail .invalidState

end StewardStateV2

/-! ## Delegations -/

/-- The rows ranked before the first zero score, at most
`numDelegationValidators` of them. Both slices have length `length`; when no
score is zero the cut is at `numDelegationValidators` whatever the length. -/
def selectValidatorsToDelegate (scores sortedScoreIndices : Nat → Nat)
    (length numDelegationValidators : Nat) : Result (List Nat) := do
  let firstZero ← findPosition
    (fun position =>
      if sortedScoreIndices position < length then
        .ok (scores (sortedScoreIndices position) == 0)
      else
        .error .panicked) 0 length
  let lastValidIndex := firstZero.getD numDelegationValidators
  let selected := min lastValidIndex numDelegationValidators
  if length < selected then .error .panicked
  return (List.range selected).map sortedScoreIndices

namespace StewardStateV2

def computeDelegations (state : StewardStateV2) (currentEpoch : Nat) (config : Config) :
    Result StewardStateV2 := do
  if state.stateTag = .computeDelegations then
    if state.nextCycleEpoch ≤ currentEpoch then
      fail .invalidState
    else
      if maxValidators < state.numPoolValidators then .error .panicked
      let validatorsToDelegate ← selectValidatorsToDelegate state.scores
        state.sortedScoreIndices state.numPoolValidators
        config.parameters.numDelegationValidators
      let delegations ← validatorsToDelegate.foldlM
        (fun delegations index =>
          writeRow delegations index ⟨1, validatorsToDelegate.length⟩) state.delegations
      return { state with delegations := delegations }.setFlag computeDelegationsFlag
  else
    fail .invalidState

end StewardStateV2

end Stakenet.Steward

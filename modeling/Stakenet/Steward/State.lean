import Stakenet.Steward.BitMask
import Stakenet.Steward.Parameters

/-! The Steward state account, its status flags, the transition functions of
the state machine and the reset at the start of a cycle. -/

namespace Stakenet.Steward

inductive StewardStateEnum
  | computeScores
  | computeDelegations
  | idle
  | computeInstantUnstake
  | rebalance
  | rebalanceDirected
  deriving DecidableEq, Repr

/-- Target share of the pool as a proportion. -/
structure Delegation where
  numerator : Nat
  denominator : Nat
  deriving DecidableEq, Repr

/-- `Delegation::default()`: no share. -/
def Delegation.none : Delegation := ⟨0, 1⟩

structure StewardStateV2 where
  stateTag : StewardStateEnum
  validatorLamportBalances : Nat → Nat
  scores : Nat → Nat
  sortedScoreIndices : Nat → Nat
  sortedRawScoreIndices : Nat → Nat
  delegations : Nat → Delegation
  instantUnstake : BitMask
  progress : BitMask
  validatorsForImmediateRemoval : BitMask
  validatorsToRemove : BitMask
  startComputingScoresSlot : Nat
  currentEpoch : Nat
  nextCycleEpoch : Nat
  numPoolValidators : Nat
  scoringUnstakeTotal : Nat
  instantUnstakeTotal : Nat
  stakeDepositUnstakeTotal : Nat
  statusFlags : BitVec 32
  validatorsAdded : Nat
  rawScores : Nat → Nat

/-- The fields that decide which phase the machine is in and which comes next. -/
structure Control where
  stateTag : StewardStateEnum
  statusFlags : BitVec 32
  currentEpoch : Nat
  nextCycleEpoch : Nat

@[simps] def StewardStateV2.control (state : StewardStateV2) : Control where
  stateTag := state.stateTag
  statusFlags := state.statusFlags
  currentEpoch := state.currentEpoch
  nextCycleEpoch := state.nextCycleEpoch

/-! ## Status flags -/

abbrev StatusFlag := BitVec 32

/-- `1 << bit`. -/
def flagAt (bit : Nat) : StatusFlag := 1#32 <<< bit

abbrev computeScoreFlag : StatusFlag := flagAt 0
abbrev computeDelegationsFlag : StatusFlag := flagAt 1
abbrev epochMaintenanceFlag : StatusFlag := flagAt 2
abbrev preLoopIdleFlag : StatusFlag := flagAt 3
abbrev computeInstantUnstakesFlag : StatusFlag := flagAt 4
abbrev rebalanceFlag : StatusFlag := flagAt 5
abbrev postLoopIdleFlag : StatusFlag := flagAt 6
abbrev rebalanceDirectedCompleteFlag : StatusFlag := flagAt 7
abbrev resetToIdleFlag : StatusFlag := flagAt 16

namespace StewardStateV2

@[simps] def setFlag (state : StewardStateV2) (flag : StatusFlag) : StewardStateV2 :=
  { state with statusFlags := state.statusFlags ||| flag }

@[simps] def clearFlags (state : StewardStateV2) : StewardStateV2 :=
  { state with statusFlags := 0 }

@[simps] def unsetFlag (state : StewardStateV2) (flag : StatusFlag) : StewardStateV2 :=
  { state with statusFlags := state.statusFlags &&& ~~~flag }

def hasFlag (state : StewardStateV2) (flag : StatusFlag) : Bool :=
  state.statusFlags &&& flag != 0

/-! ## Transitions -/

def transitionComputeScores (state : StewardStateV2) : Result StewardStateV2 := do
  if ← state.progress.isComplete state.numPoolValidators then
    return { state with
      stateTag := .computeDelegations
      progress := .empty
      delegations := fun _ => .none }.setFlag computeScoreFlag
  else
    return state

def transitionComputeDelegations (state : StewardStateV2) : StewardStateV2 :=
  if state.hasFlag computeDelegationsFlag then { state with stateTag := .idle } else state

/-- A due cycle forgets the scores and delegations of the last one. -/
def rollOverCycle (state : StewardStateV2) (currentEpoch : Nat) : StewardStateV2 :=
  if state.nextCycleEpoch ≤ currentEpoch then
    { (state.unsetFlag computeScoreFlag).unsetFlag computeDelegationsFlag with
      instantUnstake := .empty
      progress := .empty }
  else
    state

def transitionIdle (state : StewardStateV2) (currentEpoch : Nat)
    (epochProgress minEpochProgressForInstantUnstake minEpochProgressForComputeScores : ℚ) :
    StewardStateV2 :=
  let state := state.rollOverCycle currentEpoch
  let completedLoop := state.hasFlag rebalanceFlag
  let completedDirectedRebalance := state.hasFlag rebalanceDirectedCompleteFlag
  let completedComputeDelegations := state.hasFlag computeDelegationsFlag
  if completedDirectedRebalance && !completedComputeDelegations &&
      decide (minEpochProgressForComputeScores ≤ epochProgress) then
    { state with progress := .empty, stateTag := .computeScores, instantUnstake := .empty }
  else if !completedLoop then
    let state := (state.unsetFlag resetToIdleFlag).setFlag preLoopIdleFlag
    if minEpochProgressForInstantUnstake ≤ epochProgress then
      { state with
        stateTag := .computeInstantUnstake, instantUnstake := .empty, progress := .empty }
    else
      state
  else
    state.setFlag postLoopIdleFlag

def transitionComputeInstantUnstake (state : StewardStateV2) : Result StewardStateV2 := do
  if ← state.progress.isComplete state.numPoolValidators then
    return { state with stateTag := .rebalance, progress := .empty }.setFlag
      computeInstantUnstakesFlag
  else
    return state

def transitionRebalance (state : StewardStateV2) : Result StewardStateV2 := do
  if state.hasFlag resetToIdleFlag then
    return { state with stateTag := .idle, progress := .empty }
  else if ← state.progress.isComplete state.numPoolValidators then
    return { state with stateTag := .idle }.setFlag rebalanceFlag
  else
    return state

def transitionRebalanceDirected (state : StewardStateV2)
    (epochProgress minEpochProgressForComputeScores : ℚ) : StewardStateV2 :=
  if state.hasFlag rebalanceDirectedCompleteFlag then
    { state with stateTag := .idle }
  else if minEpochProgressForComputeScores ≤ epochProgress then
    { state.setFlag rebalanceDirectedCompleteFlag with stateTag := .idle }
  else
    state

/-- Tries to move to the next state of the machine. -/
def transition (state : StewardStateV2) (clock : Clock) (parameters : Parameters)
    (epochSchedule : EpochSchedule) : Result StewardStateV2 := do
  let epochProgress ← epochProgress clock epochSchedule
  match state.stateTag with
  | .computeScores => state.transitionComputeScores
  | .computeDelegations => .ok state.transitionComputeDelegations
  | .idle =>
      .ok (state.transitionIdle clock.epoch epochProgress
        parameters.instantUnstakeEpochProgress parameters.computeScoreEpochProgress)
  | .computeInstantUnstake => state.transitionComputeInstantUnstake
  | .rebalance => state.transitionRebalance
  | .rebalanceDirected =>
      .ok (state.transitionRebalanceDirected epochProgress
        parameters.computeScoreEpochProgress)

/-- Update internal state when a cycle starts or `ComputeScores` restarts. Of
the flags only two survive. -/
def resetStateForNewCycle (state : StewardStateV2)
    (currentEpoch currentSlot numEpochsBetweenScoring : Nat) : Result StewardStateV2 := do
  let nextCycleEpoch ← checkedAdd currentEpoch numEpochsBetweenScoring
  let cleared := { state with
    scores := fun _ => 0
    rawScores := fun _ => 0
    progress := .empty
    nextCycleEpoch := nextCycleEpoch
    startComputingScoresSlot := currentSlot
    scoringUnstakeTotal := 0
    instantUnstakeTotal := 0
    stakeDepositUnstakeTotal := 0
    delegations := fun _ => .none
    instantUnstake := .empty }.clearFlags
  let maintained :=
    if state.hasFlag epochMaintenanceFlag then cleared.setFlag epochMaintenanceFlag else cleared
  return if state.hasFlag rebalanceDirectedCompleteFlag then
    maintained.setFlag rebalanceDirectedCompleteFlag
  else
    maintained

def markValidatorForRemoval (state : StewardStateV2) (index : Nat) : Result StewardStateV2 := do
  return { state with validatorsToRemove := ← state.validatorsToRemove.set index true }

def markValidatorForImmediateRemoval (state : StewardStateV2) (index : Nat) :
    Result StewardStateV2 := do
  return { state with
    validatorsForImmediateRemoval := ← state.validatorsForImmediateRemoval.set index true }

def incrementValidatorToAdd (state : StewardStateV2) : Result StewardStateV2 :=
  if state.validatorsAdded + 1 ≤ u16Max then
    .ok { state with validatorsAdded := state.validatorsAdded + 1 }
  else
    fail .arithmeticError

end StewardStateV2

/-- Emitted when the state tag changes. -/
structure StateTransition where
  epoch : Nat
  slot : Nat
  previousState : StewardStateEnum
  newState : StewardStateEnum

/-- Runs the transition function and reports whether the state tag moved. -/
def maybeTransition (state : StewardStateV2) (clock : Clock) (parameters : Parameters)
    (epochSchedule : EpochSchedule) : Result (StewardStateV2 × Option StateTransition) := do
  let next ← state.transition clock parameters epochSchedule
  if state.stateTag ≠ next.stateTag then
    return (next, some ⟨clock.epoch, clock.slot, state.stateTag, next.stateTag⟩)
  else
    return (next, none)

end Stakenet.Steward

import Stakenet.Steward.Basic

/-! Governance parameters and their validation. Ratios and epoch-progress
thresholds are `f64` in the source and exact rationals here. -/

namespace Stakenet.Steward

structure Parameters where
  mevCommissionRange : Nat
  epochCreditsRange : Nat
  commissionRange : Nat
  mevCommissionBpsThreshold : Nat
  scoringDelinquencyThresholdRatio : ℚ
  instantUnstakeDelinquencyThresholdRatio : ℚ
  commissionThreshold : Nat
  historicalCommissionThreshold : Nat
  priorityFeeLookbackEpochs : Nat
  priorityFeeLookbackOffset : Nat
  priorityFeeMaxCommissionBps : Nat
  priorityFeeErrorMarginBps : Nat
  numDelegationValidators : Nat
  scoringUnstakeCapBps : Nat
  instantUnstakeCapBps : Nat
  stakeDepositUnstakeCapBps : Nat
  computeScoreSlotRange : Nat
  instantUnstakeEpochProgress : ℚ
  instantUnstakeInputsEpochProgress : ℚ
  numEpochsBetweenScoring : Nat
  minimumStakeLamports : Nat
  minimumVotingEpochs : Nat
  priorityFeeScoringStartEpoch : Nat
  jitoBamMinimumEpochs : Nat
  jitoBamWindowEpochs : Nat
  computeScoreEpochProgress : ℚ
  directedStakeUnstakeCapBps : Nat
  undirectedStakeCeilingLamports : Nat

/-- `ValidatorHistory::MAX_ITEMS`. -/
def validatorHistoryMaxItems : Nat := 512

/-- `cast_epoch` of the validator history program. -/
def castEpoch (epoch : Nat) : Result Nat :=
  if epoch < u16Max then .ok epoch else .error .external

namespace Parameters

/-- Validate reasonable bounds. `firstReliableEpoch` is the build constant
`VALIDATOR_HISTORY_FIRST_RELIABLE_EPOCH`: 520 on mainnet, 0 elsewhere. -/
def validate (parameters : Parameters) (firstReliableEpoch currentEpoch slotsPerEpoch : Nat) :
    Result Unit := do
  let sinceReliable ← checkedSub currentEpoch firstReliableEpoch
  let windowMax ← castEpoch (min sinceReliable (validatorHistoryMaxItems - 1))
  require (parameters.mevCommissionRange ≤ windowMax) .invalidParameterValue
  require (parameters.epochCreditsRange ≤ windowMax) .invalidParameterValue
  require (parameters.commissionRange ≤ windowMax) .invalidParameterValue
  require (0 ≤ parameters.scoringDelinquencyThresholdRatio ∧
    parameters.scoringDelinquencyThresholdRatio ≤ 1) .invalidParameterValue
  require (0 ≤ parameters.instantUnstakeDelinquencyThresholdRatio ∧
    parameters.instantUnstakeDelinquencyThresholdRatio ≤ 1) .invalidParameterValue
  require (parameters.mevCommissionBpsThreshold ≤ basisPointsMax) .invalidParameterValue
  require (parameters.commissionThreshold ≤ commissionMax) .invalidParameterValue
  require (parameters.historicalCommissionThreshold ≤ commissionMax) .invalidParameterValue
  require (¬(parameters.numDelegationValidators = 0 ∨
    maxValidators < parameters.numDelegationValidators)) .invalidParameterValue
  require (parameters.scoringUnstakeCapBps ≤ basisPointsMax) .invalidParameterValue
  require (parameters.instantUnstakeCapBps ≤ basisPointsMax) .invalidParameterValue
  require (parameters.stakeDepositUnstakeCapBps ≤ basisPointsMax) .invalidParameterValue
  require (0 ≤ parameters.instantUnstakeEpochProgress ∧
    parameters.instantUnstakeEpochProgress ≤ epochProgressMax) .invalidParameterValue
  require (0 ≤ parameters.instantUnstakeInputsEpochProgress ∧
    parameters.instantUnstakeInputsEpochProgress ≤ epochProgressMax) .invalidParameterValue
  require (parameters.minimumVotingEpochs ≤ windowMax) .invalidParameterValue
  require (computeScoreSlotRangeMin ≤ parameters.computeScoreSlotRange ∧
    parameters.computeScoreSlotRange ≤ slotsPerEpoch) .invalidParameterValue
  require (¬(parameters.numEpochsBetweenScoring = 0 ∨
    numEpochsBetweenScoringMax < parameters.numEpochsBetweenScoring)) .invalidParameterValue
  require (parameters.priorityFeeMaxCommissionBps ≤ basisPointsMax) .invalidParameterValue
  require (parameters.priorityFeeErrorMarginBps ≤ basisPointsMax) .invalidParameterValue
  require (¬(parameters.computeScoreEpochProgress < 0 ∨
    1 ≤ parameters.computeScoreEpochProgress)) .invalidParameterValue
  require (parameters.directedStakeUnstakeCapBps ≤ basisPointsMax) .invalidParameterValue
  require (parameters.jitoBamWindowEpochs ≤ windowMax) .invalidParameterValue
  require (parameters.jitoBamMinimumEpochs ≤ parameters.jitoBamWindowEpochs)
    .invalidParameterValue

/-- The default parameters of the program's test fixtures. -/
def fixture : Parameters where
  mevCommissionRange := 0
  epochCreditsRange := 0
  commissionRange := 0
  mevCommissionBpsThreshold := 1000
  scoringDelinquencyThresholdRatio := 85 / 100
  instantUnstakeDelinquencyThresholdRatio := 70 / 100
  commissionThreshold := 5
  historicalCommissionThreshold := 50
  priorityFeeLookbackEpochs := 10
  priorityFeeLookbackOffset := 2
  priorityFeeMaxCommissionBps := 5000
  priorityFeeErrorMarginBps := 10
  numDelegationValidators := 200
  scoringUnstakeCapBps := 750
  instantUnstakeCapBps := 10
  stakeDepositUnstakeCapBps := 10
  computeScoreSlotRange := 1000
  instantUnstakeEpochProgress := 90 / 100
  instantUnstakeInputsEpochProgress := 50 / 100
  numEpochsBetweenScoring := 10
  minimumStakeLamports := 5000000000
  minimumVotingEpochs := 0
  priorityFeeScoringStartEpoch := 0
  jitoBamMinimumEpochs := 0
  jitoBamWindowEpochs := 0
  computeScoreEpochProgress := 50 / 100
  directedStakeUnstakeCapBps := 10000
  undirectedStakeCeilingLamports := 10000000000 * 1000000000

/-- The parameter set `validate` accepts at some epoch of some schedule. -/
def Accepted (parameters : Parameters) : Prop :=
  ∃ firstReliableEpoch currentEpoch slotsPerEpoch,
    parameters.validate firstReliableEpoch currentEpoch slotsPerEpoch = .ok ()

end Parameters

/-- The part of the configuration account that the crank instructions read. -/
structure Config where
  parameters : Parameters
  paused : Bool

end Stakenet.Steward

import Stakenet.Foundation.Double
import Stakenet.Foundation.WordSet
import Stakenet.History.ClusterHistory
import Stakenet.History.Fields
import Stakenet.Steward.Parameters
import Stakenet.Steward.ScoreEncoding

/-! The score of a validator and the checks for its instant unstake, computed from its history,
the cluster history and the configuration. -/

namespace Stakenet.Steward

open History (MerkleRootUploadAuthority ValidatorHistoryAccount tvcMultiplier)

/-! ## Configuration -/

/-- Room for the indices of all validator history accounts. -/
def largeBitmaskIndexes : Nat := 20000

structure LargeBitMask where
  values : WordSet.Words

def LargeBitMask.get (mask : LargeBitMask) (index : Nat) : Result Bool :=
  if largeBitmaskIndexes ≤ index then fail .bitmaskOutOfBounds
  else .ok (WordSet.test mask.values index)

/-- The part of the configuration account that scoring reads. -/
structure ScoringConfig where
  parameters : Parameters
  validatorHistoryBlacklist : LargeBitMask

namespace ScoringConfig

def maxAvgCommission (config : ScoringConfig) : Nat :=
  min (config.parameters.priorityFeeMaxCommissionBps +
    config.parameters.priorityFeeErrorMarginBps) u16Max

def priorityFeeEpochRange (config : ScoringConfig) (currentEpoch : Nat) : Nat × Nat :=
  let endEpoch := currentEpoch - config.parameters.priorityFeeLookbackOffset
  let startEpoch := endEpoch - config.parameters.priorityFeeLookbackEpochs
  (startEpoch, endEpoch)

end ScoringConfig

/-! ## Arithmetic -/

def voteCreditsRatioMax : Nat := 10000000

/-- `EPOCH_DEFAULT` stands for no epoch. -/
def epochDefault : Nat := u16Max

/-- `iter().sum::<u32>()` panics on overflow. -/
def sumU32 (values : List Nat) : Result Nat :=
  if values.sum ≤ u32Max then .ok values.sum else .error .panicked

/-- `left * right` of two `u32` panics on overflow. -/
def mulU32 (left right : Nat) : Result Nat :=
  if left * right ≤ u32Max then .ok (left * right) else .error .panicked

def checkedAddU16 (left right : Nat) : Result Nat :=
  if left + right ≤ u16Max then .ok (left + right) else fail .arithmeticError

/-- `u16::checked_sub` -/
def subU16 (left right : Nat) : Option Nat :=
  if right ≤ left then some (left - right) else none

/-- `iter().max_by_key(..)` takes the last one of several maxima. -/
def maxByKey (items : List (Nat × α)) : Option (Nat × α) :=
  items.foldl (fun best item =>
    match best with
    | some greatest => if greatest.1 ≤ item.1 then some item else some greatest
    | none => some item) none

/-- What a window has, from the current epoch backwards, with the epochs. -/
def observed (window : List (Option β)) (currentEpoch : Nat) : List (β × Option Nat) :=
  window.reverse.zipIdx.filterMap fun (maybeValue, i) =>
    maybeValue.map fun value => (value, subU16 currentEpoch (castU16 i))

/-- The maximum of a window and its epoch. -/
def maxObserved (window : List (Option Nat)) (currentEpoch : Nat) (missing : Nat × Nat) :
    Result (Nat × Nat) :=
  match maxByKey (observed window currentEpoch) with
  | some (value, some epoch) => .ok (value, epoch)
  | some (_, none) => fail .arithmeticError
  | none => .ok missing

/-- A binary filter. -/
def passes (condition : Prop) [Decidable condition] : Nat :=
  if condition then 1 else 0

/-- A filter that lets a window pass if no value is above a threshold. -/
def filterMaximum (window : List (Option Nat)) (currentEpoch threshold : Nat)
    (missing : Nat × Nat) : Result (Nat × Nat × Nat) := do
  let (maximum, maximumEpoch) ← maxObserved window currentEpoch missing
  return (passes (maximum ≤ threshold), maximum, maximumEpoch)

/-! ## Filters of the score -/

def calculateAvgMevCommission (validator : ValidatorHistoryAccount)
    (currentEpoch windowSize : Nat) : Nat :=
  let startEpoch := currentEpoch - windowSize
  let commissions :=
    (validator.history.mevCommissionRange startEpoch currentEpoch).filterMap id
  let sum := commissions.foldl saturatingAdd 0
  let count := commissions.length
  if count = 0 then
    basisPointsMax
  else
    -- rounded up
    let dividend := if sum + (count - 1) ≤ u64Max then sum + (count - 1) else sum
    min (dividend / count) basisPointsMax

def calculateMaxMevCommission (mevCommissionWindow : List (Option Nat))
    (currentEpoch mevCommissionBpsThreshold : Nat) : Result (Nat × Nat × Nat) :=
  filterMaximum mevCommissionWindow currentEpoch mevCommissionBpsThreshold
    (basisPointsMax, currentEpoch)

/-- The first epoch in which the credits are too few for the blocks. -/
def findDelinquency (epochCreditsStart : Nat) (scoringDelinquencyThresholdRatio : ℚ) :
    List ((Option Nat × Option Nat) × Nat) → Result (Nat × Double × Nat)
  | [] => .ok (1, .finite 1, epochDefault)
  | ((_, none), _) :: later =>
      findDelinquency epochCreditsStart scoringDelinquencyThresholdRatio later
  | ((maybeCredits, some blocks), i) :: later => do
      let credits := maybeCredits.getD 0
      let ratio := (Double.ofNat credits).div (Double.ofNat (← mulU32 blocks tvcMultiplier))
      if ratio.isLess scoringDelinquencyThresholdRatio then
        return (0, ratio, ← checkedAddU16 epochCreditsStart (castU16 i))
      else
        findDelinquency epochCreditsStart scoringDelinquencyThresholdRatio later

def calculateEpochCredits (epochCreditsWindow totalBlocksWindow : List (Option Nat))
    (epochCreditsStart : Nat) (scoringDelinquencyThresholdRatio : ℚ) :
    Result (Double × Nat × Double × Nat) := do
  if epochCreditsWindow.isEmpty ∨ totalBlocksWindow.isEmpty then
    fail .arithmeticError
  else
    let averageVoteCredits := (Double.ofNat (← sumU32 (epochCreditsWindow.filterMap id))).div
      (Double.ofNat epochCreditsWindow.length)
    let nonzeroBlocks := (totalBlocksWindow.filter Option.isSome).length
    if nonzeroBlocks = 0 then
      fail .arithmeticError
    else
      let averageBlocks := (Double.ofNat (← sumU32 (totalBlocksWindow.filterMap id))).div
        (Double.ofNat nonzeroBlocks)
      let (delinquencyScore, delinquencyRatio, delinquencyEpoch) ←
        findDelinquency epochCreditsStart scoringDelinquencyThresholdRatio
          (epochCreditsWindow.zip totalBlocksWindow).zipIdx
      let normalizedVoteCreditsRatio :=
        averageVoteCredits.div (averageBlocks.mul (Double.ofNat tvcMultiplier))
      return (normalizedVoteCreditsRatio, delinquencyScore, delinquencyRatio, delinquencyEpoch)

def calculateMaxCommission (commissionWindow : List (Option Nat))
    (currentEpoch commissionThreshold : Nat) : Result (Nat × Nat × Nat) :=
  filterMaximum commissionWindow currentEpoch commissionThreshold (0, currentEpoch)

def calculateHistoricalCommission (firstReliableEpoch : Nat) (validator : ValidatorHistoryAccount)
    (currentEpoch historicalCommissionThreshold : Nat) : Result (Nat × Nat × Nat) :=
  if validator.history.isEmpty then
    fail .arithmeticError
  else
    filterMaximum (validator.history.commissionRange firstReliableEpoch currentEpoch) currentEpoch
      historicalCommissionThreshold (0, firstReliableEpoch)

/-- If there are credits, the superminority flag must be set; if not, the latest flag of the
window counts. -/
def calculateSuperminority (validator : ValidatorHistoryAccount)
    (currentEpoch commissionRange : Nat) : Result (Nat × Nat) := do
  if validator.history.epochCreditsLatest.isSome then
    match validator.history.superminorityLatest with
    | some superminority =>
        if superminority = 1 then return (0, currentEpoch) else return (1, epochDefault)
    | none => fail .stakeHistoryNotRecentEnough
  else
    let startEpoch ← checkedSub currentEpoch commissionRange
    let superminorityWindow := validator.history.superminorityRange startEpoch currentEpoch
    match (observed superminorityWindow currentEpoch).head?.getD (0, some currentEpoch) with
    | (_, none) => fail .arithmeticError
    | (status, some epoch) =>
        if status = 1 then return (0, epoch) else return (1, epochDefault)

def calculateBlacklistScore (config : ScoringConfig) (validatorIndex : Nat) : Result Nat := do
  return passes (¬(← config.validatorHistoryBlacklist.get validatorIndex) = true)

/-- A validator without an authority is not unstaked for it. -/
def calculateInstantUnstakeMerkleRootUploadAuth
    (latestAuthority : Option MerkleRootUploadAuthority) : Result Bool :=
  match latestAuthority with
  | some .unset | some .oldJitoLabs | some .tipRouter => .ok false
  | some _ => .ok true
  | none => .ok false

/-- The inverse of the check for instant unstake. -/
def merkleRootAuthorityScore (latestAuthority : Option MerkleRootUploadAuthority) : Result Nat := do
  return passes (¬(← calculateInstantUnstakeMerkleRootUploadAuth latestAuthority) = true)

def calculateMerkleRootAuthorityScore (validator : ValidatorHistoryAccount) : Result Nat :=
  merkleRootAuthorityScore validator.history.merkleRootUploadAuthorityLatest

def calculatePriorityFeeMerkleRootAuthorityScore (validator : ValidatorHistoryAccount) :
    Result Nat :=
  merkleRootAuthorityScore validator.history.priorityFeeMerkleRootUploadAuthorityLatest

/-- Without fees there is no commission; without tips all of the fees are. -/
def calculateRealizedCommissionBps (tips totalFees : Option Nat) : Nat :=
  match totalFees with
  | none | some 0 => 0
  | some totalFees =>
      let validatorsRake := totalFees - tips.getD 0
      let numerator := min (validatorsRake * basisPointsMax) u64Max
      let commission := numerator / totalFees
      if commission ≤ u16Max then commission else basisPointsMax

/-- The commissions so far, with their maximum and its epoch. -/
structure RealizedCommissions where
  commissions : List Nat
  maxCommission : Nat
  maxCommissionEpoch : Nat

/-- Epochs without an authority are passed over. -/
def RealizedCommissions.addEpoch (startEpoch : Nat) (realized : RealizedCommissions)
    (epochData : ((Option Nat × Option Nat) × Option MerkleRootUploadAuthority) × Nat) :
    RealizedCommissions :=
  let (((tips, totalFees), uploadAuthority), relativeEpoch) := epochData
  match uploadAuthority with
  | none | some .unset => realized
  | some authority =>
      let commissionBps :=
        if authority = .dne then basisPointsMax else calculateRealizedCommissionBps tips totalFees
      let commissions := realized.commissions ++ [commissionBps]
      if realized.maxCommission < commissionBps then
        { commissions := commissions
          maxCommission := commissionBps
          maxCommissionEpoch := min (startEpoch + castU16 relativeEpoch) u16Max }
      else
        { realized with commissions := commissions }

/-- `iter().fold(0, |agg, val| agg.checked_add(..).unwrap())` -/
def sumU64 (values : List Nat) : Result Nat :=
  if values.sum ≤ u64Max then .ok values.sum else .error .panicked

/-- Rounded up to a basis point. -/
def averageCommission (commissions : List Nat) : Result Nat := do
  let totalCommission ← sumU64 commissions
  let dividend ← checkedAdd totalCommission (← checkedSub commissions.length 1)
  let avgCommission ← checkedDiv dividend commissions.length
  require (avgCommission ≤ u16Max) .arithmeticError
  return avgCommission

def calculatePriorityFeeCommission (config : ScoringConfig) (validator : ValidatorHistoryAccount)
    (currentEpoch : Nat) : Result (Nat × Nat × Nat) := do
  let (startEpoch, endEpoch) := config.priorityFeeEpochRange currentEpoch
  let priorityFeeTips := validator.history.priorityFeeTipsRange startEpoch endEpoch
  let totalPriorityFees := validator.history.totalPriorityFeesRange startEpoch endEpoch
  let uploadAuthority :=
    validator.history.priorityFeeMerkleRootUploadAuthorityRange startEpoch endEpoch
  let realized := ((priorityFeeTips.zip totalPriorityFees).zip uploadAuthority).zipIdx.foldl
    (RealizedCommissions.addEpoch startEpoch) ⟨[], 0, epochDefault⟩
  -- `priority_fee_tips[0]` and `total_priority_fees[0]`
  match priorityFeeTips.head?, totalPriorityFees.head? with
  | some none, some none => return (1, 0, realized.maxCommissionEpoch)
  | some (some _), _ | some none, some (some _) =>
      if realized.commissions.isEmpty then
        return (1, 0, realized.maxCommissionEpoch)
      else
        let avgCommission ← averageCommission realized.commissions
        if currentEpoch < config.parameters.priorityFeeScoringStartEpoch then
          return (1, avgCommission, epochDefault)
        else
          return (passes (avgCommission ≤ config.maxAvgCommission), avgCommission,
            realized.maxCommissionEpoch)
  | _, _ => .error .panicked

/-- Epochs without an upload reduce the minimum. -/
def calculateRunningBamScore (isBamConnectedWindow : List (Option Nat)) (minimumEpochs : Nat) :
    Nat :=
  let numMissedEpochs := (isBamConnectedWindow.filter Option.isNone).length
  let bamConnectedCount := (isBamConnectedWindow.filter fun entry => entry == some 1).length
  passes (minimumEpochs - numMissedEpochs ≤ bamConnectedCount)

/-! ## The score -/

structure ScoreDetails where
  maxMevCommission : Nat
  maxMevCommissionEpoch : Nat
  superminorityEpoch : Nat
  delinquencyRatio : Double
  delinquencyEpoch : Nat
  maxCommission : Nat
  maxCommissionEpoch : Nat
  maxHistoricalCommission : Nat
  maxHistoricalCommissionEpoch : Nat
  avgPriorityFeeCommission : Nat
  maxPriorityFeeCommissionEpoch : Nat
  deriving DecidableEq, Repr

structure ScoreComponentsV5 where
  score : Nat
  rawScore : Nat
  commissionMax : Nat
  mevCommissionAvg : Nat
  validatorAge : Nat
  voteCreditsAvg : Nat
  mevCommissionScore : Nat
  blacklistedScore : Nat
  superminorityScore : Nat
  delinquencyScore : Nat
  runningBamScore : Nat
  commissionScore : Nat
  historicalCommissionScore : Nat
  merkleRootUploadAuthorityScore : Nat
  voteAccount : Pubkey
  epoch : Nat
  details : ScoreDetails
  priorityFeeCommissionScore : Nat
  priorityFeeMerkleRootUploadAuthorityScore : Nat
  deriving DecidableEq, Repr

/-- `firstReliableEpoch` is the build constant `VALIDATOR_HISTORY_FIRST_RELIABLE_EPOCH`. -/
def validatorScore (firstReliableEpoch : Nat) (validator : ValidatorHistoryAccount)
    (cluster : History.ClusterHistory) (config : ScoringConfig)
    (currentEpoch tvcActivationEpoch : Nat) : Result ScoreComponentsV5 := do
  let params := config.parameters
  let mevCommissionStart ← checkedSub currentEpoch params.mevCommissionRange
  let mevCommissionWindow :=
    validator.history.mevCommissionRange mevCommissionStart currentEpoch
  let epochCreditsStart ← checkedSub currentEpoch params.epochCreditsRange
  -- the current epoch is in progress
  let epochCreditsEnd ← checkedSub currentEpoch 1
  let normalizedEpochCreditsWindow := validator.history.epochCreditsRangeNormalized
    epochCreditsStart epochCreditsEnd tvcActivationEpoch
  let totalBlocksWindow := cluster.history.totalBlocksRange epochCreditsStart epochCreditsEnd
  let commissionStart ← checkedSub currentEpoch params.commissionRange
  let commissionWindow := validator.history.commissionRange commissionStart currentEpoch
  let (mevCommissionScore, maxMevCommission, maxMevCommissionEpoch) ←
    calculateMaxMevCommission mevCommissionWindow currentEpoch params.mevCommissionBpsThreshold
  let (voteCreditsRatio, delinquencyScore, delinquencyRatio, delinquencyEpoch) ←
    calculateEpochCredits normalizedEpochCreditsWindow totalBlocksWindow epochCreditsStart
      params.scoringDelinquencyThresholdRatio
  let (commissionScore, maxCommission, maxCommissionEpoch) ←
    calculateMaxCommission commissionWindow currentEpoch params.commissionThreshold
  let mevCommissionAvg :=
    calculateAvgMevCommission validator currentEpoch params.mevCommissionRange
  let validatorAge := validator.validatorAge
  let scaledRatio := (voteCreditsRatio.mul (Double.ofNat voteCreditsRatioMax)).toU64
  let voteCreditsAvg := min scaledRatio ((1 <<< 25) - 1)
  let rawScore := encodeValidatorScore maxCommission mevCommissionAvg validatorAge voteCreditsAvg
  let (historicalCommissionScore, maxHistoricalCommission, maxHistoricalCommissionEpoch) ←
    calculateHistoricalCommission firstReliableEpoch validator currentEpoch
      params.historicalCommissionThreshold
  let (superminorityScore, superminorityEpoch) ←
    calculateSuperminority validator currentEpoch params.commissionRange
  let blacklistedScore ← calculateBlacklistScore config validator.index
  let merkleRootUploadAuthorityScore ← calculateMerkleRootAuthorityScore validator
  let priorityFeeMerkleRootUploadAuthorityScore ←
    calculatePriorityFeeMerkleRootAuthorityScore validator
  let (priorityFeeCommissionScore, avgPriorityFeeCommission, maxPriorityFeeCommissionEpoch) ←
    calculatePriorityFeeCommission config validator currentEpoch
  -- time to upload the eligibility of the current epoch
  let bamWindowEnd ← checkedSub currentEpoch 1
  let bamWindowStart ← checkedSub bamWindowEnd params.jitoBamWindowEpochs
  let isBamConnectedWindow := validator.history.isBamConnectedRange bamWindowStart bamWindowEnd
  let runningBamScore :=
    calculateRunningBamScore isBamConnectedWindow params.jitoBamMinimumEpochs
  let score := rawScore * mevCommissionScore * commissionScore * historicalCommissionScore *
    blacklistedScore * superminorityScore * delinquencyScore * runningBamScore *
    merkleRootUploadAuthorityScore * priorityFeeCommissionScore *
    priorityFeeMerkleRootUploadAuthorityScore
  return {
    score := score
    rawScore := rawScore
    commissionMax := maxCommission
    mevCommissionAvg := mevCommissionAvg
    validatorAge := validatorAge
    voteCreditsAvg := voteCreditsAvg
    mevCommissionScore := mevCommissionScore
    blacklistedScore := blacklistedScore
    superminorityScore := superminorityScore
    delinquencyScore := delinquencyScore
    runningBamScore := runningBamScore
    commissionScore := commissionScore
    historicalCommissionScore := historicalCommissionScore
    merkleRootUploadAuthorityScore := merkleRootUploadAuthorityScore
    voteAccount := validator.voteAccount
    epoch := currentEpoch
    details := {
      maxMevCommission := maxMevCommission
      maxMevCommissionEpoch := maxMevCommissionEpoch
      superminorityEpoch := superminorityEpoch
      delinquencyRatio := delinquencyRatio
      delinquencyEpoch := delinquencyEpoch
      maxCommission := maxCommission
      maxCommissionEpoch := maxCommissionEpoch
      maxHistoricalCommission := maxHistoricalCommission
      maxHistoricalCommissionEpoch := maxHistoricalCommissionEpoch
      avgPriorityFeeCommission := avgPriorityFeeCommission
      maxPriorityFeeCommissionEpoch := maxPriorityFeeCommissionEpoch }
    priorityFeeCommissionScore := priorityFeeCommissionScore
    priorityFeeMerkleRootUploadAuthorityScore := priorityFeeMerkleRootUploadAuthorityScore }

/-- How the components of a score come about. -/
structure Scored (firstReliableEpoch : Nat) (validator : ValidatorHistoryAccount)
    (cluster : History.ClusterHistory) (config : ScoringConfig)
    (currentEpoch tvcActivationEpoch : Nat) (components : ScoreComponentsV5) : Prop where
  score : components.score = components.rawScore * components.mevCommissionScore *
    components.commissionScore * components.historicalCommissionScore *
    components.blacklistedScore * components.superminorityScore * components.delinquencyScore *
    components.runningBamScore * components.merkleRootUploadAuthorityScore *
    components.priorityFeeCommissionScore * components.priorityFeeMerkleRootUploadAuthorityScore
  mevCommission : config.parameters.mevCommissionRange ≤ currentEpoch ∧
    calculateMaxMevCommission (validator.history.mevCommissionRange
        (currentEpoch - config.parameters.mevCommissionRange) currentEpoch)
      currentEpoch config.parameters.mevCommissionBpsThreshold =
        .ok (components.mevCommissionScore, components.details.maxMevCommission,
          components.details.maxMevCommissionEpoch)
  epochCredits : config.parameters.epochCreditsRange ≤ currentEpoch ∧ 1 ≤ currentEpoch ∧
    ∃ voteCreditsRatio, calculateEpochCredits
        (validator.history.epochCreditsRangeNormalized
          (currentEpoch - config.parameters.epochCreditsRange) (currentEpoch - 1)
          tvcActivationEpoch)
        (cluster.history.totalBlocksRange
          (currentEpoch - config.parameters.epochCreditsRange) (currentEpoch - 1))
        (currentEpoch - config.parameters.epochCreditsRange)
        config.parameters.scoringDelinquencyThresholdRatio =
      .ok (voteCreditsRatio, components.delinquencyScore, components.details.delinquencyRatio,
        components.details.delinquencyEpoch)
  commission : config.parameters.commissionRange ≤ currentEpoch ∧
    calculateMaxCommission (validator.history.commissionRange
        (currentEpoch - config.parameters.commissionRange) currentEpoch)
      currentEpoch config.parameters.commissionThreshold =
        .ok (components.commissionScore, components.details.maxCommission,
          components.details.maxCommissionEpoch)
  blacklist : calculateBlacklistScore config validator.index = .ok components.blacklistedScore
  merkleRootUploadAuthority : calculateMerkleRootAuthorityScore validator =
    .ok components.merkleRootUploadAuthorityScore
  priorityFeeMerkleRootUploadAuthority :
    calculatePriorityFeeMerkleRootAuthorityScore validator =
      .ok components.priorityFeeMerkleRootUploadAuthorityScore
  bamWindow : config.parameters.jitoBamWindowEpochs ≤ currentEpoch - 1

theorem scored_of_eq_ok {firstReliableEpoch : Nat} {validator : ValidatorHistoryAccount}
    {cluster : History.ClusterHistory} {config : ScoringConfig}
    {currentEpoch tvcActivationEpoch : Nat} {components : ScoreComponentsV5}
    (scored : validatorScore firstReliableEpoch validator cluster config currentEpoch
      tvcActivationEpoch = .ok components) :
    Scored firstReliableEpoch validator cluster config currentEpoch tvcActivationEpoch
      components := by
  simp only [validatorScore, Outcome.bind_eq_ok, checkedSub_eq_ok, Outcome.pure_eq_ok, Prod.exists,
    and_assoc, exists_and_left, exists_eq_left'] at scored
  obtain ⟨mevInside, creditsInside, begun, commissionInside, _, _, _, mevCommission, ratio, _, _, _,
    epochCredits, _, _, _, commission, _, _, _, _, _, _, _, _, blacklist, _, merkleRoot, _,
    priorityMerkleRoot, _, _, _, _, _, bamInside, rfl⟩ := scored
  exact {
    score := rfl
    mevCommission := ⟨mevInside, mevCommission⟩
    epochCredits := ⟨creditsInside, begun, ratio, epochCredits⟩
    commission := ⟨commissionInside, commission⟩
    blacklist := blacklist
    merkleRootUploadAuthority := merkleRoot
    priorityFeeMerkleRootUploadAuthority := priorityMerkleRoot
    bamWindow := bamInside }

/-! ## Instant unstake -/

def calculateInstantUnstakeDelinquency (totalBlocksLatest clusterHistorySlotIndex
    epochCreditsLatest validatorHistorySlotIndex : Nat)
    (instantUnstakeDelinquencyThresholdRatio : ℚ) : Result Bool :=
  if clusterHistorySlotIndex = 0 ∨ validatorHistorySlotIndex = 0 then
    fail .arithmeticError
  else
    let blocksProducedRate :=
      (Double.ofNat totalBlocksLatest).div (Double.ofNat clusterHistorySlotIndex)
    let voteCreditsRate :=
      (Double.ofNat epochCreditsLatest).div (Double.ofNat validatorHistorySlotIndex)
    if blocksProducedRate.isPositive then
      .ok ((voteCreditsRate.div (blocksProducedRate.mul (Double.ofNat tvcMultiplier))).isLess
        instantUnstakeDelinquencyThresholdRatio)
    else
      .ok false

/-- Of the previous and the current epoch; nothing if there are no data. -/
def calculateInstantUnstakeMevCommission (validator : ValidatorHistoryAccount)
    (currentEpoch mevCommissionBpsThreshold : Nat) : Bool × Nat :=
  let previousEpoch := currentEpoch - 1
  let mevCommissionPreviousCurrent :=
    validator.history.mevCommissionRange previousEpoch currentEpoch
  let mevCommissionBps := (mevCommissionPreviousCurrent.filterMap id).max?.getD 0
  (decide (mevCommissionBpsThreshold < mevCommissionBps), mevCommissionBps)

/-- Of the newest entry; the maximum if there are no data. -/
def calculateInstantUnstakeCommission (validator : ValidatorHistoryAccount)
    (commissionThreshold : Nat) : Bool × Nat :=
  let commission := validator.history.commissionLatest.getD commissionMax
  (decide (commissionThreshold < commission), commission)

def calculateInstantUnstakeBlacklist (config : ScoringConfig) (validatorIndex : Nat) :
    Result Bool :=
  config.validatorHistoryBlacklist.get validatorIndex

structure InstantUnstakeDetails where
  epochCreditsLatest : Nat
  voteAccountLastUpdateSlot : Nat
  totalBlocksLatest : Nat
  clusterHistorySlotIndex : Nat
  commission : Nat
  mevCommission : Nat
  deriving DecidableEq, Repr

structure InstantUnstakeComponentsV3 where
  instantUnstake : Bool
  delinquencyCheck : Bool
  commissionCheck : Bool
  mevCommissionCheck : Bool
  isBlacklisted : Bool
  isBadMerkleRootUploadAuthority : Bool
  isBadPriorityFeeMerkleRootUploadAuthority : Bool
  voteAccount : Pubkey
  epoch : Nat
  details : InstantUnstakeDetails
  deriving DecidableEq, Repr

/-- `option.ok_or(error)?` -/
def okOr (value : Option α) (error : StewardError) : Result α :=
  match value with
  | some value => .ok value
  | none => fail error

def instantUnstakeValidator (validator : ValidatorHistoryAccount)
    (cluster : History.ClusterHistory) (config : ScoringConfig)
    (epochStartSlot currentEpoch tvcActivationEpoch : Nat) :
    Result InstantUnstakeComponentsV3 := do
  let params := config.parameters
  let clusterHistorySlotIndex ← checkedSub cluster.clusterHistoryLastUpdateSlot epochStartSlot
  let totalBlocksLatest ← okOr cluster.history.totalBlocksLatest .clusterHistoryNotRecentEnough
  let voteAccountLastUpdateSlot ←
    okOr validator.history.voteAccountLastUpdateSlotLatest .voteHistoryNotRecentEnough
  let validatorHistorySlotIndex ← checkedSub voteAccountLastUpdateSlot epochStartSlot
  let epochCreditsLatest :=
    (validator.history.epochCreditsLatestNormalized currentEpoch tvcActivationEpoch).getD 0
  let delinquencyCheck ← calculateInstantUnstakeDelinquency totalBlocksLatest
    clusterHistorySlotIndex epochCreditsLatest validatorHistorySlotIndex
    params.instantUnstakeDelinquencyThresholdRatio
  let (mevCommissionCheck, mevCommissionBps) :=
    calculateInstantUnstakeMevCommission validator currentEpoch params.mevCommissionBpsThreshold
  let (commissionCheck, commission) :=
    calculateInstantUnstakeCommission validator params.commissionThreshold
  let isBlacklisted ← calculateInstantUnstakeBlacklist config validator.index
  let isBadMerkleRootUploadAuthority ← calculateInstantUnstakeMerkleRootUploadAuth
    validator.history.merkleRootUploadAuthorityLatest
  let isBadPriorityFeeMerkleRootUploadAuthority ← calculateInstantUnstakeMerkleRootUploadAuth
    validator.history.priorityFeeMerkleRootUploadAuthorityLatest
  let instantUnstake := delinquencyCheck || commissionCheck || mevCommissionCheck ||
    isBlacklisted || isBadMerkleRootUploadAuthority || isBadPriorityFeeMerkleRootUploadAuthority
  return {
    instantUnstake := instantUnstake
    delinquencyCheck := delinquencyCheck
    commissionCheck := commissionCheck
    mevCommissionCheck := mevCommissionCheck
    isBlacklisted := isBlacklisted
    isBadMerkleRootUploadAuthority := isBadMerkleRootUploadAuthority
    isBadPriorityFeeMerkleRootUploadAuthority := isBadPriorityFeeMerkleRootUploadAuthority
    voteAccount := validator.voteAccount
    epoch := currentEpoch
    details := {
      epochCreditsLatest := epochCreditsLatest
      voteAccountLastUpdateSlot := voteAccountLastUpdateSlot
      totalBlocksLatest := totalBlocksLatest
      clusterHistorySlotIndex := clusterHistorySlotIndex
      commission := commission
      mevCommission := mevCommissionBps } }

end Stakenet.Steward

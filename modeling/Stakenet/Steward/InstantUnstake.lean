import Stakenet.Steward.Scoring

/-! The check that takes a validator out of the pool before the next cycle. -/

namespace Stakenet.Steward

/-- `(slots as f64 * progress).round() as u64`, on exact rationals. -/
def roundSlots (slots : Nat) (progress : ℚ) : Nat :=
  min ⌊(slots : ℚ) * progress + 1 / 2⌋.toNat u64Max

namespace StewardStateV2

/-- Vote account and cluster data must be recent within the current epoch. -/
def checkInstantUnstakeInputs (clock : Clock) (epochSchedule : EpochSchedule)
    (validator : ValidatorHistory) (cluster : ClusterHistory) (config : Config) :
    Result Unit := do
  let minAcceptableSlot ← checkedAdd (epochSchedule.getFirstSlotInEpoch clock.epoch)
    (roundSlots (epochSchedule.getSlotsInEpoch clock.epoch)
      config.parameters.instantUnstakeInputsEpochProgress)
  match validator.voteAccountLastUpdateSlotLatest with
  | none => fail .voteHistoryNotRecentEnough
  | some lastUpdateSlot =>
      require (minAcceptableSlot ≤ lastUpdateSlot) .voteHistoryNotRecentEnough
      require (minAcceptableSlot ≤ cluster.clusterHistoryLastUpdateSlot)
        .clusterHistoryNotRecentEnough

/-- One call per validator. `instantUnstakeValidator` is the verdict of
`instant_unstake_validator` on this history, cluster history and configuration. -/
def computeInstantUnstake (state : StewardStateV2) (clock : Clock)
    (epochSchedule : EpochSchedule) (validator : ValidatorHistory) (index : Nat)
    (cluster : ClusterHistory) (config : Config) (instantUnstakeValidator : Result Bool) :
    Result (StewardStateV2 × Option Bool) := do
  if state.stateTag = .computeInstantUnstake then
    if state.nextCycleEpoch ≤ clock.epoch then
      fail .invalidState
    else if (← epochProgress clock epochSchedule) <
        config.parameters.instantUnstakeEpochProgress then
      fail .instantUnstakeNotReady
    else if ← state.progress.get index then
      return (state, none)
    else if (← state.validatorsToRemove.get index) ||
        (← state.validatorsForImmediateRemoval.get index) then
      return ({ state with progress := ← state.progress.set index true }, none)
    else
      checkInstantUnstakeInputs clock epochSchedule validator cluster config
      let verdict ← instantUnstakeValidator
      return ({ state with
        instantUnstake := ← state.instantUnstake.set index verdict
        progress := ← state.progress.set index true }, some verdict)
  else
    fail .invalidState

end StewardStateV2

end Stakenet.Steward

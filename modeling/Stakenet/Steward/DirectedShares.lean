import Stakenet.Steward.DirectedAdjustment
import Stakenet.Steward.DirectedBudget
import Stakenet.Steward.RebalanceEffect
import Stakenet.Steward.ReserveAllotment

/-! How directed stake is shared out among the targets that are not yet processed in
the epoch. -/

namespace Stakenet.Steward

namespace Directed

open ProRata

section Accuracy

variable {minimumDelegation available delta total : Nat}

/-- A grant is no more than the exact share, and near to it unless it would be too
small. -/
structure Accurate (minimumDelegation available delta total granted : Nat) : Prop where
  atMost : (granted : ℚ) ≤ min (delta : ℚ) (available * delta / total)
  nearly : min (delta : ℚ) (available * delta / total) - available / 10000 - 1 < granted ∨
    granted = 0 ∧ cappedShare available delta total < minimumDelegation

theorem accurate_zero (minimumDelegation available total : Nat) :
    Accurate minimumDelegation available 0 total 0 := by
  constructor
  · simp
  · left
    have nonneg : (0 : ℚ) ≤ available / 10000 := by positivity
    simp
    linarith

theorem accurate_of_small (small : cappedShare available delta total < minimumDelegation) :
    Accurate minimumDelegation available delta total 0 := by
  constructor
  · rw [Nat.cast_zero]
    positivity
  · exact .inr ⟨rfl, small⟩

theorem accurate_cappedShare (minimumDelegation available delta : Nat) (some : 0 < total) :
    Accurate minimumDelegation available delta total (cappedShare available delta total) := by
  have shareLe : (share 10000 available delta total : ℚ) ≤ available * delta / total :=
    share_le_proportion (by decide) some
  have shareGe : (available * delta / total : ℚ) - available / 10000 - 1 <
      share 10000 available delta total := by
    have near : (available * delta / total : ℚ) - available / (10000 : Nat) - 1 <
        share 10000 available delta total := proportion_lt_share (by decide) some
    simpa using near
  have nonneg : (0 : ℚ) ≤ available / 10000 := by positivity
  have deltaGe := min_le_left (delta : ℚ) (available * delta / total)
  have exactGe := min_le_right (delta : ℚ) (available * delta / total)
  rw [cappedShare]
  constructor
  · rw [Nat.cast_min]
    apply le_min
    · exact min_le_right _ _
    · exact (min_le_left _ _).trans shareLe
  · left
    rw [Nat.cast_min]
    apply lt_min
    · linarith
    · linarith

end Accuracy

/-! ## The split of what is available -/

/-- The lamports that a calculation would unstake. -/
def unstakedLamports : Result RebalanceType → Nat
  | .ok rebalanceType => rebalanceType.directedUnstakeLamports
  | .error _ => 0

/-- Every target of a list gets its share, and together they get no more than what is
available. -/
structure FairSplit (indices : List Nat) (delta : Nat → Nat) (minimumDelegation available : Nat)
    (calculation : Nat → Result RebalanceType) (lamportsOf : Result RebalanceType → Nat) :
    Prop where
  succeeds : ∀ index ∈ indices, ∃ result, calculation index = .ok result
  conservative : (indices.map fun index => lamportsOf (calculation index)).sum ≤ available
  accurate : ∀ index ∈ indices, Accurate minimumDelegation available (delta index)
    (indices.map delta).sum (lamportsOf (calculation index))

section Split

variable {indices : List Nat} {delta : Nat → Nat} {minimumDelegation available : Nat}
variable {calculation : Nat → Result RebalanceType} {lamportsOf : Result RebalanceType → Nat}
variable {outcome : Nat → RebalanceType}

theorem fairSplit_of_shareOut (nothing : lamportsOf (.ok .none) = 0)
    (something : ∀ lamports, lamportsOf (.ok (outcome lamports)) = lamports)
    (unsaturated : (indices.map delta).sum ≤ u64Max) (availableBound : available ≤ u64Max)
    (shared : ∀ index ∈ indices, calculation index = shareOut outcome minimumDelegation available
      (delta index) (indices.map delta).sum) :
    FairSplit indices delta minimumDelegation available calculation lamportsOf := by
  have part : ∀ index ∈ indices, delta index ≤ (indices.map delta).sum := by
    intro index member
    exact List.single_le_sum (fun _ _ => Nat.zero_le _) _ (List.mem_map_of_mem member)
  have closed : ∀ index ∈ indices, calculation index =
      .ok (if delta index = 0 ∨
          cappedShare available (delta index) (indices.map delta).sum < minimumDelegation then .none
        else outcome (cappedShare available (delta index) (indices.map delta).sum)) := by
    intro index member
    rw [shared index member, shareOut_eq (part index member) unsaturated availableBound]
  constructor
  case succeeds =>
      intro index member
      exact ⟨_, closed index member⟩
  case conservative =>
      have granted_le : ∀ index ∈ indices, lamportsOf (calculation index) ≤
          share 10000 available (delta index) (indices.map delta).sum := by
        intro index member
        rw [closed index member]
        split
        · rw [nothing]
          exact Nat.zero_le _
        · rw [something]
          exact Nat.min_le_left _ _
      calc (indices.map fun index => lamportsOf (calculation index)).sum
          ≤ (indices.map fun index =>
              share 10000 available (delta index) (indices.map delta).sum).sum :=
            List.sum_le_sum granted_le
        _ = ((indices.map delta).map fun part =>
              share 10000 available part (indices.map delta).sum).sum := by
            rw [List.map_map]
            rfl
        _ ≤ available := sum_share_le (by decide) (Nat.le_refl _)
  case accurate =>
      intro index member
      rw [closed index member]
      by_cases met : delta index = 0
      · rw [if_pos (.inl met), nothing, met]
        exact accurate_zero _ _ _
      · by_cases small : cappedShare available (delta index) (indices.map delta).sum <
            minimumDelegation
        · rw [if_pos (.inr small), nothing]
          exact accurate_of_small small
        · have some : 0 < (indices.map delta).sum := by
            have := part index member
            omega
          rw [if_neg (by simp [met, small]), something]
          exact accurate_cappedShare _ _ _ some

end Split

/-- Increases share the reserve beyond two rents, and decreases what is left of the
budget, fairly among the pending targets. -/
theorem directedSplit_fair (state : StewardStateV2) {stakeMeta : DirectedStakeMeta}
    (bounded : stakeMeta.totalStakeTargets ≤ maxValidators)
    (minimumDelegation reserve stakeRent cap unstaked : Nat) (reserveBound : reserve ≤ u64Max) :
    (((pendingIndices stakeMeta state.currentEpoch).map
        fun index => (stakeMeta.targets index).deficit).sum ≤ u64Max →
      FairSplit (pendingIndices stakeMeta state.currentEpoch)
        (fun index => (stakeMeta.targets index).deficit) minimumDelegation
        (reserve - 2 * stakeRent)
        (fun index => increaseStakeCalculation state stakeMeta index
          (stakeMeta.targets index).totalStakedLamports reserve minimumDelegation stakeRent)
        grantedLamports) ∧
    (((pendingIndices stakeMeta state.currentEpoch).map
        fun index => (stakeMeta.targets index).excess).sum ≤ u64Max →
      FairSplit (pendingIndices stakeMeta state.currentEpoch)
        (fun index => (stakeMeta.targets index).excess) minimumDelegation
        (min (cap - unstaked) ((pendingIndices stakeMeta state.currentEpoch).map
          fun index => (stakeMeta.targets index).excess).sum)
        (fun index => decreaseStakeCalculation state stakeMeta index
          (stakeMeta.targets index).totalStakedLamports cap unstaked minimumDelegation)
        unstakedLamports) := by
  constructor
  · intro unsaturated
    have granted : ∀ lamports, grantedLamports (.ok (.increase lamports)) = lamports := by
      intro lamports
      rfl
    apply fairSplit_of_shareOut rfl granted unsaturated ((Nat.sub_le _ _).trans reserveBound)
    intro index member
    have inUse := (mem_pendingIndices.mp member).1
    have twoRents : reserve - min (stakeRent * 2) u64Max = reserve - 2 * stakeRent := by omega
    rw [increaseStakeCalculation_eq, guardTarget_of_lt inUse bounded, totalOverPending_eq,
      Nat.min_eq_left unsaturated, twoRents]
    rfl
  · intro unsaturated
    have charged : ∀ lamports, unstakedLamports (.ok (decreaseOutcome lamports)) = lamports := by
      intro lamports
      rfl
    apply fairSplit_of_shareOut rfl charged unsaturated
      ((Nat.min_le_right _ _).trans unsaturated)
    intro index member
    have inUse := (mem_pendingIndices.mp member).1
    rw [decreaseStakeCalculation_eq, guardTarget_of_lt inUse bounded, totalOverPending_eq,
      Nat.min_eq_left unsaturated]
    rfl

/-! A pool of two validators with directed stake targets. -/

def twoTargetsEnvironment : Environment where
  clock := ⟨1, 1000⟩
  epochSchedule := .withoutWarmup 1000
  config := ⟨.fixture, false⟩
  validatorList := ⟨.validatorList, [⟨0, 0, 0, .active, 1⟩, ⟨0, 0, 0, .active, 2⟩], []⟩

/-- The accounts in epoch 1, once a target is uploaded for each of them. -/
def twoTargets (first second : Nat) : Accounts where
  state := { ReallocState.initialState 2 10 0 with currentEpoch := 1 }
  stakeMeta := { DirectedStakeMeta.initial with
    totalStakeTargets := 2
    targets := fun index =>
      if index = 0 then ⟨1, first, 0, 1, 0⟩
      else if index = 1 then ⟨2, second, 0, 1, 0⟩
      else .none
    directedStakeMetaIndices := fun row => if row < 2 then row else metaIndexDefault }

theorem directedSplit_fair_twoTargets :
    FairSplit (pendingIndices (twoTargets 600 400).stakeMeta 1)
        (fun index => ((twoTargets 600 400).stakeMeta.targets index).deficit) 1 (502 - 2 * 1)
        (fun index => increaseStakeCalculation (twoTargets 600 400).state
          (twoTargets 600 400).stakeMeta index
          ((twoTargets 600 400).stakeMeta.targets index).totalStakedLamports 502 1 1)
        grantedLamports ∧
      ((pendingIndices (twoTargets 600 400).stakeMeta 1).map fun index =>
        grantedLamports (increaseStakeCalculation (twoTargets 600 400).state
          (twoTargets 600 400).stakeMeta index
          ((twoTargets 600 400).stakeMeta.targets index).totalStakedLamports 502 1 1)) =
        [300, 200] := by
  constructor
  · have fair := directedSplit_fair (twoTargets 600 400).state
      (show (twoTargets 600 400).stakeMeta.totalStakeTargets ≤ maxValidators by decide)
      1 502 1 0 0 (by decide)
    exact fair.1 (by decide)
  · decide

/-- Targets whose deficits sum to more than a `u64` are given more than there is. -/
theorem not_directedSplit_conservative :
    ¬((pendingIndices (twoTargets u64Max u64Max).stakeMeta
        (twoTargets u64Max u64Max).state.currentEpoch).map fun index =>
      grantedLamports (increaseStakeCalculation (twoTargets u64Max u64Max).state
        (twoTargets u64Max u64Max).stakeMeta index
        ((twoTargets u64Max u64Max).stakeMeta.targets index).totalStakedLamports
        1002 1 1)).sum ≤ 1002 - 2 * 1 := by
  decide +kernel

/-! ## An increase within what is available -/

/-- The accounts with which a call reaches its calculation: its target is found at a row
of the list and reconciled with the stake listed there, and the checks have passed. -/
structure ReachesCalculation (environment : Environment) (inputs : RebalanceDirected.Inputs)
    (accounts : Accounts) (row listed : Nat) (ready : Accounts) : Prop where
  found : RebalanceDirected.findVoteAccount environment.validatorList
    (accounts.stakeMeta.targets inputs.directedStakeMetaIndex).votePubkey = some row
  read : ∃ transient,
    stakeLamportsAtValidatorListIndex environment.validatorList row = .ok (listed, transient)
  adjusted : ∃ adjusted, adjustDirectedStakeForDepositsAndWithdrawals accounts listed row
    inputs.directedStakeMetaIndex = .ok adjusted ∧
      ready = RebalanceDirected.flagCompletion environment.clock adjusted
  checked : stateChecks environment ready.state (some .rebalanceDirected) = .ok ()
  unprocessed : ¬((ready.stakeMeta.targets inputs.directedStakeMetaIndex).stakedLastUpdatedEpoch =
      environment.clock.epoch ∧ 0 < environment.clock.epoch ∧
    0 < (ready.stakeMeta.targets inputs.directedStakeMetaIndex).totalStakedLamports)

/-- The increase of a call for the target it reconciled. -/
def calculatedIncrease (inputs : RebalanceDirected.Inputs) (ready : Accounts) :
    Result RebalanceType :=
  increaseStakeCalculation ready.state ready.stakeMeta inputs.directedStakeMetaIndex
    (ready.stakeMeta.targets inputs.directedStakeMetaIndex).totalStakedLamports
    inputs.reserveLamports inputs.minimumDelegation inputs.stakeRent

section Increase

variable {environment : Environment} {inputs : RebalanceDirected.Inputs}
variable {accounts ready next : Accounts} {row listed lamports : Nat}

theorem calculate_increase
    (calculated : RebalanceDirected.calculate environment inputs ready =
      .ok (.increase lamports)) :
    calculatedIncrease inputs ready = .ok (.increase lamports) := by
  simp only [RebalanceDirected.calculate, Outcome.bind_eq_ok, readRow_eq_ok] at calculated
  rcases calculated with ⟨_, ⟨_, rfl⟩, calculated⟩
  split at calculated
  case h_1 => cases calculated
  case h_2 => cases calculated
  case h_3 => exact calculated

/-- An increase that a call makes was calculated. -/
theorem increase_calculated
    (call : DirectedCall environment inputs accounts next (.increase lamports)) :
    ∃ row listed ready, ReachesCalculation environment inputs accounts row listed ready ∧
      calculatedIncrease inputs ready = .ok (.increase lamports) := by
  cases call with
  | moved row listed transient adjusted ready applied stakeMeta found read reconciled isReady
      checked pending calculated applying updated result =>
      exact ⟨row, listed, ready, ⟨found, ⟨transient, read⟩, ⟨adjusted, reconciled, isReady⟩,
        checked, pending⟩, calculate_increase calculated⟩

theorem calculatedIncrease_eq_ok
    (typed : (ready.stakeMeta.targets inputs.directedStakeMetaIndex).totalTargetLamports ≤ u64Max)
    (reserveBound : inputs.reserveLamports ≤ u64Max)
    (calculated : calculatedIncrease inputs ready = .ok (.increase lamports)) :
    inputs.directedStakeMetaIndex < ready.stakeMeta.totalStakeTargets ∧
      0 < totalOverPending ready.stakeMeta ready.state.currentEpoch DirectedStakeTarget.deficit ∧
      lamports = cappedShare (inputs.reserveLamports - 2 * inputs.stakeRent)
        (ready.stakeMeta.targets inputs.directedStakeMetaIndex).deficit
        (totalOverPending ready.stakeMeta ready.state.currentEpoch
          DirectedStakeTarget.deficit) := by
  rw [calculatedIncrease, increaseStakeCalculation_eq] at calculated
  rcases guardTarget_eq_ok calculated with ⟨inUse, shared⟩
  have twoRents : inputs.reserveLamports - min (inputs.stakeRent * 2) u64Max =
      inputs.reserveLamports - 2 * inputs.stakeRent := by omega
  rw [twoRents] at shared
  rcases of_shareOut_increase ((Nat.sub_le _ _).trans typed) shared with ⟨_, some, granted⟩
  exact ⟨inUse, some, granted⟩

theorem cappedShare_le_available_iff (available delta : Nat) {total : Nat} (some : 0 < total) :
    cappedShare available delta total ≤ available ↔
      delta ≤ available ∨ available = 0 ∨
        delta * 10000 < (10001 + 9999 / available) * total := by
  rw [cappedShare, min_le_iff, or_comm]
  rcases Nat.eq_zero_or_pos available with nothing | something
  · simp [nothing, share]
  · have empty : available ≠ 0 := by omega
    rw [share_le_available_iff (by decide) some something, Nat.add_right_comm]
    simp [empty]

/-- Where the saturated total is too large to matter, so is the true one. -/
theorem lt_saturated_iff {delta total : Nat} (typed : delta ≤ u64Max) (extra : Nat) :
    delta * 10000 < (10001 + extra) * min total u64Max ↔
      delta * 10000 < (10001 + extra) * total := by
  rcases Nat.le_total total u64Max with within | beyond
  · rw [Nat.min_eq_left within]
  · have saturated : delta * 10000 < (10001 + extra) * u64Max :=
      calc delta * 10000 ≤ u64Max * 10000 := Nat.mul_le_mul_right _ typed
        _ < u64Max * (10001 + extra) := Nat.mul_lt_mul_of_pos_left (by omega) (by decide)
        _ = (10001 + extra) * u64Max := Nat.mul_comm _ _
    rw [Nat.min_eq_right beyond]
    exact iff_of_true saturated (saturated.trans_le (Nat.mul_le_mul_left _ beyond))

/-- An increase stays within what is available unless the target was processed before
and lacks much more than all pending targets together. -/
theorem increase_withinAvailable_iff
    (reaches : ReachesCalculation environment inputs accounts row listed ready)
    (typed : (ready.stakeMeta.targets inputs.directedStakeMetaIndex).totalTargetLamports ≤ u64Max)
    (reserveBound : inputs.reserveLamports ≤ u64Max)
    (calculated : calculatedIncrease inputs ready = .ok (.increase lamports)) :
    (lamports ≤ inputs.reserveLamports - 2 * inputs.stakeRent ∧
      lamports ≤ (ready.stakeMeta.targets inputs.directedStakeMetaIndex).totalTargetLamports -
        (ready.stakeMeta.targets inputs.directedStakeMetaIndex).totalStakedLamports) ↔
    ((ready.stakeMeta.targets inputs.directedStakeMetaIndex).stakedLastUpdatedEpoch ≠
        environment.clock.epoch ∨
      (ready.stakeMeta.targets inputs.directedStakeMetaIndex).deficit ≤
        inputs.reserveLamports - 2 * inputs.stakeRent ∨
      inputs.reserveLamports - 2 * inputs.stakeRent = 0 ∨
      (ready.stakeMeta.targets inputs.directedStakeMetaIndex).deficit * 10000 <
        (10001 + 9999 / (inputs.reserveLamports - 2 * inputs.stakeRent)) *
          ((pendingIndices ready.stakeMeta environment.clock.epoch).map
            fun index => (ready.stakeMeta.targets index).deficit).sum) := by
  have epoch := (stateChecks_eq_ok.mp reaches.checked).2.2.1
  rcases calculatedIncrease_eq_ok typed reserveBound calculated with ⟨inUse, some, granted⟩
  rw [← epoch] at some granted
  subst lamports
  have deficitBound : (ready.stakeMeta.targets inputs.directedStakeMetaIndex).deficit ≤ u64Max :=
    (Nat.sub_le _ _).trans typed
  generalize inputs.reserveLamports - 2 * inputs.stakeRent = available
  have within : cappedShare available
      (ready.stakeMeta.targets inputs.directedStakeMetaIndex).deficit
      (totalOverPending ready.stakeMeta environment.clock.epoch DirectedStakeTarget.deficit) ≤
        (ready.stakeMeta.targets inputs.directedStakeMetaIndex).totalTargetLamports -
          (ready.stakeMeta.targets inputs.directedStakeMetaIndex).totalStakedLamports :=
    Nat.min_le_right _ _
  have bounded := cappedShare_le_available_iff available
    (ready.stakeMeta.targets inputs.directedStakeMetaIndex).deficit some
  constructor
  · rintro ⟨inBounds, _⟩
    have ample := bounded.mp inBounds
    rw [totalOverPending_eq, lt_saturated_iff deficitBound] at ample
    exact .inr ample
  · rintro (pending | ample)
    · have counted := le_totalOverPending DirectedStakeTarget.deficit inUse pending deficitBound
      exact ⟨(Nat.min_le_left _ _).trans (share_le_of_part_le (by decide) counted), within⟩
    · rw [← lt_saturated_iff deficitBound, ← totalOverPending_eq _ _
        DirectedStakeTarget.deficit] at ample
      exact ⟨bounded.mpr ample, within⟩

end Increase

/-- Inputs for the first of the two targets. -/
def firstTargetInputs (reserveLamports : Nat) : RebalanceDirected.Inputs where
  directedStakeMetaIndex := 0
  voteAccount := 1
  poolTotalLamports := 20000
  reserveLamports := reserveLamports
  minimumDelegation := 1
  stakeRent := 1
  invoke := fun _ => .ok ()

/-- The accounts once the first target is reconciled with its empty stake account. -/
def firstTargetReady (accounts : Accounts) : Accounts :=
  RebalanceDirected.flagCompletion twoTargetsEnvironment.clock (reconciled accounts 0 0 0)

theorem increase_withinAvailable_twoTargets :
    calculatedIncrease (firstTargetInputs 502) (firstTargetReady (twoTargets 600 400)) =
        .ok (.increase 300) ∧
      300 ≤ 502 - 2 * 1 := by
  have reaches : ReachesCalculation twoTargetsEnvironment (firstTargetInputs 502)
      (twoTargets 600 400) 0 0 (firstTargetReady (twoTargets 600 400)) :=
    ⟨by decide +kernel, ⟨_, rfl⟩, ⟨_, adjust_eq (by decide) (by decide), rfl⟩,
      by decide +kernel, by decide +kernel⟩
  have calculated : calculatedIncrease (firstTargetInputs 502)
      (firstTargetReady (twoTargets 600 400)) = .ok (.increase 300) := by decide +kernel
  have within := increase_withinAvailable_iff reaches (by decide +kernel) (by decide) calculated
  exact ⟨calculated, (within.mpr (by decide +kernel)).1⟩

/-- The first target is processed while the reserve is empty. -/
def passedOver : Accounts :=
  execute (twoTargets 1000 1)
    ⟨twoTargetsEnvironment, .rebalanceDirected (firstTargetInputs 2)⟩

/-- The handler lets the target through once more in the same epoch, and of ten
lamports it is to get all of its thousand. -/
theorem not_increase_withinAvailable :
    ReachesCalculation twoTargetsEnvironment (firstTargetInputs 12) passedOver 0 0
        (firstTargetReady passedOver) ∧
      calculatedIncrease (firstTargetInputs 12) (firstTargetReady passedOver) =
        .ok (.increase 1000) ∧
      ¬1000 ≤ 12 - 2 * 1 := by
  refine ⟨⟨by decide +kernel, ⟨_, rfl⟩, ⟨_, adjust_eq (by decide) (by decide), rfl⟩,
    by decide +kernel, by decide +kernel⟩, by decide +kernel, by decide⟩

end Directed

/-! ## The budget in basis points of the pool -/

theorem Parameters.Accepted.directedStakeUnstakeCapBps_le {parameters : Parameters}
    (accepted : parameters.Accepted) :
    parameters.directedStakeUnstakeCapBps ≤ basisPointsMax := by
  rcases accepted with ⟨_, _, _, validated⟩
  simp only [Parameters.validate, Outcome.bind_eq_ok, require_eq_ok] at validated
  grind

/-- The budget, whose product saturates in `u64`, is the exact one and that of the
undirected caps as long as the product does not pass the multiple of 10000 after the
largest `u64`. -/
theorem directedUnstakeCap_exact_iff {environment : Environment}
    {inputs : RebalanceDirected.Inputs} (accepted : environment.config.parameters.Accepted)
    (typed : inputs.poolTotalLamports ≤ u64Max) :
    (RebalanceDirected.unstakeCap environment inputs =
        inputs.poolTotalLamports *
          environment.config.parameters.directedStakeUnstakeCapBps / 10000 ∧
      unstakeCap inputs.poolTotalLamports
          environment.config.parameters.directedStakeUnstakeCapBps =
        .ok (RebalanceDirected.unstakeCap environment inputs)) ↔
    inputs.poolTotalLamports * environment.config.parameters.directedStakeUnstakeCapBps <
      (u64Max / 10000 + 1) * 10000 := by
  have bps := accepted.directedStakeUnstakeCapBps_le
  have product : inputs.poolTotalLamports *
      environment.config.parameters.directedStakeUnstakeCapBps ≤ u64Max * 10000 :=
    Nat.mul_le_mul typed bps
  rw [unstakeCap_eq_ok, RebalanceDirected.unstakeCap]
  generalize inputs.poolTotalLamports *
    environment.config.parameters.directedStakeUnstakeCapBps = exact at product ⊢
  omega

/-- Inputs of a call for a pool of so many lamports. -/
def poolInputs (poolTotalLamports : Nat) : RebalanceDirected.Inputs :=
  { Directed.firstTargetInputs 0 with poolTotalLamports := poolTotalLamports }

/-- A pool of 50000 SOL under the default parameters. -/
theorem directedUnstakeCap_exact_smallPool :
    RebalanceDirected.unstakeCap Directed.twoTargetsEnvironment (poolInputs (50000 * 10 ^ 9)) =
      50000 * 10 ^ 9 := by
  have accepted : Directed.twoTargetsEnvironment.config.parameters.Accepted :=
    ⟨0, 1, 1000, by decide +kernel⟩
  have typed : (poolInputs (50000 * 10 ^ 9)).poolTotalLamports ≤ u64Max := by decide
  exact ((directedUnstakeCap_exact_iff accepted typed).mpr (by decide)).1

/-- A pool of 15 million SOL under the default parameters has a budget of less than two
million. -/
theorem not_directedUnstakeCap_exact :
    Directed.twoTargetsEnvironment.config.parameters.Accepted ∧
      (poolInputs (15000000 * 10 ^ 9)).poolTotalLamports ≤ u64Max ∧
      RebalanceDirected.unstakeCap Directed.twoTargetsEnvironment
        (poolInputs (15000000 * 10 ^ 9)) = 1844674407370955 ∧
      ¬RebalanceDirected.unstakeCap Directed.twoTargetsEnvironment
          (poolInputs (15000000 * 10 ^ 9)) =
        (poolInputs (15000000 * 10 ^ 9)).poolTotalLamports *
          Directed.twoTargetsEnvironment.config.parameters.directedStakeUnstakeCapBps / 10000 :=
  ⟨⟨0, 1, 1000, by decide +kernel⟩, by decide, by decide, by decide⟩

end Stakenet.Steward

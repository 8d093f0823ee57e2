import Stakenet.Foundation.ProRata
import Stakenet.Steward.DirectedDelegation

/-! The directed calculations in closed form: both hand out a share of what is
available, in proportion to the total over the targets not yet processed in the epoch. -/

namespace Stakenet.Steward

/-- What is directed to a target beyond the stake applied to it. -/
def DirectedStakeTarget.deficit (target : DirectedStakeTarget) : Nat :=
  target.totalTargetLamports - target.totalStakedLamports

/-- The stake applied to a target beyond what is directed to it. -/
def DirectedStakeTarget.excess (target : DirectedStakeTarget) : Nat :=
  target.totalStakedLamports - target.totalTargetLamports

namespace Directed

open ProRata

/-! ## The total of the pending targets -/

/-- The targets in use that are not yet processed in the epoch. -/
def pendingIndices (stakeMeta : DirectedStakeMeta) (currentEpoch : Nat) : List Nat :=
  (List.range stakeMeta.totalStakeTargets).filter fun index =>
    (stakeMeta.targets index).stakedLastUpdatedEpoch ≠ currentEpoch

theorem mem_pendingIndices {stakeMeta : DirectedStakeMeta} {currentEpoch index : Nat} :
    index ∈ pendingIndices stakeMeta currentEpoch ↔
      index < stakeMeta.totalStakeTargets ∧
        (stakeMeta.targets index).stakedLastUpdatedEpoch ≠ currentEpoch := by
  simp [pendingIndices]

/-- The total of the source is the true one, unless that is no `u64`. -/
theorem totalOverPending_eq (stakeMeta : DirectedStakeMeta) (currentEpoch : Nat)
    (quantity : DirectedStakeTarget → Nat) :
    totalOverPending stakeMeta currentEpoch quantity =
      min ((pendingIndices stakeMeta currentEpoch).map
        fun index => quantity (stakeMeta.targets index)).sum u64Max := by
  have folded : ∀ (indices : List Nat) (total : Nat), total ≤ u64Max →
      indices.foldl (fun total index =>
          if (stakeMeta.targets index).stakedLastUpdatedEpoch = currentEpoch then total
          else saturatingAdd total (quantity (stakeMeta.targets index))) total =
        min (total + ((indices.filter fun index =>
          (stakeMeta.targets index).stakedLastUpdatedEpoch ≠ currentEpoch).map
            fun index => quantity (stakeMeta.targets index)).sum) u64Max := by
    intro indices
    induction indices with
    | nil =>
        intro total bounded
        simp [bounded]
    | cons index rest induction =>
        intro total bounded
        by_cases processed : (stakeMeta.targets index).stakedLastUpdatedEpoch = currentEpoch
        · simp [processed, induction total bounded]
        · have saturated : saturatingAdd total (quantity (stakeMeta.targets index)) ≤ u64Max :=
            Nat.min_le_right _ _
          rw [List.foldl_cons, if_neg processed, induction _ saturated,
            List.filter_cons_of_pos (by simpa using processed), List.map_cons, List.sum_cons,
            saturatingAdd]
          omega
  rw [totalOverPending, folded _ 0 (Nat.zero_le _), Nat.zero_add, pendingIndices]

/-- Every summand of the saturating total is below it. -/
theorem le_totalOverPending {stakeMeta : DirectedStakeMeta} {currentEpoch index : Nat}
    (quantity : DirectedStakeTarget → Nat) (inUse : index < stakeMeta.totalStakeTargets)
    (pending : (stakeMeta.targets index).stakedLastUpdatedEpoch ≠ currentEpoch)
    (typed : quantity (stakeMeta.targets index) ≤ u64Max) :
    quantity (stakeMeta.targets index) ≤ totalOverPending stakeMeta currentEpoch quantity := by
  rw [totalOverPending_eq]
  apply Nat.le_min.mpr
  constructor
  · apply List.single_le_sum (fun _ _ => Nat.zero_le _)
    exact List.mem_map_of_mem (mem_pendingIndices.mpr ⟨inUse, pending⟩)
  · exact typed

/-! ## One share -/

/-- The `u128` arithmetic of a share saturates only where its result is no `u64`. -/
theorem proportionalLamports_eq {available delta total : Nat} (deltaBound : delta ≤ u64Max) :
    proportionalLamports available delta total =
      if share 10000 available delta total ≤ u64Max then .ok (share 10000 available delta total)
      else fail .arithmeticError := by
  have exactUnits : saturatingMul128 delta 10000 / total = units 10000 delta total := by
    have product : delta * 10000 ≤ u128Max :=
      (Nat.mul_le_mul_right 10000 deltaBound).trans (by decide)
    rw [saturatingMul128, Nat.min_eq_left product, units]
  rcases Nat.le_total (available * units 10000 delta total) u128Max with within | beyond
  · have computed : saturatingMul128 available (units 10000 delta total) / 10000 =
        share 10000 available delta total := by
      rw [saturatingMul128, Nat.min_eq_left within, share]
    simp only [proportionalLamports, exactUnits, computed]
  · have computed : saturatingMul128 available (units 10000 delta total) / 10000 =
        u128Max / 10000 := by
      rw [saturatingMul128, Nat.min_eq_right beyond]
    have large : u64Max < u128Max / 10000 := by decide
    have larger : u128Max / 10000 ≤ share 10000 available delta total :=
      Nat.div_le_div_right beyond
    simp only [proportionalLamports, exactUnits, computed]
    rw [if_neg (Nat.not_le.mpr large), if_neg (Nat.not_le.mpr (large.trans_le larger))]

/-- A share of a whole that contains it takes at most what is available. -/
theorem proportionalLamports_le {available delta total lamports : Nat}
    (deltaBound : delta ≤ u64Max) (part : delta ≤ total)
    (computed : proportionalLamports available delta total = .ok lamports) :
    lamports ≤ available := by
  rw [proportionalLamports_eq deltaBound] at computed
  split at computed
  case isTrue =>
      cases computed
      exact share_le_of_part_le (by decide) part
  case isFalse => simp at computed

/-- Both calculations hand out a share of what is available, capped by the delta of
the target. -/
def shareOut (outcome : Nat → RebalanceType) (minimumDelegation available delta total : Nat) :
    Result RebalanceType :=
  if delta = 0 ∨ total = 0 then .ok .none
  else do
    let proportional ← proportionalLamports available delta total
    return if min proportional delta < minimumDelegation then .none
      else outcome (min proportional delta)

/-- The outcome of a directed decrease. -/
def decreaseOutcome (lamports : Nat) : RebalanceType :=
  .decrease {
    scoringUnstakeLamports := 0
    instantUnstakeLamports := 0
    stakeDepositUnstakeLamports := 0
    totalUnstakeLamports := lamports
    directedUnstakeLamports := lamports }

/-- The targets in use must be rows of the account. -/
def guardTarget (stakeMeta : DirectedStakeMeta) (index delta : Nat)
    (rest : Result RebalanceType) : Result RebalanceType :=
  if stakeMeta.totalStakeTargets ≤ index then fail .validatorIndexOutOfBounds
  else if maxValidators ≤ index then .error .panicked
  else if delta ≠ 0 ∧ maxValidators < stakeMeta.totalStakeTargets then .error .panicked
  else rest

section Calculations

variable {state : StewardStateV2} {stakeMeta : DirectedStakeMeta} {result : RebalanceType}
variable {index current reserve minimumDelegation stakeRent cap total delta : Nat}

theorem guardTarget_of_lt (inUse : index < stakeMeta.totalStakeTargets)
    (bounded : stakeMeta.totalStakeTargets ≤ maxValidators) (rest : Result RebalanceType) :
    guardTarget stakeMeta index delta rest = rest := by
  rw [guardTarget, if_neg (by omega), if_neg (by omega), if_neg (by omega)]

theorem guardTarget_eq_ok {rest : Result RebalanceType}
    (guarded : guardTarget stakeMeta index delta rest = .ok result) :
    index < stakeMeta.totalStakeTargets ∧ rest = .ok result := by
  unfold guardTarget at guarded
  split at guarded
  case isTrue => simp at guarded
  case isFalse inUse =>
      split at guarded
      case isTrue => cases guarded
      case isFalse =>
          split at guarded
          case isTrue => cases guarded
          case isFalse => exact ⟨Nat.lt_of_not_le inUse, guarded⟩

theorem increaseStakeCalculation_eq :
    increaseStakeCalculation state stakeMeta index current reserve minimumDelegation stakeRent =
      guardTarget stakeMeta index ((stakeMeta.targets index).totalTargetLamports - current)
        (shareOut .increase minimumDelegation (reserve - min (stakeRent * 2) u64Max)
          ((stakeMeta.targets index).totalTargetLamports - current)
          (totalOverPending stakeMeta state.currentEpoch DirectedStakeTarget.deficit)) := by
  have quantity : (fun target : DirectedStakeTarget =>
      target.totalTargetLamports - target.totalStakedLamports) = DirectedStakeTarget.deficit := rfl
  rw [increaseStakeCalculation, guardTarget, quantity, shareOut]
  split
  case isTrue => rfl
  case isFalse =>
      by_cases row : index < maxValidators
      · rw [readRow_of_lt _ row, Outcome.ok_bind, if_neg (Nat.not_le.mpr row)]
        by_cases met : (stakeMeta.targets index).totalTargetLamports - current = 0
        · simp only [met, if_true, true_or, ne_eq, not_true_eq_false, false_and, if_false]
          rfl
        · simp only [met, if_false, false_or, ne_eq, not_false_eq_true, true_and]
          split
          case isTrue => rfl
          case isFalse =>
              split
              case isTrue => rfl
              case isFalse =>
                  congr 1
                  funext proportional
                  split <;> rfl
      · rw [readRow, if_neg row, if_pos (Nat.le_of_not_lt row)]
        rfl

theorem decreaseStakeCalculation_eq :
    decreaseStakeCalculation state stakeMeta index current cap total minimumDelegation =
      guardTarget stakeMeta index (current - (stakeMeta.targets index).totalTargetLamports)
        (shareOut decreaseOutcome minimumDelegation
          (min (cap - total)
            (totalOverPending stakeMeta state.currentEpoch DirectedStakeTarget.excess))
          (current - (stakeMeta.targets index).totalTargetLamports)
          (totalOverPending stakeMeta state.currentEpoch DirectedStakeTarget.excess)) := by
  have quantity : (fun target : DirectedStakeTarget =>
      target.totalStakedLamports - target.totalTargetLamports) = DirectedStakeTarget.excess := rfl
  rw [decreaseStakeCalculation, guardTarget, quantity, shareOut]
  split
  case isTrue => rfl
  case isFalse =>
      by_cases row : index < maxValidators
      · rw [readRow_of_lt _ row, Outcome.ok_bind, if_neg (Nat.not_le.mpr row)]
        by_cases met : current ≤ (stakeMeta.targets index).totalTargetLamports
        · simp only [met, Nat.sub_eq_zero_of_le met, if_true, true_or, ne_eq, not_true_eq_false,
            false_and, if_false]
          rfl
        · have beyond : current - (stakeMeta.targets index).totalTargetLamports ≠ 0 := by omega
          simp only [met, beyond, if_false, false_or, ne_eq, not_false_eq_true, true_and]
          split
          case isTrue => rfl
          case isFalse =>
              split
              case isTrue => rfl
              case isFalse =>
                  congr 1
                  funext proportional
                  split <;> rfl
      · rw [readRow, if_neg row, if_pos (Nat.le_of_not_lt row)]
        rfl

end Calculations

section ShareOut

variable {outcome : Nat → RebalanceType} {minimumDelegation available delta total lamports : Nat}

/-- The share of a target, no more than its delta. -/
def cappedShare (available delta total : Nat) : Nat :=
  min (share 10000 available delta total) delta

/-- A part of the whole always has a share. -/
theorem shareOut_eq (part : delta ≤ total) (totalBound : total ≤ u64Max)
    (availableBound : available ≤ u64Max) :
    shareOut outcome minimumDelegation available delta total =
      .ok (if delta = 0 ∨ cappedShare available delta total < minimumDelegation then .none
        else outcome (cappedShare available delta total)) := by
  rw [shareOut]
  by_cases met : delta = 0
  · simp [met]
  · have some : total ≠ 0 := by omega
    have share_le : share 10000 available delta total ≤ u64Max :=
      (share_le_of_part_le (by decide) part).trans availableBound
    rw [if_neg (by omega), proportionalLamports_eq (part.trans totalBound), if_pos share_le]
    simp only [met, false_or]
    rfl

/-- What a calculation returns is nothing or a capped share. -/
theorem of_shareOut {result : RebalanceType}
    (shared : shareOut outcome minimumDelegation available delta total = .ok result) :
    result = .none ∨ 0 < delta ∧ 0 < total ∧ ∃ proportional,
      proportionalLamports available delta total = .ok proportional ∧
        result = outcome (min proportional delta) := by
  rw [shareOut] at shared
  split at shared
  case isTrue =>
      cases shared
      exact .inl rfl
  case isFalse nonzero =>
      simp only [Outcome.bind_eq_ok, Outcome.pure_eq_ok] at shared
      rcases shared with ⟨proportional, computed, rfl⟩
      split
      case isTrue => exact .inl rfl
      case isFalse => exact .inr ⟨by omega, by omega, proportional, computed, rfl⟩

theorem of_shareOut_increase (deltaBound : delta ≤ u64Max)
    (shared : shareOut .increase minimumDelegation available delta total =
      .ok (.increase lamports)) :
    0 < delta ∧ 0 < total ∧ lamports = cappedShare available delta total := by
  rcases of_shareOut shared with nothing | ⟨deficit, some, proportional, computed, granted⟩
  · cases nothing
  · rw [proportionalLamports_eq deltaBound] at computed
    split at computed
    case isTrue within =>
        cases computed
        cases granted
        exact ⟨deficit, some, rfl⟩
    case isFalse beyond => simp at computed

end ShareOut

end Directed

end Stakenet.Steward

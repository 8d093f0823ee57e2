import Mathlib.Algebra.BigOperators.Group.List.Basic
import Mathlib.Algebra.BigOperators.Intervals
import Stakenet.Foundation.Allocation
import Stakenet.Steward.Maintenance
import Stakenet.Steward.StakeView

/-! Undirected increases give the reserve to the best validators first, and never
promise more than the reserve holds. -/

namespace Stakenet.Steward

open Allocation

namespace StakeCalculation

variable (calculation : StakeCalculation)

/-- What a row lacks to its target. Rows without a share, marked for instant unstake
or with transient stake need nothing. -/
def stakeNeed (index : Nat) : Nat :=
  if 0 < (calculation.state.delegations index).numerator ∧
      calculation.state.instantUnstake.contains index = false ∧
      calculation.someTransientStake index = false then
    calculation.targetLamports index - calculation.undirectedLamports index
  else 0

/-- The rows of the pool, the first one by score first. -/
def bestFirst : List Nat :=
  (List.range calculation.state.numPoolValidators).map calculation.state.sortedScoreIndices

/-- The same calculation for another validator. -/
def forRow (index currentLamports : Nat) : StakeCalculation :=
  { calculation with targetIndex := index, currentLamports := currentLamports }

end StakeCalculation

def increaseOutcome (minimumDelegation lamports : Nat) : RebalanceType :=
  if minimumDelegation < lamports then .increase lamports else .none

/-- The lamports that a calculation would take from the reserve. -/
def grantedLamports : Result RebalanceType → Nat
  | .ok (.increase lamports) => lamports
  | _ => 0

namespace StakeCalculation

variable {calculation : StakeCalculation} {index reserveLamports : Nat} {result : RebalanceType}

/-! ## One row -/

theorem simulateIncrease_allotted {lamports : Nat}
    (computed : calculation.simulateIncrease calculation.baseLamportBalance index
      reserveLamports = .ok lamports) :
    lamports = min (calculation.stakeNeed index) reserveLamports := by
  simp only [simulateIncrease, Outcome.bind_eq_ok, readRow_eq_ok, BitMask.get_eq_ok] at computed
  rcases computed with ⟨_, ⟨_, rfl⟩, marked, ⟨_, rfl⟩, computed⟩
  unfold stakeNeed
  split at computed
  case isTrue eligible =>
      simp only [Outcome.bind_eq_ok] at computed
      rcases computed with ⟨target, targeted, ⟨simulated, transient⟩, read, computed⟩
      have targetEq := getTargetLamports_eq_ok targeted
      have readEq := simulated_eq_ok read
      rw [Prod.mk.injEq] at readEq
      rcases readEq with ⟨rfl, rfl⟩
      subst target
      split at computed
      case isTrue below =>
          simp only [Outcome.bind_eq_ok, checkedSub_eq_ok, Outcome.pure_eq_ok] at computed
          rcases computed with ⟨_, ⟨_, rfl⟩, rfl⟩
          rw [if_pos ⟨eligible.1, by simpa using eligible.2, by simpa using below.1⟩]
          rfl
      case isFalse above =>
          rw [Outcome.pure_eq_ok] at computed
          split
          case isTrue settled =>
              have reached : calculation.targetLamports index ≤
                  calculation.undirectedLamports index := by
                by_contra below
                exact above ⟨by simpa using settled.2.2, Nat.lt_of_not_le below⟩
              omega
          case isFalse => omega
  case isFalse ineligible =>
      rw [Outcome.pure_eq_ok] at computed
      rw [if_neg]
      · omega
      · intro settled
        exact ineligible ⟨settled.1, by simpa using settled.2.1⟩

theorem simulateIncrease_succeeds (readable : calculation.Readable)
    (bounded : index < calculation.state.numPoolValidators) (reserveLamports : Nat) :
    ∃ lamports, calculation.simulateIncrease calculation.baseLamportBalance index
      reserveLamports = .ok lamports := by
  have row : index < maxValidators := Nat.lt_of_lt_of_le bounded readable.capacity
  simp only [simulateIncrease, readRow_of_lt _ row, BitMask.get_of_lt _ row, Outcome.ok_bind,
    readable.target_eq_ok bounded, readable.simulated_eq_ok bounded]
  split
  case isTrue =>
      split
      case isTrue below =>
          rw [checkedSub, if_pos below.2.le]
          exact ⟨_, rfl⟩
      case isFalse => exact ⟨0, rfl⟩
  case isFalse => exact ⟨0, rfl⟩

/-! ## The walk along the ranking -/

theorem increaseAlong_allotted {walk : List Nat}
    (computed : calculation.increaseAlong calculation.baseLamportBalance walk reserveLamports =
      .ok result) :
    result = increaseOutcome calculation.minimumDelegation
      (allotted calculation.stakeNeed reserveLamports walk calculation.targetIndex) := by
  induction walk generalizing reserveLamports with
  | nil => simp [increaseAlong] at computed
  | cons index rest induction =>
      simp only [increaseAlong, Outcome.bind_eq_ok, checkedSub_eq_ok] at computed
      rcases computed with ⟨lamports, simulated, _, ⟨_, rfl⟩, computed⟩
      have amount := simulateIncrease_allotted simulated
      split at computed
      case isTrue reached =>
          subst index
          rw [allotted_cons_self, ← amount, increaseOutcome]
          split at computed
          case isTrue small =>
              rw [if_neg (by omega)]
              exact (Outcome.pure_eq_ok.mp computed).symm
          case isFalse large =>
              rw [if_pos (by omega)]
              exact (Outcome.pure_eq_ok.mp computed).symm
      case isFalse other =>
          have left : reserveLamports - lamports =
              reserveLamports - calculation.stakeNeed index := by omega
          rw [left] at computed
          rw [allotted_cons_of_ne _ _ _ other]
          exact induction computed

theorem increaseAlong_succeeds (readable : calculation.Readable) {walk : List Nat}
    (inPool : ∀ row ∈ walk, row < calculation.state.numPoolValidators)
    (reached : calculation.targetIndex ∈ walk) (reserveLamports : Nat) :
    ∃ result, calculation.increaseAlong calculation.baseLamportBalance walk reserveLamports =
      .ok result := by
  induction walk generalizing reserveLamports with
  | nil => cases reached
  | cons index rest induction =>
      rcases simulateIncrease_succeeds readable (inPool index List.mem_cons_self)
        reserveLamports with ⟨lamports, simulated⟩
      have amount := simulateIncrease_allotted simulated
      simp only [increaseAlong, simulated, Outcome.ok_bind]
      rw [checkedSub, if_pos (by omega), Outcome.ok_bind]
      split
      case isTrue =>
          split
          · exact ⟨_, rfl⟩
          · exact ⟨_, rfl⟩
      case isFalse other =>
          apply induction fun row member => inPool row (List.mem_cons_of_mem _ member)
          exact (List.mem_cons.mp reached).resolve_left fun equal => other equal.symm

theorem Readable.forRow (readable : calculation.Readable) (index currentLamports : Nat) :
    (calculation.forRow index currentLamports).Readable :=
  ⟨readable.capacity, readable.listed, readable.denominators, readable.targetsFit,
    readable.directedIndices, readable.base⟩

/-! ## The calculation -/

theorem increase_allotted
    (computed : increaseStakeCalculation calculation reserveLamports = .ok result) :
    result = increaseOutcome calculation.minimumDelegation
      (allotted calculation.stakeNeed reserveLamports calculation.bestFirst
        calculation.targetIndex) :=
  increaseAlong_allotted (increaseStakeCalculation_eq_ok computed).2

theorem increase_succeeds (readable : calculation.Readable)
    (listed : ∀ row, row ∈ calculation.bestFirst ↔ row < calculation.state.numPoolValidators)
    (inPool : calculation.targetIndex < calculation.state.numPoolValidators)
    (below : calculation.currentLamports < calculation.targetLamports calculation.targetIndex)
    (reserveLamports : Nat) :
    ∃ result, increaseStakeCalculation calculation reserveLamports = .ok result := by
  have capacity := readable.capacity
  have row : calculation.targetIndex < maxValidators := Nat.lt_of_lt_of_le inPool capacity
  have base := readable.base
  unfold baseLamportBalance at base
  rcases increaseAlong_succeeds readable (fun row member => (listed row).mp member)
    ((listed _).mpr inPool) reserveLamports with ⟨result, computed⟩
  refine ⟨result, ?_⟩
  rw [increaseStakeCalculation, if_neg (by omega), readRow_of_lt _ row, Outcome.ok_bind,
    readable.target_eq_ok inPool, Outcome.ok_bind, checkedAdd, if_pos base, Outcome.ok_bind,
    if_pos below, if_neg (by omega)]
  exact computed

theorem grantedLamports_le (index currentLamports : Nat) :
    grantedLamports (increaseStakeCalculation (calculation.forRow index currentLamports)
        reserveLamports) ≤
      allotted calculation.stakeNeed reserveLamports calculation.bestFirst index := by
  cases computed : increaseStakeCalculation (calculation.forRow index currentLamports)
      reserveLamports with
  | error => exact Nat.zero_le _
  | ok result =>
      rw [increase_allotted computed, increaseOutcome]
      split
      case isTrue => exact Nat.le_refl _
      case isFalse => exact Nat.zero_le _

end StakeCalculation

/-- Each row gets what the better ranked ones leave of the reserve, so all rows
together get no more than the reserve, and whoever gets something stands behind
needs that are all met. -/
theorem increaseStakeCalculation_allots (calculation : StakeCalculation) (reserveLamports : Nat)
    (permutation : ((List.range calculation.state.numPoolValidators).map
      calculation.state.sortedScoreIndices).Perm
        (List.range calculation.state.numPoolValidators)) :
    (∀ index < calculation.state.numPoolValidators,
      ∀ currentLamports < calculation.targetLamports index,
      (∀ result, increaseStakeCalculation (calculation.forRow index currentLamports)
          reserveLamports = .ok result →
        result = increaseOutcome calculation.minimumDelegation
          (allotted calculation.stakeNeed reserveLamports calculation.bestFirst index)) ∧
      (calculation.Readable →
        increaseStakeCalculation (calculation.forRow index currentLamports) reserveLamports =
          .ok (increaseOutcome calculation.minimumDelegation
            (allotted calculation.stakeNeed reserveLamports calculation.bestFirst index)))) ∧
    ∀ currentLamports : Nat → Nat,
      ((List.range calculation.state.numPoolValidators).map fun index =>
        grantedLamports (increaseStakeCalculation
          (calculation.forRow index (currentLamports index)) reserveLamports)).sum ≤
            reserveLamports ∧
      ∀ index, 0 < grantedLamports (increaseStakeCalculation
          (calculation.forRow index (currentLamports index)) reserveLamports) →
        ∀ better ∈ ahead calculation.bestFirst index,
          allotted calculation.stakeNeed reserveLamports calculation.bestFirst better =
            calculation.stakeNeed better := by
  have listed : ∀ row, row ∈ calculation.bestFirst ↔
      row < calculation.state.numPoolValidators := by
    intro row
    rw [StakeCalculation.bestFirst, permutation.mem_iff, List.mem_range]
  constructor
  · intro index inPool currentLamports below
    refine ⟨fun result => StakeCalculation.increase_allotted, ?_⟩
    intro readable
    rcases StakeCalculation.increase_succeeds (readable.forRow index currentLamports) listed
      inPool below reserveLamports with ⟨result, computed⟩
    rw [computed]
    exact congrArg Except.ok (StakeCalculation.increase_allotted computed)
  · intro currentLamports
    constructor
    · have distinct : calculation.bestFirst.Nodup :=
        permutation.nodup_iff.mpr List.nodup_range
      calc ((List.range calculation.state.numPoolValidators).map fun index =>
            grantedLamports (increaseStakeCalculation
              (calculation.forRow index (currentLamports index)) reserveLamports)).sum
          ≤ ((List.range calculation.state.numPoolValidators).map
              (allotted calculation.stakeNeed reserveLamports calculation.bestFirst)).sum :=
            List.sum_le_sum fun index _ => StakeCalculation.grantedLamports_le index _
        _ = (calculation.bestFirst.map
              (allotted calculation.stakeNeed reserveLamports calculation.bestFirst)).sum :=
            (permutation.symm.map _).sum_eq
        _ ≤ reserveLamports := sum_allotted_le distinct
    · intro index granted better before
      apply allotted_eq_need _ before
      exact Nat.lt_of_lt_of_le granted (StakeCalculation.grantedLamports_le index _)

/-- Two validators with a target of 200 lamports each; the first one by score holds
50, the other one 120. -/
def twoBelowTarget : StakeCalculation where
  state := { ReallocState.initialState 2 10 0 with
    sortedScoreIndices := fun position => 1 - position
    delegations := fun _ => ⟨1, 4⟩ }
  stakeMeta := .initial
  targetIndex := 0
  currentLamports := 120
  stakePoolLamports := 800
  validatorList := ⟨.validatorList, [⟨122, 0, 0, .active, 1⟩, ⟨52, 0, 0, .active, 2⟩], []⟩
  minimumDelegation := 1
  stakeRent := 1

/-- The better validator takes 150 of the 190 lamports of the reserve. -/
theorem increaseStakeCalculation_allots_twoBelowTarget :
    increaseStakeCalculation (twoBelowTarget.forRow 0 120) 190 = .ok (.increase 40) := by
  have readable : twoBelowTarget.Readable :=
    .of_uniform rfl rfl (by decide) (by decide) (by decide) (by decide) (by decide)
  rw [((increaseStakeCalculation_allots twoBelowTarget 190 (by decide)).1 0 (by decide) 120
    (by decide)).2 readable]
  decide +kernel

end Stakenet.Steward

import Stakenet.Foundation.Allocation
import Stakenet.Steward.Maintenance
import Stakenet.Steward.StakeView

/-! Undirected decreases fill three unstake caps from the worst validator up.

Every row has an excess over its target. Part of it may have arrived as a stake
deposit, and the row may be marked for instant unstake. A row first uses the cap
on stake deposits, then the one on instant unstakes, then the one on scoring. -/

namespace Stakenet.Steward

/-! ## Filling the caps -/

/-- What one row would unstake if nothing limited it. -/
structure UnstakeDemand where
  excess : Nat
  deposit : Nat
  marked : Bool

/-- What is left of each cap. -/
@[ext] structure UnstakeBudgets where
  stakeDeposit : Nat
  instant : Nat
  scoring : Nat

namespace UnstakeBudgets

/-- What a row gets from what is left. -/
def serve (budgets : UnstakeBudgets) (demand : UnstakeDemand) : UnstakeAmounts :=
  let stakeDeposit := min demand.deposit budgets.stakeDeposit
  let instant := if demand.marked then min (demand.excess - stakeDeposit) budgets.instant else 0
  let scoring := min (demand.excess - stakeDeposit - instant) budgets.scoring
  ⟨stakeDeposit, instant, scoring⟩

def spend (budgets : UnstakeBudgets) (amounts : UnstakeAmounts) : UnstakeBudgets where
  stakeDeposit := budgets.stakeDeposit - amounts.stakeDepositUnstakeLamports
  instant := budgets.instant - amounts.instantUnstakeLamports
  scoring := budgets.scoring - amounts.scoringUnstakeLamports

/-- What is left after the listed rows, each served in turn. -/
def spendAll (budgets : UnstakeBudgets) (demands : List UnstakeDemand) : UnstakeBudgets :=
  demands.foldl (fun left demand => left.spend (left.serve demand)) budgets

end UnstakeBudgets

/-- The outcome for amounts in the three categories. -/
def decreaseOutcome (minimumDelegation : Nat) (amounts : UnstakeAmounts) : RebalanceType :=
  let total := amounts.stakeDepositUnstakeLamports + amounts.instantUnstakeLamports +
    amounts.scoringUnstakeLamports
  if total ≤ minimumDelegation then .none
  else .decrease {
    scoringUnstakeLamports := amounts.scoringUnstakeLamports
    instantUnstakeLamports := amounts.instantUnstakeLamports
    stakeDepositUnstakeLamports := amounts.stakeDepositUnstakeLamports
    totalUnstakeLamports := total
    directedUnstakeLamports := 0 }

def UnstakeState.budgets (unstake : UnstakeState) : UnstakeBudgets where
  stakeDeposit := unstake.stakeDepositUnstakeCap - unstake.stakeDepositUnstakeTotal
  instant := unstake.instantUnstakeCap - unstake.instantUnstakeTotal
  scoring := unstake.scoringUnstakeCap - unstake.scoringUnstakeTotal

/-- The demand of a row with this excess. The deposit part of it is what lies above
the tracked balance, if a balance is tracked. -/
def demandOf (state : StewardStateV2) (index lamports excess : Nat) : UnstakeDemand where
  excess := excess
  deposit :=
    if state.validatorLamportBalances index ≠ lamportBalanceDefault ∧
        state.validatorLamportBalances index < lamports then
      min excess (lamports - state.validatorLamportBalances index)
    else 0
  marked := state.instantUnstake.contains index

namespace StakeCalculation

/-- The lamports of a row that count: the caller's for the target validator. -/
def countedLamports (calculation : StakeCalculation) (index : Nat) : Nat :=
  if index = calculation.targetIndex then calculation.currentLamports
  else calculation.undirectedLamports index

/-- The target of a decrease: nothing for a row marked for instant unstake. -/
def unstakeTarget (calculation : StakeCalculation) (index : Nat) : Nat :=
  if calculation.state.instantUnstake.contains index then 0
  else calculation.targetLamports index

/-- A row with transient stake demands nothing. -/
def unstakeDemand (calculation : StakeCalculation) (index : Nat) : UnstakeDemand :=
  demandOf calculation.state index (calculation.countedLamports index)
    (if calculation.someTransientStake index then 0
      else calculation.countedLamports index - calculation.unstakeTarget index)

/-- The rows of the pool, the last one by raw score first. -/
def worstFirst (calculation : StakeCalculation) : List Nat :=
  ((List.range calculation.state.numPoolValidators).map
    calculation.state.sortedRawScoreIndices).reverse

/-- What the target validator gets once all rows ranked below it were served. -/
def filledAmounts (calculation : StakeCalculation) (budgets : UnstakeBudgets) : UnstakeAmounts :=
  (budgets.spendAll ((Allocation.ahead calculation.worstFirst calculation.targetIndex).map
    calculation.unstakeDemand)).serve (calculation.unstakeDemand calculation.targetIndex)

end StakeCalculation

/-! ## One row -/

section Row

variable {unstake next : UnstakeState} {state : StewardStateV2}
variable {index currentLamports targetLamports : Nat} {amounts : UnstakeAmounts}

theorem UnstakeState.stakeDepositUnstake_served {granted : Nat}
    (computed : unstake.stakeDepositUnstake state index currentLamports targetLamports =
      .ok granted) :
    granted = min
      (if state.validatorLamportBalances index ≠ lamportBalanceDefault ∧
          state.validatorLamportBalances index < currentLamports then
        min (currentLamports - targetLamports)
          (currentLamports - state.validatorLamportBalances index)
      else 0) unstake.budgets.stakeDeposit := by
  simp only [UnstakeState.stakeDepositUnstake, Outcome.bind_eq_ok, readRow_eq_ok] at computed
  rcases computed with ⟨balance, ⟨_, rfl⟩, computed⟩
  simp only [budgets]
  split at computed
  case isTrue opened =>
      simp only [Outcome.bind_eq_ok, checkedSub_eq_ok, Outcome.pure_eq_ok] at computed
      rcases computed with ⟨_, ⟨_, rfl⟩, _, ⟨_, rfl⟩, _, ⟨_, rfl⟩, rfl⟩
      rw [if_pos ⟨opened.2.2, opened.1⟩]
  case isFalse closed =>
      simp only [Outcome.pure_eq_ok] at computed
      split
      case isTrue tracked =>
          have used : unstake.stakeDepositUnstakeCap ≤ unstake.stakeDepositUnstakeTotal := by
            by_contra free
            exact closed ⟨tracked.2, by omega, tracked.1⟩
          omega
      case isFalse => omega

theorem UnstakeState.instantUnstake_served {granted : Nat}
    (computed : unstake.instantUnstake state index currentLamports targetLamports =
      .ok granted) :
    granted = if state.instantUnstake.contains index then
      min (currentLamports - targetLamports) unstake.budgets.instant else 0 := by
  simp only [UnstakeState.instantUnstake, Outcome.bind_eq_ok, BitMask.getUnsafe_eq_ok] at computed
  rcases computed with ⟨marked, ⟨_, rfl⟩, computed⟩
  simp only [budgets]
  split at computed
  case isTrue opened =>
      simp only [Outcome.bind_eq_ok, checkedSub_eq_ok, Outcome.pure_eq_ok] at computed
      rcases computed with ⟨_, ⟨_, rfl⟩, _, ⟨_, rfl⟩, rfl⟩
      rw [if_pos opened.1]
  case isFalse closed =>
      simp only [Outcome.pure_eq_ok] at computed
      split
      case isTrue marked =>
          have used : unstake.instantUnstakeCap ≤ unstake.instantUnstakeTotal := by
            by_contra free
            exact closed ⟨marked, by omega⟩
          omega
      case isFalse => omega

theorem UnstakeState.scoringUnstake_served {granted : Nat}
    (computed : unstake.scoringUnstake currentLamports targetLamports = .ok granted) :
    granted = min (currentLamports - targetLamports) unstake.budgets.scoring := by
  simp only [UnstakeState.scoringUnstake, budgets] at computed ⊢
  split at computed
  case isTrue =>
      simp only [Outcome.bind_eq_ok, checkedSub_eq_ok, Outcome.pure_eq_ok] at computed
      rcases computed with ⟨_, ⟨_, rfl⟩, _, ⟨_, rfl⟩, rfl⟩
      rfl
  case isFalse =>
      simp only [Outcome.pure_eq_ok] at computed
      omega

theorem UnstakeState.simulateUnstake_serves
    (simulated : unstake.simulateUnstake state index currentLamports targetLamports =
      .ok (next, amounts)) :
    amounts = unstake.budgets.serve
        (demandOf state index currentLamports (currentLamports - targetLamports)) ∧
      next.budgets = unstake.budgets.spend amounts := by
  simp only [UnstakeState.simulateUnstake, Outcome.bind_eq_ok, checkedAdd_eq_ok,
    Outcome.pure_eq_ok, Prod.mk.injEq] at simulated
  rcases simulated with ⟨stakeDeposit, deposited, _, ⟨_, rfl⟩, instant, marked, _, ⟨_, rfl⟩,
    scoring, scored, _, ⟨_, rfl⟩, rfl, rfl⟩
  have depositAmount := stakeDepositUnstake_served deposited
  have instantAmount := instantUnstake_served marked
  have scoringAmount := scoringUnstake_served scored
  rw [Nat.sub_right_comm] at instantAmount
  rw [Nat.sub_right_comm, Nat.sub_right_comm currentLamports] at scoringAmount
  constructor
  · rw [UnstakeBudgets.serve, demandOf]
    simp only [← depositAmount, ← instantAmount, ← scoringAmount]
  · simp only [UnstakeState.budgets, UnstakeBudgets.spend, UnstakeBudgets.mk.injEq]
    omega

theorem UnstakeBudgets.serve_of_excess_eq_zero (budgets : UnstakeBudgets)
    (state : StewardStateV2) (index lamports : Nat) :
    budgets.serve (demandOf state index lamports 0) = .zero := by
  simp [UnstakeBudgets.serve, demandOf, UnstakeAmounts.zero]

theorem UnstakeBudgets.spend_zero (budgets : UnstakeBudgets) : budgets.spend .zero = budgets := by
  simp [UnstakeBudgets.spend, UnstakeAmounts.zero]

end Row

namespace StakeCalculation

variable {calculation : StakeCalculation} {index : Nat} {unstake next : UnstakeState}
variable {amounts : UnstakeAmounts} {result : RebalanceType}

theorem decreaseTarget_eq_unstakeTarget {target : Nat}
    (computed : calculation.decreaseTarget index = .ok target) :
    target = calculation.unstakeTarget index := by
  simp only [decreaseTarget, Outcome.bind_eq_ok, BitMask.getUnsafe_eq_ok] at computed
  rcases computed with ⟨marked, ⟨_, rfl⟩, computed⟩
  unfold unstakeTarget
  split at computed
  case isTrue isMarked =>
      rw [if_pos isMarked]
      exact (Outcome.pure_eq_ok.mp computed).symm
  case isFalse unmarked =>
      rw [if_neg unmarked]
      simp only [Outcome.bind_eq_ok, readRow_eq_ok] at computed
      rcases computed with ⟨_, ⟨_, rfl⟩, computed⟩
      exact getTargetLamports_eq_ok computed

/-- A step of the simulation serves the demand of its row. -/
theorem simulateDecrease_serves
    (simulated : calculation.simulateDecrease calculation.baseLamportBalance index unstake =
      .ok (next, amounts)) :
    amounts = unstake.budgets.serve (calculation.unstakeDemand index) ∧
      next.budgets = unstake.budgets.spend amounts := by
  simp only [simulateDecrease, Outcome.bind_eq_ok] at simulated
  rcases simulated with ⟨target, targeted, ⟨simulatedLamports, transient⟩, read, simulated⟩
  have targetEq := decreaseTarget_eq_unstakeTarget targeted
  have readEq := simulated_eq_ok read
  rw [Prod.mk.injEq] at readEq
  rcases readEq with ⟨rfl, rfl⟩
  subst target
  have counted : (if index = calculation.targetIndex then calculation.currentLamports
      else calculation.undirectedLamports index) = calculation.countedLamports index := rfl
  simp only [counted] at simulated
  unfold unstakeDemand
  split at simulated
  case isTrue above =>
      have settled : calculation.someTransientStake index = false := by simpa using above.1
      have served := UnstakeState.simulateUnstake_serves simulated
      rwa [settled, if_neg (by simp)]
  case isFalse within =>
      simp only [Outcome.pure_eq_ok, Prod.mk.injEq] at simulated
      rcases simulated with ⟨rfl, rfl⟩
      have nothing : (if calculation.someTransientStake index then 0
          else calculation.countedLamports index - calculation.unstakeTarget index) = 0 := by
        split
        case isTrue => rfl
        case isFalse settled =>
            apply Nat.sub_eq_zero_of_le
            by_contra above
            exact within ⟨by simpa using settled, by omega⟩
      rw [nothing, UnstakeBudgets.serve_of_excess_eq_zero]
      exact ⟨rfl, (UnstakeBudgets.spend_zero _).symm⟩

theorem decreaseOf_outcome (computed : calculation.decreaseOf amounts = .ok result) :
    result = decreaseOutcome calculation.minimumDelegation amounts := by
  simp only [decreaseOf, UnstakeAmounts.total, Outcome.bind_eq_ok, checkedAdd_eq_ok] at computed
  rcases computed with ⟨_, ⟨_, ⟨_, rfl⟩, _, rfl⟩, computed⟩
  unfold decreaseOutcome
  split at computed
  case isTrue small =>
      rw [if_pos small]
      exact (Outcome.pure_eq_ok.mp computed).symm
  case isFalse large =>
      rw [if_neg large]
      exact (Outcome.pure_eq_ok.mp computed).symm

/-- The walk serves one row after the other until it reaches the target validator. -/
theorem decreaseAlong_serves {walk : List Nat}
    (computed : calculation.decreaseAlong calculation.baseLamportBalance walk unstake =
      .ok result) :
    result = decreaseOutcome calculation.minimumDelegation
      ((unstake.budgets.spendAll ((Allocation.ahead walk calculation.targetIndex).map
        calculation.unstakeDemand)).serve
          (calculation.unstakeDemand calculation.targetIndex)) := by
  induction walk generalizing unstake with
  | nil => simp [decreaseAlong] at computed
  | cons index rest induction =>
      simp only [decreaseAlong, Outcome.bind_eq_ok] at computed
      rcases computed with ⟨⟨next, amounts⟩, simulated, computed⟩
      rcases simulateDecrease_serves simulated with ⟨served, spent⟩
      split at computed
      case isTrue reached =>
          subst index
          rw [Allocation.ahead_cons_self, List.map_nil, decreaseOf_outcome computed, served]
          rfl
      case isFalse other =>
          rw [induction computed, Allocation.ahead_cons_of_ne rest other, List.map_cons, spent,
            served]
          rfl

theorem decrease_outcome
    (computed : decreaseStakeCalculation calculation unstake = .ok result) :
    result = decreaseOutcome calculation.minimumDelegation
      (calculation.filledAmounts unstake.budgets) :=
  decreaseAlong_serves (decreaseStakeCalculation_eq_ok computed).2

/-! ## The calculation succeeds -/

/-- Totals and caps are `u64` values. -/
structure UnstakeFits (unstake : UnstakeState) : Prop where
  stakeDepositTotal : unstake.stakeDepositUnstakeTotal ≤ u64Max
  instantTotal : unstake.instantUnstakeTotal ≤ u64Max
  scoringTotal : unstake.scoringUnstakeTotal ≤ u64Max
  stakeDepositCap : unstake.stakeDepositUnstakeCap ≤ u64Max
  instantCap : unstake.instantUnstakeCap ≤ u64Max
  scoringCap : unstake.scoringUnstakeCap ≤ u64Max

section Success

variable {currentLamports targetLamports : Nat}

theorem stakeDepositUnstake_succeeds (unstake : UnstakeState) (state : StewardStateV2)
    (row : index < maxValidators)
    (atLeast : targetLamports ≤ currentLamports) :
    ∃ granted, unstake.stakeDepositUnstake state index currentLamports targetLamports =
      .ok granted := by
  rw [UnstakeState.stakeDepositUnstake, readRow_of_lt _ row, Outcome.ok_bind]
  split
  case isTrue opened =>
      rw [checkedSub, if_pos atLeast, checkedSub, if_pos (by omega), checkedSub,
        if_pos (by omega)]
      exact ⟨_, rfl⟩
  case isFalse => exact ⟨0, rfl⟩

theorem instantUnstake_succeeds (unstake : UnstakeState) (state : StewardStateV2)
    (row : index < maxValidators)
    (atLeast : targetLamports ≤ currentLamports) :
    ∃ granted, unstake.instantUnstake state index currentLamports targetLamports =
      .ok granted := by
  rw [UnstakeState.instantUnstake, BitMask.getUnsafe_of_lt _ row, Outcome.ok_bind]
  split
  case isTrue opened =>
      rw [checkedSub, if_pos atLeast, checkedSub, if_pos (by omega)]
      exact ⟨_, rfl⟩
  case isFalse => exact ⟨0, rfl⟩

theorem scoringUnstake_succeeds (unstake : UnstakeState)
    (atLeast : targetLamports ≤ currentLamports) :
    ∃ granted, unstake.scoringUnstake currentLamports targetLamports = .ok granted := by
  rw [UnstakeState.scoringUnstake]
  split
  case isTrue opened =>
      rw [checkedSub, if_pos atLeast, checkedSub, if_pos (by omega)]
      exact ⟨_, rfl⟩
  case isFalse => exact ⟨0, rfl⟩

theorem simulateUnstake_succeeds (state : StewardStateV2) (fits : UnstakeFits unstake)
    (row : index < maxValidators) (atLeast : targetLamports ≤ currentLamports) :
    ∃ next amounts, unstake.simulateUnstake state index currentLamports targetLamports =
      .ok (next, amounts) ∧ UnstakeFits next := by
  rcases fits with ⟨depositTotal, instantTotal, scoringTotal, depositCap, instantCap, scoringCap⟩
  rcases stakeDepositUnstake_succeeds unstake state row atLeast with ⟨stakeDeposit, deposited⟩
  have depositBound : stakeDeposit ≤ currentLamports - targetLamports ∧ stakeDeposit ≤
      unstake.stakeDepositUnstakeCap - unstake.stakeDepositUnstakeTotal := by
    have amount := UnstakeState.stakeDepositUnstake_served deposited
    simp only [UnstakeState.budgets] at amount
    split at amount <;> omega
  rcases instantUnstake_succeeds unstake state row
    (show targetLamports ≤ currentLamports - stakeDeposit by omega) with ⟨instant, marked⟩
  have instantBound : instant ≤ currentLamports - stakeDeposit - targetLamports ∧ instant ≤
      unstake.instantUnstakeCap - unstake.instantUnstakeTotal := by
    have amount := UnstakeState.instantUnstake_served marked
    simp only [UnstakeState.budgets] at amount
    split at amount <;> omega
  rcases scoringUnstake_succeeds unstake
    (show targetLamports ≤ currentLamports - stakeDeposit - instant by omega) with
    ⟨scoring, scored⟩
  have scoringBound : scoring ≤ unstake.scoringUnstakeCap - unstake.scoringUnstakeTotal := by
    have amount := UnstakeState.scoringUnstake_served scored
    simp only [UnstakeState.budgets] at amount
    omega
  rw [UnstakeState.simulateUnstake, deposited, Outcome.ok_bind, checkedAdd, if_pos (by omega),
    Outcome.ok_bind, marked, Outcome.ok_bind, checkedAdd, if_pos (by omega), Outcome.ok_bind,
    scored, Outcome.ok_bind, checkedAdd, if_pos (by omega), Outcome.ok_bind]
  refine ⟨_, _, rfl, ?_⟩
  constructor <;> simp only <;> omega

theorem simulateDecrease_succeeds (readable : calculation.Readable) (fits : UnstakeFits unstake)
    (bounded : index < calculation.state.numPoolValidators) :
    ∃ next amounts, calculation.simulateDecrease calculation.baseLamportBalance index unstake =
      .ok (next, amounts) ∧ UnstakeFits next := by
  have row : index < maxValidators := Nat.lt_of_lt_of_le bounded readable.capacity
  have target : calculation.decreaseTarget index = .ok (calculation.unstakeTarget index) := by
    rw [decreaseTarget, BitMask.getUnsafe_of_lt _ row, Outcome.ok_bind, unstakeTarget]
    split
    case isTrue => rfl
    case isFalse =>
        rw [readRow_of_lt _ row, Outcome.ok_bind]
        exact readable.target_eq_ok bounded
  simp only [simulateDecrease, target, readable.simulated_eq_ok bounded, Outcome.ok_bind]
  generalize (if index = calculation.targetIndex then calculation.currentLamports
    else calculation.undirectedLamports index) = lamports
  split
  case isTrue above => exact simulateUnstake_succeeds calculation.state fits row above.2.le
  case isFalse => exact ⟨unstake, .zero, rfl, fits⟩

/-- A row is never served more than its excess. -/
theorem serve_le (budgets : UnstakeBudgets) (state : StewardStateV2)
    (index lamports excess : Nat) :
    (budgets.serve (demandOf state index lamports excess)).stakeDepositUnstakeLamports +
      (budgets.serve (demandOf state index lamports excess)).instantUnstakeLamports +
      (budgets.serve (demandOf state index lamports excess)).scoringUnstakeLamports ≤ excess := by
  have part : (demandOf state index lamports excess).deposit ≤ excess := by
    unfold demandOf
    dsimp only
    split
    · exact Nat.min_le_left _ _
    · exact Nat.zero_le _
  have whole : (demandOf state index lamports excess).excess = excess := rfl
  unfold UnstakeBudgets.serve
  dsimp only
  split <;> omega

theorem decreaseOf_succeeds
    (fits : amounts.stakeDepositUnstakeLamports + amounts.instantUnstakeLamports +
      amounts.scoringUnstakeLamports ≤ u64Max) :
    ∃ result, calculation.decreaseOf amounts = .ok result := by
  rw [decreaseOf, UnstakeAmounts.total, checkedAdd, if_pos (by omega), Outcome.ok_bind,
    checkedAdd, if_pos (by omega), Outcome.ok_bind]
  split
  · exact ⟨_, rfl⟩
  · exact ⟨_, rfl⟩

theorem decreaseAlong_succeeds (readable : calculation.Readable)
    (current : calculation.currentLamports ≤ u64Max) {walk : List Nat}
    (inPool : ∀ row ∈ walk, row < calculation.state.numPoolValidators)
    (reached : calculation.targetIndex ∈ walk) (fits : UnstakeFits unstake) :
    ∃ result, calculation.decreaseAlong calculation.baseLamportBalance walk unstake =
      .ok result := by
  induction walk generalizing unstake with
  | nil => cases reached
  | cons index rest induction =>
      rcases simulateDecrease_succeeds readable fits (inPool index List.mem_cons_self) with
        ⟨next, amounts, simulated, nextFits⟩
      simp only [decreaseAlong, simulated, Outcome.ok_bind]
      split
      case isTrue same =>
          apply decreaseOf_succeeds
          rw [(simulateDecrease_serves simulated).1, unstakeDemand]
          apply (serve_le _ _ _ _ _).trans
          have counted : calculation.countedLamports index = calculation.currentLamports :=
            if_pos same
          rw [counted]
          split <;> omega
      case isFalse other =>
          apply induction (fun row member => inPool row (List.mem_cons_of_mem _ member)) _ nextFits
          exact (List.mem_cons.mp reached).resolve_left fun equal => other equal.symm

end Success

end StakeCalculation

/-- The outcome for a validator of the pool is that of filling the caps from the
worst raw score up to it. -/
theorem decreaseStakeCalculation_fills (calculation : StakeCalculation) (unstake : UnstakeState)
    (permutation : ((List.range calculation.state.numPoolValidators).map
      calculation.state.sortedRawScoreIndices).Perm
        (List.range calculation.state.numPoolValidators))
    (inPool : calculation.targetIndex < calculation.state.numPoolValidators) :
    (∀ result, decreaseStakeCalculation calculation unstake = .ok result →
      result = decreaseOutcome calculation.minimumDelegation
        (calculation.filledAmounts unstake.budgets)) ∧
    (calculation.Readable → StakeCalculation.UnstakeFits unstake →
      calculation.currentLamports ≤ u64Max →
      decreaseStakeCalculation calculation unstake =
        .ok (decreaseOutcome calculation.minimumDelegation
          (calculation.filledAmounts unstake.budgets))) := by
  refine ⟨fun result => StakeCalculation.decrease_outcome, ?_⟩
  intro readable fits current
  have listed : ∀ row, row ∈ calculation.worstFirst ↔
      row < calculation.state.numPoolValidators := by
    intro row
    rw [StakeCalculation.worstFirst, List.mem_reverse, permutation.mem_iff, List.mem_range]
  rcases StakeCalculation.decreaseAlong_succeeds readable current
    (fun row member => (listed row).mp member) ((listed _).mpr inPool) fits with
    ⟨result, computed⟩
  have capacity := readable.capacity
  have base := readable.base
  have succeeded : decreaseStakeCalculation calculation unstake = .ok result := by
    unfold StakeCalculation.baseLamportBalance at base
    rw [decreaseStakeCalculation, if_neg (by omega), checkedAdd, if_pos base, Outcome.ok_bind,
      if_neg (by omega)]
    exact computed
  rw [succeeded, StakeCalculation.decrease_outcome succeeded]

/-- Two validators with a target of 200 lamports each. The last one holds 900, the
first one 500, of which 100 arrived since its balance was recorded. -/
def twoAboveTarget : StakeCalculation where
  state := { ReallocState.initialState 2 10 0 with
    sortedRawScoreIndices := fun position => position
    validatorLamportBalances := fun row => if row = 0 then 400 else 1000
    delegations := fun _ => ⟨1, 4⟩ }
  stakeMeta := .initial
  targetIndex := 0
  currentLamports := 500
  stakePoolLamports := 800
  validatorList := ⟨.validatorList, [⟨502, 0, 0, .active, 1⟩, ⟨902, 0, 0, .active, 2⟩], []⟩
  minimumDelegation := 1
  stakeRent := 1

/-- The last validator leaves 50 lamports of the scoring cap. -/
theorem decreaseStakeCalculation_fills_twoAboveTarget :
    decreaseStakeCalculation twoAboveTarget ⟨0, 0, 0, 80, 0, 750⟩ =
      .ok (.decrease ⟨50, 0, 80, 130, 0⟩) := by
  have readable : twoAboveTarget.Readable :=
    .of_uniform rfl rfl (by decide) (by decide) (by decide) (by decide) (by decide)
  have fits : StakeCalculation.UnstakeFits ⟨0, 0, 0, 80, 0, 750⟩ := by
    constructor <;> decide
  rw [(decreaseStakeCalculation_fills twoAboveTarget ⟨0, 0, 0, 80, 0, 750⟩ (by decide)
    (by decide)).2 readable fits (by decide)]
  decide +kernel

end Stakenet.Steward

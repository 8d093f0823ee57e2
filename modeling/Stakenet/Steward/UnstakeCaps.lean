import Stakenet.Foundation.Execution
import Stakenet.Steward.Maintenance
import Stakenet.Steward.RebalanceEffect

/-! The caps on unstaking over one cycle. A cycle starts with the reset of the
state and contains rebalance calls in any order; between them the rest of the
state may change in any way that leaves the three running totals alone. -/

namespace Stakenet.Steward

/-! ## The three categories -/

inductive UnstakeCategory
  | scoring
  | instant
  | stakeDeposit
  deriving DecidableEq, Repr

namespace UnstakeCategory

def total : UnstakeCategory → StewardStateV2 → Nat
  | .scoring, state => state.scoringUnstakeTotal
  | .instant, state => state.instantUnstakeTotal
  | .stakeDeposit, state => state.stakeDepositUnstakeTotal

def amount : UnstakeCategory → RebalanceType → Nat
  | .scoring, rebalanceType => rebalanceType.scoringLamports
  | .instant, rebalanceType => rebalanceType.instantLamports
  | .stakeDeposit, rebalanceType => rebalanceType.stakeDepositLamports

def capBps : UnstakeCategory → Parameters → Nat
  | .scoring, parameters => parameters.scoringUnstakeCapBps
  | .instant, parameters => parameters.instantUnstakeCapBps
  | .stakeDeposit, parameters => parameters.stakeDepositUnstakeCapBps

/-- `floor(p * cap_bps / 10000)` for the pool of a call. -/
def cap (category : UnstakeCategory) (call : RebalanceCall) : Nat :=
  call.cap (category.capBps call.parameters)

end UnstakeCategory

section Call

variable {state next : StewardStateV2} {call : RebalanceCall} {rebalanceType : RebalanceType}

/-- A call adds what it returns to the running total. -/
theorem total_of_rebalance (category : UnstakeCategory)
    (rebalancing : state.rebalance call = .ok (next, rebalanceType)) :
    category.total next = category.total state + category.amount rebalanceType := by
  rcases (rebalance_cases rebalancing).2.2 with
    ⟨_, rfl, rfl⟩ | ⟨_, marked, rfl⟩ | ⟨_, terms, applied, rebalanced⟩
  · cases category <;> rfl
  · rcases markProgress_eq_ok.mp marked with ⟨progress, _, rfl⟩
    cases category <;> rfl
  · rcases markProgress_eq_ok.mp rebalanced.marked with ⟨progress, _, rfl⟩
    cases category with
    | scoring => exact rebalanced.effect.scoring
    | instant => exact rebalanced.effect.instant
    | stakeDeposit => exact rebalanced.effect.stakeDeposit

/-- What a call unstakes in a category stays within the cap of that call,
together with what was unstaked before. -/
theorem total_le_cap_of_rebalance (category : UnstakeCategory)
    (rebalancing : state.rebalance call = .ok (next, rebalanceType))
    (positive : 0 < category.amount rebalanceType) :
    category.total next ≤ category.cap call := by
  rw [total_of_rebalance category rebalancing]
  rcases (rebalance_cases rebalancing).2.2 with
    ⟨_, _, rfl⟩ | ⟨_, _, rfl⟩ | ⟨_, terms, applied, rebalanced⟩
  · cases category <;> cases positive
  · cases category <;> cases positive
  · have pool := (termsOf_of_rebalanceTerms rebalanced.computed).pool
    cases decision_of_rebalanceDecision rebalanced.decision with
    | none => cases category <;> cases positive
    | increase lamports large within => cases category <;> cases positive
    | decrease components _ _ deposit instant scoring total =>
        rw [pool] at deposit instant scoring
        cases category with
        | scoring => exact scoring positive
        | instant => exact instant positive
        | stakeDeposit => exact (deposit positive).2.2.2

end Call

/-! ## A cycle -/

/-- The state of a cycle and the answers to its successful calls, last first. -/
structure Cycle where
  state : StewardStateV2
  returned : List (RebalanceCall × RebalanceType)

inductive CycleStep
  | rebalance (call : RebalanceCall)
  /-- Any other change of the state; the running totals are not its to write. -/
  | other (replacement : StewardStateV2)

namespace Cycle

def step (cycle : Cycle) : CycleStep → Cycle
  | .rebalance call =>
      match cycle.state.rebalance call with
      | .ok (next, rebalanceType) => ⟨next, (call, rebalanceType) :: cycle.returned⟩
      | .error _ => cycle
  | .other replacement =>
      { cycle with
        state := { replacement with
          scoringUnstakeTotal := cycle.state.scoringUnstakeTotal
          instantUnstakeTotal := cycle.state.instantUnstakeTotal
          stakeDepositUnstakeTotal := cycle.state.stakeDepositUnstakeTotal } }

/-- What the calls so far returned in a category. -/
def returnedAmount (cycle : Cycle) (category : UnstakeCategory) : Nat :=
  (cycle.returned.map fun entry => category.amount entry.2).sum

/-- The largest cap used so far. -/
def largestCap (cycle : Cycle) (category : UnstakeCategory) : Nat :=
  (cycle.returned.map fun entry => category.cap entry.1).foldr max 0

/-- The running totals account for everything returned, within the caps used. -/
def Accounted (cycle : Cycle) : Prop :=
  ∀ category : UnstakeCategory,
    category.total cycle.state = cycle.returnedAmount category ∧
      category.total cycle.state ≤ cycle.largestCap category

theorem accounted_start {before start : StewardStateV2}
    {currentEpoch currentSlot numEpochsBetweenScoring : Nat}
    (reset : before.resetStateForNewCycle currentEpoch currentSlot numEpochsBetweenScoring =
      .ok start) : Accounted ⟨start, []⟩ := by
  simp only [StewardStateV2.resetStateForNewCycle, Outcome.bind_eq_ok,
    Outcome.pure_eq_ok] at reset
  rcases reset with ⟨_, _, rfl⟩
  intro category
  cases category <;> constructor <;>
    (simp only [UnstakeCategory.total]; split <;> split <;> rfl)

theorem accounted_step (cycle : Cycle) (input : CycleStep) (accounted : Accounted cycle) :
    Accounted (cycle.step input) := by
  cases input with
  | other replacement =>
      intro category
      have before := accounted category
      cases category <;> exact before
  | rebalance call =>
      simp only [step]
      cases outcome : cycle.state.rebalance call with
      | error failure => exact accounted
      | ok result =>
          rcases result with ⟨next, rebalanceType⟩
          intro category
          have total := total_of_rebalance category outcome
          have before := accounted category
          constructor
          · simp only [total, before.1, returnedAmount, List.map_cons, List.sum_cons]
            exact Nat.add_comm _ _
          · simp only [largestCap, List.map_cons, List.foldr_cons]
            rcases Nat.eq_zero_or_pos (category.amount rebalanceType) with zero | positive
            · rw [total, zero]
              exact le_max_of_le_right before.2
            · exact le_max_of_le_left
                (total_le_cap_of_rebalance category outcome positive)

end Cycle

/-- Over a whole cycle, for each category: a call that unstakes ends within its
own cap, a call that does not leaves the total alone, the total is the sum of
what was returned since the reset, and so it never exceeds the largest cap used. -/
theorem cycle_unstake_caps {before start : StewardStateV2}
    {currentEpoch currentSlot numEpochsBetweenScoring : Nat}
    (reset : before.resetStateForNewCycle currentEpoch currentSlot numEpochsBetweenScoring =
      .ok start)
    (steps : List CycleStep) (category : UnstakeCategory) :
    let cycle := Execution.run Cycle.step ⟨start, []⟩ steps
    category.total cycle.state = cycle.returnedAmount category ∧
    category.total cycle.state ≤ cycle.largestCap category ∧
    ∀ call next rebalanceType, cycle.state.rebalance call = .ok (next, rebalanceType) →
      (0 < category.amount rebalanceType → category.total next ≤ category.cap call) ∧
      (category.amount rebalanceType = 0 → category.total next = category.total cycle.state) := by
  have accounted : Cycle.Accounted (Execution.run Cycle.step ⟨start, []⟩ steps) :=
    Execution.run_preserves Cycle.Accounted Cycle.accounted_step
      (Cycle.accounted_start reset) steps
  refine ⟨(accounted category).1, (accounted category).2, ?_⟩
  intro call next rebalanceType rebalancing
  refine ⟨total_le_cap_of_rebalance category rebalancing, fun zero => ?_⟩
  rw [total_of_rebalance category rebalancing, zero, Nat.add_zero]

/-- A lone validator without delegation, 1000 lamports above its target. -/
def loneValidatorCall : RebalanceCall where
  stakeMeta := .initial
  currentEpoch := 1
  index := 0
  validatorList := {
    accountType := .validatorList
    entries := [⟨1002, 0, 0, .active, 1⟩]
    leftover := [] }
  stakePoolLamports := 10002
  reserveLamports := 9000
  stakeAccountCurrentLamports := 1000
  minimumDelegation := 1
  stakeRent := 1
  parameters := .fixture

/-- A cycle whose only call unstakes up to the scoring cap of 750 basis points. -/
def loneValidatorCycle : List CycleStep :=
  [.other { ReallocState.initialState 1 11 5 with
      stateTag := .rebalance
      sortedRawScoreIndices := fun position =>
        if position = 0 then 0 else sortedIndexDefault },
    .rebalance loneValidatorCall]

theorem cycle_unstake_caps_loneValidator :
    (ReallocState.initialState 1 10 0).resetStateForNewCycle 1 5 10 =
        .ok (ReallocState.initialState 1 11 5) ∧
      UnstakeCategory.total .scoring (Execution.run Cycle.step
        ⟨ReallocState.initialState 1 11 5, []⟩ loneValidatorCycle).state = 750 ∧
      (Execution.run Cycle.step ⟨ReallocState.initialState 1 11 5, []⟩
        loneValidatorCycle).returnedAmount .scoring = 750 := by
  have reset : (ReallocState.initialState 1 10 0).resetStateForNewCycle 1 5 10 =
      .ok (ReallocState.initialState 1 11 5) := rfl
  have total : UnstakeCategory.total .scoring (Execution.run Cycle.step
      ⟨ReallocState.initialState 1 11 5, []⟩ loneValidatorCycle).state = 750 := by
    decide +kernel
  have accounted := (cycle_unstake_caps reset loneValidatorCycle .scoring).1
  exact ⟨reset, total, accounted.symm.trans total⟩

end Stakenet.Steward

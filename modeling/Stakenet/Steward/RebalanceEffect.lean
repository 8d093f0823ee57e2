import Stakenet.Steward.Rebalance

/-! What a successful rebalance call leaves in the state account, and the bounds
on the stake it moves. -/

namespace Stakenet.Steward

/-! ## Amounts returned -/

namespace RebalanceType

def scoringLamports : RebalanceType → Nat
  | .decrease components => components.scoringUnstakeLamports
  | _ => 0

def instantLamports : RebalanceType → Nat
  | .decrease components => components.instantUnstakeLamports
  | _ => 0

def stakeDepositLamports : RebalanceType → Nat
  | .decrease components => components.stakeDepositUnstakeLamports
  | _ => 0

end RebalanceType

/-! ## Marking a validator as processed -/

section Progress

variable {state next : StewardStateV2} {index : Nat}

theorem markProgress_eq_ok :
    state.markProgress index = .ok next ↔
      ∃ progress, state.progress.set index true = .ok progress ∧
        next = { state with progress := progress } := by
  simp only [StewardStateV2.markProgress, Outcome.bind_eq_ok, Outcome.pure_eq_ok]
  constructor
  · rintro ⟨progress, written, rfl⟩
    exact ⟨progress, written, rfl⟩
  · rintro ⟨progress, written, rfl⟩
    exact ⟨progress, written, rfl⟩

theorem markProgress_control (marked : state.markProgress index = .ok next) :
    next.control = state.control := by
  rcases markProgress_eq_ok.mp marked with ⟨progress, _, rfl⟩
  rfl

end Progress

/-! ## Applying a movement -/

section Apply

variable {state next : StewardStateV2} {index : Nat}

/-- The tracked balance after a movement; an untracked one stays untracked. -/
def movedBalance (balance : Nat) : RebalanceType → Nat
  | .decrease components =>
      if balance ≠ lamportBalanceDefault then balance - components.totalUnstakeLamports
      else balance
  | .increase amount =>
      if balance ≠ lamportBalanceDefault then balance + amount else balance
  | .none => balance

/-- What applying a movement changes. -/
structure Applied (state : StewardStateV2) (index : Nat) (rebalanceType : RebalanceType)
    (next : StewardStateV2) : Prop where
  balances : next.validatorLamportBalances = Function.update state.validatorLamportBalances
    index (movedBalance (state.validatorLamportBalances index) rebalanceType)
  scoring : next.scoringUnstakeTotal =
    state.scoringUnstakeTotal + rebalanceType.scoringLamports
  instant : next.instantUnstakeTotal =
    state.instantUnstakeTotal + rebalanceType.instantLamports
  stakeDeposit : next.stakeDepositUnstakeTotal =
    state.stakeDepositUnstakeTotal + rebalanceType.stakeDepositLamports
  delegations : next.delegations = state.delegations ∨
    (0 < (state.delegations index).numerator ∧
      redistributeDelegation state.delegations index state.numPoolValidators =
        .ok next.delegations)
  instantUnstaked : 0 < rebalanceType.instantLamports →
    0 < (state.delegations index).numerator →
    redistributeDelegation state.delegations index state.numPoolValidators =
      .ok next.delegations
  others : next = { state with
    validatorLamportBalances := next.validatorLamportBalances
    scoringUnstakeTotal := next.scoringUnstakeTotal
    instantUnstakeTotal := next.instantUnstakeTotal
    stakeDepositUnstakeTotal := next.stakeDepositUnstakeTotal
    delegations := next.delegations }

theorem decreaseBalance_eq_ok {balances next : Nat → Nat} {lamports : Nat}
    (written : decreaseBalance balances index lamports = .ok next) :
    next = Function.update balances index
      (if balances index ≠ lamportBalanceDefault then balances index - lamports
        else balances index) := by
  simp only [decreaseBalance, Outcome.bind_eq_ok, readRow_eq_ok] at written
  rcases written with ⟨balance, ⟨_, rfl⟩, written⟩
  by_cases tracked : balances index ≠ lamportBalanceDefault
  · simp only [if_pos tracked, writeRow_eq_ok] at written
    rw [if_pos tracked, ← written.2]
  · simp only [if_neg tracked, Outcome.pure_eq_ok] at written
    rw [if_neg tracked, Function.update_eq_self, written]

theorem increaseBalance_eq_ok {balances next : Nat → Nat} {lamports : Nat}
    (written : increaseBalance balances index lamports = .ok next) :
    next = Function.update balances index
      (if balances index ≠ lamportBalanceDefault then balances index + lamports
        else balances index) := by
  simp only [increaseBalance, Outcome.bind_eq_ok, readRow_eq_ok] at written
  rcases written with ⟨balance, ⟨_, rfl⟩, written⟩
  by_cases tracked : balances index ≠ lamportBalanceDefault
  · simp only [if_pos tracked, Outcome.bind_eq_ok, checkedAdd_eq_ok, writeRow_eq_ok] at written
    rcases written with ⟨sum, ⟨_, rfl⟩, _, rfl⟩
    rw [if_pos tracked]
  · simp only [if_neg tracked, Outcome.pure_eq_ok] at written
    rw [if_neg tracked, Function.update_eq_self, written]

theorem unstakedDelegations_eq_ok {delegations : Nat → Delegation} {lamports : Nat}
    (written : state.unstakedDelegations index lamports = .ok delegations) :
    delegations = state.delegations ∨
      (0 < (state.delegations index).numerator ∧
        redistributeDelegation state.delegations index state.numPoolValidators =
          .ok delegations) := by
  simp only [StewardStateV2.unstakedDelegations, Outcome.bind_eq_ok, readRow_eq_ok] at written
  rcases written with ⟨delegation, ⟨_, rfl⟩, written⟩
  split at written
  case isTrue unstaked => exact .inr ⟨unstaked.2, written⟩
  case isFalse => exact .inl (Outcome.pure_eq_ok.mp written).symm

theorem unstakedDelegations_of_instant {delegations : Nat → Delegation} {lamports : Nat}
    (written : state.unstakedDelegations index lamports = .ok delegations)
    (instant : 0 < lamports) (shared : 0 < (state.delegations index).numerator) :
    redistributeDelegation state.delegations index state.numPoolValidators =
      .ok delegations := by
  simp only [StewardStateV2.unstakedDelegations, Outcome.bind_eq_ok, readRow_eq_ok] at written
  rcases written with ⟨delegation, ⟨_, rfl⟩, written⟩
  rwa [if_pos ⟨instant, shared⟩] at written

theorem applied_of_applyDecrease {components : DecreaseComponents}
    (applying : state.applyDecrease index components = .ok next) :
    Applied state index (.decrease components) next := by
  simp only [StewardStateV2.applyDecrease, Outcome.bind_eq_ok, checkedAdd_eq_ok,
    Outcome.pure_eq_ok] at applying
  rcases applying with ⟨balances, balancesWritten, scoring, ⟨_, rfl⟩, deposit, ⟨_, rfl⟩,
    instant, ⟨_, rfl⟩, delegations, delegationsWritten, rfl⟩
  exact {
    balances := decreaseBalance_eq_ok balancesWritten
    scoring := rfl
    instant := rfl
    stakeDeposit := rfl
    delegations := unstakedDelegations_eq_ok delegationsWritten
    instantUnstaked := unstakedDelegations_of_instant delegationsWritten
    others := rfl }

theorem applied_of_applyIncrease {amount : Nat}
    (applying : state.applyIncrease index amount = .ok next) :
    Applied state index (.increase amount) next := by
  simp only [StewardStateV2.applyIncrease, Outcome.bind_eq_ok, Outcome.pure_eq_ok] at applying
  rcases applying with ⟨balances, balancesWritten, rfl⟩
  exact {
    balances := increaseBalance_eq_ok balancesWritten
    scoring := rfl
    instant := rfl
    stakeDeposit := rfl
    delegations := .inl rfl
    instantUnstaked := fun instant => absurd instant (Nat.lt_irrefl 0)
    others := rfl }

theorem applied_of_applyRebalance {rebalanceType : RebalanceType}
    (applying : state.applyRebalance index rebalanceType = .ok next) :
    Applied state index rebalanceType next := by
  cases rebalanceType with
  | decrease components => exact applied_of_applyDecrease applying
  | increase amount => exact applied_of_applyIncrease applying
  | none =>
      cases applying
      exact {
        balances := (Function.update_eq_self _ _).symm
        scoring := rfl
        instant := rfl
        stakeDeposit := rfl
        delegations := .inl rfl
        instantUnstaked := fun instant => absurd instant (Nat.lt_irrefl 0)
        others := rfl }

end Apply

/-! ## One call -/

section Call

variable {state next : StewardStateV2} {call : RebalanceCall} {rebalanceType : RebalanceType}

/-- The state after the tracked balance was brought up to date. -/
def withTrackedBalance (state : StewardStateV2) (index : Nat) (terms : RebalanceTerms) :
    StewardStateV2 :=
  { state with
    validatorLamportBalances := Function.update state.validatorLamportBalances index
      (trackedBalance (state.validatorLamportBalances index) terms) }

/-- A validator that was neither processed nor marked before. -/
structure Rebalanced (state : StewardStateV2) (call : RebalanceCall) (terms : RebalanceTerms)
    (rebalanceType : RebalanceType) (applied next : StewardStateV2) : Prop where
  computed : rebalanceTerms state call = .ok terms
  decision : rebalanceDecision (withTrackedBalance state call.index terms) call terms =
    .ok rebalanceType
  effect : Applied (withTrackedBalance state call.index terms) call.index rebalanceType applied
  marked : applied.markProgress call.index = .ok next

theorem rebalanced_of_rebalanceValidator
    (rebalancing : state.rebalanceValidator call = .ok (next, rebalanceType)) :
    ∃ terms applied, Rebalanced state call terms rebalanceType applied next := by
  simp only [StewardStateV2.rebalanceValidator, Outcome.bind_eq_ok, readRow_eq_ok,
    writeRow_eq_ok, Outcome.pure_eq_ok, Prod.mk.injEq] at rebalancing
  rcases rebalancing with ⟨terms, termsEq, balance, ⟨_, rfl⟩, balances, ⟨_, rfl⟩, kind,
    decision, applied, applying, last, marked, rfl, rfl⟩
  exact ⟨terms, applied, termsEq, decision, applied_of_applyRebalance applying, marked⟩

/-- The validator is to leave the pool. -/
def StewardStateV2.leaves (state : StewardStateV2) (index : Nat) : Bool :=
  state.validatorsToRemove.contains index || state.validatorsForImmediateRemoval.contains index

/-- The three ways through a successful call. -/
theorem rebalance_cases (rebalancing : state.rebalance call = .ok (next, rebalanceType)) :
    state.stateTag = .rebalance ∧ call.currentEpoch < state.nextCycleEpoch ∧
    ((state.progress.contains call.index = true ∧ next = state ∧ rebalanceType = .none) ∨
      ((state.progress.contains call.index = false ∧ state.leaves call.index = true) ∧
        state.markProgress call.index = .ok next ∧ rebalanceType = .none) ∨
      ((state.progress.contains call.index = false ∧ state.leaves call.index = false) ∧
        ∃ terms applied, Rebalanced state call terms rebalanceType applied next)) := by
  simp only [StewardStateV2.rebalance] at rebalancing
  split at rebalancing
  case isFalse => simp at rebalancing
  case isTrue tag =>
    split at rebalancing
    case isTrue => simp at rebalancing
    case isFalse running =>
      refine ⟨tag, by omega, ?_⟩
      simp only [Outcome.bind_eq_ok, BitMask.get_eq_ok] at rebalancing
      rcases rebalancing with ⟨processed, ⟨_, rfl⟩, rebalancing⟩
      cases processed : state.progress.contains call.index with
      | true =>
          simp only [processed, if_true, Outcome.pure_eq_ok, Prod.mk.injEq] at rebalancing
          exact .inl ⟨rfl, rebalancing.1.symm, rebalancing.2.symm⟩
      | false =>
          simp only [processed, Bool.false_eq_true, if_false, Outcome.bind_eq_ok,
            BitMask.get_eq_ok] at rebalancing
          rcases rebalancing with ⟨_, ⟨_, rfl⟩, _, ⟨_, rfl⟩, rebalancing⟩
          split at rebalancing
          case isTrue leaves =>
              simp only [Outcome.bind_eq_ok, Outcome.pure_eq_ok, Prod.mk.injEq] at rebalancing
              rcases rebalancing with ⟨last, marked, rfl, rfl⟩
              exact .inr (.inl ⟨⟨rfl, leaves⟩, marked, rfl⟩)
          case isFalse stays =>
              exact .inr (.inr ⟨⟨rfl, Bool.eq_false_of_not_eq_true stays⟩,
                rebalanced_of_rebalanceValidator rebalancing⟩)

/-- The fields that a call leaves alone. -/
theorem rebalance_others (rebalancing : state.rebalance call = .ok (next, rebalanceType)) :
    next = { state with
      validatorLamportBalances := next.validatorLamportBalances
      scoringUnstakeTotal := next.scoringUnstakeTotal
      instantUnstakeTotal := next.instantUnstakeTotal
      stakeDepositUnstakeTotal := next.stakeDepositUnstakeTotal
      delegations := next.delegations
      progress := next.progress } := by
  rcases (rebalance_cases rebalancing).2.2 with
    ⟨_, rfl, _⟩ | ⟨_, marked, _⟩ | ⟨_, terms, applied, rebalanced⟩
  · rfl
  · rcases markProgress_eq_ok.mp marked with ⟨progress, _, rfl⟩
    rfl
  · rcases markProgress_eq_ok.mp rebalanced.marked with ⟨progress, _, rfl⟩
    rw [rebalanced.effect.others]
    rfl

theorem rebalance_control (rebalancing : state.rebalance call = .ok (next, rebalanceType)) :
    next.control = state.control :=
  congrArg (·.control) (rebalance_others rebalancing)

end Call

/-! ## Bounds on one unstake -/

namespace UnstakeState

variable {unstake : UnstakeState} {state : StewardStateV2}
variable {index current target amount : Nat}

/-- A stake deposit that is unstaked was measured above the target and above the
tracked balance. -/
theorem stakeDepositUnstake_bound
    (computed : unstake.stakeDepositUnstake state index current target = .ok amount)
    (positive : 0 < amount) :
    state.validatorLamportBalances index ≠ lamportBalanceDefault ∧
      amount ≤ current - target ∧
      amount ≤ current - state.validatorLamportBalances index ∧
      unstake.stakeDepositUnstakeTotal + amount ≤ unstake.stakeDepositUnstakeCap := by
  simp only [stakeDepositUnstake, Outcome.bind_eq_ok, readRow_eq_ok] at computed
  rcases computed with ⟨balance, ⟨_, rfl⟩, computed⟩
  split at computed
  case isTrue deposited =>
      simp only [Outcome.bind_eq_ok, checkedSub_eq_ok, Outcome.pure_eq_ok] at computed
      rcases computed with ⟨_, ⟨_, rfl⟩, _, ⟨_, rfl⟩, _, ⟨_, rfl⟩, rfl⟩
      exact ⟨deposited.2.2, by omega, by omega, by omega⟩
  case isFalse =>
      simp only [Outcome.pure_eq_ok] at computed
      omega

theorem instantUnstake_bound
    (computed : unstake.instantUnstake state index current target = .ok amount)
    (positive : 0 < amount) :
    unstake.instantUnstakeTotal + amount ≤ unstake.instantUnstakeCap := by
  simp only [instantUnstake, Outcome.bind_eq_ok] at computed
  rcases computed with ⟨flagged, _, computed⟩
  split at computed
  case isTrue unstaked =>
      simp only [Outcome.bind_eq_ok, checkedSub_eq_ok, Outcome.pure_eq_ok] at computed
      rcases computed with ⟨_, ⟨_, rfl⟩, _, ⟨_, rfl⟩, rfl⟩
      omega
  case isFalse =>
      simp only [Outcome.pure_eq_ok] at computed
      omega

theorem scoringUnstake_bound (computed : unstake.scoringUnstake current target = .ok amount)
    (positive : 0 < amount) :
    unstake.scoringUnstakeTotal + amount ≤ unstake.scoringUnstakeCap := by
  simp only [scoringUnstake] at computed
  split at computed
  case isTrue =>
      simp only [Outcome.bind_eq_ok, checkedSub_eq_ok, Outcome.pure_eq_ok] at computed
      rcases computed with ⟨_, ⟨_, rfl⟩, _, ⟨_, rfl⟩, rfl⟩
      omega
  case isFalse =>
      simp only [Outcome.pure_eq_ok] at computed
      omega

/-- The caps of a later point of a simulation are the same, its totals larger. -/
structure Advances (first later : UnstakeState) : Prop where
  stakeDepositCap : later.stakeDepositUnstakeCap = first.stakeDepositUnstakeCap
  instantCap : later.instantUnstakeCap = first.instantUnstakeCap
  scoringCap : later.scoringUnstakeCap = first.scoringUnstakeCap
  stakeDepositTotal : first.stakeDepositUnstakeTotal ≤ later.stakeDepositUnstakeTotal
  instantTotal : first.instantUnstakeTotal ≤ later.instantUnstakeTotal
  scoringTotal : first.scoringUnstakeTotal ≤ later.scoringUnstakeTotal

theorem Advances.refl (unstake : UnstakeState) : Advances unstake unstake :=
  ⟨rfl, rfl, rfl, Nat.le_refl _, Nat.le_refl _, Nat.le_refl _⟩

theorem Advances.trans {first second third : UnstakeState} (left : Advances first second)
    (right : Advances second third) : Advances first third where
  stakeDepositCap := right.stakeDepositCap.trans left.stakeDepositCap
  instantCap := right.instantCap.trans left.instantCap
  scoringCap := right.scoringCap.trans left.scoringCap
  stakeDepositTotal := left.stakeDepositTotal.trans right.stakeDepositTotal
  instantTotal := left.instantTotal.trans right.instantTotal
  scoringTotal := left.scoringTotal.trans right.scoringTotal

/-- The amounts a validator can give up at one point of the simulation. -/
structure Admits (unstake : UnstakeState) (state : StewardStateV2)
    (index current target : Nat) (amounts : UnstakeAmounts) : Prop where
  stakeDeposit : 0 < amounts.stakeDepositUnstakeLamports →
    state.validatorLamportBalances index ≠ lamportBalanceDefault ∧
      amounts.stakeDepositUnstakeLamports ≤ current - target ∧
      amounts.stakeDepositUnstakeLamports ≤ current - state.validatorLamportBalances index ∧
      unstake.stakeDepositUnstakeTotal + amounts.stakeDepositUnstakeLamports ≤
        unstake.stakeDepositUnstakeCap
  instant : 0 < amounts.instantUnstakeLamports →
    unstake.instantUnstakeTotal + amounts.instantUnstakeLamports ≤ unstake.instantUnstakeCap
  scoring : 0 < amounts.scoringUnstakeLamports →
    unstake.scoringUnstakeTotal + amounts.scoringUnstakeLamports ≤ unstake.scoringUnstakeCap

theorem Admits.zero (unstake : UnstakeState) (state : StewardStateV2)
    (index current target : Nat) : Admits unstake state index current target .zero :=
  ⟨by simp [UnstakeAmounts.zero], by simp [UnstakeAmounts.zero], by simp [UnstakeAmounts.zero]⟩

theorem simulateUnstake_eq_ok {next : UnstakeState} {amounts : UnstakeAmounts}
    (simulated : unstake.simulateUnstake state index current target = .ok (next, amounts)) :
    Advances unstake next ∧ Admits unstake state index current target amounts := by
  simp only [simulateUnstake, Outcome.bind_eq_ok, checkedAdd_eq_ok, Outcome.pure_eq_ok,
    Prod.mk.injEq] at simulated
  rcases simulated with ⟨deposit, depositEq, depositTotal, ⟨_, rfl⟩, instant, instantEq,
    instantTotal, ⟨_, rfl⟩, scoring, scoringEq, scoringTotal, ⟨_, rfl⟩, rfl, rfl⟩
  exact ⟨⟨rfl, rfl, rfl, Nat.le_add_right _ _, Nat.le_add_right _ _, Nat.le_add_right _ _⟩,
    stakeDepositUnstake_bound depositEq, instantUnstake_bound instantEq,
    scoringUnstake_bound scoringEq⟩

end UnstakeState

/-! ## The walks along the rankings -/

namespace StakeCalculation

variable {calculation : StakeCalculation} {base : Nat}

theorem simulateDecrease_eq_ok {index : Nat} {unstake next : UnstakeState}
    {amounts : UnstakeAmounts}
    (simulated : calculation.simulateDecrease base index unstake = .ok (next, amounts)) :
    unstake.Advances next ∧
      (index = calculation.targetIndex →
        ∃ target, calculation.decreaseTarget index = .ok target ∧
          unstake.Admits calculation.state index calculation.currentLamports target
            amounts) := by
  simp only [simulateDecrease, Outcome.bind_eq_ok] at simulated
  rcases simulated with ⟨target, targeted, ⟨listed, transient⟩, _, simulated⟩
  generalize seen : (if index = calculation.targetIndex then calculation.currentLamports
    else (listed, transient).1) = lamports at simulated
  split at simulated
  case isTrue =>
      rcases UnstakeState.simulateUnstake_eq_ok simulated with ⟨advances, admits⟩
      refine ⟨advances, fun reached => ?_⟩
      rw [if_pos reached] at seen
      exact ⟨target, targeted, seen ▸ admits⟩
  case isFalse =>
      simp only [Outcome.pure_eq_ok, Prod.mk.injEq] at simulated
      rcases simulated with ⟨rfl, rfl⟩
      exact ⟨.refl _, fun _ => ⟨target, targeted, .zero _ _ _ _ _⟩⟩

/-- The walk ends at the target validator, with the totals of the simulation so
far. -/
theorem decreaseAlong_eq_ok {ranking : List Nat} {unstake : UnstakeState}
    {rebalanceType : RebalanceType}
    (walked : calculation.decreaseAlong base ranking unstake = .ok rebalanceType) :
    ∃ reached target amounts, unstake.Advances reached ∧
      calculation.decreaseTarget calculation.targetIndex = .ok target ∧
      reached.Admits calculation.state calculation.targetIndex calculation.currentLamports
        target amounts ∧
      calculation.decreaseOf amounts = .ok rebalanceType := by
  induction ranking generalizing unstake with
  | nil => simp [decreaseAlong] at walked
  | cons index rest induction =>
      simp only [decreaseAlong, Outcome.bind_eq_ok] at walked
      rcases walked with ⟨⟨next, amounts⟩, simulated, walked⟩
      rcases simulateDecrease_eq_ok simulated with ⟨advances, admits⟩
      split at walked
      case isTrue reached =>
          subst reached
          rcases admits rfl with ⟨target, targeted, admitted⟩
          exact ⟨unstake, target, amounts, .refl _, targeted, admitted, walked⟩
      case isFalse =>
          rcases induction walked with ⟨later, target, found, further, admitted⟩
          exact ⟨later, target, found, advances.trans further, admitted⟩

theorem decreaseOf_eq_ok {amounts : UnstakeAmounts} {rebalanceType : RebalanceType}
    (decided : calculation.decreaseOf amounts = .ok rebalanceType) :
    rebalanceType = .none ∨
      rebalanceType = .decrease {
        scoringUnstakeLamports := amounts.scoringUnstakeLamports
        instantUnstakeLamports := amounts.instantUnstakeLamports
        stakeDepositUnstakeLamports := amounts.stakeDepositUnstakeLamports
        totalUnstakeLamports := amounts.stakeDepositUnstakeLamports +
          amounts.instantUnstakeLamports + amounts.scoringUnstakeLamports
        directedUnstakeLamports := 0 } := by
  simp only [decreaseOf, UnstakeAmounts.total, Outcome.bind_eq_ok, checkedAdd_eq_ok] at decided
  rcases decided with ⟨_, ⟨_, ⟨_, rfl⟩, _, rfl⟩, decided⟩
  split at decided
  · exact .inl (Outcome.pure_eq_ok.mp decided).symm
  · exact .inr (Outcome.pure_eq_ok.mp decided).symm

/-- An increase fits in the reserve it was computed from. -/
theorem increaseAlong_eq_ok {ranking : List Nat} {reserve : Nat}
    {rebalanceType : RebalanceType}
    (walked : calculation.increaseAlong base ranking reserve = .ok rebalanceType) :
    rebalanceType = .none ∨ ∃ lamports, rebalanceType = .increase lamports ∧
      calculation.minimumDelegation < lamports ∧ lamports ≤ reserve := by
  induction ranking generalizing reserve with
  | nil => simp [increaseAlong] at walked
  | cons index rest induction =>
      simp only [increaseAlong, Outcome.bind_eq_ok, checkedSub_eq_ok] at walked
      rcases walked with ⟨lamports, simulated, left, ⟨affordable, rfl⟩, walked⟩
      split at walked
      case isTrue =>
          split at walked
          case isTrue => exact .inl (Outcome.pure_eq_ok.mp walked).symm
          case isFalse large =>
              exact .inr ⟨lamports, (Outcome.pure_eq_ok.mp walked).symm, by omega, affordable⟩
      case isFalse =>
          rcases induction walked with none | ⟨granted, kind, large, within⟩
          · exact .inl none
          · exact .inr ⟨granted, kind, large, by omega⟩

end StakeCalculation

/-! ## The decision of a call -/

/-- The pool beyond the fixed cost of its stake accounts. -/
def RebalanceCall.variableLamports (call : RebalanceCall) : Nat :=
  call.stakePoolLamports - (call.minimumDelegation + call.stakeRent) * call.validatorList.len

/-- `cap_bps` basis points of the pool. -/
def RebalanceCall.cap (call : RebalanceCall) (capBps : Nat) : Nat :=
  call.variableLamports * capBps / 10000

/-- The terms of a call, and that the checked operations in them succeed. -/
structure TermsOf (state : StewardStateV2) (call : RebalanceCall) (terms : RebalanceTerms) :
    Prop where
  base : terms.baseLamportBalance = call.minimumDelegation + call.stakeRent
  processed : state.progress.count ≤ call.validatorList.len + 1
  reserve : terms.reserveLamports = call.reserveLamports -
    call.stakeRent * (call.validatorList.len + 1 - state.progress.count)
  pool : terms.stakePoolLamports = call.variableLamports
  affordable : (call.minimumDelegation + call.stakeRent) * call.validatorList.len ≤
    call.stakePoolLamports
  target : getTargetLamports (state.delegations call.index) terms.stakePoolLamports =
    .ok terms.targetLamports
  total : terms.currentTotalLamports = saturatingAdd call.stakeAccountCurrentLamports
    (call.minimumDelegation + call.stakeRent)
  undirected : terms.currentUndirectedLamports =
    call.stakeAccountCurrentLamports - call.stakeMeta.directedStakeLamports call.index

theorem termsOf_of_rebalanceTerms {state : StewardStateV2} {call : RebalanceCall}
    {terms : RebalanceTerms} (computed : rebalanceTerms state call = .ok terms) :
    TermsOf state call terms := by
  simp only [rebalanceTerms, Outcome.bind_eq_ok, checkedAdd_eq_ok, checkedSub_eq_ok,
    checkedMul_eq_ok, readRow_eq_ok, Outcome.pure_eq_ok] at computed
  rcases computed with ⟨_, ⟨_, rfl⟩, _, ⟨processed, rfl⟩, _, ⟨_, rfl⟩, _, ⟨_, rfl⟩, _,
    ⟨affordable, rfl⟩, _, ⟨_, rfl⟩, _, target, _, ⟨_, rfl⟩, rfl⟩
  exact {
    base := rfl
    processed := processed
    reserve := rfl
    pool := rfl
    affordable := affordable
    target := target
    total := rfl
    undirected := rfl }

/-- The stake a call may move: nothing, an increase out of the reserve, or a
decrease within the caps. -/
inductive Decision (state : StewardStateV2) (call : RebalanceCall) (terms : RebalanceTerms) :
    RebalanceType → Prop
  | none : Decision state call terms .none
  | increase (lamports : Nat) :
      call.minimumDelegation < lamports → lamports ≤ terms.reserveLamports →
      Decision state call terms (.increase lamports)
  | decrease (components : DecreaseComponents) (target : Nat) :
      (state.instantUnstake.contains call.index = false →
        getTargetLamports (state.delegations call.index) terms.stakePoolLamports =
          .ok target) →
      (0 < components.stakeDepositUnstakeLamports →
        state.validatorLamportBalances call.index ≠ lamportBalanceDefault ∧
          components.stakeDepositUnstakeLamports ≤ terms.currentUndirectedLamports - target ∧
          components.stakeDepositUnstakeLamports ≤ terms.currentUndirectedLamports -
            state.validatorLamportBalances call.index ∧
          state.stakeDepositUnstakeTotal + components.stakeDepositUnstakeLamports ≤
            terms.stakePoolLamports * call.parameters.stakeDepositUnstakeCapBps / 10000) →
      (0 < components.instantUnstakeLamports →
        state.instantUnstakeTotal + components.instantUnstakeLamports ≤
          terms.stakePoolLamports * call.parameters.instantUnstakeCapBps / 10000) →
      (0 < components.scoringUnstakeLamports →
        state.scoringUnstakeTotal + components.scoringUnstakeLamports ≤
          terms.stakePoolLamports * call.parameters.scoringUnstakeCapBps / 10000) →
      components.totalUnstakeLamports = components.stakeDepositUnstakeLamports +
        components.instantUnstakeLamports + components.scoringUnstakeLamports →
      Decision state call terms (.decrease components)

@[simp] theorem unstakeCap_eq_ok {stakePoolLamports capBps cap : Nat} :
    unstakeCap stakePoolLamports capBps = .ok cap ↔
      stakePoolLamports * capBps / 10000 ≤ u64Max ∧
        stakePoolLamports * capBps / 10000 = cap := by
  unfold unstakeCap
  split <;> simp_all

section Decision

variable {state : StewardStateV2} {call : RebalanceCall} {terms : RebalanceTerms}
variable {rebalanceType : RebalanceType}

theorem StakeCalculation.decreaseTarget_eq_ok {calculation : StakeCalculation}
    {index target : Nat} (targeted : calculation.decreaseTarget index = .ok target)
    (unflagged : calculation.state.instantUnstake.contains index = false) :
    getTargetLamports (calculation.state.delegations index) calculation.stakePoolLamports =
      .ok target := by
  simp only [decreaseTarget, Outcome.bind_eq_ok, BitMask.getUnsafe_eq_ok] at targeted
  rcases targeted with ⟨_, ⟨_, rfl⟩, targeted⟩
  simp only [unflagged, Bool.false_eq_true, if_false, Outcome.bind_eq_ok, readRow_eq_ok] at targeted
  rcases targeted with ⟨_, ⟨_, rfl⟩, targeted⟩
  exact targeted

theorem decision_of_decrease {calculation : StakeCalculation} {unstake : UnstakeState}
    (sameState : calculation.state = state) (sameIndex : calculation.targetIndex = call.index)
    (sameLamports : calculation.currentLamports = terms.currentUndirectedLamports)
    (samePool : calculation.stakePoolLamports = terms.stakePoolLamports)
    (unstakeEq : unstake = {
      stakeDepositUnstakeTotal := state.stakeDepositUnstakeTotal
      instantUnstakeTotal := state.instantUnstakeTotal
      scoringUnstakeTotal := state.scoringUnstakeTotal
      stakeDepositUnstakeCap :=
        terms.stakePoolLamports * call.parameters.stakeDepositUnstakeCapBps / 10000
      instantUnstakeCap :=
        terms.stakePoolLamports * call.parameters.instantUnstakeCapBps / 10000
      scoringUnstakeCap :=
        terms.stakePoolLamports * call.parameters.scoringUnstakeCapBps / 10000 })
    (decided : decreaseStakeCalculation calculation unstake = .ok rebalanceType) :
    Decision state call terms rebalanceType := by
  subst sameState unstakeEq
  rcases StakeCalculation.decreaseAlong_eq_ok (decreaseStakeCalculation_eq_ok decided).2 with
    ⟨reached, target, amounts, advances, targeted, admits, ended⟩
  rw [sameIndex] at targeted
  rw [sameIndex, sameLamports] at admits
  rcases StakeCalculation.decreaseOf_eq_ok ended with rfl | rfl
  · exact .none
  · have depositTotal := advances.stakeDepositTotal
    have depositCap := advances.stakeDepositCap
    have instantTotal := advances.instantTotal
    have instantCap := advances.instantCap
    have scoringTotal := advances.scoringTotal
    have scoringCap := advances.scoringCap
    simp only at depositTotal depositCap instantTotal instantCap scoringTotal scoringCap
    refine .decrease _ target (fun unflagged => ?_) (fun positive => ?_)
      (fun positive => ?_) (fun positive => ?_) rfl
    · rw [← samePool]
      exact StakeCalculation.decreaseTarget_eq_ok targeted unflagged
    · rcases admits.stakeDeposit positive with ⟨tracked, excess, above, capped⟩
      exact ⟨tracked, excess, above, by simp only; omega⟩
    · have capped := admits.instant positive
      simp only
      omega
    · have capped := admits.scoring positive
      simp only
      omega

theorem decision_of_increase {calculation : StakeCalculation}
    (sameMinimum : calculation.minimumDelegation = call.minimumDelegation)
    (decided : increaseStakeCalculation calculation terms.reserveLamports =
      .ok rebalanceType) :
    Decision state call terms rebalanceType := by
  rcases StakeCalculation.increaseAlong_eq_ok (increaseStakeCalculation_eq_ok decided).2 with
    rfl | ⟨lamports, rfl, large, within⟩
  · exact .none
  · exact .increase lamports (sameMinimum ▸ large) within

theorem decision_of_rebalanceDecision
    (decided : rebalanceDecision state call terms = .ok rebalanceType) :
    Decision state call terms rebalanceType := by
  simp only [rebalanceDecision, Outcome.bind_eq_ok] at decided
  rcases decided with ⟨flagged, _, decided⟩
  split at decided
  case isTrue =>
      simp only [Outcome.bind_eq_ok, unstakeCap_eq_ok] at decided
      rcases decided with ⟨_, ⟨_, rfl⟩, _, ⟨_, rfl⟩, _, ⟨_, rfl⟩, decided⟩
      exact decision_of_decrease rfl rfl rfl rfl rfl decided
  case isFalse =>
      split at decided
      case isTrue => exact decision_of_increase rfl decided
      case isFalse =>
          cases decided
          exact .none

end Decision

end Stakenet.Steward

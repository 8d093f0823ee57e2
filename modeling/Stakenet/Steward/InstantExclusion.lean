import Stakenet.Steward.DirectedBudget
import Stakenet.Steward.Shares

/-! Validators that were rebalanced while marked for instant unstake: when they
lose their share, and that without a share they get no stake for the rest of the
cycle. -/

namespace Stakenet.Steward

open Execution

/-! ## Increases need a share -/

theorem decreaseStakeCalculation_ne_increase {calculation : StakeCalculation}
    {unstake : UnstakeState} {lamports : Nat} :
    decreaseStakeCalculation calculation unstake ≠ .ok (.increase lamports) := by
  intro decided
  have walked := (decreaseStakeCalculation_eq_ok decided).2
  rcases StakeCalculation.decreaseAlong_eq_ok walked with ⟨_, _, amounts, _, _, _, ended⟩
  rcases StakeCalculation.decreaseOf_eq_ok ended with impossible | impossible
  · cases impossible
  · cases impossible

theorem rebalance_increase {state next : StewardStateV2} {call : RebalanceCall} {lamports : Nat}
    (rebalancing : state.rebalance call = .ok (next, .increase lamports)) :
    call.index < state.numPoolValidators ∧ 0 < (state.delegations call.index).numerator := by
  rcases (rebalance_cases rebalancing).2.2 with
    ⟨_, _, impossible⟩ | ⟨_, _, impossible⟩ | ⟨_, terms, applied, rebalanced⟩
  · cases impossible
  · cases impossible
  have target := (termsOf_of_rebalanceTerms rebalanced.computed).target
  have decided := rebalanced.decision
  simp only [rebalanceDecision, Outcome.bind_eq_ok] at decided
  rcases decided with ⟨flagged, _, decided⟩
  split at decided
  case isTrue =>
      simp only [Outcome.bind_eq_ok] at decided
      rcases decided with ⟨_, _, _, _, _, _, decided⟩
      exact absurd decided decreaseStakeCalculation_ne_increase
  case isFalse =>
      split at decided
      case isFalse => cases decided
      case isTrue below =>
          refine ⟨(increaseStakeCalculation_eq_ok decided).1, ?_⟩
          by_contra unshared
          have zero : (state.delegations call.index).numerator = 0 := by omega
          simp only [getTargetLamports, zero, Except.ok.injEq] at target
          omega

/-! ## Losing the share -/

/-- The simulation of the validators that are unstaked before the target. -/
def StakeCalculation.unstakeAhead (calculation : StakeCalculation) (baseLamportBalance : Nat) :
    List Nat → UnstakeState → Result UnstakeState
  | [], _ => fail .validatorIndexOutOfBounds
  | index :: rest, unstake => do
      if index = calculation.targetIndex then
        return unstake
      else
        let (next, _) ← calculation.simulateDecrease baseLamportBalance index unstake
        calculation.unstakeAhead baseLamportBalance rest next

theorem StakeCalculation.decreaseAlong_of_ahead {calculation : StakeCalculation} {base : Nat}
    {ranking : List Nat} {unstake ahead : UnstakeState}
    (reached : calculation.unstakeAhead base ranking unstake = .ok ahead) :
    calculation.decreaseAlong base ranking unstake =
      calculation.simulateDecrease base calculation.targetIndex ahead >>=
        fun simulated => calculation.decreaseOf simulated.2 := by
  induction ranking generalizing unstake with
  | nil => simp [unstakeAhead] at reached
  | cons index rest induction =>
      unfold unstakeAhead at reached
      unfold decreaseAlong
      split at reached
      case isTrue found =>
          cases reached
          subst index
          simp
      case isFalse other =>
          simp only [Outcome.bind_eq_ok] at reached
          rcases reached with ⟨⟨next, amounts⟩, simulated, reached⟩
          simp only [simulated, Outcome.ok_bind, if_neg other]
          exact induction reached

/-- What may be unstaked as a stake deposit of a validator that is to lose all. -/
def UnstakeState.depositAllowance (unstake : UnstakeState) (balance currentLamports : Nat) : Nat :=
  if balance < currentLamports ∧ balance ≠ lamportBalanceDefault then
    min (currentLamports - balance)
      (unstake.stakeDepositUnstakeCap - unstake.stakeDepositUnstakeTotal)
  else
    0

/-- The caps leave a marked validator something to unstake in the instant
category, and enough in all to move. -/
structure UnstakeState.HasRoom (unstake : UnstakeState)
    (balance currentLamports minimumDelegation : Nat) : Prop where
  instant : unstake.instantUnstakeTotal < unstake.instantUnstakeCap
  beyondDeposit : unstake.depositAllowance balance currentLamports < currentLamports
  enough : minimumDelegation < min currentLamports
    (unstake.depositAllowance balance currentLamports +
      (unstake.instantUnstakeCap - unstake.instantUnstakeTotal) +
      (unstake.scoringUnstakeCap - unstake.scoringUnstakeTotal))

theorem UnstakeState.simulateUnstake_of_room {unstake next : UnstakeState}
    {state : StewardStateV2} {index currentLamports minimumDelegation : Nat}
    {amounts : UnstakeAmounts}
    (marked : state.instantUnstake.contains index = true)
    (room : unstake.HasRoom (state.validatorLamportBalances index) currentLamports
      minimumDelegation)
    (simulated : unstake.simulateUnstake state index currentLamports 0 = .ok (next, amounts)) :
    0 < amounts.instantUnstakeLamports ∧
      minimumDelegation < amounts.stakeDepositUnstakeLamports + amounts.instantUnstakeLamports +
        amounts.scoringUnstakeLamports := by
  rcases room with ⟨instantRoom, beyondDeposit, enough⟩
  simp only [simulateUnstake, Outcome.bind_eq_ok, checkedAdd_eq_ok, Outcome.pure_eq_ok,
    Prod.mk.injEq] at simulated
  rcases simulated with ⟨deposit, depositEq, _, _, instant, instantEq, _, _, scoring, scoringEq,
    _, _, _, rfl⟩
  have depositIs : deposit = unstake.depositAllowance (state.validatorLamportBalances index)
      currentLamports := by
    simp only [stakeDepositUnstake, Outcome.bind_eq_ok, readRow_eq_ok] at depositEq
    rcases depositEq with ⟨_, ⟨_, rfl⟩, depositEq⟩
    unfold depositAllowance
    split at depositEq
    case isTrue deposited =>
        simp only [Outcome.bind_eq_ok, checkedSub_eq_ok, Outcome.pure_eq_ok] at depositEq
        rcases depositEq with ⟨_, ⟨_, rfl⟩, _, ⟨_, rfl⟩, _, ⟨_, rfl⟩, rfl⟩
        rw [if_pos ⟨deposited.1, deposited.2.2⟩]
        omega
    case isFalse none =>
        simp only [Outcome.pure_eq_ok] at depositEq
        subst deposit
        split
        case isTrue tracked =>
            have exhausted : ¬unstake.stakeDepositUnstakeTotal < unstake.stakeDepositUnstakeCap :=
              fun available => none ⟨tracked.1, available, tracked.2⟩
            omega
        case isFalse => rfl
  have instantIs : instant = min (currentLamports - deposit)
      (unstake.instantUnstakeCap - unstake.instantUnstakeTotal) := by
    simp only [instantUnstake, Outcome.bind_eq_ok, BitMask.getUnsafe_eq_ok] at instantEq
    rcases instantEq with ⟨_, ⟨_, rfl⟩, instantEq⟩
    rw [if_pos ⟨marked, instantRoom⟩] at instantEq
    simp only [Outcome.bind_eq_ok, checkedSub_eq_ok, Outcome.pure_eq_ok] at instantEq
    rcases instantEq with ⟨_, ⟨_, rfl⟩, _, ⟨_, rfl⟩, rfl⟩
    rfl
  have scoringIs : scoring = min (currentLamports - deposit - instant)
      (unstake.scoringUnstakeCap - unstake.scoringUnstakeTotal) := by
    simp only [scoringUnstake] at scoringEq
    split at scoringEq
    case isTrue =>
        simp only [Outcome.bind_eq_ok, checkedSub_eq_ok, Outcome.pure_eq_ok] at scoringEq
        rcases scoringEq with ⟨_, ⟨_, rfl⟩, _, ⟨_, rfl⟩, rfl⟩
        rfl
    case isFalse exhausted =>
        simp only [Outcome.pure_eq_ok] at scoringEq
        omega
  rw [← depositIs] at beyondDeposit enough
  simp only
  omega

namespace RebalanceCall

/-- The calculation a call makes for its validator. -/
def calculation (call : RebalanceCall) (state : StewardStateV2) (terms : RebalanceTerms) :
    StakeCalculation where
  state := state
  stakeMeta := call.stakeMeta
  targetIndex := call.index
  currentLamports := terms.currentUndirectedLamports
  stakePoolLamports := terms.stakePoolLamports
  validatorList := call.validatorList
  minimumDelegation := call.minimumDelegation
  stakeRent := call.stakeRent

/-- The totals of the cycle so far, and the caps of this call. -/
def unstakeState (call : RebalanceCall) (state : StewardStateV2) (terms : RebalanceTerms) :
    UnstakeState where
  stakeDepositUnstakeTotal := state.stakeDepositUnstakeTotal
  instantUnstakeTotal := state.instantUnstakeTotal
  scoringUnstakeTotal := state.scoringUnstakeTotal
  stakeDepositUnstakeCap :=
    terms.stakePoolLamports * call.parameters.stakeDepositUnstakeCapBps / 10000
  instantUnstakeCap := terms.stakePoolLamports * call.parameters.instantUnstakeCapBps / 10000
  scoringUnstakeCap := terms.stakePoolLamports * call.parameters.scoringUnstakeCapBps / 10000

/-- The totals once the validators of a lower raw score are unstaked. -/
def unstakeAhead (call : RebalanceCall) (state : StewardStateV2) (terms : RebalanceTerms) :
    Result UnstakeState :=
  (call.calculation state terms).unstakeAhead terms.baseLamportBalance
    ((List.range state.numPoolValidators).map state.sortedRawScoreIndices).reverse
    (call.unstakeState state terms)

/-- A marked validator is really unstaked for its mark: it stays in the pool, has
no transient stake, and the caps leave room for it. -/
def UnstakesMarked (call : RebalanceCall) (state : StewardStateV2) : Prop :=
  state.leaves call.index = false ∧
    (∃ listed, stakeLamportsAtValidatorListIndex call.validatorList call.index =
      .ok (listed, false)) ∧
    ∃ terms ahead, rebalanceTerms state call = .ok terms ∧
      call.unstakeAhead (withTrackedBalance state call.index terms) terms = .ok ahead ∧
      ahead.HasRoom (trackedBalance (state.validatorLamportBalances call.index) terms)
        terms.currentUndirectedLamports call.minimumDelegation

end RebalanceCall

section Unstaked

variable {state next : StewardStateV2} {call : RebalanceCall} {rebalanceType : RebalanceType}

theorem decreaseOf_of_amounts {calculation : StakeCalculation} {amounts : UnstakeAmounts}
    (large : calculation.minimumDelegation < amounts.stakeDepositUnstakeLamports +
      amounts.instantUnstakeLamports + amounts.scoringUnstakeLamports)
    (decided : calculation.decreaseOf amounts = .ok rebalanceType) :
    rebalanceType.instantLamports = amounts.instantUnstakeLamports := by
  simp only [StakeCalculation.decreaseOf, UnstakeAmounts.total, Outcome.bind_eq_ok,
    checkedAdd_eq_ok] at decided
  rcases decided with ⟨_, ⟨_, ⟨_, rfl⟩, _, rfl⟩, decided⟩
  rw [if_neg (by omega), Outcome.pure_eq_ok] at decided
  rw [← decided]
  rfl

/-- With room for it, a marked validator is unstaked in the instant category. -/
theorem rebalanceDecision_instant {terms : RebalanceTerms} {ahead : UnstakeState} {listed : Nat}
    (marked : state.instantUnstake.contains call.index = true)
    (base : terms.baseLamportBalance = call.minimumDelegation + call.stakeRent)
    (settled : stakeLamportsAtValidatorListIndex call.validatorList call.index =
      .ok (listed, false))
    (reached : call.unstakeAhead state terms = .ok ahead)
    (room : ahead.HasRoom (state.validatorLamportBalances call.index)
      terms.currentUndirectedLamports call.minimumDelegation)
    (decided : rebalanceDecision state call terms = .ok rebalanceType) :
    0 < rebalanceType.instantLamports := by
  simp only [rebalanceDecision, Outcome.bind_eq_ok, BitMask.get_eq_ok] at decided
  rcases decided with ⟨_, ⟨_, rfl⟩, decided⟩
  rw [if_pos (.inr marked)] at decided
  simp only [Outcome.bind_eq_ok, unstakeCap_eq_ok] at decided
  rcases decided with ⟨_, ⟨_, rfl⟩, _, ⟨_, rfl⟩, _, ⟨_, rfl⟩, decided⟩
  replace decided := (decreaseStakeCalculation_eq_ok decided).2
  simp only [RebalanceCall.unstakeAhead, base] at reached
  have walked := StakeCalculation.decreaseAlong_of_ahead reached
  simp only [RebalanceCall.calculation, RebalanceCall.unstakeState] at walked
  rw [walked] at decided
  simp only [Outcome.bind_eq_ok, StakeCalculation.simulateDecrease,
    StakeCalculation.decreaseTarget, BitMask.getUnsafe_eq_ok, simulatedUndirectedLamports, settled,
    Except.ok.injEq] at decided
  rcases decided with ⟨⟨last, amounts⟩, ⟨target, ⟨_, ⟨_, rfl⟩, targeted⟩, _, ⟨_, rfl, _, _, _, _,
    simulatedEq⟩, simulated⟩, decided⟩
  simp only [marked, if_true, Outcome.pure_eq_ok] at targeted
  simp only [Outcome.pure_eq_ok] at simulatedEq
  subst target simulatedEq
  have positive : 0 < terms.currentUndirectedLamports := by
    have beyond := room.beyondDeposit
    omega
  simp only [if_true, positive, Bool.not_false, and_self] at simulated
  rcases UnstakeState.simulateUnstake_of_room marked room simulated with ⟨instant, large⟩
  rw [decreaseOf_of_amounts large decided]
  exact instant

theorem redistributeDelegation_numerator {delegations redistributed : Nat → Delegation}
    {index pool : Nat}
    (redistributing : redistributeDelegation delegations index pool = .ok redistributed) :
    (redistributed index).numerator = 0 ∧
      ∀ row, (delegations row).numerator = 0 → (redistributed row).numerator = 0 := by
  simp only [redistributeDelegation, Outcome.bind_eq_ok] at redistributing
  rcases redistributing with ⟨before, loweredBefore, after, loweredAfter, cleared⟩
  rw [← (writeRow_eq_ok.mp cleared).2, forRange_lowerDenominator loweredAfter,
    forRange_lowerDenominator loweredBefore]
  refine ⟨by simp [Delegation.none], fun row unshared => ?_⟩
  by_cases same : row = index
  · subst row
    simp [Delegation.none]
  · rw [Function.update_of_ne same]
    beta_reduce
    split <;> split <;> simp [lowerShare, unshared]

/-- A validator without a share stays without one. -/
theorem rebalance_unshared (rebalancing : state.rebalance call = .ok (next, rebalanceType))
    {row : Nat} (unshared : (state.delegations row).numerator = 0) :
    (next.delegations row).numerator = 0 := by
  rcases (rebalance_cases rebalancing).2.2 with
    ⟨_, rfl, _⟩ | ⟨_, marked, _⟩ | ⟨_, terms, applied, rebalanced⟩
  · exact unshared
  · rcases markProgress_eq_ok.mp marked with ⟨_, _, rfl⟩
    exact unshared
  · rcases markProgress_eq_ok.mp rebalanced.marked with ⟨_, _, rfl⟩
    rcases rebalanced.effect.delegations with same | ⟨_, redistributed⟩
    · have kept : applied.delegations = state.delegations := same
      show (applied.delegations row).numerator = 0
      rw [kept]
      exact unshared
    · exact (redistributeDelegation_numerator redistributed).2 row unshared

/-- A marked validator that is really unstaked for its mark loses its share. -/
theorem rebalance_unshares (rebalancing : state.rebalance call = .ok (next, rebalanceType))
    (marked : state.instantUnstake.contains call.index = true)
    (unprocessed : state.progress.contains call.index = false)
    (unstakes : (state.delegations call.index).numerator = 0 ∨ call.UnstakesMarked state) :
    (next.delegations call.index).numerator = 0 := by
  rcases unstakes with unshared | ⟨stays, ⟨listed, settled⟩, terms, ahead, computed, reached, room⟩
  · exact rebalance_unshared rebalancing unshared
  rcases (rebalance_cases rebalancing).2.2 with
    ⟨processed, _⟩ | ⟨⟨_, leaves⟩, _⟩ | ⟨_, computedTerms, applied, rebalanced⟩
  · simp [unprocessed] at processed
  · simp [stays] at leaves
  have sameTerms : computedTerms = terms :=
    Except.ok.inj (rebalanced.computed.symm.trans computed)
  subst computedTerms
  have tracked : (withTrackedBalance state call.index terms).validatorLamportBalances call.index =
      trackedBalance (state.validatorLamportBalances call.index) terms := by
    simp [withTrackedBalance]
  rw [← tracked] at room
  have base := (termsOf_of_rebalanceTerms computed).base
  have stillMarked : (withTrackedBalance state call.index terms).instantUnstake.contains
      call.index = true := marked
  have instant := rebalanceDecision_instant stillMarked base settled reached room
    rebalanced.decision
  rcases markProgress_eq_ok.mp rebalanced.marked with ⟨_, _, rfl⟩
  rcases Nat.eq_zero_or_pos (state.delegations call.index).numerator with unshared | shared
  · exact rebalance_unshared rebalancing unshared
  · exact (redistributeDelegation_numerator (rebalanced.effect.instantUnstaked instant shared)).1

end Unstaked

/-! ## The rest of the cycle -/

/-- The call of `StewardStateV2::rebalance` that the handler makes. It makes none
when the state machine moves on first, and none for transient stake. -/
def Rebalance.called (environment : Environment) (inputs : Inputs)
    (stakeMeta : DirectedStakeMeta) (state : StewardStateV2) : Option RebalanceCall :=
  match environment.maybeTransition state, inputs.stakeAccount with
  | .ok (_, none), .stake stakeAccountActiveLamports =>
      if 0 < transientLamports inputs.transientStakeAccount then none
      else some (call environment inputs stakeMeta stakeAccountActiveLamports)
  | _, _ => none

theorem Rebalance.called_eq_some {environment : Environment} {inputs : Inputs}
    {stakeMeta : DirectedStakeMeta} {state : StewardStateV2} {made : RebalanceCall}
    (called : called environment inputs stakeMeta state = some made) :
    ∃ stakeAccountActiveLamports, inputs.stakeAccount = .stake stakeAccountActiveLamports ∧
      made = call environment inputs stakeMeta stakeAccountActiveLamports := by
  unfold Rebalance.called at called
  split at called
  case h_1 active _ account =>
      split at called
      · cases called
      · exact ⟨active, account, (Option.some.inj called).symm⟩
  case h_2 => cases called

/-- What the handler does, told by the call it makes. -/
theorem Rebalance.handler_called {environment : Environment} {inputs : Inputs}
    {stakeMeta : DirectedStakeMeta} {state next : StewardStateV2} {rebalanceType : RebalanceType}
    (succeeded : handler environment inputs stakeMeta state = .ok (next, rebalanceType)) :
    (called environment inputs stakeMeta state = none ∧
      ((environment.transition state = .ok next) ∨
        (state.stateTag = .rebalance ∧
          state.markProgress inputs.validatorListIndex = .ok next))) ∨
      ∃ rebalanced call, called environment inputs stakeMeta state = some call ∧
        state.rebalance call = .ok (rebalanced, rebalanceType) ∧
        environment.transition rebalanced = .ok next := by
  simp only [handler, Outcome.bind_eq_ok] at succeeded
  rcases succeeded with ⟨_, _, ⟨moved, event⟩, first, succeeded⟩
  rcases maybeTransition_eq_ok first with ⟨transitioned, reported⟩
  cases event with
  | some event =>
      simp only [Option.isSome_some, if_true, Outcome.pure_eq_ok, Prod.mk.injEq] at succeeded
      rcases succeeded with ⟨rfl, _⟩
      exact .inl ⟨by simp [called, first], .inl transitioned⟩
  | none =>
      simp only [Option.isSome_none, Bool.false_eq_true, if_false, Outcome.bind_eq_ok] at succeeded
      rcases succeeded with ⟨_, checked, moving⟩
      have same : state.stateTag = moved.stateTag := by
        by_contra changed
        simpa using reported.mpr changed
      have tag : state.stateTag = .rebalance :=
        same.trans ((stateChecks_eq_ok.mp checked).2.1 _ rfl)
      have kept := transition_silent transitioned same (by simp [tag])
      subst moved
      rcases (move_cases moving).2 with
        ⟨transient, _, marked⟩ | ⟨active, rebalanced, settled, account, computed, final⟩
      · refine .inl ⟨?_, .inr ⟨tag, marked⟩⟩
        cases account : inputs.stakeAccount <;> simp [called, first, account, transient]
      · refine .inr ⟨rebalanced, _, ?_, computed, final⟩
        simp [called, first, account, settled]

namespace Transaction

/-- The transaction calls `reset_state_for_new_cycle`. -/
def startsCycle (transaction : Transaction) (accounts : Accounts) : Bool :=
  match transaction.instruction with
  | .computeScore _ =>
      decide (accounts.state.stateTag = .computeScores) &&
        (accounts.state.scoringRestarts transaction.environment.clock
          transaction.environment.config).toOption.getD false
  | _ => false

/-- The rebalance call of a transaction, when it processes a marked validator. -/
def marksProcessed (transaction : Transaction) (accounts : Accounts) : Option RebalanceCall :=
  match transaction.instruction with
  | .rebalance inputs =>
      (Rebalance.called transaction.environment inputs accounts.stakeMeta accounts.state).filter
        fun call => accounts.state.instantUnstake.contains call.index &&
          !accounts.state.progress.contains call.index
  | _ => none

theorem marksProcessed_eq_some {transaction : Transaction} {accounts : Accounts}
    {inputs : Rebalance.Inputs} {call : RebalanceCall}
    (instruction : transaction.instruction = .rebalance inputs)
    (processed : transaction.marksProcessed accounts = some call) :
    Rebalance.called transaction.environment inputs accounts.stakeMeta accounts.state =
        some call ∧
      accounts.state.instantUnstake.contains call.index = true ∧
      accounts.state.progress.contains call.index = false := by
  simpa only [marksProcessed, instruction, Option.filter_eq_some_iff, Bool.and_eq_true,
    Bool.not_eq_true'] using processed

/-- The names of rows after the transaction; that of a removed row is gone. -/
def renameRows (transaction : Transaction) (rows : List Nat) : List Nat :=
  match transaction.instruction.removedIndex with
  | none => rows
  | some index => (rows.filter (· ≠ index)).map (lowered index)

end Transaction

/-- The accounts, and the rows of the validators that were processed in this cycle
while marked for instant unstake. -/
structure CycleWatch where
  accounts : Accounts
  unstaked : List Nat

namespace CycleWatch

def unstakedAfter (watch : CycleWatch) (transaction : Transaction) : List Nat :=
  if transaction.startsCycle watch.accounts then []
  else transaction.renameRows
    (((transaction.marksProcessed watch.accounts).map (·.index)).toList ++ watch.unstaked)

def step (watch : CycleWatch) (transaction : Transaction) : CycleWatch :=
  match transaction.process watch.accounts with
  | .error _ => watch
  | .ok next => ⟨next, watch.unstakedAfter transaction⟩

/-- No rebalance call gives stake to one of these validators. -/
def NoIncrease (watch : CycleWatch) : Prop :=
  ∀ call, call.index ∈ watch.unstaked → ∀ next lamports,
    watch.accounts.state.rebalance call ≠ .ok (next, .increase lamports)

/-- A marked validator that is processed has no share any more, or is really
unstaked for its mark. -/
def UnstakesMarked (watch : CycleWatch) (transaction : Transaction) : Prop :=
  ∀ call, transaction.marksProcessed watch.accounts = some call →
    (watch.accounts.state.delegations call.index).numerator = 0 ∨
      call.UnstakesMarked watch.accounts.state

end CycleWatch

/-- What keeps these rows without a share. Within the cycle scoring has not begun
again, and the pool is empty when delegations are to be computed. -/
structure Excluded (rows : List Nat) (state : StewardStateV2) : Prop where
  unshared : ∀ row ∈ rows, row < state.numPoolValidators → (state.delegations row).numerator = 0
  unscored : rows ≠ [] → state.stateTag = .computeScores → state.progress.isEmpty = true
  undelegated : rows ≠ [] → state.stateTag = .computeDelegations → state.numPoolValidators = 0

namespace Excluded

variable {rows : List Nat} {state next : StewardStateV2} {transaction : Transaction}

theorem nil (state : StewardStateV2) : Excluded [] state :=
  ⟨by simp, by simp, by simp⟩

theorem keep (excluded : Excluded rows state) (delegations : next.delegations = state.delegations)
    (pool : next.numPoolValidators = state.numPoolValidators)
    (unscored : next.stateTag = .computeScores → next.progress.isEmpty = true)
    (undelegated : next.stateTag ≠ .computeDelegations) : Excluded rows next := by
  refine ⟨?_, fun _ => unscored, fun _ tag => absurd tag undelegated⟩
  rw [delegations, pool]
  exact excluded.unshared

theorem noIncrease {accounts : Accounts} (excluded : Excluded rows accounts.state) :
    (CycleWatch.mk accounts rows).NoIncrease := by
  intro call member next lamports rebalancing
  rcases rebalance_increase rebalancing with ⟨inPool, shared⟩
  exact Nat.lt_irrefl 0 (excluded.unshared call.index member inPool ▸ shared)

theorem isEmpty_empty : BitMask.empty.isEmpty = true := by
  rw [BitMask.isEmpty_iff]
  simp

theorem work (excluded : Excluded rows state)
    (sameCycle : ∀ inputs, transaction.instruction = .computeScore inputs →
      state.stateTag = .computeScores →
      state.scoringRestarts transaction.environment.clock transaction.environment.config ≠
        .ok true)
    (worked : Work transaction state next) : Excluded rows next := by
  by_cases watched : rows = []
  · subst rows
    exact .nil next
  cases worked with
  | keep => exact excluded
  | score inputs components instruction tag _ _ computed =>
      -- Scoring an empty mask starts the next cycle.
      rcases computeScore_cases computed with ⟨_, started, starting, _⟩
      have empty := excluded.unscored watched tag
      rcases startScoring_cases starting with ⟨continues, _⟩ | ⟨restarts, _⟩
      · simp only [StewardStateV2.scoringRestarts, Outcome.bind_eq_ok,
          Outcome.pure_eq_ok] at continues
        rcases continues with ⟨_, _, continues⟩
        simp [empty] at continues
      · exact absurd restarts (sameCycle inputs instruction tag)
  | delegate tag computed =>
      have nobody := excluded.undelegated watched tag
      rcases computeDelegations_cases computed with ⟨_, _, _, _, _, _, _, rfl⟩
      exact ⟨by simp [nobody], by simp [tag], fun _ _ => nobody⟩
  | instantUnstake inputs verdict tag computed =>
      have others := computeInstantUnstake_others computed
      have sameTag : next.stateTag = .computeInstantUnstake :=
        (congrArg (·.stateTag) others).trans tag
      exact excluded.keep (congrArg (·.delegations) others) (congrArg (·.numPoolValidators) others)
        (by simp [sameTag]) (by simp [sameTag])
  | rebalance call rebalanceType tag rebalancing =>
      have others := rebalance_others rebalancing
      have sameTag : next.stateTag = .rebalance := (congrArg (·.stateTag) others).trans tag
      have samePool : next.numPoolValidators = state.numPoolValidators :=
        congrArg (·.numPoolValidators) others
      refine ⟨?_, by simp [sameTag], by simp [sameTag]⟩
      intro row member inPool
      rw [samePool] at inPool
      exact rebalance_unshared rebalancing (excluded.unshared row member inPool)
  | skipTransient index tag marked =>
      rcases markProgress_eq_ok.mp marked with ⟨_, _, rfl⟩
      exact excluded.keep rfl rfl (by simp [tag]) (by simp [tag])
  | directed balances complete =>
      exact ⟨excluded.unshared, excluded.unscored, excluded.undelegated⟩

theorem move {clock : Clock} {parameters : Parameters} {progress : ℚ}
    (excluded : Excluded rows state) (moved : Move clock parameters progress state next) :
    Excluded rows next := by
  have rolled := state.rollOverCycle_others clock.epoch
  have rolledDelegations : (state.rolledOver clock).delegations = state.delegations :=
    congrArg (·.delegations) rolled
  have rolledPool : (state.rolledOver clock).numPoolValidators = state.numPoolValidators :=
    congrArg (·.numPoolValidators) rolled
  cases moved with
  | stay => exact excluded
  | scoresComplete tag _ complete =>
      refine ⟨by simp [Delegation.none], by simp, fun watched _ => ?_⟩
      have empty := BitMask.isEmpty_iff.mp (excluded.unscored watched tag)
      by_contra nonempty
      have scored := complete 0 (Nat.pos_of_ne_zero nonempty)
      have member : 0 ∈ state.progress.rows := BitMask.mem_rows.mpr ⟨by decide, scored⟩
      simp [empty] at member
  | delegationsComplete => exact excluded.keep rfl rfl (by simp) (by simp)
  | startScoring =>
      exact excluded.keep rolledDelegations rolledPool (fun _ => isEmpty_empty) (by simp)
  | startInstantUnstake => exact excluded.keep rolledDelegations rolledPool (by simp) (by simp)
  | waitBeforeLoop tag =>
      exact excluded.keep rolledDelegations rolledPool (by simp [tag]) (by simp [tag])
  | waitAfterLoop tag =>
      exact excluded.keep rolledDelegations rolledPool (by simp [tag]) (by simp [tag])
  | instantUnstakeComplete => exact excluded.keep rfl rfl (by simp) (by simp)
  | rebalanceAborted => exact excluded.keep rfl rfl (by simp) (by simp)
  | rebalanceComplete => exact excluded.keep rfl rfl (by simp) (by simp)
  | directedComplete => exact excluded.keep rfl rfl (by simp) (by simp)
  | directedTimeout => exact excluded.keep rfl rfl (by simp) (by simp)

theorem upkeep {origin : StewardStateV2} (excluded : Excluded rows state)
    (removesNone : transaction.instruction.removedIndex = none)
    (action : Upkeep transaction origin state next) : Excluded rows next := by
  cases action with
  | balances _ => exact ⟨excluded.unshared, excluded.unscored, excluded.undelegated⟩
  | unsetMaintenance => exact ⟨excluded.unshared, excluded.unscored, excluded.undelegated⟩
  | remove _ _ index requested => simp [removesNone] at requested
  | openEpoch stakeMeta =>
      exact excluded.keep rfl rfl (by simp [EpochMaintenance.openEpoch])
        (by simp [EpochMaintenance.openEpoch])
  | mark _ _ => exact ⟨excluded.unshared, excluded.unscored, excluded.undelegated⟩
  | add _ added =>
      simp only [StewardStateV2.incrementValidatorToAdd] at added
      split at added
      · cases added
        exact ⟨excluded.unshared, excluded.unscored, excluded.undelegated⟩
      · simp at added
  | reset resetting =>
      simp only [ResetStewardState.handler, Outcome.bind_eq_ok, Outcome.pure_eq_ok] at resetting
      rcases resetting with ⟨_, _, rfl⟩
      exact ⟨by simp [Delegation.none], by simp, by simp⟩

/-- The rows that stay keep their shares under their new names. -/
theorem remove {accounts following : Accounts} {index : Nat}
    (excluded : Excluded rows accounts.state) (removed : Removed accounts index following) :
    Excluded ((rows.filter (· ≠ index)).map (lowered index)) following.state := by
  have shrunk := poolShrunk_of_removed removed
  have tag : following.state.stateTag = accounts.state.stateTag :=
    congrArg (·.stateTag) removed.control
  have nonempty : (rows.filter (· ≠ index)).map (lowered index) ≠ [] → rows ≠ [] := by
    intro some none
    simp [none] at some
  constructor
  · intro row member inPool
    rcases List.mem_map.mp member with ⟨original, kept, rfl⟩
    rcases List.mem_filter.mp kept with ⟨member, other⟩
    have other : original ≠ index := by simpa using other
    have within := shrunk.within
    have beyond := shrunk.beyond
    have bounded : original < accounts.state.numPoolValidators := by
      unfold lowered at inPool
      split at inPool <;> omega
    rw [removed.delegations, shrunk.deleteRow_lowered bounded other]
    exact excluded.unshared original member bounded
  · intro watched scoring
    have empty := BitMask.isEmpty_iff.mp
      (excluded.unscored (nonempty watched) (tag.symm.trans scoring))
    rw [BitMask.isEmpty_iff, Finset.eq_empty_iff_forall_notMem]
    intro row member
    rcases BitMask.mem_rows.mp member with ⟨capacity, contained⟩
    have absent : ∀ before, before < bitmaskSize * 64 →
        accounts.state.progress.contains before = false := by
      intro before valid
      by_contra present
      have processed := BitMask.mem_rows.mpr ⟨valid, Bool.eq_true_of_not_eq_false present⟩
      simp [empty] at processed
    have last := removed.capacity.2
    rw [removed.progress] at contained
    unfold deleteRow shiftDown at contained
    split at contained
    · cases contained
    · split at contained
      · rw [absent _ (BitMask.lt_capacity (by omega))] at contained
        cases contained
      · rw [absent _ capacity] at contained
        cases contained
  · intro watched delegating
    have nobody := excluded.undelegated (nonempty watched) (tag.symm.trans delegating)
    rw [removed.numPoolValidators, if_pos (by omega)]
    exact nobody

theorem removal {accounts following : Accounts} {index : Nat}
    (excluded : Excluded rows accounts.state)
    (removes : transaction.instruction.removedIndex = some index)
    (succeeded : transaction.process accounts = .ok following) :
    Excluded ((rows.filter (· ≠ index)).map (lowered index)) following.state := by
  rcases transaction with ⟨environment, instruction⟩
  cases instruction with
  | epochMaintenance lastUpdateEpoch toRemove =>
      simp only [Instruction.removedIndex] at removes
      subst toRemove
      simp only [Transaction.process, EpochMaintenance.handler, Outcome.bind_eq_ok] at succeeded
      rcases succeeded with ⟨_, _, _, _, _, _, _, _, _, _, _, _, _, _, removed, removing, succeeded⟩
      have unset : Excluded rows (accounts.state.unsetFlag epochMaintenanceFlag) :=
        ⟨excluded.unshared, excluded.unscored, excluded.undelegated⟩
      have reached := unset.remove (removed_of_removeValidator removing)
      split at succeeded
      · cases succeeded
        exact reached.keep rfl rfl (by simp [EpochMaintenance.openEpoch])
          (by simp [EpochMaintenance.openEpoch])
      · cases succeeded
        exact reached
  | instantRemoveValidator lastUpdateEpoch toRemove =>
      simp only [Instruction.removedIndex, Option.some.injEq] at removes
      subst toRemove
      simp only [Transaction.process, InstantRemoveValidator.handler,
        Outcome.bind_eq_ok] at succeeded
      rcases succeeded with
        ⟨_, _, _, _, _, _, _, _, _, _, _, _, _, _, _, _, _, _, _, _, removing⟩
      exact excluded.remove (removed_of_removeValidator removing)
  | _ => simp [Instruction.removedIndex] at removes

/-- A rebalance transaction adds the row of a marked validator it processes. -/
theorem rebalance {accounts following : Accounts} {inputs : Rebalance.Inputs}
    (excluded : Excluded rows accounts.state)
    (instruction : transaction.instruction = .rebalance inputs)
    (unstakes : (CycleWatch.mk accounts rows).UnstakesMarked transaction)
    (succeeded : transaction.process accounts = .ok following) :
    Excluded (((transaction.marksProcessed accounts).map (·.index)).toList ++ rows)
      following.state := by
  have notScoring : ∀ scoreInputs, transaction.instruction ≠ .computeScore scoreInputs := by
    simp [instruction]
  simp only [Transaction.process, instruction, Accounts.withState_eq_ok,
    Outcome.map_eq_ok] at succeeded
  rcases succeeded with ⟨⟨⟨last, rebalanceType⟩, handled, same⟩, _⟩
  simp only at same
  subst last
  rcases Rebalance.handler_called handled with
    ⟨none, transitioned | ⟨tag, marked⟩⟩ | ⟨rebalanced, call, called, rebalancing, transitioned⟩
  · rcases move_of_transition transitioned with ⟨_, _, moved⟩
    simpa [Transaction.marksProcessed, instruction, none] using excluded.move moved
  · rcases markProgress_eq_ok.mp marked with ⟨_, _, written⟩
    have kept : Excluded rows following.state := by
      rw [written]
      exact excluded.keep rfl rfl (by simp [tag]) (by simp [tag])
    simpa [Transaction.marksProcessed, instruction, none] using kept
  · rcases move_of_transition transitioned with ⟨_, _, moved⟩
    apply Excluded.move _ moved
    have tag := (rebalance_cases rebalancing).1
    have worked : Excluded rows rebalanced :=
      excluded.work (fun scoreInputs scores => absurd scores (notScoring scoreInputs))
        (.rebalance call rebalanceType tag rebalancing)
    have sameTag : rebalanced.stateTag = .rebalance :=
      (congrArg (·.stateTag) (rebalance_others rebalancing)).trans tag
    cases processes : transaction.marksProcessed accounts with
    | none => simpa using worked
    | some processed =>
        rcases Transaction.marksProcessed_eq_some instruction processes with
          ⟨isCalled, marked, unprocessed⟩
        cases Option.some.inj (called.symm.trans isCalled)
        have unshared := rebalance_unshares rebalancing marked unprocessed
          (unstakes call processes)
        refine ⟨?_, by simp [sameTag], by simp [sameTag]⟩
        intro row member inPool
        simp only [Option.map_some, Option.toList_some, List.cons_append, List.nil_append,
          List.mem_cons] at member
        rcases member with rfl | member
        · exact unshared
        · exact worked.unshared row member inPool

/-- Any other transaction of the cycle that removes nobody. -/
theorem process {accounts following : Accounts} (excluded : Excluded rows accounts.state)
    (sameCycle : transaction.startsCycle accounts = false)
    (removesNone : transaction.instruction.removedIndex = none)
    (succeeded : transaction.process accounts = .ok following) :
    Excluded rows following.state := by
  apply Transaction.process_preserves (Excluded rows) _ _ _ excluded succeeded
  · intro middle holds worked
    apply holds.work _ worked
    intro inputs scores tag restarts
    simp [Transaction.startsCycle, scores, tag, restarts, Except.toOption] at sameCycle
  · intro progress middle last holds _ moved
    exact holds.move moved
  · intro middle last holds action
    exact holds.upkeep removesNone action

end Excluded

theorem Transaction.marksProcessed_eq_none {transaction : Transaction} {accounts : Accounts}
    (others : ∀ inputs, transaction.instruction ≠ .rebalance inputs) :
    transaction.marksProcessed accounts = none := by
  unfold marksProcessed
  split
  case h_1 inputs instruction => exact absurd instruction (others inputs)
  case h_2 => rfl

/-- A step of the cycle keeps the processed validators without a share. -/
theorem CycleWatch.excluded_step {watch : CycleWatch} {transaction : Transaction}
    (excluded : Excluded watch.unstaked watch.accounts.state)
    (unstakes : watch.UnstakesMarked transaction) :
    Excluded (watch.step transaction).unstaked (watch.step transaction).accounts.state := by
  rcases watch with ⟨accounts, rows⟩
  unfold step
  cases succeeded : transaction.process accounts with
  | error failure => exact excluded
  | ok following =>
      simp only [unstakedAfter]
      cases starts : transaction.startsCycle accounts with
      | true => exact .nil _
      | false =>
          simp only [Bool.false_eq_true, if_false]
          cases removes : transaction.instruction.removedIndex with
          | some index =>
              have none : transaction.marksProcessed accounts = none := by
                apply Transaction.marksProcessed_eq_none
                intro inputs instruction
                simp [instruction, Instruction.removedIndex] at removes
              simpa [Transaction.renameRows, removes, none] using
                excluded.removal removes succeeded
          | none =>
              simp only [Transaction.renameRows, removes]
              by_cases rebalances : ∃ inputs, transaction.instruction = .rebalance inputs
              · rcases rebalances with ⟨inputs, instruction⟩
                exact excluded.rebalance instruction unstakes succeeded
              · have none : transaction.marksProcessed accounts = none := by
                  apply Transaction.marksProcessed_eq_none
                  intro inputs instruction
                  exact rebalances ⟨inputs, instruction⟩
                simpa [none] using excluded.process starts removes succeeded

/-- As long as every marked validator that is processed is really unstaked for its
mark, none of them is given stake again in the same cycle. -/
theorem cycle_unstaked_noIncrease {start : CycleWatch} (fresh : start.unstaked = [])
    {transactions : List Transaction}
    (unstakes : EveryStep CycleWatch.step CycleWatch.UnstakesMarked start transactions) :
    ∀ watch ∈ visited CycleWatch.step start transactions, watch.NoIncrease := by
  intro watch member
  have excluded := visited_invariant
    (fun watch : CycleWatch => Excluded watch.unstaked watch.accounts.state)
    (fun watch transaction excluded unstakes => CycleWatch.excluded_step excluded unstakes)
    (by rw [fresh]; exact .nil _) unstakes watch member
  exact excluded.noIncrease

/-! A pool of one validator, which holds the only share and 100 lamports of stake.
It is marked in epoch 1 and not in epoch 2. -/

def exclusionEnvironment (epoch : Nat) : Environment where
  clock := ⟨epoch, 1000 * epoch + 950⟩
  epochSchedule := .withoutWarmup 1000
  config := ⟨{ Parameters.fixture with numDelegationValidators := 1 }, false⟩
  validatorList := ⟨.validatorList, [⟨102, 0, 0, .active, 1⟩], []⟩

def exclusionOrigin : Accounts := ⟨ReallocState.initialState 1 10 0, .initial⟩

def exclusionInputs (poolLamports : Nat) : Rebalance.Inputs where
  validatorListIndex := 0
  validatorHistory := ⟨1, some 1950⟩
  voteAccountOwnedByVoteProgram := true
  stakeAccount := .stake 101
  transientStakeAccount := .notDelegated
  poolTotalLamports := poolLamports
  reserveLamports := poolLamports
  minimumDelegation := 1
  stakeRent := 1
  invoke := fun _ => .ok ()

def exclusionScore (epoch : Nat) : Instruction :=
  .computeScore ⟨0, ⟨1, some (1000 * epoch + 950)⟩, ⟨1000 * epoch + 950⟩, .ok ⟨7, 7⟩⟩

/-- The cranks of an epoch up to the rebalance. -/
def exclusionCranks (epoch : Nat) (marks : Bool) : List Transaction :=
  [Instruction.epochMaintenance epoch none, exclusionScore epoch, .idle, exclusionScore epoch,
    .computeDelegations, .idle,
    .computeInstantUnstake ⟨0, ⟨1, some (1000 * epoch + 950)⟩, ⟨1000 * epoch + 950⟩,
      .ok marks⟩].map fun instruction => ⟨exclusionEnvironment epoch, instruction⟩

def exclusionRebalance (poolLamports : Nat) : Transaction :=
  ⟨exclusionEnvironment 1, .rebalance (exclusionInputs poolLamports)⟩

/-- Marked and processed in the first epoch, up for rebalance in the second. -/
def exclusionRun (poolLamports : Nat) : List Transaction :=
  exclusionCranks 1 true ++ exclusionRebalance poolLamports :: exclusionCranks 2 false

theorem exclusionCranks_unstakesMarked (start : CycleWatch) (epoch : Nat) (marks : Bool) :
    EveryStep CycleWatch.step CycleWatch.UnstakesMarked start (exclusionCranks epoch marks) := by
  have others : ∀ watch : CycleWatch, ∀ transaction : Transaction,
      (∀ inputs, transaction.instruction ≠ .rebalance inputs) →
      watch.UnstakesMarked transaction := by
    intro watch transaction others call processed
    simp [Transaction.marksProcessed_eq_none others] at processed
  simp only [exclusionCranks, List.map_cons, List.map_nil, EveryStep, and_true]
  refine ⟨?_, ?_, ?_, ?_, ?_, ?_, ?_⟩
  all_goals
    apply others
    simp [exclusionScore]

theorem exclusionCranks_targets (start : CycleWatch) (epoch : Nat) (marks : Bool) :
    (run CycleWatch.step start (exclusionCranks epoch marks)).accounts.stakeMeta.targets =
      start.accounts.stakeMeta.targets := by
  have kept : ∀ transaction ∈ exclusionCranks epoch marks, ∀ accounts next : Accounts,
      transaction.process accounts = .ok next →
      next.stakeMeta.targets = accounts.stakeMeta.targets := by
    intro transaction member accounts next succeeded
    simp only [exclusionCranks, exclusionScore, List.map_cons, List.map_nil, List.mem_cons,
      List.not_mem_nil, or_false] at member
    rcases member with rfl | rfl | rfl | rfl | rfl | rfl | rfl
    · exact EpochMaintenance.handler_targets succeeded
    all_goals
      simp only [Transaction.process, Accounts.withState_eq_ok] at succeeded
      rw [succeeded.2]
  generalize exclusionCranks epoch marks = transactions at kept
  induction transactions generalizing start with
  | nil => rfl
  | cons transaction rest induction =>
      rw [run_cons, induction _ fun later member => kept later (List.mem_cons_of_mem _ member)]
      unfold CycleWatch.step
      split
      · rfl
      · exact kept transaction List.mem_cons_self _ _ ‹_›

/-- The state in which the validator is marked and not yet processed. -/
abbrev exclusionMarked : CycleWatch :=
  run CycleWatch.step ⟨exclusionOrigin, []⟩ (exclusionCranks 1 true)

/-- Nothing is staked by direction, so a rebalance sees the whole pool. -/
def exclusionCall (epoch poolLamports : Nat) (stakeMeta : DirectedStakeMeta)
    (stakeAccountActiveLamports : Nat) : RebalanceCall where
  stakeMeta := stakeMeta
  currentEpoch := epoch
  index := 0
  validatorList := (exclusionEnvironment epoch).validatorList
  stakePoolLamports := poolLamports
  reserveLamports := Rebalance.cappedReserve poolLamports poolLamports
    Parameters.fixture.undirectedStakeCeilingLamports
  stakeAccountCurrentLamports := stakeAccountActiveLamports - 1
  minimumDelegation := 1
  stakeRent := 1
  parameters := (exclusionEnvironment epoch).config.parameters

theorem exclusionCall_eq (poolLamports stakeAccountActiveLamports : Nat) :
    Rebalance.call (exclusionEnvironment 1) (exclusionInputs poolLamports)
        exclusionMarked.accounts.stakeMeta stakeAccountActiveLamports =
      exclusionCall 1 poolLamports exclusionMarked.accounts.stakeMeta
        stakeAccountActiveLamports := by
  have undirected : exclusionMarked.accounts.stakeMeta.totalStakedLamports = 0 := by
    apply DirectedStakeMeta.totalStakedLamports_eq_zero
    intro index
    rw [exclusionCranks_targets]
    rfl
  simp only [Rebalance.call, undirected]
  rfl

/-- The state after a rebalance call and the transition that follows it. -/
def CycleWatch.processed (watch : CycleWatch) (environment : Environment)
    (call : RebalanceCall) : Option StewardStateV2 := do
  let (rebalanced, _) ← (watch.accounts.state.rebalance call).toOption
  (environment.transition rebalanced).toOption

theorem CycleWatch.step_rebalance {watch : CycleWatch} {environment : Environment}
    {inputs : Rebalance.Inputs} {stakeAccountActiveLamports : Nat} {call : RebalanceCall}
    (account : inputs.stakeAccount = .stake stakeAccountActiveLamports)
    (called : Rebalance.call environment inputs watch.accounts.stakeMeta
      stakeAccountActiveLamports = call)
    (succeeds : (Transaction.process ⟨environment, .rebalance inputs⟩ watch.accounts).isOk = true)
    (makes : (Rebalance.called environment inputs watch.accounts.stakeMeta
      watch.accounts.state).isSome = true) :
    ∃ next, watch.processed environment call = some next ∧
      watch.step ⟨environment, .rebalance inputs⟩ = ⟨⟨next, watch.accounts.stakeMeta⟩,
        watch.unstakedAfter ⟨environment, .rebalance inputs⟩⟩ := by
  rcases Outcome.exists_eq_ok succeeds with ⟨next, succeeded⟩
  have handled := succeeded
  simp only [Transaction.process, Accounts.withState_eq_ok, Outcome.map_eq_ok] at handled
  rcases handled with ⟨⟨⟨last, rebalanceType⟩, handled, isLast⟩, same⟩
  rcases Rebalance.handler_called handled with
    ⟨none, _⟩ | ⟨rebalanced, made, isMade, rebalancing, transitioned⟩
  · simp [none] at makes
  · rcases Rebalance.called_eq_some isMade with ⟨active, decoded, rfl⟩
    cases account.symm.trans decoded
    rw [called] at rebalancing
    refine ⟨next.state, ?_, ?_⟩
    · rw [← isLast]
      simp [processed, rebalancing, transitioned, Except.toOption]
    · rw [← same]
      unfold step
      rw [succeeded]

/-- A watched validator gets stake after the rebalance and the later transactions. -/
theorem CycleWatch.increase_after_rebalance {start : CycleWatch} {environment : Environment}
    {inputs : Rebalance.Inputs} {earlier later : List Transaction}
    {stakeAccountActiveLamports : Nat} (call laterCall : RebalanceCall) (lamports : Nat)
    (account : inputs.stakeAccount = .stake stakeAccountActiveLamports)
    (called : Rebalance.call environment inputs (run step start earlier).accounts.stakeMeta
      stakeAccountActiveLamports = call)
    (succeeds : (Transaction.process ⟨environment, .rebalance inputs⟩
      (run step start earlier).accounts).isOk = true)
    (makes : (Rebalance.called environment inputs (run step start earlier).accounts.stakeMeta
      (run step start earlier).accounts.state).isSome = true)
    (increases : ((run step start earlier).processed environment call).any (fun next =>
      let last := run step ⟨⟨next, (run step start earlier).accounts.stakeMeta⟩,
        (run step start earlier).unstakedAfter ⟨environment, .rebalance inputs⟩⟩ later
      last.unstaked.contains laterCall.index &&
        (last.accounts.state.rebalance laterCall).toOption.map Prod.snd ==
          some (.increase lamports)) = true) :
    ¬∀ watch ∈ visited step start (earlier ++ ⟨environment, .rebalance inputs⟩ :: later),
      watch.NoIncrease := by
  intro noIncrease
  rcases step_rebalance account called succeeds makes with ⟨next, isNext, stepped⟩
  rw [isNext] at increases
  have last := noIncrease _ (run_mem_visited start _)
  rw [run_append, run_cons, stepped] at last
  simp only [Option.any_some, Bool.and_eq_true, List.contains_iff_mem, beq_iff_eq] at increases
  rcases increases with ⟨watched, increased⟩
  rcases Option.map_eq_some_iff.mp increased with ⟨⟨following, rebalanceType⟩, returned, rfl⟩
  apply last laterCall watched following lamports
  cases rebalanced : (run step ⟨⟨next, (run step start earlier).accounts.stakeMeta⟩,
      (run step start earlier).unstakedAfter ⟨environment, .rebalance inputs⟩⟩
        later).accounts.state.rebalance laterCall with
  | error failure => simp [rebalanced, Except.toOption] at returned
  | ok outcome => simpa [rebalanced, Except.toOption] using returned

/-- A pool of a million lamports has room for the 100 lamports. -/
theorem cycle_unstaked_noIncrease_roomyPool :
    exclusionMarked.unstakedAfter (exclusionRebalance 1000000) = [0] ∧
      ∀ watch ∈ visited CycleWatch.step ⟨exclusionOrigin, []⟩ (exclusionRun 1000000),
        watch.NoIncrease := by
  refine ⟨by decide +kernel, ?_⟩
  apply cycle_unstaked_noIncrease rfl
  rw [exclusionRun, exclusionRebalance, EveryStep.append]
  refine ⟨exclusionCranks_unstakesMarked _ _ _, ?_, exclusionCranks_unstakesMarked _ _ _⟩
  intro call processed
  have called := (Transaction.marksProcessed_eq_some rfl processed).1
  rcases Rebalance.called_eq_some called with ⟨active, account, rfl⟩
  cases account
  rw [exclusionCall_eq]
  refine .inr ⟨by decide +kernel, ⟨102, by decide +kernel⟩,
    ⟨2, 999998, 999998, 999998, 102, 100⟩, ⟨0, 0, 0, 999, 999, 74999⟩, by decide +kernel,
    by decide +kernel, ?_⟩
  exact ⟨by decide +kernel, by decide +kernel, by decide +kernel⟩

/-- In a pool of a thousand lamports the cap for instant unstaking is zero. The
validator keeps its share and is staked again in the next epoch. -/
theorem not_cycle_unstaked_noIncrease :
    initialAccounts ⟨0, 0⟩ (exclusionEnvironment 0).config (exclusionEnvironment 0).validatorList =
        .ok exclusionOrigin ∧
      ¬∀ watch ∈ visited CycleWatch.step ⟨exclusionOrigin, []⟩ (exclusionRun 1000),
        watch.NoIncrease := by
  refine ⟨rfl, ?_⟩
  rw [exclusionRun, exclusionRebalance]
  apply CycleWatch.increase_after_rebalance
    (exclusionCall 1 1000 exclusionMarked.accounts.stakeMeta 101)
    (exclusionCall 2 1000 .initial 101) 898
  · rfl
  · rw [exclusionCall_eq]
  · simp only [Transaction.process, Rebalance.handler, Rebalance.move,
      exclusionCall_eq]
    decide +kernel
  · decide +kernel
  · decide +kernel

end Stakenet.Steward

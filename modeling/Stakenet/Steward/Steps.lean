import Mathlib.Logic.Relation
import Stakenet.Steward.DirectedEffect
import Stakenet.Steward.Transitions

/-! What a successful transaction does to the state account: a crank does its
work and then tries one transition, every other instruction is a sequence of
upkeep actions. -/

namespace Stakenet.Steward

/-! ## Checks and transitions inside handlers -/

theorem stateChecks_eq_ok {environment : Environment} {state : StewardStateV2}
    {expectedState : Option StewardStateEnum} {value : Unit} :
    stateChecks environment state expectedState = .ok value ↔
      environment.config.paused = false ∧
      (∀ expected ∈ expectedState, state.stateTag = expected) ∧
      environment.clock.epoch = state.currentEpoch ∧
      state.validatorsForImmediateRemoval.count = 0 ∧
      environment.validatorList.accountType = .validatorList ∧
      state.numPoolValidators + state.validatorsAdded = environment.validatorList.len := by
  simp only [stateChecks, requireListMatches, Outcome.bind_eq_ok, require_eq_ok,
    getValidatorListLength_eq_ok]
  constructor
  · rintro ⟨_, running, _, expected, _, epoch, _, removals, _, ⟨kind, rfl⟩, sizes⟩
    exact ⟨running, expected, epoch, removals, kind, sizes⟩
  · rintro ⟨running, expected, epoch, removals, kind, sizes⟩
    exact ⟨(), running, (), expected, (), epoch, (), removals, _, ⟨kind, rfl⟩, sizes⟩

/-- The transition function with the arguments a handler passes. -/
abbrev Environment.transition (environment : Environment) (state : StewardStateV2) :
    Result StewardStateV2 :=
  state.transition environment.clock environment.config.parameters environment.epochSchedule

/-- The event tells whether the tag moved. -/
theorem maybeTransition_eq_ok_iff {environment : Environment} {state next : StewardStateV2}
    {event : Option StateTransition} :
    environment.maybeTransition state = .ok (next, event) ↔
      environment.transition state = .ok next ∧
        event = if state.stateTag ≠ next.stateTag then
          some ⟨environment.clock.epoch, environment.clock.slot, state.stateTag, next.stateTag⟩
        else none := by
  simp only [Environment.maybeTransition, maybeTransition, Outcome.bind_eq_ok]
  constructor
  · rintro ⟨following, transitioned, reported⟩
    split at reported
    all_goals
      simp only [Outcome.pure_eq_ok, Prod.mk.injEq] at reported
      rcases reported with ⟨rfl, rfl⟩
      simp_all
  · rintro ⟨transitioned, rfl⟩
    refine ⟨next, transitioned, ?_⟩
    split <;> rfl

theorem maybeTransition_eq_ok {environment : Environment} {state next : StewardStateV2}
    {event : Option StateTransition}
    (moved : environment.maybeTransition state = .ok (next, event)) :
    environment.transition state = .ok next ∧
      (event.isSome = true ↔ state.stateTag ≠ next.stateTag) := by
  rcases maybeTransition_eq_ok_iff.mp moved with ⟨transitioned, rfl⟩
  refine ⟨transitioned, ?_⟩
  split <;> simp_all

/-- Outside `Idle` a transition that keeps the tag keeps the state. -/
theorem transition_silent {environment : Environment} {state next : StewardStateV2}
    (moved : environment.transition state = .ok next) (same : state.stateTag = next.stateTag)
    (notIdle : state.stateTag ≠ .idle) : next = state := by
  rcases move_of_transition moved with ⟨progress, _, move⟩
  cases move <;> simp_all

/-! ## Work of a crank -/

/-- What a crank does to the state before it tries a transition. -/
inductive Work (transaction : Transaction) : StewardStateV2 → StewardStateV2 → Prop
  | keep {state} : Work transaction state state
  | score {state next} (inputs : ComputeScore.Inputs)
      (components : Option ScoreComponents) :
      transaction.instruction = .computeScore inputs →
      state.stateTag = .computeScores →
      stateChecks transaction.environment state none = .ok () →
      inputs.validatorListIndex < transaction.environment.validatorList.len →
      state.computeScore transaction.environment.clock transaction.environment.epochSchedule
        inputs.validatorHistory inputs.validatorListIndex inputs.clusterHistory
        transaction.environment.config transaction.environment.validatorList.len
        inputs.validatorScore = .ok (next, components) →
      Work transaction state next
  | delegate {state next} :
      state.stateTag = .computeDelegations →
      state.computeDelegations transaction.environment.clock.epoch
        transaction.environment.config = .ok next →
      Work transaction state next
  | instantUnstake {state next} (inputs : ComputeInstantUnstake.Inputs)
      (verdict : Option Bool) :
      state.stateTag = .computeInstantUnstake →
      state.computeInstantUnstake transaction.environment.clock
        transaction.environment.epochSchedule inputs.validatorHistory
        inputs.validatorListIndex inputs.clusterHistory transaction.environment.config
        inputs.instantUnstakeValidator = .ok (next, verdict) →
      Work transaction state next
  | rebalance {state next} (call : RebalanceCall) (rebalanceType : RebalanceType) :
      state.stateTag = .rebalance →
      state.rebalance call = .ok (next, rebalanceType) →
      Work transaction state next
  | skipTransient {state next} (index : Nat) :
      state.stateTag = .rebalance →
      state.markProgress index = .ok next →
      Work transaction state next
  | directed {state} (balances : Nat → Nat) (complete : Bool) :
      Work transaction state { state with
        validatorLamportBalances := balances
        statusFlags := if complete then state.statusFlags ||| rebalanceDirectedCompleteFlag
          else state.statusFlags }

section Handlers

variable {environment : Environment} {state next : StewardStateV2}

theorem ComputeScore.handler_cases {inputs : ComputeScore.Inputs}
    (succeeded : ComputeScore.handler environment inputs state = .ok next) :
    stateChecks environment state none = .ok () ∧
    inputs.validatorListIndex < environment.validatorList.len ∧
    ((state.stateTag ≠ .computeScores ∧ environment.transition state = .ok next) ∨
      (state.stateTag = .computeScores ∧ ∃ scored components,
        state.computeScore environment.clock environment.epochSchedule
          inputs.validatorHistory inputs.validatorListIndex inputs.clusterHistory
          environment.config environment.validatorList.len inputs.validatorScore =
            .ok (scored, components) ∧
        environment.transition scored = .ok next)) := by
  simp only [handler, Outcome.bind_eq_ok, getValidatorStakeInfoAtIndex_eq_ok,
    require_eq_ok] at succeeded
  rcases succeeded with ⟨_, checked, entry, ⟨_, found⟩, _, _, succeeded⟩
  have bounded := (List.getElem?_eq_some_iff.mp found).1
  refine ⟨checked, bounded, ?_⟩
  by_cases tag : state.stateTag = .computeScores
  · simp only [if_pos tag, score, Outcome.bind_eq_ok, require_eq_ok,
      getValidatorListLength_eq_ok, Outcome.pure_eq_ok] at succeeded
    rcases succeeded with ⟨_, _, _, ⟨_, rfl⟩, ⟨scored, components⟩, computed, ⟨last, event⟩,
      moved, rfl⟩
    exact .inr ⟨tag, scored, components, computed, (maybeTransition_eq_ok moved).1⟩
  · simp only [if_neg tag, Outcome.bind_eq_ok] at succeeded
    rcases succeeded with ⟨⟨forced, event⟩, moved, succeeded⟩
    rcases maybeTransition_eq_ok moved with ⟨transitioned, reported⟩
    by_cases emitted : event.isSome = true
    · simp only [emitted, if_true, Outcome.pure_eq_ok] at succeeded
      subst next
      exact .inl ⟨tag, transitioned⟩
    · -- Without an event the tag is still not the one that `score` requires.
      have same : state.stateTag = forced.stateTag := by
        by_contra changed
        exact emitted (reported.mpr changed)
      simp [emitted, score, ← same, tag] at succeeded

theorem ComputeDelegations.handler_cases
    (succeeded : ComputeDelegations.handler environment state = .ok next) :
    state.stateTag = .computeDelegations ∧
      environment.clock.epoch = state.currentEpoch ∧
      ∃ delegated,
        state.computeDelegations environment.clock.epoch environment.config = .ok delegated ∧
        environment.transition delegated = .ok next := by
  simp only [handler, Outcome.bind_eq_ok, stateChecks_eq_ok, Outcome.pure_eq_ok] at succeeded
  rcases succeeded with ⟨_, ⟨_, expected, epoch, _⟩, delegated, computed, ⟨last, event⟩,
    moved, rfl⟩
  exact ⟨expected _ rfl, epoch, delegated, computed, (maybeTransition_eq_ok moved).1⟩

theorem Idle.handler_cases (succeeded : Idle.handler environment state = .ok next) :
    state.stateTag = .idle ∧ environment.clock.epoch = state.currentEpoch ∧
      environment.transition state = .ok next := by
  simp only [handler, Outcome.bind_eq_ok, stateChecks_eq_ok, Outcome.pure_eq_ok] at succeeded
  rcases succeeded with ⟨_, ⟨_, expected, epoch, _⟩, ⟨last, event⟩, moved, rfl⟩
  exact ⟨expected _ rfl, epoch, (maybeTransition_eq_ok moved).1⟩

theorem ComputeInstantUnstake.handler_cases {inputs : ComputeInstantUnstake.Inputs}
    (succeeded : ComputeInstantUnstake.handler environment inputs state = .ok next) :
    environment.transition state = .ok next ∨
      (state.stateTag = .computeInstantUnstake ∧ ∃ computed verdict,
        state.computeInstantUnstake environment.clock environment.epochSchedule
          inputs.validatorHistory inputs.validatorListIndex inputs.clusterHistory
          environment.config inputs.instantUnstakeValidator = .ok (computed, verdict) ∧
        environment.transition computed = .ok next) := by
  simp only [handler, Outcome.bind_eq_ok] at succeeded
  rcases succeeded with ⟨⟨moved, event⟩, first, succeeded⟩
  rcases maybeTransition_eq_ok first with ⟨transitioned, reported⟩
  by_cases emitted : event.isSome = true
  · simp only [emitted, if_true, Outcome.pure_eq_ok] at succeeded
    subst next
    exact .inl transitioned
  · have same : state.stateTag = moved.stateTag := by
      by_contra changed
      exact emitted (reported.mpr changed)
    simp only [emitted, Bool.false_eq_true, if_false, Outcome.bind_eq_ok, stateChecks_eq_ok,
      Outcome.pure_eq_ok] at succeeded
    rcases succeeded with ⟨_, ⟨_, expected, _⟩, _, _, _, _, ⟨computed, verdict⟩, worked,
      ⟨last, _⟩, final, rfl⟩
    have tag : state.stateTag = .computeInstantUnstake := same.trans (expected _ rfl)
    have kept := transition_silent transitioned same (by simp [tag])
    subst moved
    exact .inr ⟨tag, computed, verdict, worked, (maybeTransition_eq_ok final).1⟩

theorem Rebalance.handler_cases {inputs : Rebalance.Inputs} {stakeMeta : DirectedStakeMeta}
    {rebalanceType : RebalanceType}
    (succeeded : Rebalance.handler environment inputs stakeMeta state =
      .ok (next, rebalanceType)) :
    (environment.transition state = .ok next ∧ state.stateTag ≠ next.stateTag ∧
        rebalanceType = .none) ∨
      (state.stateTag = .rebalance ∧
        stateChecks environment state (some .rebalance) = .ok () ∧
        Rebalance.move environment inputs stakeMeta state = .ok (next, rebalanceType)) := by
  simp only [handler, Outcome.bind_eq_ok] at succeeded
  rcases succeeded with ⟨_, _, ⟨moved, event⟩, first, succeeded⟩
  rcases maybeTransition_eq_ok first with ⟨transitioned, reported⟩
  by_cases emitted : event.isSome = true
  · simp only [emitted, if_true, Outcome.pure_eq_ok, Prod.mk.injEq] at succeeded
    rcases succeeded with ⟨rfl, rfl⟩
    exact .inl ⟨transitioned, reported.mp emitted, rfl⟩
  · have same : state.stateTag = moved.stateTag := by
      by_contra changed
      exact emitted (reported.mpr changed)
    simp only [emitted, Bool.false_eq_true, if_false, Outcome.bind_eq_ok] at succeeded
    rcases succeeded with ⟨_, checked, moving⟩
    have tag : state.stateTag = .rebalance :=
      same.trans ((stateChecks_eq_ok.mp checked).2.1 _ rfl)
    have kept := transition_silent transitioned same (by simp [tag])
    subst moved
    exact .inr ⟨tag, checked, moving⟩

/-- After the checks either the validator is skipped for its transient stake, or
it is rebalanced and a transition is tried. -/
theorem Rebalance.move_cases {inputs : Rebalance.Inputs} {stakeMeta : DirectedStakeMeta}
    {rebalanceType : RebalanceType}
    (succeeded : Rebalance.move environment inputs stakeMeta state =
      .ok (next, rebalanceType)) :
    inputs.validatorListIndex < environment.validatorList.len ∧
      ((0 < transientLamports inputs.transientStakeAccount ∧ rebalanceType = .none ∧
          state.markProgress inputs.validatorListIndex = .ok next) ∨
        ∃ stakeAccountActiveLamports rebalanced,
          transientLamports inputs.transientStakeAccount = 0 ∧
          inputs.stakeAccount = .stake stakeAccountActiveLamports ∧
          state.rebalance (call environment inputs stakeMeta stakeAccountActiveLamports) =
            .ok (rebalanced, rebalanceType) ∧
          environment.transition rebalanced = .ok next) := by
  simp only [move, Outcome.bind_eq_ok, getValidatorStakeInfoAtIndex_eq_ok] at succeeded
  rcases succeeded with ⟨entry, ⟨_, found⟩, _, _, _, _, active, decoded, succeeded⟩
  refine ⟨(List.getElem?_eq_some_iff.mp found).1, ?_⟩
  by_cases transient : 0 < transientLamports inputs.transientStakeAccount
  · simp only [if_pos transient, Outcome.bind_eq_ok, Outcome.pure_eq_ok,
      Prod.mk.injEq] at succeeded
    rcases succeeded with ⟨marked, written, rfl, rfl⟩
    exact .inl ⟨transient, rfl, written⟩
  · simp only [if_neg transient, Outcome.bind_eq_ok, Outcome.pure_eq_ok,
      Prod.mk.injEq] at succeeded
    rcases succeeded with ⟨⟨rebalanced, kind⟩, computed, _, _, ⟨last, event⟩, moved, rfl, rfl⟩
    refine .inr ⟨active, rebalanced, by omega, ?_, computed, (maybeTransition_eq_ok moved).1⟩
    cases account : inputs.stakeAccount with
    | malformed => simp [account, activeLamports] at decoded
    | notDelegated => simp [account, activeLamports] at decoded
    | stake delegatedLamports => simpa [account, activeLamports] using decoded

end Handlers

/-! ## Directed rebalance

The directed rebalance writes tracked balances and its own completion flag, and
nothing else of the state account. -/

/-- The states differ in the tracked balances at most. -/
def SameButBalances (state next : StewardStateV2) : Prop :=
  next = { state with validatorLamportBalances := next.validatorLamportBalances }

namespace SameButBalances

theorem refl (state : StewardStateV2) : SameButBalances state state := rfl

theorem trans {first second third : StewardStateV2} (left : SameButBalances first second)
    (right : SameButBalances second third) : SameButBalances first third := by
  unfold SameButBalances at *
  rw [right, left]

theorem write (state : StewardStateV2) (balances : Nat → Nat) :
    SameButBalances state { state with validatorLamportBalances := balances } := rfl

end SameButBalances

namespace Directed

variable {accounts next : Accounts} {listed row index : Nat}

theorem adjust_state
    (adjusted : adjustDirectedStakeForDepositsAndWithdrawals accounts listed row index =
      .ok next) :
    SameButBalances accounts.state next.state := by
  rcases adjust_moved adjusted with ⟨balances, _, _, rfl, _⟩
  exact .write _ _

end Directed

namespace RebalanceDirected

variable {environment : Environment} {inputs : Inputs} {accounts next : Accounts}
variable {row : Nat} {rebalanceType : RebalanceType}

theorem applyDecrease_state {index lamports : Nat}
    (applied : applyDecrease accounts index row lamports = .ok next) :
    SameButBalances accounts.state next.state := by
  simp only [applyDecrease, Outcome.bind_eq_ok] at applied
  rcases applied with ⟨stakeMeta, _, balance, _, applied⟩
  split at applied
  · simp only [Outcome.bind_eq_ok, Outcome.pure_eq_ok] at applied
    rcases applied with ⟨_, _, _, _, _, _, rfl⟩
    exact .write _ _
  · cases applied
    exact .refl _

theorem applyIncrease_state {index lamports : Nat}
    (applied : applyIncrease accounts index row lamports = .ok next) :
    SameButBalances accounts.state next.state := by
  simp only [applyIncrease, Outcome.bind_eq_ok, Outcome.pure_eq_ok] at applied
  rcases applied with ⟨_, _, _, _, _, _, _, _, _, _, _, _, rfl⟩
  exact .write _ _

theorem apply_state (applied : apply inputs row accounts rebalanceType = .ok next) :
    SameButBalances accounts.state next.state := by
  cases rebalanceType with
  | decrease components =>
      simp only [apply, Outcome.bind_eq_ok, Outcome.pure_eq_ok] at applied
      rcases applied with ⟨_, _, decreased, written, rfl⟩
      have balances := applyDecrease_state written
      exact balances
  | increase lamports =>
      simp only [apply, Outcome.bind_eq_ok] at applied
      rcases applied with ⟨_, _, written⟩
      exact applyIncrease_state written
  | none =>
      cases applied
      exact .refl _

/-- The state of a directed crank before its transition: new balances, and the
completion flag set or kept. -/
def DirectedWork (state next : StewardStateV2) : Prop :=
  ∃ (balances : Nat → Nat) (complete : Bool), next = { state with
    validatorLamportBalances := balances
    statusFlags := if complete then state.statusFlags ||| rebalanceDirectedCompleteFlag
      else state.statusFlags }

theorem DirectedWork.of_balances {state middle : StewardStateV2}
    (changed : SameButBalances state middle) : DirectedWork state middle :=
  ⟨middle.validatorLamportBalances, false, changed⟩

theorem DirectedWork.trans {first second third : StewardStateV2} (left : DirectedWork first second)
    (right : DirectedWork second third) : DirectedWork first third := by
  rcases left with ⟨_, leftComplete, rfl⟩
  rcases right with ⟨balances, rightComplete, rfl⟩
  refine ⟨balances, leftComplete || rightComplete, ?_⟩
  cases leftComplete <;> cases rightComplete <;> simp [BitVec.or_assoc]

@[simp] theorem flagCompletion_stakeMeta (clock : Clock) (accounts : Accounts) :
    (flagCompletion clock accounts).stakeMeta = accounts.stakeMeta := by
  unfold flagCompletion
  split <;> rfl

@[simp] theorem flagCompletion_balances (clock : Clock) (accounts : Accounts) :
    (flagCompletion clock accounts).state.validatorLamportBalances =
      accounts.state.validatorLamportBalances := by
  unfold flagCompletion
  split <;> rfl

@[simp] theorem flagCompletion_currentEpoch (clock : Clock) (accounts : Accounts) :
    (flagCompletion clock accounts).state.currentEpoch = accounts.state.currentEpoch := by
  unfold flagCompletion
  split <;> rfl

theorem flagCompletion_state (clock : Clock) (accounts : Accounts) :
    DirectedWork accounts.state (flagCompletion clock accounts).state := by
  unfold flagCompletion
  split
  · exact ⟨accounts.state.validatorLamportBalances, true, rfl⟩
  · exact .of_balances (.refl _)

theorem skipMissing_state {index : Nat}
    (skipped : skipMissing environment index accounts = .ok next) :
    ∃ middle, DirectedWork accounts.state middle ∧
      environment.transition middle = .ok next.state := by
  simp only [skipMissing, Outcome.bind_eq_ok, Outcome.pure_eq_ok] at skipped
  rcases skipped with ⟨stakeMeta, _, ⟨last, event⟩, moved, rfl⟩
  exact ⟨_, flagCompletion_state environment.clock { accounts with stakeMeta := stakeMeta },
    (maybeTransition_eq_ok moved).1⟩

theorem move_state
    (moved : move environment inputs row accounts = .ok (next, rebalanceType)) :
    ∃ middle, DirectedWork accounts.state middle ∧
      environment.transition middle = .ok next.state := by
  simp only [move, Outcome.bind_eq_ok, Outcome.pure_eq_ok, Prod.mk.injEq] at moved
  rcases moved with ⟨_, _, _, _, _, _, kind, _, applied, written, stakeMeta, _,
    ⟨last, event⟩, transitioned, rfl, rfl⟩
  have balances := apply_state written
  exact ⟨_, (DirectedWork.of_balances balances).trans
      (flagCompletion_state environment.clock { applied with stakeMeta := stakeMeta }),
    (maybeTransition_eq_ok transitioned).1⟩

/-- Once its validator is found, a call may leave the state right after the
reconciliation, and otherwise moves stake. -/
theorem rebalanceFound_cases
    (found : rebalanceFound environment inputs row accounts = .ok (next, rebalanceType)) :
    ∃ listed transient adjusted,
      stakeLamportsAtValidatorListIndex environment.validatorList row = .ok (listed, transient) ∧
      Directed.adjustDirectedStakeForDepositsAndWithdrawals accounts listed row
        inputs.directedStakeMetaIndex = .ok adjusted ∧
      (rebalanceType = .none ∧ next.stakeMeta =
          (flagCompletion environment.clock adjusted).stakeMeta ∧
          environment.transition (flagCompletion environment.clock adjusted).state =
            .ok next.state ∨
        move environment inputs row (flagCompletion environment.clock adjusted) =
          .ok (next, rebalanceType)) := by
  simp only [rebalanceFound, Outcome.bind_eq_ok, require_eq_ok] at found
  rcases found with ⟨⟨listed, transient⟩, read, adjusted, reconciled, _, tag, ⟨last, event⟩,
    moved, found⟩
  refine ⟨listed, transient, adjusted, read, reconciled, ?_⟩
  have flaggedTag : (flagCompletion environment.clock adjusted).state.stateTag =
      .rebalanceDirected := by
    rcases flagCompletion_state environment.clock adjusted with ⟨_, _, flagged⟩
    rw [flagged]
    exact tag
  generalize flagCompletion environment.clock adjusted = flagged at *
  rcases maybeTransition_eq_ok moved with ⟨transitioned, reported⟩
  by_cases emitted : event.isSome = true
  · simp only [emitted, if_true, Outcome.pure_eq_ok, Prod.mk.injEq] at found
    rcases found with ⟨rfl, rfl⟩
    exact .inl ⟨rfl, rfl, transitioned⟩
  · have same : flagged.state.stateTag = last.stateTag := by
      by_contra changed
      exact emitted (reported.mpr changed)
    have kept := transition_silent transitioned same (by simp [flaggedTag])
    simp only [emitted, Bool.false_eq_true, if_false] at found
    subst last
    exact .inr found

theorem rebalanceFound_state
    (found : rebalanceFound environment inputs row accounts = .ok (next, rebalanceType)) :
    ∃ middle, DirectedWork accounts.state middle ∧
      environment.transition middle = .ok next.state := by
  rcases rebalanceFound_cases found with ⟨listed, transient, adjusted, _, reconciled, outcome⟩
  have reached : DirectedWork accounts.state (flagCompletion environment.clock adjusted).state :=
    (DirectedWork.of_balances (Directed.adjust_state reconciled)).trans
      (flagCompletion_state environment.clock adjusted)
  rcases outcome with ⟨_, _, transitioned⟩ | moved
  · exact ⟨_, reached, transitioned⟩
  · rcases move_state moved with ⟨middle, worked, final⟩
    exact ⟨middle, reached.trans worked, final⟩

theorem handler_state
    (succeeded : handler environment inputs accounts = .ok (next, rebalanceType)) :
    ∃ middle, DirectedWork accounts.state middle ∧
      environment.transition middle = .ok next.state := by
  simp only [handler, Outcome.bind_eq_ok] at succeeded
  rcases succeeded with ⟨target, _, _, _, _, _, succeeded⟩
  split at succeeded
  · simp only [Outcome.bind_eq_ok, Outcome.pure_eq_ok, Prod.mk.injEq] at succeeded
    rcases succeeded with ⟨skipped, written, rfl, rfl⟩
    exact skipMissing_state written
  · exact rebalanceFound_state succeeded

end RebalanceDirected

/-! ## Upkeep -/

/-- One action of an instruction that is not a crank. A removal finds the rows of
the state account as the transaction did. -/
inductive Upkeep (transaction : Transaction) (origin : StewardStateV2) :
    StewardStateV2 → StewardStateV2 → Prop
  | balances {state} (balances : Nat → Nat) :
      Upkeep transaction origin state { state with validatorLamportBalances := balances }
  | unsetMaintenance {state} :
      Upkeep transaction origin state (state.unsetFlag epochMaintenanceFlag)
  | remove {state next} (stakeMeta nextMeta : DirectedStakeMeta) (index : Nat) :
      transaction.instruction.removedIndex = some index →
      state = { origin with statusFlags := state.statusFlags } →
      removeValidator ⟨state, stakeMeta⟩ index = .ok ⟨next, nextMeta⟩ →
      Upkeep transaction origin state next
  | openEpoch {state} (stakeMeta : DirectedStakeMeta) :
      Upkeep transaction origin state
        (EpochMaintenance.openEpoch transaction.environment.clock ⟨state, stakeMeta⟩).state
  | mark {state} (toRemove forImmediateRemoval : BitMask) :
      Upkeep transaction origin state { state with
        validatorsToRemove := toRemove
        validatorsForImmediateRemoval := forImmediateRemoval }
  | add {state next} :
      transaction.instruction.addsValidator = true →
      state.incrementValidatorToAdd = .ok next → Upkeep transaction origin state next
  | reset {state next} :
      ResetStewardState.handler transaction.environment state = .ok next →
      Upkeep transaction origin state next

section Upkeep

open Relation (ReflTransGen)

variable {transaction : Transaction} {origin : StewardStateV2} {accounts next : Accounts}

theorem EpochMaintenance.handler_upkeep {lastUpdateEpoch : Nat} {toRemove : Option Nat}
    (requested : transaction.instruction.removedIndex = toRemove)
    (succeeded : EpochMaintenance.handler transaction.environment lastUpdateEpoch toRemove
      accounts = .ok next) :
    ReflTransGen (Upkeep transaction accounts.state) accounts.state next.state := by
  simp only [handler, Outcome.bind_eq_ok] at succeeded
  rcases succeeded with ⟨_, _, _, _, _, _, _, _, _, _, _, _, _, _, removed, removing,
    succeeded⟩
  have unset : ReflTransGen (Upkeep transaction accounts.state) accounts.state
      (accounts.state.unsetFlag epochMaintenanceFlag) := .single .unsetMaintenance
  have reached : ReflTransGen (Upkeep transaction accounts.state) accounts.state
      removed.state := by
    cases toRemove with
    | none =>
        cases removing
        exact unset
    | some index =>
        rcases removed with ⟨state, stakeMeta⟩
        exact unset.tail (.remove accounts.stakeMeta stakeMeta index requested rfl removing)
  split at succeeded
  · cases succeeded
    exact reached.tail (.openEpoch removed.stakeMeta)
  · cases succeeded
    exact reached

theorem InstantRemoveValidator.handler_upkeep {lastUpdateEpoch index : Nat}
    (requested : transaction.instruction.removedIndex = some index)
    (succeeded : InstantRemoveValidator.handler transaction.environment lastUpdateEpoch index
      accounts = .ok next) :
    ReflTransGen (Upkeep transaction accounts.state) accounts.state next.state := by
  simp only [handler, Outcome.bind_eq_ok] at succeeded
  rcases succeeded with ⟨_, _, _, _, _, _, _, _, _, _, _, _, _, _, _, _, _, _, _, _, removing⟩
  rcases next with ⟨state, stakeMeta⟩
  exact .single (.remove accounts.stakeMeta stakeMeta index requested rfl removing)

theorem AdminMarkForRemoval.handler_upkeep {state next : StewardStateV2} {index : Nat}
    {markForRemoval immediate : Bool}
    (succeeded : AdminMarkForRemoval.handler index markForRemoval immediate state = .ok next) :
    Upkeep transaction origin state next := by
  cases immediate with
  | true =>
      simp only [handler, if_true, Outcome.bind_eq_ok, Outcome.pure_eq_ok] at succeeded
      rcases succeeded with ⟨mask, _, rfl⟩
      exact .mark state.validatorsToRemove mask
  | false =>
      simp only [handler, Bool.false_eq_true, if_false, Outcome.bind_eq_ok,
        Outcome.pure_eq_ok] at succeeded
      rcases succeeded with ⟨mask, _, rfl⟩
      exact .mark mask state.validatorsForImmediateRemoval

theorem AutoAddValidatorToPool.handler_upkeep {state next : StewardStateV2}
    {eligibility invoke : Result Unit}
    (adds : transaction.instruction.addsValidator = true)
    (succeeded : AutoAddValidatorToPool.handler transaction.environment eligibility invoke
      state = .ok next) :
    Upkeep transaction origin state next := by
  simp only [handler, Outcome.bind_eq_ok, Outcome.pure_eq_ok] at succeeded
  rcases succeeded with ⟨_, _, _, _, _, _, _, _, _, added, _, _, rfl⟩
  exact .add adds added

theorem AddValidatorToPool.handler_upkeep {state next : StewardStateV2} {invoke : Result Unit}
    (adds : transaction.instruction.addsValidator = true)
    (succeeded : AddValidatorToPool.handler transaction.environment invoke state = .ok next) :
    Upkeep transaction origin state next := by
  simp only [handler, Outcome.bind_eq_ok, Outcome.pure_eq_ok] at succeeded
  rcases succeeded with ⟨_, _, _, _, _, added, _, _, rfl⟩
  exact .add adds added

end Upkeep

/-! ## Transactions -/

namespace Transaction

open Relation (ReflTransGen)

variable {transaction : Transaction} {accounts next : Accounts}

/-- A successful crank does its work and then tries one transition, except that a
rebalance that skips a validator tries none. -/
theorem process_crank (crank : transaction.instruction.isCrank = true)
    (succeeded : transaction.process accounts = .ok next) :
    ∃ middle, Work transaction accounts.state middle ∧
      ((next.state = middle ∧ accounts.state.stateTag = .rebalance) ∨
        transaction.environment.transition middle = .ok next.state) := by
  cases instruction : transaction.instruction with
  | computeScore inputs =>
      simp only [process, instruction, Accounts.withState_eq_ok] at succeeded
      rcases ComputeScore.handler_cases succeeded.1 with ⟨checked, bounded, cases⟩
      rcases cases with ⟨_, moved⟩ | ⟨tag, scored, components, computed, moved⟩
      · exact ⟨_, .keep, .inr moved⟩
      · exact ⟨scored, .score inputs components instruction tag checked bounded computed,
          .inr moved⟩
  | computeDelegations =>
      simp only [process, instruction, Accounts.withState_eq_ok] at succeeded
      rcases ComputeDelegations.handler_cases succeeded.1 with ⟨tag, _, delegated, computed,
        moved⟩
      exact ⟨delegated, .delegate tag computed, .inr moved⟩
  | idle =>
      simp only [process, instruction, Accounts.withState_eq_ok] at succeeded
      exact ⟨_, .keep, .inr (Idle.handler_cases succeeded.1).2.2⟩
  | computeInstantUnstake inputs =>
      simp only [process, instruction, Accounts.withState_eq_ok] at succeeded
      rcases ComputeInstantUnstake.handler_cases succeeded.1 with
        moved | ⟨tag, computed, verdict, worked, moved⟩
      · exact ⟨_, .keep, .inr moved⟩
      · exact ⟨computed, .instantUnstake inputs verdict tag worked, .inr moved⟩
  | rebalance inputs =>
      simp only [process, instruction, Accounts.withState_eq_ok, Outcome.map_eq_ok] at succeeded
      rcases succeeded with ⟨⟨⟨state, rebalanceType⟩, handled, rfl⟩, _⟩
      rcases Rebalance.handler_cases handled with ⟨moved, _⟩ | ⟨tag, _, moving⟩
      · exact ⟨_, .keep, .inr moved⟩
      · rcases (Rebalance.move_cases moving).2 with
          ⟨_, _, marked⟩ | ⟨active, rebalanced, _, _, computed, moved⟩
        · exact ⟨_, .skipTransient _ tag marked, .inl ⟨rfl, tag⟩⟩
        · exact ⟨rebalanced, .rebalance _ rebalanceType tag computed, .inr moved⟩
  | rebalanceDirected inputs =>
      simp only [process, instruction, Outcome.map_eq_ok] at succeeded
      rcases succeeded with ⟨⟨last, rebalanceType⟩, handled, rfl⟩
      rcases RebalanceDirected.handler_state handled with
        ⟨middle, ⟨balances, complete, rfl⟩, moved⟩
      exact ⟨_, .directed balances complete, .inr moved⟩
  | epochMaintenance _ _ => simp [instruction, Instruction.isCrank] at crank
  | instantRemoveValidator _ _ => simp [instruction, Instruction.isCrank] at crank
  | adminMarkForRemoval _ _ _ => simp [instruction, Instruction.isCrank] at crank
  | autoAddValidatorToPool _ _ => simp [instruction, Instruction.isCrank] at crank
  | addValidatorToPool _ => simp [instruction, Instruction.isCrank] at crank
  | resetStewardState => simp [instruction, Instruction.isCrank] at crank
  | resetValidatorLamportBalances => simp [instruction, Instruction.isCrank] at crank
  | copyDirectedStakeTargets _ _ _ => simp [instruction, Instruction.isCrank] at crank
  | syncDirectedStakeLamports => simp [instruction, Instruction.isCrank] at crank
  | migrateDirectedToAlgorithmic => simp [instruction, Instruction.isCrank] at crank

/-- Any other instruction is a sequence of upkeep actions. -/
theorem process_upkeep (notCrank : transaction.instruction.isCrank = false)
    (succeeded : transaction.process accounts = .ok next) :
    ReflTransGen (Upkeep transaction accounts.state) accounts.state next.state := by
  cases instruction : transaction.instruction with
  | computeScore _ => simp [instruction, Instruction.isCrank] at notCrank
  | computeDelegations => simp [instruction, Instruction.isCrank] at notCrank
  | idle => simp [instruction, Instruction.isCrank] at notCrank
  | computeInstantUnstake _ => simp [instruction, Instruction.isCrank] at notCrank
  | rebalance _ => simp [instruction, Instruction.isCrank] at notCrank
  | rebalanceDirected _ => simp [instruction, Instruction.isCrank] at notCrank
  | epochMaintenance _ _ =>
      simp only [process, instruction] at succeeded
      exact EpochMaintenance.handler_upkeep (by rw [instruction]; rfl) succeeded
  | instantRemoveValidator _ _ =>
      simp only [process, instruction] at succeeded
      exact InstantRemoveValidator.handler_upkeep (by rw [instruction]; rfl) succeeded
  | adminMarkForRemoval _ _ _ =>
      simp only [process, instruction, Accounts.withState_eq_ok] at succeeded
      exact .single (AdminMarkForRemoval.handler_upkeep succeeded.1)
  | autoAddValidatorToPool _ _ =>
      simp only [process, instruction, Accounts.withState_eq_ok] at succeeded
      exact .single (AutoAddValidatorToPool.handler_upkeep (by rw [instruction]; rfl) succeeded.1)
  | addValidatorToPool _ =>
      simp only [process, instruction, Accounts.withState_eq_ok] at succeeded
      exact .single (AddValidatorToPool.handler_upkeep (by rw [instruction]; rfl) succeeded.1)
  | resetStewardState =>
      simp only [process, instruction, Accounts.withState_eq_ok] at succeeded
      exact .single (.reset succeeded.1)
  | resetValidatorLamportBalances =>
      simp only [process, instruction, Accounts.withState_eq_ok, Except.ok.injEq] at succeeded
      rw [← succeeded.1]
      exact .single (.balances _)
  | copyDirectedStakeTargets _ _ _ =>
      simp only [process, instruction, Accounts.withStakeMeta_eq_ok] at succeeded
      rw [succeeded.2]
  | syncDirectedStakeLamports =>
      simp only [process, instruction, Accounts.withStakeMeta_eq_ok] at succeeded
      rw [succeeded.2]
  | migrateDirectedToAlgorithmic =>
      simp only [process, instruction, Accounts.withStakeMeta_eq_ok] at succeeded
      rw [succeeded.2]

/-- A property of the state account is kept by a transaction once the work of
cranks, the transition function and every upkeep action keep it. Between the work
and the transition another property may stand in for it. -/
theorem process_preserves_between (Invariant Between : StewardStateV2 → Prop)
    (work : ∀ middle, Invariant accounts.state → Work transaction accounts.state middle →
      Between middle)
    (skip : ∀ middle, accounts.state.stateTag = .rebalance →
      Work transaction accounts.state middle → Between middle → Invariant middle)
    (move : ∀ progress middle last, Between middle →
      epochProgress transaction.environment.clock transaction.environment.epochSchedule =
        .ok progress →
      Move transaction.environment.clock transaction.environment.config.parameters progress
        middle last → Invariant last)
    (upkeep : ∀ middle last, Invariant middle →
      Upkeep transaction accounts.state middle last → Invariant last)
    (holds : Invariant accounts.state)
    (succeeded : transaction.process accounts = .ok next) : Invariant next.state := by
  cases crank : transaction.instruction.isCrank with
  | true =>
      rcases process_crank crank succeeded with ⟨middle, worked, ⟨unchanged, tag⟩ | moved⟩
      · exact unchanged ▸ skip middle tag worked (work middle holds worked)
      · rcases move_of_transition moved with ⟨progress, measured, moving⟩
        exact move progress middle next.state (work middle holds worked) measured moving
  | false =>
      have actions := process_upkeep crank succeeded
      generalize next.state = last at actions
      induction actions with
      | refl => exact holds
      | tail _ action induction => exact upkeep _ _ induction action

theorem process_preserves (Invariant : StewardStateV2 → Prop)
    (work : ∀ middle, Invariant accounts.state → Work transaction accounts.state middle →
      Invariant middle)
    (move : ∀ progress middle last, Invariant middle →
      epochProgress transaction.environment.clock transaction.environment.epochSchedule =
        .ok progress →
      Move transaction.environment.clock transaction.environment.config.parameters progress
        middle last → Invariant last)
    (upkeep : ∀ middle last, Invariant middle →
      Upkeep transaction accounts.state middle last → Invariant last)
    (holds : Invariant accounts.state)
    (succeeded : transaction.process accounts = .ok next) : Invariant next.state :=
  process_preserves_between Invariant Invariant work (fun _ _ _ kept => kept) move upkeep
    holds succeeded

end Transaction

end Stakenet.Steward

import Stakenet.Steward.RebalanceEffect
import Stakenet.Steward.RemovalEffect
import Stakenet.Steward.ScoringEffect
import Stakenet.Steward.Steps

/-! The order of phases within an epoch.

A phase is a state tag together with the flags the machine holds in it. Cranks
keep a phase or move to the one that follows it. -/

namespace Stakenet.Steward

open Stakenet.Execution

/-! ## Control

Transactions touch tag, flags and epochs in a few ways only. -/

/-- What the work of a crank does to the control fields. -/
theorem Work.control_cases {transaction : Transaction} {state middle : StewardStateV2}
    (worked : Work transaction state middle) :
    middle.control = state.control ∨
      (state.stateTag = .computeScores ∧ ∃ reset,
        CycleReset state transaction.environment.clock.epoch
          transaction.environment.config.parameters.numEpochsBetweenScoring reset ∧
        middle.control = reset.control) ∨
      (state.stateTag = .computeDelegations ∧
        transaction.environment.clock.epoch < state.nextCycleEpoch ∧
        middle.control = (state.setFlag computeDelegationsFlag).control) ∨
      middle.control = (state.setFlag rebalanceDirectedCompleteFlag).control := by
  cases worked with
  | keep => exact .inl rfl
  | score inputs components _ tag _ _ computed =>
      rcases computeScore_control computed with kept | reset
      · exact .inl kept
      · exact .inr (.inl ⟨tag, reset⟩)
  | delegate tag computed =>
      rcases computeDelegations_cases computed with ⟨_, running, _, _, _, _, _, rfl⟩
      exact .inr (.inr (.inl ⟨tag, running, rfl⟩))
  | instantUnstake inputs verdict _ computed =>
      exact .inl (congrArg (·.control) (computeInstantUnstake_others computed))
  | rebalance call rebalanceType _ rebalancing => exact .inl (rebalance_control rebalancing)
  | skipTransient index _ marked => exact .inl (markProgress_control marked)
  | directed balances complete =>
      cases complete with
      | true => exact .inr (.inr (.inr rfl))
      | false => exact .inl rfl

/-- Cranks do their work within a state and an epoch. -/
theorem Work.steady {transaction : Transaction} {state middle : StewardStateV2}
    (worked : Work transaction state middle) :
    middle.stateTag = state.stateTag ∧ middle.currentEpoch = state.currentEpoch := by
  have same : middle.control.stateTag = state.control.stateTag ∧
      middle.control.currentEpoch = state.control.currentEpoch := by
    rcases worked.control_cases with
      kept | ⟨_, reset, restarted, kept⟩ | ⟨_, _, kept⟩ | kept
    · simp [kept]
    · rw [kept]
      exact ⟨congrArg (·.stateTag) restarted.others, congrArg (·.currentEpoch) restarted.others⟩
    · simp [kept]
    · simp [kept]
  exact same

/-- What an upkeep action does to the control fields. -/
theorem Upkeep.control_cases {transaction : Transaction} {origin state next : StewardStateV2}
    (action : Upkeep transaction origin state next) :
    next.control = state.control ∨
      next.control = (state.unsetFlag epochMaintenanceFlag).control ∨
      (∃ stakeMeta, next.control =
        (EpochMaintenance.openEpoch transaction.environment.clock
          ⟨state, stakeMeta⟩).state.control) ∨
      (next.stateTag = .rebalanceDirected ∧ next.statusFlags = 0) := by
  cases action with
  | balances _ => exact .inl rfl
  | unsetMaintenance => exact .inr (.inl rfl)
  | remove stakeMeta nextMeta index _ _ removing =>
      exact .inl (removed_of_removeValidator removing).control
  | openEpoch stakeMeta => exact .inr (.inr (.inl ⟨stakeMeta, rfl⟩))
  | mark _ _ => exact .inl rfl
  | add _ added =>
      simp only [StewardStateV2.incrementValidatorToAdd] at added
      split at added
      · cases added
        exact .inl rfl
      · simp at added
  | reset resetting =>
      simp only [ResetStewardState.handler, Outcome.bind_eq_ok, Outcome.pure_eq_ok] at resetting
      rcases resetting with ⟨_, _, rfl⟩
      exact .inr (.inr (.inr ⟨rfl, rfl⟩))

/-- A due cycle drops the first two flags. -/
theorem rolledOver_hasFlag (state : StewardStateV2) (clock : Clock) {bit : Nat}
    (bounded : bit < 32) :
    (state.rolledOver clock).hasFlag (flagAt bit) =
      (state.hasFlag (flagAt bit) && !(decide (state.nextCycleEpoch ≤ clock.epoch) &&
        (decide (bit = 0) || decide (bit = 1)))) := by
  simp only [StewardStateV2.hasFlag_eq, StewardStateV2.rollOverCycle]
  split
  case isTrue due =>
      simp only [StewardStateV2.unsetFlag_statusFlags, flagSet_and_not _ _ _ bounded, due]
      simp [Bool.and_assoc]
  case isFalse running => simp [running]

@[simp] theorem rollOverCycle_nextCycleEpoch (state : StewardStateV2) (epoch : Nat) :
    (state.rollOverCycle epoch).nextCycleEpoch = state.nextCycleEpoch :=
  congrArg (·.nextCycleEpoch) (state.rollOverCycle_others epoch)

@[simp] theorem rollOverCycle_currentEpoch (state : StewardStateV2) (epoch : Nat) :
    (state.rollOverCycle epoch).currentEpoch = state.currentEpoch :=
  congrArg (·.currentEpoch) (state.rollOverCycle_others epoch)

@[simp] theorem rollOverCycle_stateTag (state : StewardStateV2) (epoch : Nat) :
    (state.rollOverCycle epoch).stateTag = state.stateTag :=
  congrArg (·.stateTag) (state.rollOverCycle_others epoch)

/-! ## Phases -/

inductive Phase
  | directed
  | idleBefore
  | scoring
  | delegating
  | idleBetween
  | unstaking
  | rebalancing
  | idleAfter
  deriving DecidableEq, Repr

namespace Phase

def tag : Phase → StewardStateEnum
  | directed => .rebalanceDirected
  | idleBefore => .idle
  | scoring => .computeScores
  | delegating => .computeDelegations
  | idleBetween => .idle
  | unstaking => .computeInstantUnstake
  | rebalancing => .rebalance
  | idleAfter => .idle

/-- Scoring is skipped while the delegations of the cycle stand. -/
inductive Follows : Phase → Phase → Prop
  | directedComplete : Follows directed idleBefore
  | startScoring : Follows idleBefore scoring
  | skipScoring : Follows idleBefore unstaking
  | scoresComplete : Follows scoring delegating
  | delegationsComplete : Follows delegating idleBetween
  | startInstantUnstake : Follows idleBetween unstaking
  | instantUnstakeComplete : Follows unstaking rebalancing
  | rebalanceComplete : Follows rebalancing idleAfter

/-- What may still come in the epoch. -/
def paths : Phase → List (List Phase)
  | directed =>
      [[idleBefore, unstaking, rebalancing, idleAfter],
        [idleBefore, scoring, delegating, idleBetween, unstaking, rebalancing, idleAfter]]
  | idleBefore =>
      [[unstaking, rebalancing, idleAfter],
        [scoring, delegating, idleBetween, unstaking, rebalancing, idleAfter]]
  | scoring => [[delegating, idleBetween, unstaking, rebalancing, idleAfter]]
  | delegating => [[idleBetween, unstaking, rebalancing, idleAfter]]
  | idleBetween => [[unstaking, rebalancing, idleAfter]]
  | unstaking => [[rebalancing, idleAfter]]
  | rebalancing => [[idleAfter]]
  | idleAfter => [[]]

/-- The phases after the delegations of the cycle are made. -/
def delegated : Phase → Bool
  | idleBetween => true
  | unstaking => true
  | rebalancing => true
  | idleAfter => true
  | _ => false

/-- The phases that no longer wait for a due cycle to roll over. -/
def rolled : Phase → Bool
  | directed => false
  | idleBefore => false
  | _ => true

end Phase

/-- The tag and flags of a phase, in the epoch of the state account. -/
structure InPhase (phase : Phase) (control : Control) : Prop where
  tag : control.stateTag = phase.tag
  notAborted : flagSet control.statusFlags resetToIdleFlag = false
  directed : phase ≠ .directed →
    flagSet control.statusFlags rebalanceDirectedCompleteFlag = true
  loop : flagSet control.statusFlags rebalanceFlag = decide (phase = .idleAfter)
  delegated : phase.delegated = true →
    flagSet control.statusFlags computeDelegationsFlag = true
  current : phase.rolled = true → flagSet control.statusFlags computeDelegationsFlag = true →
    control.currentEpoch < control.nextCycleEpoch

namespace Phase

theorem eq_scoring {phase : Phase} (tagged : phase.tag = .computeScores) :
    phase = .scoring := by
  cases phase <;> simp_all [tag]

theorem eq_delegating {phase : Phase} (tagged : phase.tag = .computeDelegations) :
    phase = .delegating := by
  cases phase <;> simp_all [tag]

theorem eq_idle {phase : Phase} (tagged : phase.tag = .idle) :
    phase = .idleBefore ∨ phase = .idleBetween ∨ phase = .idleAfter := by
  cases phase <;> simp_all [tag]

theorem eq_unstaking {phase : Phase} (tagged : phase.tag = .computeInstantUnstake) :
    phase = .unstaking := by
  cases phase <;> simp_all [tag]

theorem eq_rebalancing {phase : Phase} (tagged : phase.tag = .rebalance) :
    phase = .rebalancing := by
  cases phase <;> simp_all [tag]

theorem eq_directed {phase : Phase} (tagged : phase.tag = .rebalanceDirected) :
    phase = .directed := by
  cases phase <;> simp_all [tag]

end Phase

namespace InPhase

variable {phase : Phase} {state middle next : StewardStateV2} {transaction : Transaction}

/-- The work of a crank stays within its phase. -/
theorem work (inPhase : InPhase phase state.control) (worked : Work transaction state middle)
    (epoch : transaction.environment.clock.epoch = state.currentEpoch) :
    InPhase phase middle.control := by
  rcases worked.control_cases with
    kept | ⟨scoring, reset, restarted, kept⟩ | ⟨delegating, running, kept⟩ | kept
  · rw [kept]
    exact inPhase
  · have flags : ∀ bit < 32, flagSet reset.statusFlags (flagAt bit) =
        (flagSet state.statusFlags (flagAt bit) && (decide (bit = 2) || decide (bit = 7))) :=
      restarted.flags
    have sameTag : reset.stateTag = state.stateTag := congrArg (·.stateTag) restarted.others
    have isScoring := Phase.eq_scoring (inPhase.tag.symm.trans scoring)
    subst isScoring
    rcases inPhase with ⟨tag, notAborted, directed, loop, delegated, current⟩
    rw [kept]
    constructor <;> simp_all [Phase.tag, Phase.delegated]
  · have isDelegating := Phase.eq_delegating (inPhase.tag.symm.trans delegating)
    subst isDelegating
    rcases inPhase with ⟨tag, notAborted, directed, loop, delegated, current⟩
    rw [kept]
    constructor <;> simp_all [Phase.tag, Phase.delegated]
  · rcases inPhase with ⟨tag, notAborted, directed, loop, delegated, current⟩
    rw [kept]
    constructor <;> simp_all

section Moves

variable {clock : Clock} {parameters : Parameters} {progress : ℚ}

/-- Rolling over a due cycle stays within the phase, and leaves no delegations of
an old cycle. -/
theorem rolledOver (inPhase : InPhase phase state.control)
    (epoch : clock.epoch = state.currentEpoch) :
    InPhase phase (state.rolledOver clock).control ∧
      ((state.rolledOver clock).hasFlag computeDelegationsFlag = true →
        state.currentEpoch < state.nextCycleEpoch) := by
  have flags : ∀ bit < 32, flagSet (state.rolledOver clock).statusFlags (flagAt bit) =
      (flagSet state.statusFlags (flagAt bit) && !(decide (state.nextCycleEpoch ≤ clock.epoch) &&
        (decide (bit = 0) || decide (bit = 1)))) :=
    fun bit bounded => rolledOver_hasFlag state clock bounded
  rcases inPhase with ⟨tag, notAborted, directed, loop, delegated, current⟩
  constructor
  · constructor
    case delegated =>
        intro isDelegated
        have flagged := delegated isDelegated
        have running := current (by cases phase <;> simp_all [Phase.delegated, Phase.rolled])
          flagged
        simp_all
    all_goals simp_all
  · intro flagged
    rw [StewardStateV2.hasFlag_eq, flags 1 (by decide)] at flagged
    simp at flagged
    omega

/-- A transition out of `Idle` starts the work that is due, or waits. -/
theorem move_idle (inPhase : InPhase phase state.control) (tag : state.stateTag = .idle)
    (epoch : clock.epoch = state.currentEpoch)
    (ordered : parameters.instantUnstakeEpochProgress ≤ progress →
      parameters.computeScoreEpochProgress ≤ progress)
    (moved : Move clock parameters progress state next) :
    ∃ later, (later = phase ∨ phase.Follows later) ∧ InPhase later next.control := by
  rcases inPhase.rolledOver epoch with ⟨⟨_, notAborted, directed, loop, delegated, current⟩,
    fresh⟩
  have idle := Phase.eq_idle (inPhase.tag.symm.trans tag)
  have notDirected : phase ≠ .directed := by rcases idle with rfl | rfl | rfl <;> decide
  cases moved with
  | startScoring _ complete pending late =>
      have isBefore : phase = .idleBefore := by
        rcases idle with rfl | rfl | rfl
        · rfl
        · simp_all [StewardStateV2.hasFlag_eq, Phase.delegated]
        · simp_all [StewardStateV2.hasFlag_eq, Phase.delegated]
      subst isBefore
      refine ⟨.scoring, .inr .startScoring, ?_⟩
      constructor <;> simp_all [StewardStateV2.hasFlag_eq, Phase.tag, Phase.delegated]
  | startInstantUnstake _ skipped pending late =>
      have flagged : (state.rolledOver clock).hasFlag computeDelegationsFlag = true := by
        rcases skipped with incomplete | computed | early
        · simp_all [StewardStateV2.hasFlag_eq]
        · exact computed
        · exact absurd (ordered late) (not_le.mpr early)
      have followed : phase.Follows .unstaking := by
        rcases idle with rfl | rfl | rfl
        · exact .skipScoring
        · exact .startInstantUnstake
        · simp_all [StewardStateV2.hasFlag_eq]
      refine ⟨.unstaking, .inr followed, ⟨rfl, ?_, ?_, ?_, ?_, ?_⟩⟩
      · simp
      · simpa using directed notDirected
      · simpa [StewardStateV2.hasFlag_eq] using pending
      · intro _
        simpa [StewardStateV2.hasFlag_eq] using flagged
      · intro _ _
        simpa using fresh flagged
  | waitBeforeLoop _ pending =>
      refine ⟨phase, .inl rfl, ⟨?_, ?_, ?_, ?_, ?_, ?_⟩⟩
      · simpa using inPhase.tag
      · simp
      · simpa using directed
      · simpa using loop
      · simpa using delegated
      · simpa using current
  | waitAfterLoop _ completed =>
      refine ⟨phase, .inl rfl, ⟨?_, ?_, ?_, ?_, ?_, ?_⟩⟩
      · simpa using inPhase.tag
      · simpa using notAborted
      · simpa using directed
      · simpa using loop
      · simpa using delegated
      · simpa using current
  | stay notIdle => exact absurd tag notIdle
  | scoresComplete other => simp [tag] at other
  | delegationsComplete other => simp [tag] at other
  | instantUnstakeComplete other => simp [tag] at other
  | rebalanceAborted other => simp [tag] at other
  | rebalanceComplete other => simp [tag] at other
  | directedComplete other => simp [tag] at other
  | directedTimeout other => simp [tag] at other

/-- A transition keeps the phase or moves on to the next one. -/
theorem move (inPhase : InPhase phase state.control)
    (epoch : clock.epoch = state.currentEpoch)
    (ordered : parameters.instantUnstakeEpochProgress ≤ progress →
      parameters.computeScoreEpochProgress ≤ progress)
    (moved : Move clock parameters progress state next) :
    ∃ later, (later = phase ∨ phase.Follows later) ∧ InPhase later next.control := by
  by_cases idle : state.stateTag = .idle
  · exact inPhase.move_idle idle epoch ordered moved
  have tag := inPhase.tag
  rcases inPhase with ⟨_, notAborted, directed, loop, delegated, current⟩
  cases moved with
  | stay => exact ⟨phase, .inl rfl, tag, notAborted, directed, loop, delegated, current⟩
  | scoresComplete scoring =>
      have isScoring := Phase.eq_scoring (tag.symm.trans scoring)
      subst isScoring
      refine ⟨.delegating, .inr .scoresComplete, ?_⟩
      constructor <;> simp_all [Phase.tag, Phase.delegated, Phase.rolled]
  | delegationsComplete delegating computed =>
      have isDelegating := Phase.eq_delegating (tag.symm.trans delegating)
      subst isDelegating
      refine ⟨.idleBetween, .inr .delegationsComplete, ?_⟩
      constructor <;> simp_all [StewardStateV2.hasFlag_eq, Phase.tag, Phase.rolled]
  | instantUnstakeComplete unstaking =>
      have isUnstaking := Phase.eq_unstaking (tag.symm.trans unstaking)
      subst isUnstaking
      refine ⟨.rebalancing, .inr .instantUnstakeComplete, ?_⟩
      constructor <;> simp_all [Phase.tag, Phase.delegated, Phase.rolled]
  | rebalanceAborted rebalancing aborted => simp_all [StewardStateV2.hasFlag_eq]
  | rebalanceComplete rebalancing =>
      have isRebalancing := Phase.eq_rebalancing (tag.symm.trans rebalancing)
      subst isRebalancing
      refine ⟨.idleAfter, .inr .rebalanceComplete, ?_⟩
      constructor <;> simp_all [Phase.tag, Phase.delegated, Phase.rolled]
  | directedComplete rebalancing complete =>
      have isDirected := Phase.eq_directed (tag.symm.trans rebalancing)
      subst isDirected
      refine ⟨.idleBefore, .inr .directedComplete, ?_⟩
      constructor <;> simp_all [StewardStateV2.hasFlag_eq, Phase.tag, Phase.delegated, Phase.rolled]
  | directedTimeout rebalancing =>
      have isDirected := Phase.eq_directed (tag.symm.trans rebalancing)
      subst isDirected
      refine ⟨.idleBefore, .inr .directedComplete, ?_⟩
      constructor <;> simp_all [Phase.tag, Phase.delegated, Phase.rolled]
  | startScoring isIdle => exact absurd isIdle idle
  | startInstantUnstake isIdle => exact absurd isIdle idle
  | waitBeforeLoop isIdle => exact absurd isIdle idle
  | waitAfterLoop isIdle => exact absurd isIdle idle

end Moves

end InPhase

/-! ## Cranks within an epoch -/

/-- No transaction is processed past the start of instant unstaking but before
that of scoring. -/
def Transaction.OutsideGap (transaction : Transaction) : Prop :=
  ∀ progress,
    epochProgress transaction.environment.clock transaction.environment.epochSchedule =
      .ok progress →
    transaction.environment.config.parameters.instantUnstakeEpochProgress ≤ progress →
    transaction.environment.config.parameters.computeScoreEpochProgress ≤ progress

/-- A crank of the epoch the state account is in. -/
structure EpochCrank (accounts : Accounts) (transaction : Transaction) : Prop where
  crank : transaction.instruction.isCrank = true
  epoch : transaction.environment.clock.epoch = accounts.state.currentEpoch
  accepted : transaction.environment.config.parameters.Accepted
  ordered : transaction.environment.config.parameters.computeScoreEpochProgress ≤
    transaction.environment.config.parameters.instantUnstakeEpochProgress

theorem EpochCrank.outsideGap {accounts : Accounts} {transaction : Transaction}
    (condition : EpochCrank accounts transaction) : transaction.OutsideGap :=
  fun _ _ late => condition.ordered.trans late

/-- One crank, successful or not, keeps the phase or moves on to the next one. -/
theorem InPhase.execute {phase : Phase} {accounts : Accounts} {transaction : Transaction}
    (inPhase : InPhase phase accounts.state.control)
    (condition : EpochCrank accounts transaction) :
    ∃ later, (later = phase ∨ phase.Follows later) ∧
      InPhase later (execute accounts transaction).state.control := by
  rcases execute_cases accounts transaction with unchanged | succeeded
  · rw [unchanged]
    exact ⟨phase, .inl rfl, inPhase⟩
  rcases Transaction.process_crank condition.crank succeeded with ⟨middle, worked, cases⟩
  have atMiddle := inPhase.work worked condition.epoch
  rcases cases with ⟨unchanged, _⟩ | moved
  · rw [unchanged]
    exact ⟨phase, .inl rfl, atMiddle⟩
  · rcases move_of_transition moved with ⟨progress, measured, moved⟩
    exact atMiddle.move (condition.epoch.trans worked.steady.2.symm)
      (condition.outsideGap progress measured) moved

theorem Move.currentEpoch {clock : Clock} {parameters : Parameters} {progress : ℚ}
    {state next : StewardStateV2} (moved : Move clock parameters progress state next) :
    next.currentEpoch = state.currentEpoch := by
  cases moved <;> simp

/-- Only maintenance and resets change the epoch of the state account. -/
theorem execute_crank_currentEpoch {accounts : Accounts} {transaction : Transaction}
    (crank : transaction.instruction.isCrank = true) :
    (execute accounts transaction).state.currentEpoch = accounts.state.currentEpoch := by
  rcases execute_cases accounts transaction with unchanged | succeeded
  · rw [unchanged]
  · rcases Transaction.process_crank crank succeeded with ⟨middle, worked, ⟨unchanged, _⟩ | moved⟩
    · rw [unchanged]
      exact worked.steady.2
    · rcases move_of_transition moved with ⟨_, _, moved⟩
      exact moved.currentEpoch.trans worked.steady.2

/-- Any cranks in the epoch of the state account stay in it. -/
theorem epochCranks_of_environment {environment : Environment} {accounts : Accounts}
    {instructions : List Instruction} (cranks : instructions.all Instruction.isCrank = true)
    (epoch : environment.clock.epoch = accounts.state.currentEpoch)
    (accepted : environment.config.parameters.Accepted)
    (ordered : environment.config.parameters.computeScoreEpochProgress ≤
      environment.config.parameters.instantUnstakeEpochProgress) :
    EveryStep execute EpochCrank accounts
      (instructions.map fun instruction => ⟨environment, instruction⟩) := by
  induction instructions generalizing accounts with
  | nil => trivial
  | cons instruction rest induction =>
      simp only [List.all_cons, Bool.and_eq_true] at cranks
      refine ⟨⟨cranks.1, epoch, accepted, ordered⟩, induction cranks.2 ?_⟩
      rw [execute_crank_currentEpoch cranks.1]
      exact epoch

/-! ## Opening an epoch -/

/-- A freshly initialised steward, or one that was just reset. -/
inductive Initialized : Accounts → Prop
  | realloc {accounts} (clock : Clock) (config : Config) (validatorList : ValidatorList) :
      initialAccounts clock config validatorList = .ok accounts → Initialized accounts
  | reset {accounts} (environment : Environment) (previous : StewardStateV2) :
      ResetStewardState.handler environment previous = .ok accounts.state →
      Initialized accounts

/-- Either way no flag is set, directed stake comes first, and nothing is
delegated. -/
theorem Initialized.start {accounts : Accounts} (initialized : Initialized accounts) :
    accounts.state.stateTag = .rebalanceDirected ∧ accounts.state.statusFlags = 0 ∧
      accounts.state.validatorsAdded = 0 ∧ accounts.state.delegations = fun _ => .none := by
  cases initialized with
  | realloc clock config validatorList initial =>
      simp only [initialAccounts, ReallocState.handler, Outcome.bind_eq_ok,
        Outcome.pure_eq_ok] at initial
      rcases initial with ⟨_, ⟨_, _, rfl⟩, rfl⟩
      exact ⟨rfl, rfl, rfl, rfl⟩
  | reset environment previous resetting =>
      simp only [ResetStewardState.handler, Outcome.bind_eq_ok, Outcome.pure_eq_ok] at resetting
      rcases resetting with ⟨_, _, same⟩
      rw [← same]
      exact ⟨rfl, rfl, rfl, rfl⟩

/-- The flags that the machine relies on in every epoch: a rebalance is never
aborted, and directed stake is done once its state is left. -/
structure FlagsSound (control : Control) : Prop where
  notAborted : flagSet control.statusFlags resetToIdleFlag = false
  directed : control.stateTag ≠ .rebalanceDirected →
    flagSet control.statusFlags rebalanceDirectedCompleteFlag = true

namespace FlagsSound

variable {state middle next : StewardStateV2} {transaction : Transaction}

theorem of_initialized {accounts : Accounts} (initialized : Initialized accounts) :
    FlagsSound accounts.state.control := by
  rcases initialized.start with ⟨tag, flags, _⟩
  constructor <;> simp_all

theorem work (sound : FlagsSound state.control) (worked : Work transaction state middle) :
    FlagsSound middle.control := by
  rcases sound with ⟨notAborted, directed⟩
  rcases worked.control_cases with
    kept | ⟨scoring, reset, restarted, kept⟩ | ⟨delegating, running, kept⟩ | kept
  · rw [kept]
    exact ⟨notAborted, directed⟩
  · have flags : ∀ bit < 32, flagSet reset.statusFlags (flagAt bit) =
        (flagSet state.statusFlags (flagAt bit) && (decide (bit = 2) || decide (bit = 7))) :=
      restarted.flags
    have sameTag : reset.stateTag = state.stateTag := congrArg (·.stateTag) restarted.others
    rw [kept]
    constructor <;> simp_all
  · rw [kept]
    constructor <;> simp_all
  · rw [kept]
    constructor <;> simp_all

theorem rolledOver (sound : FlagsSound state.control) (clock : Clock) :
    FlagsSound (state.rolledOver clock).control := by
  have aborted := rolledOver_hasFlag state clock (show 16 < 32 by decide)
  have complete := rolledOver_hasFlag state clock (show 7 < 32 by decide)
  rcases sound with ⟨notAborted, directed⟩
  simp only [StewardStateV2.hasFlag_eq] at aborted complete
  constructor <;> simp_all

theorem move {clock : Clock} {parameters : Parameters} {progress : ℚ}
    (sound : FlagsSound state.control) (moved : Move clock parameters progress state next) :
    FlagsSound next.control := by
  have rolled := sound.rolledOver clock
  rcases sound with ⟨notAborted, directed⟩
  rcases rolled with ⟨rolledNotAborted, rolledDirected⟩
  cases moved with
  | stay => exact ⟨notAborted, directed⟩
  | directedComplete tag complete =>
      constructor <;> simp_all [StewardStateV2.hasFlag_eq]
  | _ => constructor <;> simp_all

theorem upkeep {origin : StewardStateV2} (sound : FlagsSound state.control)
    (action : Upkeep transaction origin state next) : FlagsSound next.control := by
  rcases sound with ⟨notAborted, directed⟩
  rcases action.control_cases with kept | kept | ⟨stakeMeta, kept⟩ | ⟨tag, flags⟩
  · rw [kept]
    exact ⟨notAborted, directed⟩
  · rw [kept]
    constructor <;> simp_all
  · rw [kept]
    constructor <;> simp_all [EpochMaintenance.openEpoch, StewardStateV2.unsetFlag_or]
  · constructor <;> simp_all

/-- Every transaction keeps the flags sound. -/
theorem execute {accounts : Accounts} (sound : FlagsSound accounts.state.control)
    (transaction : Transaction) :
    FlagsSound (Steward.execute accounts transaction).state.control := by
  rcases execute_cases accounts transaction with unchanged | succeeded
  · rw [unchanged]
    exact sound
  · exact Transaction.process_preserves (fun state => FlagsSound state.control)
      (fun _ holds worked => holds.work worked) (fun _ _ _ holds _ moved => holds.move moved)
      (fun _ _ holds action => holds.upkeep action) sound succeeded

end FlagsSound

/-- The call that completes the maintenance of an epoch. -/
def CompletesMaintenance (environment : Environment) (lastUpdateEpoch : Nat)
    (validatorIndexToRemove : Option Nat) (accounts opened : Accounts) : Prop :=
  EpochMaintenance.handler environment lastUpdateEpoch validatorIndexToRemove accounts =
      .ok opened ∧
    opened.state.currentEpoch = environment.clock.epoch

/-- It leaves the machine at the start of the first phase. -/
theorem InPhase.of_completesMaintenance {environment : Environment} {lastUpdateEpoch : Nat}
    {validatorIndexToRemove : Option Nat} {accounts opened : Accounts}
    (sound : FlagsSound accounts.state.control)
    (completed : CompletesMaintenance environment lastUpdateEpoch validatorIndexToRemove
      accounts opened) :
    InPhase .directed opened.state.control := by
  rcases completed with ⟨succeeded, epoch⟩
  simp only [EpochMaintenance.handler, Outcome.bind_eq_ok, require_eq_ok] at succeeded
  rcases succeeded with ⟨_, _, _, later, _, _, _, _, _, _, _, _, _, _, removed, removing,
    succeeded⟩
  have kept : removed.state.control =
      (accounts.state.unsetFlag epochMaintenanceFlag).control := by
    cases validatorIndexToRemove with
    | none =>
        cases removing
        rfl
    | some index => exact (removed_of_removeValidator removing).control
  have notAborted : flagSet removed.state.statusFlags resetToIdleFlag = false := by
    have flags : removed.state.control.statusFlags = _ := congrArg (·.statusFlags) kept
    simp only [StewardStateV2.control_statusFlags] at flags
    rw [flags]
    simpa using sound.notAborted
  split at succeeded
  · cases succeeded
    constructor <;> simp_all [EpochMaintenance.openEpoch, StewardStateV2.unsetFlag_or, Phase.tag,
      Phase.delegated, Phase.rolled]
  · -- An incomplete maintenance is still in an earlier epoch.
    cases succeeded
    have earlier : opened.state.currentEpoch = accounts.state.currentEpoch :=
      congrArg (·.currentEpoch) kept
    omega

/-! ## The order of phases -/

/-- The state tags of an epoch in which no scoring is due. -/
def tagsWithoutScoring : List StewardStateEnum :=
  [.rebalanceDirected, .idle, .computeInstantUnstake, .rebalance, .idle]

/-- The state tags of an epoch that starts a cycle. -/
def tagsWithScoring : List StewardStateEnum :=
  [.rebalanceDirected, .idle, .computeScores, .computeDelegations, .idle,
    .computeInstantUnstake, .rebalance, .idle]

theorem Phase.tags_of_chain {phases : List Phase}
    (chained : (Phase.directed :: phases).IsChain Phase.Follows) :
    (Phase.directed :: phases).map Phase.tag <+: tagsWithoutScoring ∨
      (Phase.directed :: phases).map Phase.tag <+: tagsWithScoring := by
  have extended : ∀ stage later, Phase.Follows stage later → ∀ path ∈ later.paths,
      later :: path ∈ stage.paths := by
    intro stage later followed
    cases followed <;> decide
  rcases chain_begins_path (fun stage => by cases stage <;> simp [paths]) extended chained with
    ⟨path, member, begins⟩
  have tagged : (Phase.directed :: phases).map Phase.tag <+:
      (Phase.directed :: path).map Phase.tag :=
    (List.cons_prefix_cons.mpr ⟨rfl, begins⟩).map Phase.tag
  simp only [paths, List.mem_cons, List.not_mem_nil, or_false] at member
  rcases member with rfl | rfl
  · exact .inl tagged
  · exact .inr tagged

/-- From a completed maintenance on, the cranks of an epoch pass through the
phases in order, each at most once, and none acts on a cycle without
delegations. -/
theorem epochCranks_phases_in_order {origin opened : Accounts} {history cranks : List Transaction}
    {environment : Environment} {lastUpdateEpoch : Nat} {validatorIndexToRemove : Option Nat}
    (initialized : Initialized origin)
    (completed : CompletesMaintenance environment lastUpdateEpoch validatorIndexToRemove
      (run execute origin history) opened)
    (conditions : EveryStep execute EpochCrank opened cranks) :
    let tags := ((visited execute opened cranks).map (·.state.stateTag)).destutter (· ≠ ·)
    (tags <+: tagsWithoutScoring ∨ tags <+: tagsWithScoring) ∧
      tags.count .computeInstantUnstake ≤ 1 ∧ tags.count .rebalance ≤ 1 ∧
      ∀ accounts ∈ visited execute opened cranks,
        (accounts.state.stateTag = .computeInstantUnstake ∨
            accounts.state.stateTag = .rebalance →
          accounts.state.hasFlag computeDelegationsFlag = true ∧
            accounts.state.currentEpoch < accounts.state.nextCycleEpoch) ∧
        (accounts.state.stateTag ≠ .rebalanceDirected →
          accounts.state.hasFlag rebalanceDirectedCompleteFlag = true) := by
  intro tags
  have sound : FlagsSound (run execute origin history).state.control :=
    run_preserves (fun accounts : Accounts => FlagsSound accounts.state.control)
      (fun _ transaction holds => holds.execute transaction)
      (FlagsSound.of_initialized initialized) history
  have first := InPhase.of_completesMaintenance sound completed
  have stepped : ∀ phase (accounts : Accounts) transaction, InPhase phase accounts.state.control →
      EpochCrank accounts transaction →
      ∃ later, (later = phase ∨ phase.Follows later) ∧
        InPhase later (execute accounts transaction).state.control :=
    fun _ _ _ inPhase condition => inPhase.execute condition
  have ordered : tags <+: tagsWithoutScoring ∨ tags <+: tagsWithScoring := by
    have labelled : ∀ phase (accounts : Accounts), InPhase phase accounts.state.control →
        accounts.state.stateTag = phase.tag := fun _ _ inPhase => inPhase.tag
    have distinct : ∀ phase later, Phase.Follows phase later → phase.tag ≠ later.tag := by
      intro phase later followed
      cases followed <;> decide
    rcases visited_destutter labelled distinct stepped first conditions with
      ⟨phases, chained, labels⟩
    have same : tags = (Phase.directed :: phases).map Phase.tag := labels
    rw [same]
    exact Phase.tags_of_chain chained
  refine ⟨ordered, ?_, ?_, ?_⟩
  · rcases ordered with begins | begins
    · exact begins.sublist.count_le _
    · exact begins.sublist.count_le _
  · rcases ordered with begins | begins
    · exact begins.sublist.count_le _
    · exact begins.sublist.count_le _
  · have everywhere := visited_invariant
      (fun accounts : Accounts => ∃ phase, InPhase phase accounts.state.control)
      (fun _ _ ⟨_, inPhase⟩ condition =>
        have ⟨later, _, inLater⟩ := inPhase.execute condition
        ⟨later, inLater⟩) ⟨_, first⟩ conditions
    intro accounts member
    rcases everywhere accounts member with ⟨phase, inPhase⟩
    constructor
    · intro acting
      have past : phase.delegated = true ∧ phase.rolled = true := by
        rcases acting with unstaking | rebalancing
        · rw [Phase.eq_unstaking (inPhase.tag.symm.trans unstaking)]
          decide
        · rw [Phase.eq_rebalancing (inPhase.tag.symm.trans rebalancing)]
          decide
      have flagged := inPhase.delegated past.1
      exact ⟨flagged, inPhase.current past.2 flagged⟩
    · intro left
      apply inPhase.directed
      intro isDirected
      exact left (inPhase.tag.trans (congrArg Phase.tag isDirected))

/-! An epoch with a due cycle, in a pool of one validator. -/

def oneValidatorEnvironment : Environment where
  clock := ⟨1, 1950⟩
  epochSchedule := .withoutWarmup 1000
  config := ⟨{ Parameters.fixture with numDelegationValidators := 1 }, false⟩
  validatorList := ⟨.validatorList, [⟨2, 7, 0, .active, 1⟩], []⟩

def oneValidatorOrigin : Accounts := ⟨ReallocState.initialState 1 10 0, .initial⟩

def oneValidatorCranks : List Transaction :=
  [Instruction.rebalanceDirected ⟨0, 0, 0, 0, 0, 0, fun _ => .ok ()⟩, .idle,
    .computeScore ⟨0, ⟨1, some 1950⟩, ⟨1950⟩, .ok ⟨7, 7⟩⟩, .computeDelegations, .idle,
    .computeInstantUnstake ⟨0, ⟨1, some 1950⟩, ⟨1950⟩, .ok false⟩,
    .rebalance ⟨0, ⟨1, some 1950⟩, true, .stake 1, .stake 7, 0, 0, 1, 1, fun _ => .ok ()⟩,
    .rebalance ⟨0, ⟨1, some 1950⟩, true, .stake 1, .stake 7, 0, 0, 1, 1, fun _ => .ok ()⟩].map
      fun instruction => ⟨oneValidatorEnvironment, instruction⟩

theorem epochCranks_phases_in_order_oneValidator :
    ∃ opened,
      CompletesMaintenance oneValidatorEnvironment 1 none oneValidatorOrigin opened ∧
      let tags := ((visited execute opened oneValidatorCranks).map
        (·.state.stateTag)).destutter (· ≠ ·)
      tags = tagsWithScoring ∧ tags.count .rebalance ≤ 1 := by
  cases maintained : EpochMaintenance.handler oneValidatorEnvironment 1 none
      oneValidatorOrigin with
  | error failure =>
      have succeeds : (EpochMaintenance.handler oneValidatorEnvironment 1 none
        oneValidatorOrigin).isOk = true := by decide +kernel
      simp [maintained, Except.isOk, Except.toBool] at succeeds
  | ok opened =>
      have same : opened = execute oneValidatorOrigin
          ⟨oneValidatorEnvironment, .epochMaintenance 1 none⟩ := by
        simp [execute, Transaction.process, maintained]
      have epoch : opened.state.currentEpoch = 1 := by
        rw [same]
        decide +kernel
      have accepted : oneValidatorEnvironment.config.parameters.Accepted :=
        ⟨0, 1, 1000, by decide +kernel⟩
      have initialized : Initialized oneValidatorOrigin :=
        .realloc ⟨0, 0⟩ oneValidatorEnvironment.config oneValidatorEnvironment.validatorList rfl
      have completed : CompletesMaintenance oneValidatorEnvironment 1 none
          (run execute oneValidatorOrigin []) opened := ⟨maintained, epoch⟩
      have conditions : EveryStep execute EpochCrank opened oneValidatorCranks :=
        epochCranks_of_environment rfl epoch.symm accepted (by decide +kernel)
      have ordered := epochCranks_phases_in_order initialized completed conditions
      refine ⟨opened, completed, ?_, ordered.2.2.1⟩
      rw [same]
      decide +kernel

end Stakenet.Steward

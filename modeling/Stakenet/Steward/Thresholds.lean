import Stakenet.Steward.Phases

/-! The two epoch-progress thresholds and the entry into instant unstaking.

Scoring that is due waits for one threshold, instant unstaking for the other. A
transition between the two, with instant unstaking first, skips the scoring. -/

namespace Stakenet.Steward

open Stakenet.Execution

variable {state middle next : StewardStateV2} {transaction : Transaction}

/-- The states that move stake on the delegations of the cycle. -/
def Unstakes (state : StewardStateV2) : Prop :=
  state.stateTag = .computeInstantUnstake ∨ state.stateTag = .rebalance

/-! ## Entry -/

/-- Outside the gap, a transition into instant unstaking finds the delegations of
a running cycle. -/
theorem Move.entersInstantUnstake {clock : Clock} {parameters : Parameters} {progress : ℚ}
    (sound : FlagsSound state.control)
    (outside : parameters.instantUnstakeEpochProgress ≤ progress →
      parameters.computeScoreEpochProgress ≤ progress)
    (moved : Move clock parameters progress state next)
    (before : state.stateTag ≠ .computeInstantUnstake)
    (entered : next.stateTag = .computeInstantUnstake) :
    next.hasFlag computeDelegationsFlag = true ∧ clock.epoch < next.nextCycleEpoch := by
  cases moved with
  | startInstantUnstake tag skipped pending late =>
      have delegated : (state.rolledOver clock).hasFlag computeDelegationsFlag = true := by
        rcases skipped with incomplete | computed | early
        · have complete := (sound.rolledOver clock).directed (by simp [tag])
          rw [StewardStateV2.hasFlag_eq] at incomplete
          simp [incomplete] at complete
        · exact computed
        · exact absurd (outside late) (not_le.mpr early)
      have running : clock.epoch < state.nextCycleEpoch := by
        rw [rolledOver_hasFlag state clock (by decide)] at delegated
        simpa using (Bool.and_eq_true_iff.mp delegated).2
      constructor
      · simpa [StewardStateV2.hasFlag_eq] using delegated
      · simpa using running
  | stay => exact absurd entered before
  | _ => simp_all

/-! ## From entry to the end of the rebalance -/

/-- Delegations and cycle stay as they are. -/
def KeepsCycle (state next : StewardStateV2) : Prop :=
  next.hasFlag computeDelegationsFlag = state.hasFlag computeDelegationsFlag ∧
    next.nextCycleEpoch = state.nextCycleEpoch

theorem KeepsCycle.trans (first : KeepsCycle state middle) (second : KeepsCycle middle next) :
    KeepsCycle state next :=
  ⟨second.1.trans first.1, second.2.trans first.2⟩

theorem Work.keepsCycle (worked : Work transaction state middle) (unstakes : Unstakes state) :
    KeepsCycle state middle := by
  have flags : flagSet middle.control.statusFlags computeDelegationsFlag =
        flagSet state.control.statusFlags computeDelegationsFlag ∧
      middle.control.nextCycleEpoch = state.control.nextCycleEpoch := by
    rcases worked.control_cases with
      kept | ⟨scoring, _⟩ | ⟨delegating, _⟩ | kept
    · simp [kept]
    · rcases unstakes with tag | tag <;> simp [tag] at scoring
    · rcases unstakes with tag | tag <;> simp [tag] at delegating
    · simp [kept]
  exact flags

theorem Move.keepsCycle {clock : Clock} {parameters : Parameters} {progress : ℚ}
    (moved : Move clock parameters progress state next) (unstakes : Unstakes state) :
    KeepsCycle state next := by
  rcases unstakes with tag | tag
  · cases moved <;> simp_all [KeepsCycle, StewardStateV2.hasFlag_eq]
  · cases moved <;> simp_all [KeepsCycle, StewardStateV2.hasFlag_eq]

/-- Upkeep keeps the cycle as well, or starts the epoch over. -/
theorem Upkeep.keepsCycle {origin : StewardStateV2}
    (action : Upkeep transaction origin state next) :
    (next.stateTag = state.stateTag ∧ KeepsCycle state next) ∨
      next.stateTag = .rebalanceDirected := by
  rcases action.control_cases with kept | kept | ⟨stakeMeta, kept⟩ | ⟨tag, flags⟩
  · have flags : next.statusFlags = state.statusFlags := congrArg (·.statusFlags) kept
    refine .inl ⟨congrArg (·.stateTag) kept, ?_, congrArg (·.nextCycleEpoch) kept⟩
    rw [StewardStateV2.hasFlag_eq, flags, StewardStateV2.hasFlag_eq]
  · have flags : next.statusFlags = state.statusFlags &&& ~~~epochMaintenanceFlag :=
      congrArg (·.statusFlags) kept
    refine .inl ⟨congrArg (·.stateTag) kept, ?_, congrArg (·.nextCycleEpoch) kept⟩
    rw [StewardStateV2.hasFlag_eq, flags, StewardStateV2.hasFlag_eq]
    simp
  · exact .inr (congrArg (·.stateTag) kept)
  · exact .inr tag

theorem keepsCycle_of_upkeep {origin : StewardStateV2}
    (actions : Relation.ReflTransGen (Upkeep transaction origin) state next) :
    (next.stateTag = state.stateTag ∧ KeepsCycle state next) ∨
      next.stateTag = .rebalanceDirected := by
  induction actions with
  | refl => exact .inl ⟨rfl, rfl, rfl⟩
  | tail _ action induction =>
      rcases action.keepsCycle with ⟨tag, kept⟩ | restarted
      · rcases induction with ⟨earlierTag, earlierKept⟩ | restarted
        · exact .inl ⟨tag.trans earlierTag, earlierKept.trans kept⟩
        · exact .inr (tag.trans restarted)
      · exact .inr restarted

/-! ## Runs -/

/-- Instant unstaking is entered on the delegations of a running cycle only, and
both stay until the rebalance is over. -/
structure EntersDelegated (accounts : Accounts) (transaction : Transaction) : Prop where
  entered : accounts.state.stateTag ≠ .computeInstantUnstake →
    (execute accounts transaction).state.stateTag = .computeInstantUnstake →
    (execute accounts transaction).state.hasFlag computeDelegationsFlag = true ∧
      transaction.environment.clock.epoch <
        (execute accounts transaction).state.nextCycleEpoch
  kept : Unstakes accounts.state → Unstakes (execute accounts transaction).state →
    KeepsCycle accounts.state (execute accounts transaction).state

theorem entersDelegated_of_outsideGap {accounts : Accounts}
    (sound : FlagsSound accounts.state.control) (outside : transaction.OutsideGap) :
    EntersDelegated accounts transaction := by
  rcases execute_cases accounts transaction with unchanged | succeeded
  · rw [← unchanged] at sound
    constructor
    · intro before entered
      rw [unchanged] at entered
      exact absurd entered before
    · intro _ _
      rw [unchanged]
      exact ⟨rfl, rfl⟩
  cases crank : transaction.instruction.isCrank with
  | true =>
      rcases Transaction.process_crank crank succeeded with ⟨middle, worked, cases⟩
      have sameTag := worked.steady.1
      rcases cases with ⟨unchanged, _⟩ | moved
      · constructor
        · intro before entered
          rw [unchanged, sameTag] at entered
          exact absurd entered before
        · intro unstakes _
          rw [unchanged]
          exact worked.keepsCycle unstakes
      · rcases move_of_transition moved with ⟨progress, measured, moved⟩
        constructor
        · intro before
          rw [← sameTag] at before
          exact moved.entersInstantUnstake (sound.work worked) (outside progress measured)
            before
        · intro unstakes _
          have atMiddle : Unstakes middle := by
            rw [Unstakes, sameTag]
            exact unstakes
          exact (worked.keepsCycle unstakes).trans (moved.keepsCycle atMiddle)
  | false =>
      rcases keepsCycle_of_upkeep (Transaction.process_upkeep crank succeeded) with
        ⟨tag, kept⟩ | restarted
      · constructor
        · intro before entered
          rw [tag] at entered
          exact absurd entered before
        · intro _ _
          exact kept
      · constructor
        · intro _ entered
          simp [restarted] at entered
        · intro _ unstakes
          simp [Unstakes, restarted] at unstakes

/-- A run whose transactions all fall outside the gap between the thresholds
never enters instant unstaking before the scoring that is due. -/
theorem run_entersDelegated {origin : Accounts} (initialized : Initialized origin)
    {transactions : List Transaction}
    (outside : ∀ transaction ∈ transactions, transaction.OutsideGap) :
    EveryStep execute EntersDelegated origin transactions := by
  have sound := FlagsSound.of_initialized initialized
  clear initialized
  induction transactions generalizing origin with
  | nil => trivial
  | cons transaction rest induction =>
      refine ⟨entersDelegated_of_outsideGap sound (outside transaction (by simp)), ?_⟩
      exact induction (fun later member => outside later (by simp [member]))
        (sound.execute transaction)

theorem run_entersDelegated_oneValidator :
    EveryStep execute EntersDelegated oneValidatorOrigin
      (⟨oneValidatorEnvironment, .epochMaintenance 1 none⟩ :: oneValidatorCranks) := by
  have initialized : Initialized oneValidatorOrigin :=
    .realloc ⟨0, 0⟩ oneValidatorEnvironment.config oneValidatorEnvironment.validatorList rfl
  have ordered : oneValidatorEnvironment.config.parameters.computeScoreEpochProgress ≤
      oneValidatorEnvironment.config.parameters.instantUnstakeEpochProgress := by decide +kernel
  have shared : ∀ transaction ∈
      (⟨oneValidatorEnvironment, .epochMaintenance 1 none⟩ : Transaction) :: oneValidatorCranks,
      transaction.environment = oneValidatorEnvironment := by
    simp [oneValidatorCranks]
  apply run_entersDelegated initialized
  intro transaction member progress _ late
  rw [shared transaction member] at late ⊢
  exact ordered.trans late

/-! Accepted parameters with instant unstaking before scoring, and a crank between
the two. -/

def gapEnvironment : Environment where
  clock := ⟨1, 1400⟩
  epochSchedule := .withoutWarmup 1000
  config := ⟨{ Parameters.fixture with
    instantUnstakeEpochProgress := 3 / 10
    computeScoreEpochProgress := 5 / 10
    numEpochsBetweenScoring := 1 }, false⟩
  validatorList := ⟨.validatorList, [⟨2, 7, 0, .active, 1⟩], []⟩

def gapOrigin : Accounts := ⟨ReallocState.initialState 1 1 0, .initial⟩

def gapTransactions : List Transaction :=
  [Instruction.epochMaintenance 1 none,
    .rebalanceDirected ⟨0, 0, 0, 0, 0, 0, fun _ => .ok ()⟩, .idle].map
      fun instruction => ⟨gapEnvironment, instruction⟩

/-- Scoring is due, yet the last transaction enters instant unstaking, where
the call for the validator is then rejected. -/
theorem not_run_entersDelegated :
    gapEnvironment.config.parameters.Accepted ∧
      initialAccounts ⟨0, 0⟩ gapEnvironment.config gapEnvironment.validatorList =
        .ok gapOrigin ∧
      ¬EveryStep execute EntersDelegated gapOrigin gapTransactions ∧
      (ComputeInstantUnstake.handler gapEnvironment ⟨0, ⟨1, some 1400⟩, ⟨1400⟩, .ok false⟩
        (run execute gapOrigin gapTransactions).state).map (fun _ => ()) =
          fail .invalidState := by
  refine ⟨⟨0, 1, 1000, by decide +kernel⟩, rfl, ?_, by decide +kernel⟩
  rintro ⟨-, -, last, -⟩
  have delegated := (last.entered (by decide +kernel) (by decide +kernel)).1
  revert delegated
  decide +kernel

end Stakenet.Steward

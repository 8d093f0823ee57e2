import Stakenet.Keeper.CrankPass

/-! The keeper drives the machine through a cycle: five rounds, from the scores back to idle. -/

namespace Stakenet.Keeper.Cycle

open Execution Steward CrankPass

/-! ## Rounds -/

/-- What `crank_steward` sends in a state of the machine, when all of it arrives. The stages with a
row for each validator have a pass over those that have not progressed. -/
def Sends (historyAddress : Pubkey → Pubkey) (validators : List ValidatorStakeInfo)
    (state : StewardStateV2) (delivered : List Transaction) : Prop :=
  match state.stateTag with
  | .computeDelegations => ∃ environment, delivered = [⟨environment, .computeDelegations⟩]
  | .idle => ∃ environment, delivered = [⟨environment, .idle⟩]
  | tag => ∃ infos, getUnprogressedValidators historyAddress state validators = .ok infos ∧
      Deliveries tag infos delivered ∧ Covered infos delivered

/-- A round of the keeper whose transactions are all executed. -/
structure Round (historyAddress : Pubkey → Pubkey) (validators : List ValidatorStakeInfo)
    (accounts : Accounts) (delivered : List Transaction) (next : Accounts) : Prop where
  sends : Sends historyAddress validators accounts.state delivered
  executed : executeAll accounts delivered = .ok next

section Stages

variable {historyAddress : Pubkey → Pubkey} {validators : List ValidatorStakeInfo}
variable {accounts next : Accounts} {delivered : List Transaction}

/-- The delegations take one transaction. -/
theorem delegations_round (round : Round historyAddress validators accounts delivered next)
    (tagged : accounts.state.stateTag = .computeDelegations) :
    next.state.stateTag = .idle ∧
      next.state.numPoolValidators = accounts.state.numPoolValidators ∧
      next.state.statusFlags = accounts.state.statusFlags ||| computeDelegationsFlag ∧
      next.state.currentEpoch < next.state.nextCycleEpoch := by
  have sends := round.sends
  rw [Sends, tagged] at sends
  rcases sends with ⟨environment, rfl⟩
  have processed := executeAll_singleton.symm.trans round.executed
  rcases Accounts.withState_eq_ok.mp processed with ⟨handled, _⟩
  rcases ComputeDelegations.handler_cases handled with ⟨_, current, delegated, computed, moved⟩
  rcases computeDelegations_cases computed with ⟨_, before, _, _, delegations, _, _, rfl⟩
  have flagged : ({ accounts.state with delegations := delegations }.setFlag
      computeDelegationsFlag).hasFlag computeDelegationsFlag = true := by
    rw [StewardStateV2.hasFlag_eq]
    exact (flagSet_or _ 1 1 (by decide)).trans (by simp)
  have tag : ({ accounts.state with delegations := delegations }.setFlag
      computeDelegationsFlag).stateTag = .computeDelegations := tagged
  simp only [StewardStateV2.transition, Outcome.bind_eq_ok, tag,
    StewardStateV2.transitionComputeDelegations, flagged, if_true, Except.ok.injEq] at moved
  rcases moved with ⟨_, _, isNext⟩
  rw [← isNext]
  exact ⟨rfl, rfl, rfl, current ▸ before⟩

/-- The idle state is left for the instant unstakes. -/
def LateEnough (environment : Environment) : Prop :=
  ∃ progress, epochProgress environment.clock environment.epochSchedule = .ok progress ∧
    environment.config.parameters.instantUnstakeEpochProgress ≤ progress

/-- In a cycle with delegations the instant unstakes follow the idle state. -/
theorem idle_round (round : Round historyAddress validators accounts delivered next)
    (tagged : accounts.state.stateTag = .idle)
    (scored : accounts.state.hasFlag computeDelegationsFlag = true)
    (looping : accounts.state.hasFlag rebalanceFlag = false)
    (running : accounts.state.currentEpoch < accounts.state.nextCycleEpoch)
    (late : ∀ transaction ∈ delivered, LateEnough transaction.environment) :
    next.state.stateTag = .computeInstantUnstake ∧
      next.state.numPoolValidators = accounts.state.numPoolValidators ∧
      next.state.statusFlags =
        accounts.state.statusFlags &&& ~~~resetToIdleFlag ||| preLoopIdleFlag ∧
      next.state.progress = .empty := by
  have sends := round.sends
  rw [Sends, tagged] at sends
  rcases sends with ⟨environment, rfl⟩
  rcases late _ (List.mem_singleton_self _) with ⟨progress, isProgress, reached⟩
  have processed := executeAll_singleton.symm.trans round.executed
  rcases Accounts.withState_eq_ok.mp processed with ⟨handled, _⟩
  rcases Idle.handler_cases handled with ⟨_, current, moved⟩
  dsimp only at current
  have kept : accounts.state.rollOverCycle environment.clock.epoch = accounts.state :=
    if_neg (by omega)
  simp only [StewardStateV2.transition, isProgress, Outcome.ok_bind, tagged, Except.ok.injEq,
    StewardStateV2.transitionIdle, kept, scored, looping, Bool.not_true, Bool.and_false,
    Bool.false_and, Bool.false_eq_true, if_false, Bool.not_false, if_true, reached] at moved
  rw [← moved]
  exact ⟨rfl, rfl, rfl, rfl⟩

theorem pendingRows_of_empty {state : StewardStateV2} (unprocessed : state.progress = .empty)
    (nonempty : 0 < state.numPoolValidators) : pendingRows state ≠ ∅ := by
  have first : 0 ∈ pendingRows state := by
    rw [mem_pendingRows, unprocessed]
    exact ⟨nonempty, BitMask.contains_empty 0⟩
  exact Finset.ne_empty_of_mem first

theorem infos_ne_nil {state : StewardStateV2} {infos : List ProgressionInfo}
    (read : getUnprogressedValidators historyAddress state validators = .ok infos)
    (unprocessed : state.progress = .empty) (nonempty : 0 < state.numPoolValidators) :
    infos ≠ [] := by
  rintro rfl
  refine pendingRows_of_empty unprocessed nonempty ?_
  refine Finset.eq_empty_iff_forall_notMem.mpr fun row isPending => ?_
  exact absurd ((mem_unprogressed read).mpr isPending) List.not_mem_nil

theorem instantUnstake_round (round : Round historyAddress validators accounts delivered next)
    (tagged : accounts.state.stateTag = .computeInstantUnstake)
    (unprocessed : accounts.state.progress = .empty)
    (nonempty : 0 < accounts.state.numPoolValidators) :
    next.state.stateTag = .rebalance ∧
      next.state.numPoolValidators = accounts.state.numPoolValidators ∧
      next.state.statusFlags = accounts.state.statusFlags ||| computeInstantUnstakesFlag ∧
      next.state.progress = .empty := by
  have sends := round.sends
  rw [Sends, tagged] at sends
  rcases sends with ⟨infos, read, deliveries, covered⟩
  have remains := infos_ne_nil read unprocessed nonempty
  rcases (pass_cases handles_computeInstantUnstake read tagged remains deliveries
    round.executed).1 covered with ⟨_, _, tag, flags, pool, progress⟩
  exact ⟨tag, pool, flags, progress⟩

theorem rebalance_round (round : Round historyAddress validators accounts delivered next)
    (tagged : accounts.state.stateTag = .rebalance)
    (running : accounts.state.hasFlag resetToIdleFlag = false)
    (unprocessed : accounts.state.progress = .empty)
    (nonempty : 0 < accounts.state.numPoolValidators) :
    next.state.numPoolValidators = accounts.state.numPoolValidators ∧
      ∃ last, delivered.getLast? = some last ∧
        ((Skips last ∧ next.state.stateTag = .rebalance) ∨
          (¬Skips last ∧ next.state.stateTag = .idle ∧
            next.state.statusFlags = accounts.state.statusFlags ||| rebalanceFlag)) := by
  have sends := round.sends
  rw [Sends, tagged] at sends
  rcases sends with ⟨infos, read, deliveries, covered⟩
  have remains := infos_ne_nil read unprocessed nonempty
  rcases (pass_cases (handles_rebalance running) read tagged remains deliveries
    round.executed).1 covered with ⟨last, isLast, pool, _, done⟩
  exact ⟨pool, last, isLast, done⟩

/-- The scores take one round when no validators are added meanwhile. -/
theorem scoring_round (round : Round historyAddress validators accounts delivered next)
    (tagged : accounts.state.stateTag = .computeScores)
    (looping : accounts.state.progress.isEmpty = false →
      accounts.state.hasFlag rebalanceFlag = false)
    (noneAdded : addedOnRestart accounts.state = 0) {first : Nat}
    (started : accounts.state.progress.isEmpty = false →
      first ≤ accounts.state.startComputingScoresSlot)
    (inTime : ∀ transaction ∈ delivered, InTime first transaction) (arrived : delivered ≠ []) :
    next.state.stateTag = .computeDelegations ∧
      next.state.numPoolValidators = accounts.state.numPoolValidators ∧
      0 < next.state.numPoolValidators ∧
      next.state.hasFlag computeScoreFlag = true ∧ next.state.hasFlag rebalanceFlag = false := by
  have sends := round.sends
  rw [Sends, tagged] at sends
  rcases sends with ⟨infos, read, deliveries, covered⟩
  have notLooped : false = false → accounts.state.progress.isEmpty = false →
      accounts.state.hasFlag rebalanceFlag = false := fun _ => looping
  rcases (scoring_cases read tagged started notLooped arrived inTime deliveries
    round.executed).1 ⟨covered, noneAdded⟩ with ⟨_, tag, scored, pool, _, unset⟩
  rw [noneAdded, Nat.add_zero] at pool
  rcases List.exists_mem_of_ne_nil delivered arrived with ⟨transaction, member⟩
  have inPool := lt_of_mem_unprogressed read (deliveries.among transaction member)
  exact ⟨tag, pool, pool ▸ Nat.zero_lt_of_lt inPool, scored, unset rfl⟩

end Stages

/-! ## The cycle -/

theorem round_rows {tag : StewardStateEnum} {start next : Accounts} {rows : List Nat}
    {crank : Nat → Transaction} (tagged : start.state.stateTag = tag)
    (read : getUnprogressedValidators id start.state pairValidators = .ok [pairInfo 0, pairInfo 1])
    (cranks : ∀ index, Cranks tag (crank index)) (isRow : ∀ index, row (crank index) = index)
    (whole : rows.Perm [0, 1]) (executed : executeAll start (rows.map crank) = .ok next) :
    Round id pairValidators start (rows.map crank) next := by
  have rowsOf : [pairInfo 0, pairInfo 1].map (·.index) = [0, 1] := rfl
  have deliveries : Deliveries tag [pairInfo 0, pairInfo 1] (rows.map crank) :=
    deliveries_map cranks isRow (whole.nodup_iff.mpr (by decide)) fun index member => by
      rw [rowsOf]
      exact whole.mem_iff.mp member
  have covered : Covered [pairInfo 0, pairInfo 1] (rows.map crank) := by
    rw [covered_map_iff isRow]
    intro info member
    rw [whole.mem_iff, ← rowsOf]
    exact List.mem_map_of_mem member
  refine ⟨?_, executed⟩
  rw [Sends, tagged]
  cases tag with
  | computeDelegations => exact absurd (cranks 0) id
  | idle => exact absurd (cranks 0) id
  | _ => exact ⟨_, read, deliveries, covered⟩

end Stakenet.Keeper.Cycle

import Stakenet.Foundation.Execution
import Stakenet.Steward.Maintenance
import Stakenet.Steward.RebalanceEffect

/-! How often a stake deposit is unstaked.

The tracked balance is lowered by all that is unstaked, stake deposits included.
A deposit that has left is therefore still measured above it, until the balance
follows the stake account again. A ledger follows one validator over the epochs. -/

namespace Stakenet.Steward

open Stakenet.Execution

/-! ## One validator over the epochs -/

namespace RebalanceType

/-- The stake account after a movement. -/
def lamportsAfter (lamports : Nat) : RebalanceType → Nat
  | .increase amount => lamports + amount
  | .decrease components => lamports - components.totalUnstakeLamports
  | .none => lamports

/-- The lamports that are no outstanding deposit after a movement: an unstaked
deposit does not come out of them. -/
def settledAfter (settled : Nat) : RebalanceType → Nat
  | .increase amount => settled + amount
  | .decrease components =>
      settled - (components.totalUnstakeLamports - components.stakeDepositUnstakeLamports)
  | .none => settled

end RebalanceType

namespace RebalanceCall

def totalLamports (call : RebalanceCall) : Nat :=
  saturatingAdd call.stakeAccountCurrentLamports (call.minimumDelegation + call.stakeRent)

def undirectedLamports (call : RebalanceCall) : Nat :=
  call.stakeAccountCurrentLamports - call.stakeMeta.directedStakeLamports call.index

end RebalanceCall

structure DepositLedger where
  /-- The balance in the state account. -/
  tracked : Nat
  /-- The stake account itself. -/
  lamports : Nat
  /-- The external increases so far. -/
  received : Nat
  /-- The stake deposits unstaked so far. -/
  unstaked : Nat
  /-- Those of them unstaked since the balance last followed the stake account. -/
  recent : Nat

/-- An external increase, and then a rebalance of the validator. All of the state
but the tracked balance may have changed since the last one. -/
structure DepositRound where
  increase : Nat
  state : StewardStateV2
  call : RebalanceCall

namespace DepositRound

def skips (round : DepositRound) : Bool :=
  round.state.progress.contains round.call.index || round.state.leaves round.call.index

/-- The share of the pool that is delegated to the validator. -/
def targetLamports (round : DepositRound) : Nat :=
  (getTargetLamports (round.state.delegations round.call.index)
    round.call.variableLamports).toOption.getD 0

/-- The tracked balance follows the stake account: that is below it, or the
validator is below its target. -/
def follows (round : DepositRound) : Bool :=
  !round.skips &&
    (decide (round.call.totalLamports < round.state.validatorLamportBalances round.call.index) ||
      decide (round.call.undirectedLamports < round.targetLamports))

/-- There is something above the tracked balance and the target, and the cap and
the stake account let it be unstaked. -/
structure HasDepositRoom (round : DepositRound) : Prop where
  processed : round.skips = false
  kept : round.follows = false
  aboveBalance : round.state.validatorLamportBalances round.call.index <
    round.call.undirectedLamports
  aboveTarget : round.state.instantUnstake.contains round.call.index = false →
    round.targetLamports < round.call.undirectedLamports
  belowCap : round.state.stakeDepositUnstakeTotal <
    round.call.cap round.call.parameters.stakeDepositUnstakeCapBps
  withoutTransient : ∃ entry, round.call.validatorList.slotAt round.call.index = .ok entry ∧
    entry.transientStakeLamports = 0

end DepositRound

namespace DepositLedger

def play (ledger : DepositLedger) (round : DepositRound) : DepositLedger :=
  match round.state.rebalance round.call with
  | .ok (next, rebalanceType) => {
      tracked := next.validatorLamportBalances round.call.index
      lamports := rebalanceType.lamportsAfter (ledger.lamports + round.increase)
      received := ledger.received + round.increase
      unstaked := ledger.unstaked + rebalanceType.stakeDepositLamports
      recent := (if round.follows then 0 else ledger.recent) +
        rebalanceType.stakeDepositLamports }
  | .error _ => { ledger with
      lamports := ledger.lamports + round.increase
      received := ledger.received + round.increase }

/-- The balance is tracked and up to date. -/
structure Opened (ledger : DepositLedger) : Prop where
  tracked : ledger.tracked ≠ lamportBalanceDefault
  upToDate : ledger.tracked = ledger.lamports
  received : ledger.received = 0
  unstaked : ledger.unstaked = 0
  recent : ledger.recent = 0

/-- The call is about the validator of the ledger. -/
structure Continues (ledger : DepositLedger) (round : DepositRound) : Prop where
  tracked : round.state.validatorLamportBalances round.call.index = ledger.tracked
  lamports : round.call.stakeAccountCurrentLamports +
    (round.call.minimumDelegation + round.call.stakeRent) = ledger.lamports + round.increase
  representable : ledger.lamports + round.increase ≤ u64Max

/-- There is no room for a stake deposit while one that was unstaked is still
missing from the tracked balance. -/
def Reflects (ledger : DepositLedger) (round : DepositRound) : Prop :=
  ledger.recent = 0 ∨ ¬round.HasDepositRoom

end DepositLedger

/-! ## Transient stake -/

section Transient

variable {calculation : StakeCalculation} {base : Nat}

/-- Nothing is unstaked from a validator with transient stake. -/
theorem StakeCalculation.simulateDecrease_transient {index : Nat}
    {unstake next : UnstakeState} {amounts : UnstakeAmounts}
    (simulated : calculation.simulateDecrease base index unstake = .ok (next, amounts)) :
    amounts = .zero ∨ ∃ entry, calculation.validatorList.slotAt index = .ok entry ∧
      entry.transientStakeLamports = 0 := by
  simp only [simulateDecrease, simulatedUndirectedLamports, stakeLamportsAtValidatorListIndex,
    Outcome.bind_eq_ok, Outcome.pure_eq_ok] at simulated
  rcases simulated with ⟨target, _, _, ⟨_, ⟨entry, isEntry, rfl⟩, _, _, _, _, rfl⟩, simulated⟩
  generalize (if index = calculation.targetIndex then calculation.currentLamports
    else _) = lamports at simulated
  split at simulated
  case isTrue counted =>
      refine .inr ⟨entry, isEntry, ?_⟩
      simpa using counted.1
  case isFalse =>
      simp only [Outcome.pure_eq_ok, Prod.mk.injEq] at simulated
      exact .inl simulated.2.symm

theorem StakeCalculation.decreaseAlong_transient {ranking : List Nat} {unstake : UnstakeState}
    {components : DecreaseComponents}
    (walked : calculation.decreaseAlong base ranking unstake = .ok (.decrease components))
    (positive : 0 < components.stakeDepositUnstakeLamports) :
    ∃ entry, calculation.validatorList.slotAt calculation.targetIndex = .ok entry ∧
      entry.transientStakeLamports = 0 := by
  induction ranking generalizing unstake with
  | nil => simp [decreaseAlong] at walked
  | cons index rest induction =>
      simp only [decreaseAlong, Outcome.bind_eq_ok] at walked
      rcases walked with ⟨⟨next, amounts⟩, simulated, walked⟩
      split at walked
      case isTrue reached =>
          subst reached
          rcases simulateDecrease_transient simulated with rfl | listed
          · rcases decreaseOf_eq_ok walked with none | decreased
            · cases none
            · cases decreased
              exact absurd positive (Nat.lt_irrefl 0)
          · exact listed
      case isFalse => exact induction walked

theorem rebalanceDecision_transient {state : StewardStateV2} {call : RebalanceCall}
    {terms : RebalanceTerms} {components : DecreaseComponents}
    (decided : rebalanceDecision state call terms = .ok (.decrease components))
    (positive : 0 < components.stakeDepositUnstakeLamports) :
    ∃ entry, call.validatorList.slotAt call.index = .ok entry ∧
      entry.transientStakeLamports = 0 := by
  simp only [rebalanceDecision, Outcome.bind_eq_ok] at decided
  rcases decided with ⟨flagged, _, decided⟩
  split at decided
  case isTrue =>
      simp only [Outcome.bind_eq_ok, unstakeCap_eq_ok] at decided
      rcases decided with ⟨_, ⟨_, rfl⟩, _, ⟨_, rfl⟩, _, ⟨_, rfl⟩, decided⟩
      exact StakeCalculation.decreaseAlong_transient (decreaseStakeCalculation_eq_ok decided).2
        positive
  case isFalse =>
      split at decided
      case isTrue =>
          rcases StakeCalculation.increaseAlong_eq_ok
            (increaseStakeCalculation_eq_ok decided).2 with none | ⟨_, increased, _⟩
          · cases none
          · cases increased
      case isFalse => cases decided

end Transient

/-! ## One call -/

section Call

variable {ledger : DepositLedger} {round : DepositRound} {terms : RebalanceTerms}
variable {next applied : StewardStateV2} {rebalanceType : RebalanceType}

/-- A call for a validator that is done or leaving moves nothing. -/
theorem DepositRound.rebalance_cases
    (rebalancing : round.state.rebalance round.call = .ok (next, rebalanceType)) :
    (round.skips = true ∧ rebalanceType = .none ∧
      next.validatorLamportBalances = round.state.validatorLamportBalances) ∨
      (round.skips = false ∧
        ∃ terms applied, Rebalanced round.state round.call terms rebalanceType applied next) := by
  rcases (Steward.rebalance_cases rebalancing).2.2 with
    ⟨processed, rfl, rfl⟩ | ⟨⟨_, leaves⟩, marked, rfl⟩ |
      ⟨⟨fresh, stays⟩, terms, applied, rebalanced⟩
  · exact .inl ⟨by simp [skips, processed], rfl, rfl⟩
  · rcases markProgress_eq_ok.mp marked with ⟨progress, _, rfl⟩
    exact .inl ⟨by simp [skips, leaves], rfl, rfl⟩
  · exact .inr ⟨by simp [skips, fresh, stays], terms, applied, rebalanced⟩

theorem DepositRound.targetLamports_eq
    (computed : rebalanceTerms round.state round.call = .ok terms) :
    round.targetLamports = terms.targetLamports := by
  have termsOf := termsOf_of_rebalanceTerms computed
  rw [targetLamports, ← termsOf.pool, termsOf.target]
  rfl

/-- The balance that a call measures deposits above. -/
theorem DepositRound.trackedBalance_eq (processed : round.skips = false)
    (computed : rebalanceTerms round.state round.call = .ok terms) :
    trackedBalance (round.state.validatorLamportBalances round.call.index) terms =
      if round.follows then round.call.totalLamports
      else round.state.validatorLamportBalances round.call.index := by
  have termsOf := termsOf_of_rebalanceTerms computed
  have total : terms.currentTotalLamports = round.call.totalLamports := termsOf.total
  have undirected : terms.currentUndirectedLamports = round.call.undirectedLamports :=
    termsOf.undirected
  rw [follows, processed, targetLamports_eq computed, ← total, ← undirected]
  unfold trackedBalance
  split
  case h_1 lost below => simp [lost]
  case h_2 lost above => simp [lost]
  case h_3 whole below => simp [below]
  case h_4 whole above => simp [whole, above]

theorem DepositLedger.Continues.totalLamports_eq (continues : ledger.Continues round) :
    round.call.totalLamports = ledger.lamports + round.increase := by
  have representable := continues.representable
  rw [RebalanceCall.totalLamports, saturatingAdd, continues.lamports]
  exact Nat.min_eq_left representable

theorem DepositLedger.Continues.undirectedLamports_le (continues : ledger.Continues round) :
    round.call.undirectedLamports ≤ ledger.lamports + round.increase := by
  rw [← continues.lamports, RebalanceCall.undirectedLamports]
  omega

/-- A deposit is unstaked only where there is room for it, and it was measured
above the balance. -/
theorem DepositLedger.Continues.hasDepositRoom (continues : ledger.Continues round)
    (processed : round.skips = false)
    (rebalanced : Rebalanced round.state round.call terms rebalanceType applied next)
    (positive : 0 < rebalanceType.stakeDepositLamports) :
    round.HasDepositRoom ∧ ledger.tracked ≠ lamportBalanceDefault ∧
      rebalanceType.stakeDepositLamports ≤ round.call.undirectedLamports - ledger.tracked := by
  have termsOf := termsOf_of_rebalanceTerms rebalanced.computed
  have undirected : terms.currentUndirectedLamports = round.call.undirectedLamports :=
    termsOf.undirected
  have decision := decision_of_rebalanceDecision rebalanced.decision
  have decided := rebalanced.decision
  cases decision with
  | none => exact absurd positive (Nat.lt_irrefl 0)
  | increase lamports large within => exact absurd positive (Nat.lt_irrefl 0)
  | decrease components target targeted deposit instant scoring total =>
      simp only [RebalanceType.stakeDepositLamports] at positive ⊢
      rcases deposit positive with ⟨isTracked, excess, above, capped⟩
      simp only [withTrackedBalance, Function.update_self,
        DepositRound.trackedBalance_eq processed rebalanced.computed] at isTracked above
      rw [undirected] at excess above
      have kept : round.follows = false := by
        by_contra follows
        rw [Bool.not_eq_false] at follows
        rw [if_pos follows, continues.totalLamports_eq] at above
        have within := continues.undirectedLamports_le
        omega
      rw [kept] at isTracked above
      simp only [Bool.false_eq_true, if_false] at isTracked above
      refine ⟨⟨processed, kept, by omega, fun unflagged => ?_, ?_,
        rebalanceDecision_transient decided positive⟩, ?_, ?_⟩
      · have sameTarget : target = terms.targetLamports :=
          Except.ok.inj ((targeted unflagged).symm.trans termsOf.target)
        rw [DepositRound.targetLamports_eq rebalanced.computed, ← sameTarget]
        omega
      · rw [RebalanceCall.cap, ← termsOf.pool]
        simp only [withTrackedBalance] at capped
        omega
      · rw [← continues.tracked]
        exact isTracked
      · rw [← continues.tracked]
        exact above

end Call

/-! ## Runs -/

namespace DepositLedger

variable {ledger : DepositLedger} {round : DepositRound} {settled : Nat}

/-- Deposits that were neither unstaked nor settled are in the stake account. The
tracked balance is what is settled if no deposit is missing from it. -/
structure Balanced (ledger : DepositLedger) (settled : Nat) : Prop where
  inAccount : settled ≤ ledger.lamports
  outstanding : ledger.lamports + ledger.unstaked ≤ settled + ledger.received
  measured : ledger.recent = 0 →
    ledger.tracked = settled ∨ ledger.tracked = lamportBalanceDefault

theorem Balanced.unstaked_le_received (balanced : ledger.Balanced settled) :
    ledger.unstaked ≤ ledger.received := by
  have inAccount := balanced.inAccount
  have outstanding := balanced.outstanding
  omega

theorem balanced_of_opened (opened : ledger.Opened) : ledger.Balanced ledger.tracked := by
  rcases opened with ⟨_, upToDate, received, unstaked, _⟩
  exact ⟨Nat.le_of_eq upToDate, by omega, fun _ => .inl rfl⟩

theorem Balanced.receive (balanced : ledger.Balanced settled) (increase : Nat) :
    Balanced { ledger with
      lamports := ledger.lamports + increase, received := ledger.received + increase }
      settled := by
  rcases balanced with ⟨inAccount, outstanding, measured⟩
  refine ⟨?_, ?_, measured⟩ <;> simp only <;> omega

/-- The balance is set to all that is in the stake account. -/
theorem Balanced.follow (balanced : ledger.Balanced settled) :
    Balanced { ledger with tracked := ledger.lamports, recent := 0 } ledger.lamports := by
  have bounded := balanced.unstaked_le_received
  exact ⟨Nat.le_refl _, Nat.add_le_add_left bounded _, fun _ => .inl rfl⟩

/-- A movement whose deposit part is outstanding. -/
theorem Balanced.move (balanced : ledger.Balanced settled) {rebalanceType : RebalanceType}
    (measured : rebalanceType.stakeDepositLamports ≤ ledger.lamports - settled)
    (total : ∀ components, rebalanceType = .decrease components →
      components.stakeDepositUnstakeLamports ≤ components.totalUnstakeLamports) :
    Balanced {
      tracked := movedBalance ledger.tracked rebalanceType
      lamports := rebalanceType.lamportsAfter ledger.lamports
      received := ledger.received
      unstaked := ledger.unstaked + rebalanceType.stakeDepositLamports
      recent := ledger.recent + rebalanceType.stakeDepositLamports }
      (rebalanceType.settledAfter settled) := by
  rcases balanced with ⟨inAccount, outstanding, isMeasured⟩
  cases rebalanceType with
  | none => exact ⟨inAccount, outstanding, isMeasured⟩
  | increase amount =>
      refine ⟨?_, ?_, fun none => ?_⟩
      · exact Nat.add_le_add_right inAccount amount
      · simp only [RebalanceType.settledAfter, RebalanceType.lamportsAfter,
          RebalanceType.stakeDepositLamports]
        omega
      · rcases isMeasured none with same | untracked
        · by_cases isTracked : ledger.tracked = lamportBalanceDefault
          · exact .inr (by simp [movedBalance, isTracked])
          · exact .inl (by simp [movedBalance, isTracked, RebalanceType.settledAfter, ← same])
        · exact .inr (by simp [movedBalance, untracked])
  | decrease components =>
      have part := total components rfl
      simp only [RebalanceType.stakeDepositLamports] at measured
      refine ⟨?_, ?_, fun none => ?_⟩
      · simp only [RebalanceType.settledAfter, RebalanceType.lamportsAfter]
        omega
      · simp only [RebalanceType.settledAfter, RebalanceType.lamportsAfter,
          RebalanceType.stakeDepositLamports]
        omega
      · simp only [RebalanceType.stakeDepositLamports, Nat.add_eq_zero_iff] at none
        rcases isMeasured none.1 with same | untracked
        · by_cases isTracked : ledger.tracked = lamportBalanceDefault
          · exact .inr (by simp [movedBalance, isTracked])
          · exact .inl (by
              simp [movedBalance, isTracked, RebalanceType.settledAfter, none.2, ← same])
        · exact .inr (by simp [movedBalance, untracked])

/-- The balance before the movement, and what of the stake account is settled. -/
theorem Balanced.track (balanced : ledger.Balanced settled) (continues : ledger.Continues round) :
    ∃ settledNow, Balanced { ledger with
      tracked := if round.follows then round.call.totalLamports else ledger.tracked
      lamports := ledger.lamports + round.increase
      received := ledger.received + round.increase
      recent := if round.follows then 0 else ledger.recent } settledNow ∧
      (round.follows = false → settledNow = settled) := by
  have grown := balanced.receive round.increase
  cases follows : round.follows with
  | true =>
      refine ⟨ledger.lamports + round.increase, ?_, fun kept => Bool.noConfusion kept⟩
      rw [if_pos rfl, if_pos rfl, continues.totalLamports_eq]
      exact grown.follow
  | false => exact ⟨settled, grown, fun _ => rfl⟩

theorem Balanced.play (balanced : ledger.Balanced settled) (continues : ledger.Continues round)
    (reflects : ledger.Reflects round) : ∃ later, (ledger.play round).Balanced later := by
  have grown := balanced.receive round.increase
  unfold DepositLedger.play
  cases outcome : round.state.rebalance round.call with
  | error failure => exact ⟨settled, grown⟩
  | ok result =>
      rcases result with ⟨next, rebalanceType⟩
      rcases DepositRound.rebalance_cases outcome with
        ⟨skipped, rfl, same⟩ | ⟨processed, terms, applied, rebalanced⟩
      · have kept : round.follows = false := by simp [DepositRound.follows, skipped]
        refine ⟨settled, grown.inAccount, grown.outstanding, fun none => ?_⟩
        simp only [same, continues.tracked]
        exact balanced.measured (by
          simpa [kept, RebalanceType.stakeDepositLamports] using none)
      · rcases balanced.track continues with ⟨settledNow, tracking, unchanged⟩
        have measured : rebalanceType.stakeDepositLamports ≤
            ledger.lamports + round.increase - settledNow := by
          rcases Nat.eq_zero_or_pos rebalanceType.stakeDepositLamports with none | positive
          · rw [none]
            exact Nat.zero_le _
          rcases continues.hasDepositRoom processed rebalanced positive with
            ⟨room, isTracked, above⟩
          have noneMissing : ledger.recent = 0 := reflects.resolve_right (not_not.mpr room)
          have same : ledger.tracked = settled :=
            (balanced.measured noneMissing).resolve_right isTracked
          rw [unchanged room.kept, ← same]
          exact above.trans (Nat.sub_le_sub_right continues.undirectedLamports_le _)
        have moved : next.validatorLamportBalances round.call.index =
            movedBalance (if round.follows then round.call.totalLamports else ledger.tracked)
              rebalanceType := by
          rcases markProgress_eq_ok.mp rebalanced.marked with ⟨progress, _, rfl⟩
          simp only [rebalanced.effect.balances, withTrackedBalance, Function.update_self]
          rw [DepositRound.trackedBalance_eq processed rebalanced.computed, continues.tracked]
        simp only [moved]
        refine ⟨_, tracking.move measured fun components decreased => ?_⟩
        subst decreased
        cases decision_of_rebalanceDecision rebalanced.decision with
        | decrease _ _ _ _ _ _ sum => omega

end DepositLedger

/-- Along a run in which no call has room for a stake deposit while an unstaked one
is missing from the tracked balance, the deposits unstaked never exceed the
external increases. -/
theorem run_unstaked_le_received {start : DepositLedger} (opened : start.Opened)
    {rounds : List DepositRound}
    (conditions : EveryStep DepositLedger.play (fun ledger round =>
      ledger.Continues round ∧ ledger.Reflects round) start rounds) :
    (run DepositLedger.play start rounds).unstaked ≤
      (run DepositLedger.play start rounds).received := by
  have balanced : ∃ settled, (run DepositLedger.play start rounds).Balanced settled := by
    refine run_invariant (fun ledger => ∃ settled, ledger.Balanced settled) ?_
      ⟨start.tracked, DepositLedger.balanced_of_opened opened⟩ conditions
    rintro ledger round ⟨settled, balanced⟩ ⟨continues, reflects⟩
    exact balanced.play continues reflects
  rcases balanced with ⟨settled, balanced⟩
  exact balanced.unstaked_le_received

/-! A lone validator without delegation. Its stake may leave as a stake deposit
only. -/

def depositState (tracked stakeDepositUnstakeTotal : Nat) : StewardStateV2 :=
  { ReallocState.initialState 1 11 5 with
    stateTag := .rebalance
    validatorLamportBalances := fun row => if row = 0 then tracked else lamportBalanceDefault
    sortedRawScoreIndices := fun position => if position = 0 then 0 else sortedIndexDefault
    stakeDepositUnstakeTotal := stakeDepositUnstakeTotal }

def depositCall (currentEpoch lamports : Nat) : RebalanceCall where
  stakeMeta := .initial
  currentEpoch := currentEpoch
  index := 0
  validatorList := {
    accountType := .validatorList
    entries := [⟨lamports, 0, 0, .active, 1⟩]
    leftover := [] }
  stakePoolLamports := 10002
  reserveLamports := 5000
  stakeAccountCurrentLamports := lamports - 2
  minimumDelegation := 1
  stakeRent := 1
  parameters := { Parameters.fixture with
    scoringUnstakeCapBps := 0, instantUnstakeCapBps := 0, stakeDepositUnstakeCapBps := 5000 }

def depositStart : DepositLedger := ⟨1002, 1002, 0, 0, 0⟩

/-- 500 lamports arrive and are unstaked. -/
def depositArrives : DepositRound := ⟨500, depositState 1002 0, depositCall 1 1502⟩

/-- The epoch after, in which nothing arrives. -/
def nothingArrives : DepositRound := ⟨0, depositState 504 498, depositCall 2 1004⟩

/-- The same epoch, with a cap that is used up. -/
def capUsedUp : DepositRound := { nothingArrives with
  call := { nothingArrives.call with
    parameters := { nothingArrives.call.parameters with stakeDepositUnstakeCapBps := 498 } } }

theorem depositStart_opened : depositStart.Opened :=
  ⟨by decide, rfl, rfl, rfl, rfl⟩

theorem depositStart_continues : depositStart.Continues depositArrives :=
  ⟨rfl, rfl, by decide⟩

theorem depositLedger_continues :
    (depositStart.play depositArrives).Continues nothingArrives := by
  constructor <;> decide +kernel

theorem run_unstaked_le_received_capUsedUp :
    (run DepositLedger.play depositStart [depositArrives, capUsedUp]).unstaked = 498 ∧
      498 ≤ (run DepositLedger.play depositStart [depositArrives, capUsedUp]).received := by
  have unstaked :
      (run DepositLedger.play depositStart [depositArrives, capUsedUp]).unstaked = 498 := by
    decide +kernel
  have noRoom : ¬capUsedUp.HasDepositRoom := fun room =>
    absurd room.belowCap (by decide +kernel)
  have continues : (depositStart.play depositArrives).Continues capUsedUp :=
    ⟨depositLedger_continues.tracked, depositLedger_continues.lamports,
      depositLedger_continues.representable⟩
  have bounded := run_unstaked_le_received depositStart_opened
    (show EveryStep DepositLedger.play (fun ledger round =>
        ledger.Continues round ∧ ledger.Reflects round) depositStart [depositArrives, capUsedUp]
      from ⟨⟨depositStart_continues, .inl rfl⟩, ⟨continues, .inr noRoom⟩, trivial⟩)
  rw [unstaked] at bounded
  exact ⟨unstaked, bounded⟩

/-- The deposit of the first epoch is unstaked again in the second. -/
theorem not_run_unstaked_le_received :
    depositStart.Opened ∧
      EveryStep DepositLedger.play DepositLedger.Continues depositStart
        [depositArrives, nothingArrives] ∧
      ¬(run DepositLedger.play depositStart [depositArrives, nothingArrives]).unstaked ≤
        (run DepositLedger.play depositStart [depositArrives, nothingArrives]).received :=
  ⟨depositStart_opened, ⟨depositStart_continues, depositLedger_continues, trivial⟩,
    by decide +kernel⟩

end Stakenet.Steward

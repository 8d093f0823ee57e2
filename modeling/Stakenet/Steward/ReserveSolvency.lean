import Stakenet.Steward.RebalanceEffect
import Stakenet.Steward.Steps

/-! The reserve during a pass over the Rebalance state. Every validator that is
still to come may need one rent, and one more stays in the reserve itself. -/

namespace Stakenet.Steward

/-- The most that the stake pool program takes from the reserve for a movement. -/
def RebalanceType.withdrawal (stakeRent : Nat) : RebalanceType → Nat
  | .increase lamports => lamports + stakeRent
  | .decrease _ => stakeRent
  | .none => 0

/-- The state account and the reserve during a pass. -/
structure Pass where
  state : StewardStateV2
  reserve : Nat

inductive PassStep
  /-- A rebalance instruction; `withdrawn` leaves the reserve if it succeeds. -/
  | call (environment : Environment) (inputs : Rebalance.Inputs)
      (stakeMeta : DirectedStakeMeta) (withdrawn : Nat)
  | deposit (lamports : Nat)
  /-- Any other change of the state that is not progress of the pass. -/
  | other (replacement : StewardStateV2)

namespace Pass

def step (pass : Pass) : PassStep → Pass
  | .call environment inputs stakeMeta withdrawn =>
      match Rebalance.handler environment inputs stakeMeta pass.state with
      | .ok (next, _) => ⟨next, pass.reserve - withdrawn⟩
      | .error _ => pass
  | .deposit lamports => { pass with reserve := pass.reserve + lamports }
  | .other replacement =>
      { pass with
        state := { replacement with
          stateTag := pass.state.stateTag
          progress := pass.state.progress } }

/-- A rebalance instruction of this pass, on the reserve as it is. -/
structure Calls (numValidators stakeRent : Nat) (pass : Pass) (environment : Environment)
    (inputs : Rebalance.Inputs) : Prop where
  tag : pass.state.stateTag = .rebalance
  length : environment.validatorList.len = numValidators
  rent : inputs.stakeRent = stakeRent
  reserve : inputs.reserveLamports = pass.reserve

/-- A step of a pass: nothing leaves the reserve but through movements. -/
def Allowed (numValidators stakeRent : Nat) (pass : Pass) : PassStep → Prop
  | .call environment inputs stakeMeta withdrawn =>
      pass.Calls numValidators stakeRent environment inputs ∧
        ∀ next rebalanceType,
          Rebalance.handler environment inputs stakeMeta pass.state =
            .ok (next, rebalanceType) →
          withdrawn ≤ rebalanceType.withdrawal stakeRent
  | _ => True

/-- While the pass is on, the reserve has the rent of all accounts still to come,
and only rows of the list have been processed. -/
def Solvent (numValidators stakeRent : Nat) (pass : Pass) : Prop :=
  pass.state.stateTag = .rebalance →
    (∀ row ∈ pass.state.progress.rows, row < numValidators) ∧
      (numValidators + 1 - pass.state.progress.count) * stakeRent ≤ pass.reserve

/-! ## Counting processed rows -/

variable {numValidators : Nat}

theorem count_le_of_rows {progress : BitMask}
    (listed : ∀ row ∈ progress.rows, row < numValidators) :
    progress.count ≤ numValidators := by
  rw [BitMask.count_eq_card, ← Finset.card_range numValidators]
  apply Finset.card_le_card
  intro row member
  exact Finset.mem_range.mpr (listed row member)

theorem rows_of_set {progress next : BitMask} {index : Nat} (bounded : index < numValidators)
    (listed : ∀ row ∈ progress.rows, row < numValidators)
    (written : progress.set index true = .ok next) :
    ∀ row ∈ next.rows, row < numValidators := by
  intro row member
  rw [BitMask.rows_set_true written, Finset.mem_insert] at member
  rcases member with rfl | member
  · exact bounded
  · exact listed row member

theorem count_le_of_set {progress next : BitMask} {index : Nat}
    (written : progress.set index true = .ok next) : progress.count ≤ next.count := by
  rw [BitMask.count_eq_card, BitMask.count_eq_card, BitMask.rows_set_true written]
  exact Finset.card_le_card (Finset.subset_insert _ _)

/-! ## One rebalance -/

variable {stakeRent reserve : Nat}

/-- A call keeps the rent for the accounts after it, and can pay for its
movement. -/
theorem rebalance_solvent {state next : StewardStateV2} {call : RebalanceCall}
    {rebalanceType : RebalanceType}
    (length : call.validatorList.len = numValidators) (rent : call.stakeRent = stakeRent)
    (limited : call.reserveLamports ≤ reserve) (bounded : call.index < numValidators)
    (listed : ∀ row ∈ state.progress.rows, row < numValidators)
    (funded : (numValidators + 1 - state.progress.count) * stakeRent ≤ reserve)
    (rebalancing : state.rebalance call = .ok (next, rebalanceType)) :
    (∀ row ∈ next.progress.rows, row < numValidators) ∧
      (numValidators + 1 - next.progress.count) * stakeRent +
        rebalanceType.withdrawal stakeRent ≤ reserve := by
  have counted := count_le_of_rows listed
  rcases (rebalance_cases rebalancing).2.2 with
    ⟨_, rfl, rfl⟩ | ⟨_, marked, rfl⟩ | ⟨⟨fresh, _⟩, terms, applied, rebalanced⟩
  · exact ⟨listed, funded⟩
  · rcases markProgress_eq_ok.mp marked with ⟨progress, written, rfl⟩
    refine ⟨rows_of_set bounded listed written, ?_⟩
    have grown := count_le_of_set written
    have fewer : numValidators + 1 - progress.count ≤
        numValidators + 1 - state.progress.count := by omega
    exact (Nat.mul_le_mul_right stakeRent fewer).trans funded
  · have progressKept : applied.progress = state.progress :=
      congrArg (·.progress) rebalanced.effect.others
    rcases markProgress_eq_ok.mp rebalanced.marked with ⟨progress, written, rfl⟩
    rw [progressKept] at written
    refine ⟨rows_of_set bounded listed written, ?_⟩
    have one : progress.count = state.progress.count + 1 :=
      BitMask.count_set_true written fresh
    -- The call needs one rent less than the pass did before it.
    have split : (numValidators + 1 - state.progress.count) * stakeRent =
        (numValidators + 1 - progress.count) * stakeRent + stakeRent := by
      have step : numValidators + 1 - state.progress.count =
          numValidators + 1 - progress.count + 1 := by omega
      rw [step, Nat.add_mul, Nat.one_mul]
    have terms := termsOf_of_rebalanceTerms rebalanced.computed
    cases decision_of_rebalanceDecision rebalanced.decision with
    | none =>
        show (numValidators + 1 - progress.count) * stakeRent + 0 ≤ reserve
        omega
    | decrease components =>
        show (numValidators + 1 - progress.count) * stakeRent + stakeRent ≤ reserve
        omega
    | increase lamports large within =>
        rw [terms.reserve, rent, length, Nat.mul_comm] at within
        show (numValidators + 1 - progress.count) * stakeRent + (lamports + stakeRent) ≤ reserve
        omega

/-- The reserve a handler passes on is never more than there is. -/
theorem cappedReserve_le (reserveLamports undirectedPoolLamports stakeCeiling : Nat) :
    Rebalance.cappedReserve reserveLamports undirectedPoolLamports stakeCeiling ≤
      reserveLamports := by
  unfold Rebalance.cappedReserve
  split
  · exact Nat.zero_le _
  · exact Nat.min_le_left _ _

/-- The same for the instruction: it leaves the rent that is still needed if the
pass goes on, and can pay for its movement. -/
theorem handler_solvent {pass : Pass} {environment : Environment} {inputs : Rebalance.Inputs}
    {stakeMeta : DirectedStakeMeta} {next : StewardStateV2} {rebalanceType : RebalanceType}
    (calls : pass.Calls numValidators stakeRent environment inputs)
    (solvent : pass.Solvent numValidators stakeRent)
    (handled : Rebalance.handler environment inputs stakeMeta pass.state =
      .ok (next, rebalanceType)) :
    Solvent numValidators stakeRent
        ⟨next, pass.reserve - rebalanceType.withdrawal stakeRent⟩ ∧
      rebalanceType.withdrawal stakeRent ≤ pass.reserve := by
  rcases solvent calls.tag with ⟨listed, funded⟩
  rcases Rebalance.handler_cases handled with ⟨_, changed, rfl⟩ | ⟨_, _, moving⟩
  · refine ⟨fun still => ?_, Nat.zero_le _⟩
    exact absurd (calls.tag.trans still.symm) changed
  · rcases Rebalance.move_cases moving with ⟨bounded, cases⟩
    rw [calls.length] at bounded
    rcases cases with ⟨_, rfl, marked⟩ | ⟨active, rebalanced, _, _, rebalancing, moved⟩
    · rcases markProgress_eq_ok.mp marked with ⟨progress, written, rfl⟩
      refine ⟨fun _ => ⟨rows_of_set bounded listed written, ?_⟩, Nat.zero_le _⟩
      have grown := count_le_of_set written
      have fewer : numValidators + 1 - progress.count ≤
          numValidators + 1 - pass.state.progress.count := by omega
      exact (Nat.mul_le_mul_right stakeRent fewer).trans funded
    · have limited : (Rebalance.call environment inputs stakeMeta active).reserveLamports ≤
          pass.reserve := by
        rw [← calls.reserve]
        exact cappedReserve_le _ _ _
      rcases rebalance_solvent calls.length calls.rent limited bounded listed funded rebalancing
        with ⟨stillListed, paid⟩
      refine ⟨fun still => ?_, by omega⟩
      -- A pass that goes on saw no transition.
      have sameTag : rebalanced.stateTag = next.stateTag := by
        have kept := congrArg Control.stateTag (rebalance_control rebalancing)
        exact kept.trans (calls.tag.trans still.symm)
      have notIdle : rebalanced.stateTag ≠ .idle := by
        rw [sameTag]
        intro idle
        rw [idle] at still
        cases still
      have unchanged := transition_silent moved sameTag notIdle
      subst next
      exact ⟨stillListed, by simp only; omega⟩

theorem solvent_step (pass : Pass) (input : PassStep)
    (solvent : pass.Solvent numValidators stakeRent)
    (allowed : pass.Allowed numValidators stakeRent input) :
    (pass.step input).Solvent numValidators stakeRent := by
  cases input with
  | deposit lamports =>
      intro tag
      have before := solvent tag
      exact ⟨before.1, Nat.le_add_right_of_le before.2⟩
  | other replacement =>
      intro tag
      exact solvent tag
  | call environment inputs stakeMeta withdrawn =>
      rcases allowed with ⟨calls, limited⟩
      simp only [step]
      cases handled : Rebalance.handler environment inputs stakeMeta pass.state with
      | error failure => exact solvent
      | ok result =>
          rcases result with ⟨next, rebalanceType⟩
          intro tag
          rcases (handler_solvent calls solvent handled).1 tag with ⟨listed, funded⟩
          have withdrawn := limited next rebalanceType handled
          exact ⟨listed, by simp only at funded ⊢; omega⟩

end Pass

/-- Over a whole pass, in any order of validators: before every call the reserve
has the rent of the accounts still to come, and every increase can be paid. -/
theorem pass_reserve_solvent {numValidators stakeRent : Nat} {start : Pass}
    (fresh : start.state.progress.isEmpty = true)
    (funded : (numValidators + 1) * stakeRent ≤ start.reserve) {steps : List PassStep}
    (allowed : Execution.EveryStep Pass.step (Pass.Allowed numValidators stakeRent) start
      steps) :
    let pass := Execution.run Pass.step start steps
    ∀ environment inputs, pass.Calls numValidators stakeRent environment inputs →
      (numValidators + 1 - pass.state.progress.count) * stakeRent ≤ pass.reserve ∧
      ∀ stakeMeta next lamports,
        Rebalance.handler environment inputs stakeMeta pass.state =
          .ok (next, .increase lamports) →
        lamports + stakeRent ≤ pass.reserve := by
  have startSolvent : start.Solvent numValidators stakeRent := by
    intro _
    have noRows := BitMask.isEmpty_iff.mp fresh
    have noneCounted := BitMask.count_eq_zero_iff.mpr noRows
    rw [noRows, noneCounted]
    exact ⟨by simp, funded⟩
  have solvent := Execution.run_invariant (Pass.Solvent numValidators stakeRent)
    Pass.solvent_step startSolvent allowed
  intro pass environment inputs calls
  refine ⟨(solvent calls.tag).2, ?_⟩
  intro stakeMeta next lamports handled
  exact (Pass.handler_solvent calls solvent handled).2

/-! A pass over two validators: the second has transient stake and is skipped,
the first then gets what the reserve can spare. -/

def twoValidatorEnvironment : Environment where
  clock := ⟨1, 1950⟩
  epochSchedule := .withoutWarmup 1000
  config := ⟨.fixture, false⟩
  validatorList :=
    ⟨.validatorList, [⟨2, 0, 0, .active, 1⟩, ⟨2, 7, 0, .active, 2⟩], []⟩

def twoValidatorPass : Pass where
  state := { ReallocState.initialState 2 11 0 with
    stateTag := .rebalance
    currentEpoch := 1
    delegations := fun row => if row < 2 then ⟨1, 2⟩ else .none
    sortedScoreIndices := fun position =>
      if position < 2 then position else sortedIndexDefault }
  reserve := 1000

def twoValidatorInputs (index : Nat) : Rebalance.Inputs where
  validatorListIndex := index
  validatorHistory := ⟨if index = 0 then 1 else 2, none⟩
  voteAccountOwnedByVoteProgram := true
  stakeAccount := .stake 1
  transientStakeAccount := if index = 0 then .notDelegated else .stake 7
  poolTotalLamports := 4004
  reserveLamports := 1000
  minimumDelegation := 1
  stakeRent := 1
  invoke := fun _ => .ok ()

def twoValidatorStep : PassStep :=
  .call twoValidatorEnvironment (twoValidatorInputs 1) .initial 0

theorem pass_reserve_solvent_twoValidators :
    ∃ pass, Execution.run Pass.step twoValidatorPass [twoValidatorStep] = pass ∧
      pass.state.progress.count = 1 ∧
      (Rebalance.handler twoValidatorEnvironment (twoValidatorInputs 0) .initial
        pass.state).toOption.map Prod.snd = some (.increase 998) ∧
      (2 + 1 - pass.state.progress.count) * 1 ≤ pass.reserve ∧ 998 + 1 ≤ pass.reserve := by
  have counted : (Execution.run Pass.step twoValidatorPass
      [twoValidatorStep]).state.progress.count = 1 := by decide +kernel
  have unstaked : DirectedStakeMeta.initial.totalStakedLamports = 0 :=
    DirectedStakeMeta.totalStakedLamports_eq_zero fun _ => rfl
  have increased : (Rebalance.handler twoValidatorEnvironment (twoValidatorInputs 0) .initial
      (Execution.run Pass.step twoValidatorPass [twoValidatorStep]).state).toOption.map
        Prod.snd = some (.increase 998) := by
    simp only [Rebalance.handler, Rebalance.move, Rebalance.call, unstaked]
    decide +kernel
  have tag : (Execution.run Pass.step twoValidatorPass
      [twoValidatorStep]).state.stateTag = .rebalance := by decide +kernel
  have reserve : (Execution.run Pass.step twoValidatorPass
      [twoValidatorStep]).reserve = 1000 := by decide +kernel
  have fresh : twoValidatorPass.state.progress.isEmpty = true := by decide +kernel
  have allowed : Execution.EveryStep Pass.step (Pass.Allowed 2 1) twoValidatorPass
      [twoValidatorStep] :=
    ⟨⟨⟨rfl, rfl, rfl, rfl⟩, fun _ _ _ => Nat.zero_le _⟩, trivial⟩
  have solvent := pass_reserve_solvent fresh (by decide) allowed twoValidatorEnvironment
    (twoValidatorInputs 0)
  generalize Execution.run Pass.step twoValidatorPass [twoValidatorStep] = pass at *
  rcases solvent ⟨tag, rfl, rfl, reserve.symm⟩ with ⟨funded, payable⟩
  refine ⟨pass, rfl, counted, increased, funded, ?_⟩
  cases handled : Rebalance.handler twoValidatorEnvironment (twoValidatorInputs 0) .initial
      pass.state with
  | error failure =>
      rw [handled] at increased
      cases increased
  | ok result =>
      rcases result with ⟨next, rebalanceType⟩
      rw [handled] at increased
      cases Option.some.inj increased
      exact payable .initial next 998 handled

end Stakenet.Steward

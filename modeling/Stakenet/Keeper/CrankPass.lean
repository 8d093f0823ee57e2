import Stakenet.Foundation.Rounds
import Stakenet.Keeper.StakeUpload
import Stakenet.Steward.Phases

/-! A pass of the keeper over the validators that have not progressed, one instruction for each.
The transactions arrive in any order, and some of them may not arrive. -/

namespace Stakenet.Keeper.CrankPass

open Execution Steward

/-! ## The validators of a pass -/

structure ProgressionInfo where
  index : Nat
  voteAccount : Pubkey
  historyAccount : Pubkey
  deriving DecidableEq, Repr

section Unprogressed

/- The address of the history account of a vote account. -/
variable (historyAddress : Pubkey → Pubkey)

def progressionInfo (index : Nat) (entry : ValidatorStakeInfo) : ProgressionInfo where
  index := index
  voteAccount := entry.voteAccountAddress
  historyAccount := historyAddress entry.voteAccountAddress

/-- The bit mask and the validator list are read with panics. -/
def unprogressedAmong (state : StewardStateV2) (validators : List ValidatorStakeInfo) :
    List Nat → Keeper.Result (List ProgressionInfo)
  | [] => .ok []
  | index :: rest => do
      let hasProgressed ← (state.progress.get index).mapError fun _ => Keeper.Failure.panicked
      if hasProgressed then
        unprogressedAmong state validators rest
      else
        let entry ← unwrap validators[index]?
        let others ← unprogressedAmong state validators rest
        return progressionInfo historyAddress index entry :: others

/-- `get_unprogressed_validators` -/
def getUnprogressedValidators (state : StewardStateV2) (validators : List ValidatorStakeInfo) :
    Keeper.Result (List ProgressionInfo) :=
  unprogressedAmong historyAddress state validators (List.range state.numPoolValidators)

variable {historyAddress} {state : StewardStateV2} {validators : List ValidatorStakeInfo}
variable {infos : List ProgressionInfo}

theorem unprogressedAmong_eq_ok {rows : List Nat} :
    unprogressedAmong historyAddress state validators rows = .ok infos ↔
      (∀ row ∈ rows, row < maxValidators ∧
        (state.progress.contains row = false → row < validators.length)) ∧
      infos = (rows.filter fun row => !state.progress.contains row).filterMap fun row =>
        (validators[row]?).map (progressionInfo historyAddress row) := by
  induction rows generalizing infos with
  | nil =>
      constructor
      · rintro ⟨⟩
        exact ⟨fun _ member => absurd member List.not_mem_nil, rfl⟩
      · rintro ⟨_, rfl⟩
        rfl
  | cons row rest induction =>
      rw [unprogressedAmong, List.forall_mem_cons]
      simp only [Outcome.bind_eq_ok, Outcome.mapError_eq_ok, BitMask.get_eq_ok]
      cases progressed : state.progress.contains row with
      | true =>
          rw [List.filter_cons_of_neg (by simp [progressed])]
          constructor
          · rintro ⟨_, ⟨valid, rfl⟩, others⟩
            rcases induction.mp others with ⟨bounded, rfl⟩
            exact ⟨⟨⟨valid, fun absent => Bool.noConfusion absent⟩, bounded⟩, rfl⟩
          · rintro ⟨⟨⟨valid, _⟩, bounded⟩, rfl⟩
            exact ⟨true, ⟨valid, rfl⟩, induction.mpr ⟨bounded, rfl⟩⟩
      | false =>
          rw [List.filter_cons_of_pos (by simp [progressed])]
          constructor
          · rintro ⟨_, ⟨valid, rfl⟩, found⟩
            simp only [Bool.false_eq_true, if_false, Outcome.bind_eq_ok, unwrap_eq_ok,
              Outcome.pure_eq_ok] at found
            rcases found with ⟨entry, isEntry, others, rest, rfl⟩
            rcases induction.mp rest with ⟨bounded, rfl⟩
            have inList : row < validators.length := (List.getElem?_eq_some_iff.mp isEntry).1
            refine ⟨⟨⟨valid, fun _ => inList⟩, bounded⟩, ?_⟩
            rw [List.filterMap_cons_some]
            rw [isEntry]
            rfl
          · rintro ⟨⟨⟨valid, inList⟩, bounded⟩, rfl⟩
            have isEntry := List.getElem?_eq_getElem (inList rfl)
            refine ⟨false, ⟨valid, rfl⟩, ?_⟩
            simp only [Bool.false_eq_true, if_false, Outcome.bind_eq_ok, unwrap_eq_ok,
              Outcome.pure_eq_ok]
            refine ⟨_, isEntry, _, induction.mpr ⟨bounded, rfl⟩, ?_⟩
            rw [List.filterMap_cons_some]
            rw [isEntry]
            rfl

/-- The rows of the pool that have not progressed. -/
def pendingRows (state : StewardStateV2) : Finset Nat :=
  (Finset.range state.numPoolValidators).filter fun row => state.progress.contains row = false

theorem mem_pendingRows {row : Nat} :
    row ∈ pendingRows state ↔
      row < state.numPoolValidators ∧ state.progress.contains row = false := by
  rw [pendingRows, Finset.mem_filter, Finset.mem_range]

theorem mem_unprogressed
    (read : getUnprogressedValidators historyAddress state validators = .ok infos) {row : Nat} :
    row ∈ infos.map (·.index) ↔ row ∈ pendingRows state := by
  rcases unprogressedAmong_eq_ok.mp read with ⟨bounded, rfl⟩
  rw [mem_pendingRows, List.mem_map]
  constructor
  · rintro ⟨info, member, rfl⟩
    rcases List.mem_filterMap.mp member with ⟨row, inPool, found⟩
    rcases Option.map_eq_some_iff.mp found with ⟨entry, _, rfl⟩
    rw [List.mem_filter, List.mem_range] at inPool
    have unprogressed : state.progress.contains row = false := by simpa using inPool.2
    exact ⟨inPool.1, unprogressed⟩
  · rintro ⟨inPool, unprogressed⟩
    have inList := (bounded row (List.mem_range.mpr inPool)).2 unprogressed
    refine ⟨progressionInfo historyAddress row validators[row], ?_, rfl⟩
    refine List.mem_filterMap.mpr ⟨row, ?_, ?_⟩
    · rw [List.mem_filter, List.mem_range, unprogressed]
      exact ⟨inPool, rfl⟩
    · rw [List.getElem?_eq_getElem inList]
      rfl

theorem lt_of_mem_unprogressed
    (read : getUnprogressedValidators historyAddress state validators = .ok infos) {row : Nat}
    (member : row ∈ infos.map (·.index)) : row < state.numPoolValidators :=
  (mem_pendingRows.mp ((mem_unprogressed read).mp member)).1

/-- When some rows progress and the pool stays as it is, a pass is for the others. -/
theorem getUnprogressedValidators_later
    (read : getUnprogressedValidators historyAddress state validators = .ok infos)
    {later : StewardStateV2} {rows : List Nat}
    (samePool : later.numPoolValidators = state.numPoolValidators)
    (left : pendingRows later = pendingRows state \ rows.toFinset) :
    getUnprogressedValidators historyAddress later validators =
      .ok (infos.filter fun info => info.index ∉ rows) := by
  rcases unprogressedAmong_eq_ok.mp read with ⟨bounded, rfl⟩
  have isLeft : ∀ row < state.numPoolValidators, later.progress.contains row = false ↔
      state.progress.contains row = false ∧ row ∉ rows := by
    intro row inPool
    have member := Finset.ext_iff.mp left row
    rw [Finset.mem_sdiff, mem_pendingRows, mem_pendingRows, List.mem_toFinset, samePool] at member
    simp only [inPool, true_and] at member
    exact member
  refine unprogressedAmong_eq_ok.mpr ⟨fun row member => ?_, ?_⟩
  · rw [samePool] at member
    refine ⟨(bounded row member).1, fun unprogressed => (bounded row member).2 ?_⟩
    exact ((isLeft row (List.mem_range.mp member)).mp unprogressed).1
  · have same : ((List.range later.numPoolValidators).filter fun row =>
          !later.progress.contains row) =
        ((List.range state.numPoolValidators).filter fun row =>
          !state.progress.contains row).filter fun row => row ∉ rows := by
      rw [samePool, List.filter_filter]
      refine List.filter_congr fun row member => ?_
      rw [Bool.eq_iff_iff, Bool.not_eq_true', isLeft row (List.mem_range.mp member),
        Bool.and_eq_true, Bool.not_eq_true', decide_eq_true_eq, and_comm]
    rw [same]
    generalize (List.range state.numPoolValidators).filter _ = unprogressed
    rw [List.filter_filterMap, List.filterMap_filter]
    refine List.filterMap_congr fun row _ => ?_
    cases validators[row]? <;> by_cases delivered : row ∈ rows <;>
      simp [delivered, progressionInfo]

end Unprogressed

/-! ## Deliveries -/

/-- The row that a crank is for. -/
def row (transaction : Transaction) : Nat :=
  match transaction.instruction with
  | .computeScore inputs => inputs.validatorListIndex
  | .computeInstantUnstake inputs => inputs.validatorListIndex
  | .rebalance inputs => inputs.validatorListIndex
  | _ => 0

/-- The instruction that the keeper sends for a validator in a state of the machine. -/
def Cranks (tag : StewardStateEnum) (transaction : Transaction) : Prop :=
  match tag, transaction.instruction with
  | .computeScores, .computeScore _ => True
  | .computeInstantUnstake, .computeInstantUnstake _ => True
  | .rebalance, .rebalance _ => True
  | _, _ => False

/-- The transactions of a pass that arrive, in the order in which they do. Instructions that were
packed into one transaction arrive together. -/
structure Deliveries (tag : StewardStateEnum) (infos : List ProgressionInfo)
    (delivered : List Transaction) : Prop where
  cranks : ∀ transaction ∈ delivered, Cranks tag transaction
  distinct : (delivered.map row).Nodup
  among : ∀ transaction ∈ delivered, row transaction ∈ infos.map (·.index)

/-- All of them are executed with success. -/
def executeAll (accounts : Accounts) (delivered : List Transaction) : Steward.Result Accounts :=
  delivered.foldlM (fun accounts transaction => transaction.process accounts) accounts

/-! ## One row -/

/-- The row is marked as processed, and the machine stays where it is. -/
structure Progressed (state : StewardStateV2) (row : Nat) (next : StewardStateV2) : Prop where
  marked : state.progress.set row true = .ok next.progress
  tag : next.stateTag = state.stateTag
  pool : next.numPoolValidators = state.numPoolValidators
  flags : next.statusFlags = state.statusFlags

section Rows

variable {state next : StewardStateV2} {row : Nat} {environment : Environment}

theorem Progressed.pendingRows_eq (progressed : Progressed state row next) :
    pendingRows next = (pendingRows state).erase row := by
  ext other
  rw [mem_pendingRows, Finset.mem_erase, mem_pendingRows, progressed.pool,
    BitMask.contains_set progressed.marked]
  by_cases same : other = row
  · simp [same]
  · simp [same]

theorem complete_iff :
    (∀ index < state.numPoolValidators, state.progress.contains index = true) ↔
      pendingRows state = ∅ := by
  rw [Finset.eq_empty_iff_forall_notMem]
  constructor
  · intro complete index member
    rcases mem_pendingRows.mp member with ⟨bounded, unprogressed⟩
    rw [complete index bounded] at unprogressed
    cases unprogressed
  · intro none index bounded
    by_contra unprogressed
    exact none index (mem_pendingRows.mpr ⟨bounded, Bool.eq_false_of_not_eq_true unprogressed⟩)

theorem progressed_of_markProgress (marked : state.markProgress row = .ok next) :
    Progressed state row next := by
  rcases markProgress_eq_ok.mp marked with ⟨progress, written, rfl⟩
  exact ⟨written, rfl, rfl, rfl⟩

theorem progressed_of_rebalance {call : RebalanceCall} {rebalanceType : RebalanceType}
    (unprogressed : state.progress.contains call.index = false)
    (rebalancing : state.rebalance call = .ok (next, rebalanceType)) :
    Progressed state call.index next := by
  have others := rebalance_others rebalancing
  have marked : state.progress.set call.index true = .ok next.progress := by
    rcases (rebalance_cases rebalancing).2.2 with
      ⟨progressed, _⟩ | ⟨_, marked, _⟩ | ⟨_, terms, applied, rebalanced⟩
    · rw [unprogressed] at progressed
      cases progressed
    · exact (progressed_of_markProgress marked).marked
    · have written := (progressed_of_markProgress rebalanced.marked).marked
      rw [rebalanced.effect.others] at written
      exact written
  exact ⟨marked, congrArg (·.stateTag) others, congrArg (·.numPoolValidators) others,
    congrArg (·.statusFlags) others⟩

theorem progressed_of_computeInstantUnstake {clock : Clock} {epochSchedule : EpochSchedule}
    {validator : Steward.ValidatorHistory} {cluster : Steward.ClusterHistory} {config : Config}
    {instantUnstakeValidator : Steward.Result Bool} {verdict : Option Bool}
    (unprogressed : state.progress.contains row = false)
    (computed : state.computeInstantUnstake clock epochSchedule validator row cluster config
      instantUnstakeValidator = .ok (next, verdict)) :
    Progressed state row next := by
  have others := computeInstantUnstake_others computed
  refine ⟨?_, congrArg (·.stateTag) others, congrArg (·.numPoolValidators) others,
    congrArg (·.statusFlags) others⟩
  simp only [StewardStateV2.computeInstantUnstake] at computed
  split at computed
  case isFalse => simp at computed
  case isTrue =>
    split at computed
    case isTrue => simp at computed
    case isFalse =>
      simp only [Outcome.bind_eq_ok] at computed
      rcases computed with ⟨progress, _, computed⟩
      split at computed
      case isTrue => simp at computed
      case isFalse =>
        simp only [Outcome.bind_eq_ok, BitMask.get_eq_ok] at computed
        rcases computed with ⟨_, ⟨_, rfl⟩, computed⟩
        simp only [unprogressed, Bool.false_eq_true, if_false, Outcome.bind_eq_ok] at computed
        rcases computed with ⟨toRemove, _, immediate, _, computed⟩
        split at computed
        · simp only [Outcome.bind_eq_ok, Outcome.pure_eq_ok, Prod.mk.injEq] at computed
          rcases computed with ⟨mask, written, rfl, _⟩
          exact written
        · simp only [Outcome.bind_eq_ok, Outcome.pure_eq_ok, Prod.mk.injEq] at computed
          rcases computed with ⟨_, _, value, _, unstake, _, mask, written, rfl, _⟩
          exact written

/-! ## Transitions -/

/-- A state is left when the mask of its progress is complete. -/
theorem eq_of_isComplete {ε : Type} {complete : Bool} {done waiting : StewardStateV2}
    (meaning : complete = true ↔ pendingRows state = ∅)
    (moved : (if complete = true then pure done else pure waiting : Except ε StewardStateV2) =
      .ok next) : next = if pendingRows state = ∅ then done else waiting := by
  cases complete with
  | true =>
      rw [if_pos (meaning.mp rfl)]
      exact (Outcome.pure_eq_ok.mp moved).symm
  | false =>
      rw [if_neg fun none => Bool.false_ne_true (meaning.mpr none)]
      exact (Outcome.pure_eq_ok.mp moved).symm

theorem transition_computeInstantUnstake (tag : state.stateTag = .computeInstantUnstake)
    (moved : environment.transition state = .ok next) :
    next = if pendingRows state = ∅ then
      ({ state with stateTag := .rebalance, progress := .empty }.setFlag
        computeInstantUnstakesFlag)
    else state := by
  simp only [StewardStateV2.transition, Outcome.bind_eq_ok, tag,
    StewardStateV2.transitionComputeInstantUnstake, BitMask.isComplete_eq_ok,
    complete_iff] at moved
  rcases moved with ⟨progress, _, complete, ⟨_, meaning⟩, moved⟩
  exact eq_of_isComplete meaning moved

theorem transition_computeScores (tag : state.stateTag = .computeScores)
    (moved : environment.transition state = .ok next) :
    next = if pendingRows state = ∅ then
      ({ state with
        stateTag := .computeDelegations
        progress := .empty
        delegations := fun _ => .none }.setFlag computeScoreFlag)
    else state := by
  simp only [StewardStateV2.transition, Outcome.bind_eq_ok, tag,
    StewardStateV2.transitionComputeScores, BitMask.isComplete_eq_ok, complete_iff] at moved
  rcases moved with ⟨progress, _, complete, ⟨_, meaning⟩, moved⟩
  exact eq_of_isComplete meaning moved

theorem transition_rebalance (tag : state.stateTag = .rebalance)
    (running : state.hasFlag resetToIdleFlag = false)
    (moved : environment.transition state = .ok next) :
    next = if pendingRows state = ∅ then { state with stateTag := .idle }.setFlag rebalanceFlag
      else state := by
  simp only [StewardStateV2.transition, Outcome.bind_eq_ok, tag,
    StewardStateV2.transitionRebalance, running, Bool.false_eq_true, if_false,
    BitMask.isComplete_eq_ok, complete_iff] at moved
  rcases moved with ⟨progress, _, complete, ⟨_, meaning⟩, moved⟩
  exact eq_of_isComplete meaning moved

end Rows

/-! ## Stages -/

/-- The machine is in a state with some rows left to process. -/
structure Active (tag : StewardStateEnum) (pool : Nat) (flags : BitVec 32) (pending : Finset Nat)
    (accounts : Accounts) : Prop where
  tagged : accounts.state.stateTag = tag
  pool : accounts.state.numPoolValidators = pool
  flags : accounts.state.statusFlags = flags
  pending : pendingRows accounts.state = pending

theorem Active.progressed {tag : StewardStateEnum} {pool : Nat} {flags : BitVec 32}
    {pending : Finset Nat} {accounts : Accounts} (active : Active tag pool flags pending accounts)
    {index : Nat} {next : StewardStateV2} (progressed : Progressed accounts.state index next)
    (stakeMeta : DirectedStakeMeta) :
    Active tag pool flags (pending.erase index) ⟨next, stakeMeta⟩ :=
  ⟨progressed.tag.trans active.tagged, progressed.pool.trans active.pool,
    progressed.flags.trans active.flags, by rw [progressed.pendingRows_eq, active.pending]⟩

section Handling

variable {pool : Nat} {flags : BitVec 32} {environment : Environment}
variable {state next : StewardStateV2}

/-- No transition precedes the work while rows are left. -/
theorem computeInstantUnstake_handled {inputs : ComputeInstantUnstake.Inputs}
    (tag : state.stateTag = .computeInstantUnstake)
    (isPending : inputs.validatorListIndex ∈ pendingRows state)
    (succeeded : ComputeInstantUnstake.handler environment inputs state = .ok next) :
    ∃ computed, Progressed state inputs.validatorListIndex computed ∧
      environment.transition computed = .ok next := by
  simp only [ComputeInstantUnstake.handler, Outcome.bind_eq_ok] at succeeded
  rcases succeeded with ⟨⟨moved, event⟩, first, succeeded⟩
  rcases maybeTransition_eq_ok first with ⟨transitioned, reported⟩
  have same := transition_computeInstantUnstake tag transitioned
  rw [if_neg (Finset.ne_empty_of_mem isPending)] at same
  subst moved
  have silent : ¬event.isSome = true := fun emitted => reported.mp emitted rfl
  simp only [silent, Bool.false_eq_true, if_false, Outcome.bind_eq_ok,
    Outcome.pure_eq_ok] at succeeded
  rcases succeeded with ⟨_, _, _, _, _, _, ⟨computed, verdict⟩, worked, ⟨last, _⟩, final, rfl⟩
  exact ⟨computed,
    progressed_of_computeInstantUnstake (mem_pendingRows.mp isPending).2 worked,
    (maybeTransition_eq_ok final).1⟩

theorem rebalance_handled {inputs : Rebalance.Inputs} {stakeMeta : DirectedStakeMeta}
    {rebalanceType : RebalanceType} (tag : state.stateTag = .rebalance)
    (running : state.hasFlag resetToIdleFlag = false)
    (isPending : inputs.validatorListIndex ∈ pendingRows state)
    (succeeded : Rebalance.handler environment inputs stakeMeta state =
      .ok (next, rebalanceType)) :
    (0 < Rebalance.transientLamports inputs.transientStakeAccount ∧
        Progressed state inputs.validatorListIndex next) ∨
      (Rebalance.transientLamports inputs.transientStakeAccount = 0 ∧
        ∃ rebalanced, Progressed state inputs.validatorListIndex rebalanced ∧
          environment.transition rebalanced = .ok next) := by
  rcases Rebalance.handler_cases succeeded with ⟨moved, different, _⟩ | ⟨_, _, moving⟩
  · have same := transition_rebalance tag running moved
    rw [if_neg (Finset.ne_empty_of_mem isPending)] at same
    exact absurd (congrArg (·.stateTag) same.symm) different
  · rcases (Rebalance.move_cases moving).2 with
      ⟨transient, _, marked⟩ | ⟨active, rebalanced, none, _, computed, moved⟩
    · exact .inl ⟨transient, progressed_of_markProgress marked⟩
    · refine .inr ⟨none, rebalanced, progressed_of_rebalance ?_ computed, moved⟩
      exact (mem_pendingRows.mp isPending).2

/-- All validators of a pass are delivered. -/
def Covered (infos : List ProgressionInfo) (delivered : List Transaction) : Prop :=
  ∀ info ∈ infos, info.index ∈ delivered.map row

/-- A pass either processes the last row, or leaves the rows that were not delivered. -/
theorem pass_cases {tag : StewardStateEnum} {Done : Transaction → Accounts → Prop}
    {accounts final : Accounts}
    (handles : Rounds.Handles (fun accounts transaction => transaction.process accounts) row
      (Cranks tag)
      (Active tag accounts.state.numPoolValidators accounts.state.statusFlags) Done)
    {historyAddress : Pubkey → Pubkey} {validators : List ValidatorStakeInfo}
    {infos : List ProgressionInfo}
    (read : getUnprogressedValidators historyAddress accounts.state validators = .ok infos)
    (tagged : accounts.state.stateTag = tag) (remains : infos ≠ []) {delivered : List Transaction}
    (deliveries : Deliveries tag infos delivered)
    (executed : executeAll accounts delivered = .ok final) :
    (Covered infos delivered → ∃ last, delivered.getLast? = some last ∧ Done last final) ∧
    (¬Covered infos delivered → final.state.stateTag = tag ∧
      getUnprogressedValidators historyAddress final.state validators =
        .ok (infos.filter fun info => info.index ∉ delivered.map row)) := by
  have covered : pendingRows accounts.state ⊆ (delivered.map row).toFinset ↔
      Covered infos delivered := by
    constructor
    · intro subset info member
      have isPending := (mem_unprogressed read).mp (List.mem_map_of_mem member)
      exact List.mem_toFinset.mp (subset isPending)
    · intro covered row isPending
      rcases List.mem_map.mp ((mem_unprogressed read).mpr isPending) with ⟨info, member, rfl⟩
      exact List.mem_toFinset.mpr (covered info member)
  have some : pendingRows accounts.state ≠ ∅ := by
    rcases List.exists_mem_of_ne_nil infos remains with ⟨info, member⟩
    exact Finset.ne_empty_of_mem ((mem_unprogressed read).mp (List.mem_map_of_mem member))
  have active : Active tag accounts.state.numPoolValidators accounts.state.statusFlags
      (pendingRows accounts.state) accounts := ⟨tagged, rfl, rfl, rfl⟩
  have cases := handles.foldlM deliveries.cranks deliveries.distinct
    (fun transaction member => (mem_unprogressed read).mp (deliveries.among transaction member))
    active some executed
  rw [covered] at cases
  refine ⟨cases.1, fun uncovered => ?_⟩
  have left := cases.2 uncovered
  exact ⟨left.tagged, getUnprogressedValidators_later read left.pool left.pending⟩

/-! A cycle of a pool of two validators. The first one has transient stake when the rebalance
comes. -/

def pairEnvironment : Environment where
  clock := ⟨1, 1950⟩
  epochSchedule := .withoutWarmup 1000
  config := ⟨{ Parameters.fixture with numDelegationValidators := 2 }, false⟩
  validatorList := ⟨.validatorList, [⟨2, 7, 0, .active, 1⟩, ⟨5, 0, 0, .active, 2⟩], []⟩

def pairValidators : List ValidatorStakeInfo := pairEnvironment.validatorList.entries

def pairInfo (index : Nat) : ProgressionInfo := ⟨index, index + 1, index + 1⟩

/-- The maintenance of the epoch is done, and directed stake has been moved. -/
def pairOrigin : Accounts where
  state := { ReallocState.initialState 2 10 0 with
    stateTag := .computeScores
    currentEpoch := 1
    statusFlags := epochMaintenanceFlag ||| rebalanceDirectedCompleteFlag }
  stakeMeta := .initial

def scoreCrank (index : Nat) : Transaction :=
  ⟨pairEnvironment,
    .computeScore ⟨index, ⟨index + 1, some 1950⟩, ⟨1950⟩, .ok ⟨7 + index, 7 + index⟩⟩⟩

def delegationsCrank : Transaction := ⟨pairEnvironment, .computeDelegations⟩

def idleCrank : Transaction := ⟨pairEnvironment, .idle⟩

def unstakeCrank (index : Nat) : Transaction :=
  ⟨pairEnvironment,
    .computeInstantUnstake ⟨index, ⟨index + 1, some 1950⟩, ⟨1950⟩, .ok false⟩⟩

def rebalanceInputs (index : Nat) : Rebalance.Inputs where
  validatorListIndex := index
  validatorHistory := ⟨index + 1, some 1950⟩
  voteAccountOwnedByVoteProgram := true
  stakeAccount := if index = 0 then .stake 1 else .stake 5
  transientStakeAccount := if index = 0 then .stake 7 else .notDelegated
  poolTotalLamports := 1000
  reserveLamports := 100
  minimumDelegation := 1
  stakeRent := 1
  invoke := fun _ => .ok ()

def rebalanceCrank (index : Nat) : Transaction :=
  ⟨pairEnvironment, .rebalance (rebalanceInputs index)⟩

def cycleCranks : List Transaction :=
  [1, 0].map scoreCrank ++ [delegationsCrank, idleCrank] ++ [1, 0].map unstakeCrank ++
    [0, 1].map rebalanceCrank

def crankedTo (count : Nat) : Accounts := run execute pairOrigin (cycleCranks.take count)

theorem run_of_executeAll {accounts next : Accounts} {delivered : List Transaction}
    (executed : executeAll accounts delivered = .ok next) :
    run execute accounts delivered = next := by
  induction delivered generalizing accounts with
  | nil => exact Except.ok.inj executed
  | cons transaction rest induction =>
      rw [executeAll, List.foldlM_cons, Outcome.bind_eq_ok] at executed
      rcases executed with ⟨reached, processed, executed⟩
      rw [run_cons, execute, processed]
      exact induction executed

theorem executeAll_singleton {accounts : Accounts} {transaction : Transaction} :
    executeAll accounts [transaction] = transaction.process accounts := by
  rw [executeAll, List.foldlM_cons]
  exact bind_pure _

theorem executeAll_append {accounts reached : Accounts} {delivered : List Transaction}
    (executed : executeAll accounts delivered = .ok reached) (later : List Transaction) :
    executeAll accounts (delivered ++ later) = executeAll reached later := by
  rw [executeAll] at executed
  rw [executeAll, List.foldlM_append, executed, Outcome.ok_bind, executeAll]

theorem executeAll_crankedTo (count : Nat) (delivered : List Transaction)
    (isNext : (cycleCranks.drop count).take delivered.length = delivered)
    (succeeds : (executeAll (crankedTo count) delivered).isOk = true) :
    executeAll (crankedTo count) delivered = .ok (crankedTo (count + delivered.length)) := by
  rcases Outcome.exists_eq_ok succeeds with ⟨reached, executed⟩
  rw [executed, ← run_of_executeAll executed, crankedTo, crankedTo, List.take_add, isNext,
    run_append]

section Rows

variable {tag : StewardStateEnum} {infos : List ProgressionInfo} {crank : Nat → Transaction}
variable {rows : List Nat}

theorem map_row (isRow : ∀ index, row (crank index) = index) : (rows.map crank).map row = rows := by
  rw [List.map_map]
  exact (List.map_congr_left fun index _ => isRow index).trans (List.map_id _)

theorem deliveries_map (cranks : ∀ index, Cranks tag (crank index))
    (isRow : ∀ index, row (crank index) = index) (distinct : rows.Nodup)
    (among : ∀ index ∈ rows, index ∈ infos.map (·.index)) :
    Deliveries tag infos (rows.map crank) where
  cranks := List.forall_mem_map.mpr fun index _ => cranks index
  distinct := (map_row isRow).symm ▸ distinct
  among := List.forall_mem_map.mpr fun index member => (isRow index).symm ▸ among index member

theorem covered_map_iff (isRow : ∀ index, row (crank index) = index) :
    Covered infos (rows.map crank) ↔ ∀ info ∈ infos, info.index ∈ rows := by
  rw [Covered, map_row isRow]

end Rows

/-! ## Instant unstake -/

/-- After the last row the machine rebalances, and every row is unprocessed again. -/
def UnstakeDone (pool : Nat) (flags : BitVec 32) (_ : Transaction) (accounts : Accounts) : Prop :=
  accounts.state.stateTag = .rebalance ∧
    accounts.state.statusFlags = flags ||| computeInstantUnstakesFlag ∧
    accounts.state.numPoolValidators = pool ∧ accounts.state.progress = .empty

theorem handles_computeInstantUnstake :
    Rounds.Handles (fun accounts transaction => transaction.process accounts) row
      (Cranks .computeInstantUnstake) (Active .computeInstantUnstake pool flags)
      (UnstakeDone pool flags) := by
  rintro pending accounts ⟨environment, instruction⟩ ⟨nextState, nextMeta⟩ active cranks isPending
    processed
  cases instruction with
  | computeInstantUnstake inputs =>
      dsimp only [row] at isPending ⊢
      rcases Accounts.withState_eq_ok.mp processed with ⟨handled, rfl⟩
      rcases computeInstantUnstake_handled active.tagged (active.pending ▸ isPending) handled with
        ⟨computed, progressed, moved⟩
      have later := active.progressed progressed accounts.stakeMeta
      have isNext := transition_computeInstantUnstake later.tagged moved
      rw [later.pending] at isNext
      dsimp only at isNext
      constructor
      · intro isLast
        rw [if_pos isLast] at isNext
        subst nextState
        exact ⟨rfl, congrArg (· ||| computeInstantUnstakesFlag) later.flags, later.pool, rfl⟩
      · intro remains
        rw [if_neg remains] at isNext
        subst nextState
        exact later
  | _ => exact absurd cranks id

theorem unstakes_pending : (crankedTo 4).state.stateTag = .computeInstantUnstake ∧
    getUnprogressedValidators id (crankedTo 4).state pairValidators =
      .ok [pairInfo 0, pairInfo 1] := by
  decide +kernel

/-- The rebalance skips a validator with transient stake. -/
def Skips (transaction : Transaction) : Prop :=
  ∃ inputs, transaction.instruction = .rebalance inputs ∧
    0 < Rebalance.transientLamports inputs.transientStakeAccount

/-- No transition is tried for a validator that is skipped, so that one after the last row is
missed. -/
def RebalanceDone (pool : Nat) (flags : BitVec 32) (last : Transaction) (accounts : Accounts) :
    Prop :=
  accounts.state.numPoolValidators = pool ∧ pendingRows accounts.state = ∅ ∧
    ((Skips last ∧ accounts.state.stateTag = .rebalance) ∨
      (¬Skips last ∧ accounts.state.stateTag = .idle ∧
        accounts.state.statusFlags = flags ||| rebalanceFlag))

theorem handles_rebalance (running : flagSet flags resetToIdleFlag = false) :
    Rounds.Handles (fun accounts transaction => transaction.process accounts) row
      (Cranks .rebalance) (Active .rebalance pool flags) (RebalanceDone pool flags) := by
  rintro pending accounts ⟨environment, instruction⟩ ⟨nextState, nextMeta⟩ active cranks isPending
    processed
  cases instruction with
  | rebalance inputs =>
      dsimp only [row] at isPending ⊢
      rcases Accounts.withState_eq_ok.mp processed with ⟨handled, rfl⟩
      rcases Outcome.map_eq_ok.mp handled with ⟨⟨moved, rebalanceType⟩, succeeded, rfl⟩
      have runs : ∀ {pending : Finset Nat} {accounts : Accounts},
          Active .rebalance pool flags pending accounts →
          accounts.state.hasFlag resetToIdleFlag = false := by
        intro pending accounts active
        rw [StewardStateV2.hasFlag_eq, active.flags]
        exact running
      rcases rebalance_handled active.tagged (runs active) (active.pending ▸ isPending) succeeded
        with ⟨transient, progressed⟩ | ⟨none, rebalanced, progressed, transitioned⟩
      · have later := active.progressed progressed accounts.stakeMeta
        refine ⟨fun isLast => ?_, fun _ => later⟩
        exact ⟨later.pool, later.pending.trans isLast, .inl ⟨⟨inputs, rfl, transient⟩,
          later.tagged⟩⟩
      · have later := active.progressed progressed accounts.stakeMeta
        have isNext := transition_rebalance later.tagged (runs later) transitioned
        rw [later.pending] at isNext
        dsimp only at isNext ⊢
        constructor
        · intro isLast
          rw [if_pos isLast] at isNext
          subst moved
          refine ⟨later.pool, later.pending.trans isLast, .inr ⟨?_, rfl, ?_⟩⟩
          · rintro ⟨_, same, transient⟩
            cases same
            exact Nat.ne_of_gt transient none
          · exact congrArg (· ||| rebalanceFlag) later.flags
        · intro remains
          rw [if_neg remains] at isNext
          subst moved
          exact later
  | _ => exact absurd cranks id

/-- A pass of the rebalance over all validators that have not progressed leads back to idle, unless
the last one that is executed has transient stake. Then the state is kept although no validator
is left, and the following passes of the keeper are empty. -/
theorem rebalance_pass (historyAddress : Pubkey → Pubkey) (accounts final : Accounts)
    (validators : List ValidatorStakeInfo) (infos : List ProgressionInfo)
    (read : getUnprogressedValidators historyAddress accounts.state validators = .ok infos)
    (tagged : accounts.state.stateTag = .rebalance)
    (running : accounts.state.hasFlag resetToIdleFlag = false) (remains : infos ≠ [])
    (delivered : List Transaction) (deliveries : Deliveries .rebalance infos delivered)
    (executed : executeAll accounts delivered = .ok final) :
    (Covered infos delivered → ∃ last, delivered.getLast? = some last ∧
      (¬Skips last → final.state.stateTag = .idle ∧
        final.state.hasFlag rebalanceFlag = true) ∧
      (Skips last → final.state.stateTag = .rebalance ∧
        getUnprogressedValidators historyAddress final.state validators = .ok [])) ∧
    (¬Covered infos delivered → final.state.stateTag = .rebalance ∧
      getUnprogressedValidators historyAddress final.state validators =
        .ok (infos.filter fun info => info.index ∉ delivered.map row)) := by
  have cases := pass_cases (handles_rebalance running) read tagged remains deliveries executed
  refine ⟨fun covered => ?_, cases.2⟩
  rcases cases.1 covered with ⟨last, isLast, samePool, none, done⟩
  refine ⟨last, isLast, fun notSkipped => ?_, fun skipped => ?_⟩
  · rcases done with ⟨skipped, _⟩ | ⟨_, idle, flags⟩
    · exact absurd skipped notSkipped
    · refine ⟨idle, ?_⟩
      rw [StewardStateV2.hasFlag_eq, flags]
      exact (flagSet_or _ 5 5 (by decide)).trans (by simp)
  · rcases done with ⟨_, kept⟩ | ⟨notSkipped, _⟩
    · refine ⟨kept, ?_⟩
      have left : pendingRows final.state =
          pendingRows accounts.state \ (delivered.map row).toFinset := by
        rw [none, eq_comm, Finset.sdiff_eq_empty_iff_subset]
        intro row isPending
        rcases List.mem_map.mp ((mem_unprogressed read).mpr isPending) with ⟨info, member, rfl⟩
        exact List.mem_toFinset.mpr (covered info member)
      rw [getUnprogressedValidators_later read samePool left, Except.ok.injEq,
        List.filter_eq_nil_iff]
      intro info member
      simpa using covered info member
    · exact absurd skipped notSkipped

theorem rebalances_pending : (crankedTo 6).state.stateTag = .rebalance ∧
    (crankedTo 6).state.hasFlag resetToIdleFlag = false ∧
    getUnprogressedValidators id (crankedTo 6).state pairValidators =
      .ok [pairInfo 0, pairInfo 1] := by
  decide +kernel

/-- The cranks of a cycle leave the account of directed stake alone. -/
theorem stakeMeta_crankedTo (count : Nat) : (crankedTo count).stakeMeta = .initial := by
  have kept : ∀ accounts : Accounts, ∀ transaction ∈ cycleCranks,
      (execute accounts transaction).stakeMeta = accounts.stakeMeta := by
    intro accounts transaction isCrank
    rcases execute_cases accounts transaction with unchanged | processed
    · rw [unchanged]
    · simp only [cycleCranks, List.map_cons, List.map_nil, List.cons_append, List.nil_append,
        List.mem_cons, List.not_mem_nil, or_false] at isCrank
      rcases isCrank with rfl | rfl | rfl | rfl | rfl | rfl | rfl | rfl <;>
        exact (Accounts.withState_eq_ok.mp processed).2
  exact run_invariant (fun accounts : Accounts => accounts.stakeMeta = .initial)
    (fun accounts transaction invariant isCrank => (kept accounts transaction isCrank).trans
      invariant) rfl
    (everyStep_of_forall (fun transaction member => List.mem_of_mem_take member) pairOrigin)

theorem rebalances_executed :
    executeAll (crankedTo 6) ([0, 1].map rebalanceCrank) = .ok (crankedTo 8) := by
  have unstaked : DirectedStakeMeta.initial.totalStakedLamports = 0 :=
    DirectedStakeMeta.totalStakedLamports_eq_zero fun _ => rfl
  have skipped := executeAll_crankedTo 6 ([0].map rebalanceCrank) rfl (by decide +kernel)
  have moves : (Rebalance.handler pairEnvironment (rebalanceInputs 1) .initial
      (crankedTo 7).state).isOk = true := by
    simp only [Rebalance.handler, Rebalance.move, Rebalance.call, unstaked]
    decide +kernel
  rcases Outcome.exists_eq_ok moves with ⟨moved, handled⟩
  have processed : (rebalanceCrank 1).process (crankedTo 7) =
      (crankedTo 7).withState (Prod.fst <$> Rebalance.handler pairEnvironment (rebalanceInputs 1)
        (crankedTo 7).stakeMeta (crankedTo 7).state) := rfl
  rw [stakeMeta_crankedTo, handled] at processed
  have last := executeAll_crankedTo 7 ([1].map rebalanceCrank) rfl (by
    rw [List.map_singleton, executeAll_singleton, processed]
    rfl)
  exact (executeAll_append skipped ([1].map rebalanceCrank)).trans last

/-- Only the first validator has transient stake. -/
theorem rebalanceCrank_works : ¬Skips (rebalanceCrank 1) := by
  rintro ⟨inputs, isRebalance, transient⟩
  cases isRebalance
  exact absurd transient (by decide)

theorem rebalance_pass_twoValidators :
    executeAll (crankedTo 6) ([0, 1].map rebalanceCrank) = .ok (crankedTo 8) ∧
      (crankedTo 8).state.stateTag = .idle ∧
      (crankedTo 8).state.hasFlag rebalanceFlag = true := by
  have pass := rebalance_pass id (crankedTo 6) (crankedTo 8) pairValidators _
    rebalances_pending.2.2 rebalances_pending.1 rebalances_pending.2.1 (by simp)
    ([0, 1].map rebalanceCrank)
    (deliveries_map (fun _ => trivial) (fun _ => rfl) (by decide) (by decide)) rebalances_executed
  rcases pass.1 (by rw [covered_map_iff fun _ => rfl]; decide) with ⟨last, isLast, works, _⟩
  cases Option.some.inj isLast
  exact ⟨rebalances_executed, works rebalanceCrank_works⟩

/-! ## Scores -/

/-- The validators that the next call of `compute_score` takes over. -/
def addedOnRestart (state : StewardStateV2) : Nat :=
  if state.progress.isEmpty then state.validatorsAdded else 0

/-- Scoring is under way since a slot that is not before `first`, or it is about to start. Unless
`looped`, scoring that is under way comes before the loop of the cycle. -/
structure Scoring (looped : Bool) (pool first : Nat) (pending : Finset Nat) (accounts : Accounts) :
    Prop where
  tagged : accounts.state.stateTag = .computeScores
  pending : pending = if accounts.state.progress.isEmpty then Finset.range pool
    else pendingRows accounts.state
  pool : accounts.state.numPoolValidators + addedOnRestart accounts.state = pool
  started : accounts.state.progress.isEmpty = false →
    first ≤ accounts.state.startComputingScoresSlot
  looping : looped = false → accounts.state.progress.isEmpty = false →
    accounts.state.hasFlag rebalanceFlag = false

/-- The transaction is not so late that scoring starts over. -/
def InTime (first : Nat) (transaction : Transaction) : Prop :=
  first ≤ transaction.environment.clock.slot ∧
    transaction.environment.clock.slot ≤
      first + transaction.environment.config.parameters.computeScoreSlotRange

def ScoringDone (looped : Bool) (pool : Nat) (_ : Transaction) (accounts : Accounts) : Prop :=
  accounts.state.stateTag = .computeDelegations ∧
    accounts.state.hasFlag computeScoreFlag = true ∧
    accounts.state.numPoolValidators = pool ∧ accounts.state.progress = .empty ∧
    (looped = false → accounts.state.hasFlag rebalanceFlag = false)

theorem not_isEmpty_of_set {mask marked : BitMask} {index : Nat}
    (written : mask.set index true = .ok marked) : marked.isEmpty = false := by
  rw [Bool.eq_false_iff, ne_eq, BitMask.isEmpty_iff, BitMask.rows_set_true written]
  exact Finset.insert_ne_empty _ _

theorem progressed_of_scoreRecorded {index score rawScore : Nat}
    (recorded : ScoreRecorded state index score rawScore next) : Progressed state index next :=
  ⟨recorded.progress, congrArg (·.stateTag) recorded.others,
    congrArg (·.numPoolValidators) recorded.others, congrArg (·.statusFlags) recorded.others⟩

theorem startComputingScoresSlot_restartScoring {clock : Clock} {config : Config} {length : Nat}
    (restarting : state.restartScoring clock config length = .ok next) :
    next.startComputingScoresSlot = clock.slot := by
  simp only [StewardStateV2.restartScoring, StewardStateV2.resetStateForNewCycle,
    Outcome.bind_eq_ok, Outcome.pure_eq_ok] at restarting
  rcases restarting with ⟨reset, ⟨_, _, rfl⟩, _, _, rfl⟩
  split <;> split <;> rfl

/-- The state that a call works on has the rows of the stage. -/
structure StartedScoring (looped : Bool) (pool first : Nat) (pending : Finset Nat)
    (started : StewardStateV2) : Prop where
  tagged : started.stateTag = .computeScores
  pool : started.numPoolValidators = pool
  slot : first ≤ started.startComputingScoresSlot
  looping : looped = false → started.hasFlag rebalanceFlag = false
  pending : pendingRows started = pending

theorem startedScoring_of_startScoring {looped : Bool} {first : Nat} {pending : Finset Nat}
    {accounts : Accounts} (scoring : Scoring looped pool first pending accounts)
    (current : environment.clock.epoch = accounts.state.currentEpoch)
    (notEarly : first ≤ environment.clock.slot)
    (notLate : environment.clock.slot ≤ first + environment.config.parameters.computeScoreSlotRange)
    {length : Nat} {started : StewardStateV2}
    (starting : accounts.state.startScoring environment.clock environment.config length =
      .ok started) :
    StartedScoring looped pool first pending started := by
  have isPool := scoring.pool
  have isPending := scoring.pending
  rw [addedOnRestart] at isPool
  rcases startScoring_cases starting with ⟨decided, rfl⟩ | ⟨decided, restarting⟩
  all_goals
    simp only [StewardStateV2.scoringRestarts, Outcome.bind_eq_ok, checkedSub_eq_ok,
      Outcome.pure_eq_ok] at decided
    rcases decided with ⟨_, ⟨_, rfl⟩, decided⟩
  · simp only [Bool.or_eq_false_iff] at decided
    have nonempty := decided.1.1
    rw [if_neg (by simp [nonempty])] at isPool isPending
    exact ⟨scoring.tagged, isPool, scoring.started nonempty,
      fun notYet => scoring.looping notYet nonempty, isPending.symm⟩
  · have isEmpty : accounts.state.progress.isEmpty = true := by
      by_contra nonempty
      have under := scoring.started (Bool.eq_false_of_not_eq_true nonempty)
      simp only [Bool.or_eq_true, decide_eq_true_eq, nonempty, false_or] at decided
      omega
    rw [if_pos isEmpty] at isPool isPending
    have slot : started.startComputingScoresSlot = environment.clock.slot :=
      startComputingScoresSlot_restartScoring restarting
    rcases restartScoring_eq_ok restarting with ⟨reset, effect, matching, rfl⟩
    refine ⟨?_, matching.trans isPool, notEarly.trans_eq slot.symm, fun _ => ?_, ?_⟩
    · exact (congrArg (·.stateTag) effect.others).trans scoring.tagged
    · exact (effect.flags 5 (by decide)).trans (by simp)
    · rw [isPending, ← isPool, ← matching]
      have progress : reset.progress = .empty := congrArg (·.progress) effect.others
      rw [pendingRows, progress]
      exact Finset.filter_true_of_mem fun row _ => BitMask.contains_empty row

/-- A row of the stage is scored, and scoring goes on since the same slot. -/
theorem computeScore_handled {looped : Bool} {first : Nat} {pending : Finset Nat}
    {accounts : Accounts} {inputs : ComputeScore.Inputs}
    (scoring : Scoring looped pool first pending accounts)
    (notEarly : first ≤ environment.clock.slot)
    (notLate : environment.clock.slot ≤ first + environment.config.parameters.computeScoreSlotRange)
    (isPending : inputs.validatorListIndex ∈ pending)
    (succeeded : ComputeScore.handler environment inputs accounts.state = .ok next) :
    ∃ scored, StartedScoring looped pool first (pending.erase inputs.validatorListIndex) scored ∧
      scored.progress.isEmpty = false ∧ environment.transition scored = .ok next := by
  rcases ComputeScore.handler_cases succeeded with ⟨checked, _, ⟨other, _⟩ | ⟨_, work⟩⟩
  · exact absurd scoring.tagged other
  · rcases work with ⟨scored, components, computed, moved⟩
    rcases computeScore_cases computed with ⟨_, started, starting, cases⟩
    have current := (stateChecks_eq_ok.mp checked).2.2.1
    have stage := startedScoring_of_startScoring scoring current notEarly notLate starting
    rcases cases with ⟨processed, _⟩ | ⟨_, score, rawScore, recorded⟩
    · rw [← stage.pending, mem_pendingRows, processed] at isPending
      cases isPending.2
    · have progressed := progressed_of_scoreRecorded recorded
      have slot : scored.startComputingScoresSlot = started.startComputingScoresSlot :=
        congrArg (·.startComputingScoresSlot) recorded.others
      refine ⟨scored, ⟨progressed.tag.trans stage.tagged, progressed.pool.trans stage.pool,
        slot ▸ stage.slot, fun notYet => ?_, ?_⟩, not_isEmpty_of_set progressed.marked, moved⟩
      · rw [StewardStateV2.hasFlag, progressed.flags]
        exact stage.looping notYet
      · rw [progressed.pendingRows_eq, stage.pending]

theorem handles_computeScore {looped : Bool} {first : Nat} :
    Rounds.Handles (fun accounts transaction => transaction.process accounts) row
      (fun transaction => Cranks .computeScores transaction ∧ InTime first transaction)
      (Scoring looped pool first) (ScoringDone looped pool) := by
  rintro pending accounts ⟨environment, instruction⟩ ⟨nextState, nextMeta⟩ scoring
    ⟨cranks, notEarly, notLate⟩ isPending processed
  cases instruction with
  | computeScore inputs =>
      dsimp only [row] at isPending ⊢
      rcases Accounts.withState_eq_ok.mp processed with ⟨handled, rfl⟩
      rcases computeScore_handled scoring notEarly notLate isPending handled with
        ⟨scored, stage, nonempty, moved⟩
      have isNext := transition_computeScores stage.tagged moved
      rw [stage.pending] at isNext
      dsimp only at isNext
      constructor
      · intro isLast
        rw [if_pos isLast] at isNext
        subst nextState
        refine ⟨rfl, ?_, stage.pool, rfl, fun notYet => ?_⟩
        · rw [StewardStateV2.hasFlag_eq]
          exact (flagSet_or _ 0 0 (by decide)).trans (by simp)
        · have unset := stage.looping notYet
          rw [StewardStateV2.hasFlag_eq] at unset ⊢
          exact (flagSet_or _ 0 5 (by decide)).trans (by simp [unset])
      · intro remains
        rw [if_neg remains] at isNext
        subst nextState
        refine ⟨stage.tagged, ?_, ?_, fun _ => stage.slot, fun notYet _ => stage.looping notYet⟩
        · simp only [nonempty, Bool.false_eq_true, if_false]
          exact stage.pending.symm
        · simp only [addedOnRestart, nonempty, Bool.false_eq_true, if_false]
          exact stage.pool
  | _ => exact absurd cranks id

/-- The rows that scoring has to process: those of the pass, and the added ones. -/
def stageRows (state : StewardStateV2) : Finset Nat :=
  if state.progress.isEmpty then Finset.range (state.numPoolValidators + addedOnRestart state)
  else pendingRows state

theorem mem_stageRows {historyAddress : Pubkey → Pubkey} {validators : List ValidatorStakeInfo}
    {infos : List ProgressionInfo}
    (read : getUnprogressedValidators historyAddress state validators = .ok infos) {index : Nat} :
    index ∈ stageRows state ↔ index ∈ infos.map (·.index) ∨
      (state.numPoolValidators ≤ index ∧
        index < state.numPoolValidators + addedOnRestart state) := by
  rw [mem_unprogressed read, mem_pendingRows, stageRows]
  cases isEmpty : state.progress.isEmpty with
  | false =>
      simp only [addedOnRestart, isEmpty, Bool.false_eq_true, if_false, mem_pendingRows]
      exact (or_iff_left fun ⟨notBelow, below⟩ => absurd below (Nat.not_lt.mpr notBelow)).symm
  | true =>
      have unprogressed : ∀ index < state.numPoolValidators,
          state.progress.contains index = false := by
        intro index inPool
        have valid := ((unprogressedAmong_eq_ok.mp read).1 index (List.mem_range.mpr inPool)).1
        by_contra progressed
        have isRow := BitMask.mem_rows.mpr
          ⟨BitMask.lt_capacity valid, Bool.eq_true_of_not_eq_false progressed⟩
        rw [BitMask.isEmpty_iff.mp isEmpty] at isRow
        exact absurd isRow (Finset.notMem_empty _)
      rw [if_pos rfl, Finset.mem_range]
      by_cases inPool : index < state.numPoolValidators
      · simp only [unprogressed index inPool, and_true, inPool, true_or, iff_true]
        exact Nat.lt_add_right _ inPool
      · simp only [inPool, false_and, false_or, iff_and_self]
        exact fun _ => Nat.le_of_not_lt inPool

/-- Either the last row is scored, or scoring goes on. -/
theorem scoring_cases {historyAddress : Pubkey → Pubkey} {accounts final : Accounts}
    {validators : List ValidatorStakeInfo} {infos : List ProgressionInfo}
    (read : getUnprogressedValidators historyAddress accounts.state validators = .ok infos)
    (tagged : accounts.state.stateTag = .computeScores) {first : Nat}
    (started : accounts.state.progress.isEmpty = false →
      first ≤ accounts.state.startComputingScoresSlot)
    {looped : Bool} (looping : looped = false → accounts.state.progress.isEmpty = false →
      accounts.state.hasFlag rebalanceFlag = false)
    {delivered : List Transaction} (arrived : delivered ≠ [])
    (inTime : ∀ transaction ∈ delivered, InTime first transaction)
    (deliveries : Deliveries .computeScores infos delivered)
    (executed : executeAll accounts delivered = .ok final) :
    let pool := accounts.state.numPoolValidators + addedOnRestart accounts.state
    (Covered infos delivered ∧ addedOnRestart accounts.state = 0 →
      ∃ last, ScoringDone looped pool last final) ∧
    (¬(Covered infos delivered ∧ addedOnRestart accounts.state = 0) →
      Scoring looped pool first (stageRows accounts.state \ (delivered.map row).toFinset)
        final) := by
  intro pool
  have among : ∀ transaction ∈ delivered, row transaction ∈ stageRows accounts.state :=
    fun transaction member => (mem_stageRows read).mpr
      (.inl (deliveries.among transaction member))
  have some : stageRows accounts.state ≠ ∅ := by
    rcases List.exists_mem_of_ne_nil delivered arrived with ⟨transaction, member⟩
    exact Finset.ne_empty_of_mem (among transaction member)
  have cases := handles_computeScore.foldlM
    (fun transaction member => ⟨deliveries.cranks transaction member, inTime transaction member⟩)
    deliveries.distinct among
    (show Scoring looped pool first (stageRows accounts.state) accounts from
      ⟨tagged, rfl, rfl, started, looping⟩) some executed
  have covered : stageRows accounts.state ⊆ (delivered.map row).toFinset ↔
      Covered infos delivered ∧ addedOnRestart accounts.state = 0 := by
    constructor
    · intro subset
      constructor
      · intro info member
        exact List.mem_toFinset.mp
          (subset ((mem_stageRows read).mpr (.inl (List.mem_map_of_mem member))))
      · by_contra notNone
        have isAdded := (mem_stageRows read).mpr
          (.inr ⟨le_rfl, Nat.lt_add_of_pos_right (Nat.pos_of_ne_zero notNone)⟩)
        rcases List.mem_map.mp (List.mem_toFinset.mp (subset isAdded)) with
          ⟨transaction, member, same⟩
        have bounded := lt_of_mem_unprogressed read (deliveries.among transaction member)
        rw [same] at bounded
        exact Nat.lt_irrefl _ bounded
    · rintro ⟨covered, none⟩ index member
      rcases (mem_stageRows read).mp member with isInfo | ⟨notBelow, below⟩
      · rcases List.mem_map.mp isInfo with ⟨info, isOne, rfl⟩
        exact List.mem_toFinset.mpr (covered info isOne)
      · rw [none] at below
        exact absurd below (Nat.not_lt.mpr notBelow)
  rw [covered] at cases
  refine ⟨fun complete => ?_, cases.2⟩
  rcases cases.1 complete with ⟨last, _, done⟩
  exact ⟨last, done⟩

theorem scores_pending : (crankedTo 0).state.stateTag = .computeScores ∧
    (crankedTo 0).state.progress.isEmpty = true ∧ addedOnRestart (crankedTo 0).state = 0 ∧
    getUnprogressedValidators id (crankedTo 0).state pairValidators =
      .ok [pairInfo 0, pairInfo 1] := by
  decide +kernel

theorem scoreCrank_inTime (rows : List Nat) :
    ∀ transaction ∈ rows.map scoreCrank, InTime 1950 transaction :=
  List.forall_mem_map.mpr fun _ _ => ⟨le_rfl, Nat.le_add_right _ _⟩

end Handling

end Stakenet.Keeper.CrankPass

import Stakenet.Keeper.RemovalLoops
import Stakenet.Steward.RemovalCounts

/-! When the keeper's removal loops make progress. -/

namespace Stakenet.Keeper

open Steward (Accounts BitMask MaintenanceEffect MarksRemoved SameMarks StewardStateV2
  maxValidators)

/-! ## One iteration -/

theorem whileLoop_eq_next {running : σ → Bool} {stats : σ → SubmitStats}
    {iterate : Nat → σ → Result (Flow σ SubmitStats)} {iteration : Nat} {state following : σ} :
    whileLoop running stats iterate iteration state = .next following ↔
      running state = true ∧ iterate iteration state = .ok (.next following) := by
  unfold whileLoop
  split
  case isTrue holds =>
      split <;> simp_all
  case isFalse fails => simp [fails]

theorem whileLoop_ne_next {running : σ → Bool} {stats : σ → SubmitStats}
    {iterate : Nat → σ → Result (Flow σ SubmitStats)} {iteration : Nat} {state following : σ}
    (stopped : running state = false) :
    whileLoop running stats iterate iteration state ≠ .next following := by
  intro continued
  rw [(whileLoop_eq_next.mp continued).1] at stopped
  cases stopped

/-- If no error is counted the transaction was executed. -/
theorem executed_of_submit {delivery : Delivery} {accounts next : Accounts}
    {executed : Steward.Result Accounts} {stats newStats : SubmitStats}
    (submitted : submitPackagedTransactions delivery accounts executed = .ok (newStats, next))
    (succeeded : ¬0 < (stats.combine newStats).errors) : executed = .ok next := by
  have noErrors : newStats.errors = 0 := by
    simp only [SubmitStats.combine] at succeeded
    omega
  unfold submitPackagedTransactions at submitted
  split at submitted
  · cases submitted
  · cases submitted
    cases noErrors
  · cases submitted
    cases noErrors
  · cases submitted
    rfl

section Scan

variable {describe : Nat → Steward.Failure → String} {mask : BitMask} {length : Nat}

/-- The test of the scan, which describes a failure to read the mask. -/
theorem mapError_get_eq_ok {row : Nat} {value : Bool} :
    ((mask.get row).mapError fun e => Failure.error (.custom (describe row e))) = .ok value ↔
      row < maxValidators ∧ mask.contains row = value :=
  Outcome.mapError_eq_ok.trans BitMask.get_eq_ok

theorem findMarked_eq_some {index : Nat}
    (found : findMarked describe mask length = .ok (some index)) :
    index ∈ mask.rows ∧ index < length ∧ ∀ row ∈ mask.rows, index ≤ row := by
  rcases findPosition.eq_some found with ⟨_, inside, passed, before⟩
  rcases mapError_get_eq_ok.mp passed with ⟨bounded, isMarked⟩
  refine ⟨BitMask.mem_rows.mpr ⟨BitMask.lt_capacity bounded, isMarked⟩, by omega, ?_⟩
  intro row member
  by_contra earlier
  have unmarked := (mapError_get_eq_ok.mp (before row (Nat.zero_le _) (by omega))).2
  rw [(BitMask.mem_rows.mp member).2] at unmarked
  cases unmarked

/-- A marked row within the length is found, or one before it. -/
theorem findMarked_succeeds {row : Nat} (member : row ∈ mask.rows) (inside : row < length)
    (bounded : row < maxValidators) :
    ∃ index, findMarked describe mask length = .ok (some index) := by
  have some : ∃ other, other ∈ mask.rows := ⟨row, member⟩
  have least := Nat.find_spec some
  have atMost : Nat.find some ≤ row := Nat.find_min' some member
  refine ⟨Nat.find some, ?_⟩
  apply findPosition.eq_some_of_first (Nat.zero_le _) (by omega)
  · exact mapError_get_eq_ok.mpr ⟨by omega, (BitMask.mem_rows.mp least).2⟩
  · intro earlier _ below
    have unmarked : mask.contains earlier = false := by
      rw [← Bool.not_eq_true]
      intro isMarked
      exact Nat.find_min some below
        (BitMask.mem_rows.mpr ⟨BitMask.lt_capacity (by omega), isMarked⟩)
    exact mapError_get_eq_ok.mpr ⟨by omega, unmarked⟩

theorem findMarked_eq_none (unmarked : ∀ row ∈ mask.rows, length ≤ row)
    (bounded : length ≤ maxValidators) : findMarked describe mask length = .ok none := by
  have total : ∀ row, 0 ≤ row → row < 0 + length → ∃ value, ((mask.get row).mapError fun e =>
      Failure.error (.custom (describe row e))) = .ok value :=
    fun row _ inside => ⟨mask.contains row, mapError_get_eq_ok.mpr ⟨by omega, rfl⟩⟩
  rcases findPosition.succeeds total with ⟨outcome, searched⟩
  cases outcome with
  | none => exact searched
  | some index =>
      rcases findMarked_eq_some searched with ⟨member, inside, _⟩
      exact absurd (unmarked index member) (Nat.not_le.mpr inside)

end Scan

/-! ## Progress -/

/-- While marks remain every iteration submits a marked row, every successful one leaves fewer
marks, and the loop comes to an end. -/
structure MakesProgress (body : Nat → σ → Flow σ ρ) (start : σ) (marks : σ → Nat)
    (SubmitsMarked : σ → Prop) : Prop where
  submits : ∀ iteration state, Flow.Reaches body start iteration state → marks state ≠ 0 →
    SubmitsMarked state
  decreases : ∀ iteration state following, Flow.Reaches body start iteration state →
    marks state ≠ 0 → body iteration state = .next following → marks following < marks state
  ends : ∃ result, Flow.run body (marks start + 2) 0 start = some result

namespace EpochMaintenanceLoop

variable {session : Session} {iteration : Nat} {loop following : EpochMaintenanceLoop}

def marks (loop : EpochMaintenanceLoop) : Nat := loop.accounts.state.marks

def SubmitsMarked (session : Session) (loop : EpochMaintenanceLoop) : Prop :=
  ∃ index, loop.scan session = .ok (some index) ∧
    (index ∈ loop.accounts.state.validatorsToRemove.rows ∨
      index ∈ loop.accounts.state.validatorsForImmediateRemoval.rows)

/-- The on-chain checks pass, and the transactions get through. -/
def ChecksPass (session : Session) (start : EpochMaintenanceLoop) : Prop :=
  ∀ iteration loop, Flow.Reaches (body session) start iteration loop → loop.running = true →
    ∀ validatorIndexToRemove, loop.scan session = .ok validatorIndexToRemove →
      (session.rounds iteration).Delivers ∧
      ∃ accounts, Steward.EpochMaintenance.handler (session.rounds iteration).environment
        session.lastUpdateEpoch validatorIndexToRemove loop.accounts = .ok accounts

/-- Every marked validator is one of those that the loop looks through, and is in the mask that
it looks at. -/
def Covered (state : StewardStateV2) : Prop :=
  ∀ index, index ∈ state.validatorsToRemove.rows ∨
      index ∈ state.validatorsForImmediateRemoval.rows →
    index ∈ state.validatorsToRemove.rows ∧ index < state.numPoolValidators ∧
      index < maxValidators

/-- What a successful iteration does. -/
theorem effect_of_body (continued : body session iteration loop = .next following) :
    ∃ validatorIndexToRemove, loop.scan session = .ok validatorIndexToRemove ∧
      MaintenanceEffect (session.rounds iteration).environment session.lastUpdateEpoch
        validatorIndexToRemove loop.accounts.state following.accounts.state ∧
      (session.rounds iteration).epochInfo = .ok following.currentEpoch := by
  rcases whileLoop_eq_next.mp continued with ⟨_, iterated⟩
  simp only [iterate, Outcome.bind_eq_ok] at iterated
  rcases iterated with ⟨validatorIndexToRemove, scanned, ⟨newStats, accounts⟩, submitted, iterated⟩
  refine ⟨validatorIndexToRemove, scanned, ?_⟩
  split at iterated
  case isTrue failed => cases iterated
  case isFalse succeeded =>
      simp only [Outcome.bind_eq_ok, Outcome.pure_eq_ok] at iterated
      rcases iterated with ⟨_, _, epoch, fetched, flow⟩
      cases flow
      have handled := executed_of_submit submitted succeeded
      exact ⟨Steward.EpochMaintenance.handler_effect handled, Outcome.mapError_eq_ok.mp fetched⟩

/-- A transaction that gets through leads to the next iteration. -/
theorem body_of_handler {validatorIndexToRemove : Option Nat} {accounts : Accounts}
    (running : loop.running = true) (scanned : loop.scan session = .ok validatorIndexToRemove)
    (delivers : (session.rounds iteration).Delivers)
    (handled : Steward.EpochMaintenance.handler (session.rounds iteration).environment
      session.lastUpdateEpoch validatorIndexToRemove loop.accounts = .ok accounts) :
    ∃ following, body session iteration loop = .next following := by
  rcases delivers with ⟨confirmed, fetched, epoch, info⟩
  have noErrors : ¬0 < (loop.stats.combine ⟨1, 0, [.ok ()]⟩).errors := by
    simp [SubmitStats.combine, loop.noErrors]
  refine ⟨read epoch (loop.stats.combine ⟨1, 0, [.ok ()]⟩) accounts
    (Nat.eq_zero_of_not_pos noErrors), whileLoop_eq_next.mpr ⟨running, ?_⟩⟩
  rw [iterate]
  simp only [scanned, confirmed, handled, Outcome.ok_bind, submitPackagedTransactions]
  rw [dif_neg noErrors, Round.getStewardStateAccount, if_pos fetched, Round.getEpoch, info]
  rfl

theorem scan_eq_some {index : Nat} (scanned : loop.scan session = .ok (some index)) :
    index ∈ loop.accounts.state.validatorsToRemove.rows ∧
      index < loop.accounts.state.numPoolValidators := by
  rcases findMarked_eq_some scanned with ⟨member, inside, _⟩
  rw [loop.validatorsToRemove_eq] at member
  rw [loop.numValidators_eq] at inside
  exact ⟨member, inside⟩

theorem submitsMarked_of_covered (covered : Covered loop.accounts.state) (remain : loop.marks ≠ 0) :
    SubmitsMarked session loop := by
  have some : ∃ index, index ∈ loop.accounts.state.validatorsToRemove.rows ∨
      index ∈ loop.accounts.state.validatorsForImmediateRemoval.rows := by
    by_contra none
    push Not at none
    apply remain
    rw [marks, StewardStateV2.marks_eq_zero_iff, Finset.eq_empty_iff_forall_notMem,
      Finset.eq_empty_iff_forall_notMem]
    exact ⟨fun index => (none index).1, fun index => (none index).2⟩
  rcases some with ⟨marked, isMarked⟩
  rcases covered marked isMarked with ⟨member, inPool, bounded⟩
  rw [← loop.validatorsToRemove_eq] at member
  rw [← loop.numValidators_eq] at inPool
  rcases findMarked_succeeds member inPool bounded with ⟨index, found⟩
  exact ⟨index, found, .inl (scan_eq_some found).1⟩

/-- A removal of a row that the loop finds does not change whether the marks are covered. -/
theorem covered_iff_of_removed {state next : StewardStateV2} {index : Nat}
    (removed : MarksRemoved state index next) (found : index ∈ state.validatorsToRemove.rows)
    (inPool : index < state.numPoolValidators) : Covered next ↔ Covered state := by
  have pool : next.numPoolValidators = state.numPoolValidators - 1 := by
    rw [removed.numPoolValidators, if_neg (by omega)]
  have total := removed.total
  have bounded := removed.bounded
  have capacity := removed.capacity
  constructor
  · intro covered row isMarked
    by_cases same : row = index
    · subst row
      exact ⟨found, inPool, by omega⟩
    · have moved := covered
        (closeGap index (next.numPoolValidators + next.validatorsAdded) row)
      rw [removed.toRemove, removed.forImmediateRemoval, closeGap_mem_withoutRow same,
        closeGap_mem_withoutRow same, pool] at moved
      rcases moved isMarked with ⟨inMask, inside, below⟩
      refine ⟨inMask, ?_, ?_⟩
      · unfold closeGap at inside
        split at inside <;> omega
      · unfold closeGap at below
        split at below <;> omega
  · intro covered row isMarked
    have origin : ∃ old, old ≠ index ∧
        closeGap index (next.numPoolValidators + next.validatorsAdded) old = row ∧
        (old ∈ state.validatorsToRemove.rows ∨
          old ∈ state.validatorsForImmediateRemoval.rows) := by
      rw [removed.toRemove, removed.forImmediateRemoval, mem_withoutRow, mem_withoutRow] at isMarked
      rcases isMarked with ⟨old, member, other, moved⟩ | ⟨old, member, other, moved⟩
      · exact ⟨old, other, moved, .inl member⟩
      · exact ⟨old, other, moved, .inr member⟩
    rcases origin with ⟨old, other, rfl, wasMarked⟩
    rcases covered old wasMarked with ⟨inMask, inside, below⟩
    refine ⟨?_, ?_, Nat.lt_of_le_of_lt closeGap_le below⟩
    · rw [removed.toRemove]
      exact (closeGap_mem_withoutRow other).mpr inMask
    · rw [pool]
      unfold closeGap
      split <;> omega

theorem covered_iff_of_body (continued : body session iteration loop = .next following) :
    Covered following.accounts.state ↔ Covered loop.accounts.state := by
  rcases effect_of_body continued with ⟨validatorIndexToRemove, scanned, effect, _⟩
  cases validatorIndexToRemove with
  | none =>
      have kept := effect.kept rfl
      rw [Covered, Covered, kept.toRemove, kept.forImmediateRemoval, kept.numPoolValidators]
  | some index =>
      rcases scan_eq_some scanned with ⟨found, inPool⟩
      exact covered_iff_of_removed (effect.removed index rfl) found inPool

theorem marks_lt_of_body (submits : SubmitsMarked session loop)
    (continued : body session iteration loop = .next following) :
    following.marks < loop.marks := by
  rcases submits with ⟨index, scanned, _⟩
  rcases effect_of_body continued with ⟨validatorIndexToRemove, same, effect, _⟩
  have requested : validatorIndexToRemove = some index :=
    Except.ok.inj (same.symm.trans scanned)
  exact (effect.removed index requested).marks_lt

/-- While marks remain, the epoch of the state is the old one. -/
theorem running_of_reaches {epoch : Nat} {accounts : Accounts}
    (behind : accounts.state.currentEpoch < epoch)
    (reaches : Flow.Reaches (body session) (start epoch accounts) iteration loop)
    (remain : loop.marks ≠ 0) : loop.running = true := by
  have late : loop.marks ≠ 0 → loop.accounts.state.currentEpoch < loop.currentEpoch := by
    apply reaches.invariant fun loop =>
      loop.marks ≠ 0 → loop.accounts.state.currentEpoch < loop.currentEpoch
    · exact fun _ => behind
    · intro iteration loop following _ continued later
      rcases effect_of_body continued with ⟨_, _, effect, fetched⟩
      have earlier := effect.earlier
      have currentEpoch := effect.currentEpoch
      rw [marks] at later
      rw [if_neg later] at currentEpoch
      have notBehind := (session.rounds iteration).notBehind _ fetched
      rw [effect.updated] at notBehind
      omega
  rw [running, bne_iff_ne, loop.stateEpoch_eq]
  exact Nat.ne_of_lt (late remain)

/-- A bound on the iterations that can still succeed. The one that opens the epoch need not
remove a mark. -/
def iterationsLeft (session : Session) (loop : EpochMaintenanceLoop) : Nat :=
  if loop.accounts.state.currentEpoch < session.lastUpdateEpoch then loop.marks + 1 else 0

theorem run_succeeds {begin : EpochMaintenanceLoop}
    (submits : ∀ iteration loop, Flow.Reaches (body session) begin iteration loop →
      loop.marks ≠ 0 → SubmitsMarked session loop) :
    ∃ result, Flow.run (body session) (begin.marks + 2) 0 begin = some result := by
  have decreases : ∀ iteration loop following, Flow.Reaches (body session) begin iteration loop →
      body session iteration loop = .next following →
      iterationsLeft session following < iterationsLeft session loop := by
    intro iteration loop following reaches continued
    rcases effect_of_body continued with ⟨validatorIndexToRemove, scanned, effect, _⟩
    have opened := effect.currentEpoch
    rw [iterationsLeft, iterationsLeft, if_pos effect.earlier]
    by_cases remain : loop.marks = 0
    · cases validatorIndexToRemove with
      | none =>
          have none : following.accounts.state.marks = 0 :=
            (effect.kept rfl).marks.trans remain
          rw [if_pos none] at opened
          rw [if_neg (by omega)]
          exact Nat.succ_pos _
      | some index =>
          have fewer := (effect.removed index rfl).marks_lt
          rw [marks] at remain
          omega
    · have fewer := marks_lt_of_body (submits iteration loop reaches remain) continued
      split <;> omega
  apply Flow.run_of_decreases decreases
  unfold iterationsLeft
  split <;> omega

/-- The loop makes progress exactly if all marks are covered at its start. -/
theorem makesProgress_iff {epoch : Nat} {accounts : Accounts}
    (behind : accounts.state.currentEpoch < epoch)
    (passes : ChecksPass session (start epoch accounts)) :
    MakesProgress (body session) (start epoch accounts) marks (SubmitsMarked session) ↔
      Covered accounts.state := by
  have settled : ∀ loop : EpochMaintenanceLoop, loop.marks = 0 → Covered loop.accounts.state := by
    intro loop none index isMarked
    rcases StewardStateV2.marks_eq_zero_iff.mp none with ⟨noRegular, noImmediate⟩
    rw [noRegular, noImmediate] at isMarked
    exact absurd isMarked (by simp)
  have goesOn : ∀ iteration loop,
      Flow.Reaches (body session) (start epoch accounts) iteration loop →
      loop.marks ≠ 0 → SubmitsMarked session loop →
        ∃ following, body session iteration loop = .next following := by
    intro iteration loop reaches remain ⟨index, scanned, _⟩
    have running := running_of_reaches behind reaches remain
    rcases passes iteration loop reaches running _ scanned with ⟨delivers, accounts, handled⟩
    exact body_of_handler running scanned delivers handled
  have always : (∀ iteration loop, Flow.Reaches (body session) (start epoch accounts) iteration
      loop → loop.marks ≠ 0 → SubmitsMarked session loop) ↔ Covered accounts.state :=
    Flow.finds_iff (fun loop : EpochMaintenanceLoop => Covered loop.accounts.state) settled
      (fun _ => submitsMarked_of_covered) (fun _ _ _ => covered_iff_of_body)
      (fun _ _ _ _ => marks_lt_of_body) goesOn
  constructor
  · exact fun progress => always.mp progress.submits
  · intro covered
    have submits := always.mpr covered
    exact {
      submits := submits
      decreases := fun iteration loop following reaches remain continued =>
        marks_lt_of_body (submits iteration loop reaches remain) continued
      ends := run_succeeds submits }

end EpochMaintenanceLoop

namespace InstantRemovalLoop

variable {session : Session} {validators iteration : Nat} {loop following : InstantRemovalLoop}

def marks (loop : InstantRemovalLoop) : Nat :=
  loop.accounts.state.validatorsForImmediateRemoval.count

def SubmitsMarked (session : Session) (validators : Nat) (loop : InstantRemovalLoop) : Prop :=
  ∃ index, loop.scan session validators = .ok (some index) ∧
    index ∈ loop.accounts.state.validatorsForImmediateRemoval.rows

/-- The on-chain checks pass, and the transactions get through. -/
def ChecksPass (session : Session) (validators : Nat) (start : InstantRemovalLoop) : Prop :=
  ∀ iteration loop, Flow.Reaches (body session validators) start iteration loop →
    loop.running = true → ∀ index, loop.scan session validators = .ok (some index) →
      (session.rounds iteration).Delivers ∧
      ∃ accounts, Steward.InstantRemoveValidator.handler (session.rounds iteration).environment
        session.lastUpdateEpoch index loop.accounts = .ok accounts

/-- Every marked validator is one of the state's, and comes to a place within the list that was
fetched before the loop by the time it is its turn. -/
def Covered (validators : Nat) (state : StewardStateV2) : Prop :=
  ∀ index ∈ state.validatorsForImmediateRemoval.rows,
    index < state.numPoolValidators + state.validatorsAdded ∧ index < maxValidators ∧
      turn state.validatorsForImmediateRemoval.rows index < validators

/-- What a successful iteration does. -/
theorem effect_of_body (continued : body session validators iteration loop = .next following) :
    ∃ index, loop.scan session validators = .ok (some index) ∧
      MarksRemoved loop.accounts.state index following.accounts.state := by
  rcases whileLoop_eq_next.mp continued with ⟨_, iterated⟩
  simp only [iterate, Outcome.bind_eq_ok, unwrap_eq_ok] at iterated
  rcases iterated with ⟨found, scanned, index, chosen, ⟨newStats, accounts⟩, submitted, iterated⟩
  refine ⟨index, by rw [scanned, chosen], ?_⟩
  split at iterated
  case isTrue failed => cases iterated
  case isFalse succeeded =>
      simp only [Outcome.bind_eq_ok, Outcome.pure_eq_ok] at iterated
      rcases iterated with ⟨_, _, flow⟩
      cases flow
      have handled := executed_of_submit submitted succeeded
      exact (Steward.InstantRemoveValidator.handler_removed handled).1

/-- A transaction that gets through leads to the next iteration. -/
theorem body_of_handler {index : Nat} {accounts : Accounts} (running : loop.running = true)
    (scanned : loop.scan session validators = .ok (some index))
    (delivers : (session.rounds iteration).Delivers)
    (handled : Steward.InstantRemoveValidator.handler (session.rounds iteration).environment
      session.lastUpdateEpoch index loop.accounts = .ok accounts) :
    ∃ following, body session validators iteration loop = .next following := by
  rcases delivers with ⟨confirmed, fetched, _⟩
  have noErrors : ¬0 < (loop.stats.combine ⟨1, 0, [.ok ()]⟩).errors := by
    simp [SubmitStats.combine, loop.noErrors]
  refine ⟨read (loop.stats.combine ⟨1, 0, [.ok ()]⟩) accounts
    (Nat.eq_zero_of_not_pos noErrors), whileLoop_eq_next.mpr ⟨running, ?_⟩⟩
  rw [iterate]
  simp only [scanned, unwrap, confirmed, handled, Outcome.ok_bind, submitPackagedTransactions]
  rw [dif_neg noErrors, Round.getStewardStateAccount, if_pos fetched]
  rfl

theorem scan_eq_some {index : Nat} (scanned : loop.scan session validators = .ok (some index)) :
    index ∈ loop.accounts.state.validatorsForImmediateRemoval.rows ∧ index < validators ∧
      ∀ row ∈ loop.accounts.state.validatorsForImmediateRemoval.rows, index ≤ row := by
  rw [← loop.validatorsToRemove_eq]
  exact findMarked_eq_some scanned

theorem submitsMarked_of_covered (covered : Covered validators loop.accounts.state)
    (remain : loop.marks ≠ 0) : SubmitsMarked session validators loop := by
  rw [marks, Ne, BitMask.count_eq_zero_iff] at remain
  have some : ∃ index, index ∈ loop.accounts.state.validatorsForImmediateRemoval.rows :=
    Finset.nonempty_iff_ne_empty.mpr remain
  have leastRow : ∃ first ∈ loop.accounts.state.validatorsForImmediateRemoval.rows,
      ∀ row ∈ loop.accounts.state.validatorsForImmediateRemoval.rows, first ≤ row :=
    ⟨Nat.find some, Nat.find_spec some, fun _ member => Nat.find_min' some member⟩
  rcases leastRow with ⟨first, member, least⟩
  rcases covered first member with ⟨_, bounded, place⟩
  have alone : loop.accounts.state.validatorsForImmediateRemoval.rows.filter (· < first) = ∅ := by
    rw [Finset.filter_eq_empty_iff]
    exact fun row isMarked => Nat.not_lt.mpr (least row isMarked)
  rw [turn, alone, Finset.card_empty, Nat.sub_zero] at place
  rw [← loop.validatorsToRemove_eq] at member
  rcases findMarked_succeeds member place bounded with ⟨index, found⟩
  exact ⟨index, found, (scan_eq_some found).1⟩

/-- The removal of the first marked row does not change whether the marks are covered. -/
theorem covered_iff_of_removed {state next : StewardStateV2} {index : Nat}
    (removed : MarksRemoved state index next)
    (member : index ∈ state.validatorsForImmediateRemoval.rows) (inside : index < validators)
    (first : ∀ row ∈ state.validatorsForImmediateRemoval.rows, index ≤ row) :
    Covered validators next ↔ Covered validators state := by
  have total := removed.total
  have bounded := removed.bounded
  have capacity := removed.capacity
  constructor
  · intro covered row isMarked
    have atLeast := first row isMarked
    by_cases same : row = index
    · subst row
      exact ⟨by omega, by omega, Nat.lt_of_le_of_lt (Nat.sub_le _ _) inside⟩
    · have moved := covered
        (closeGap index (next.numPoolValidators + next.validatorsAdded) row)
      rw [removed.forImmediateRemoval, closeGap_mem_withoutRow same] at moved
      rcases moved isMarked with ⟨inPool, below, place⟩
      have within : row ≤ next.numPoolValidators + next.validatorsAdded := by
        unfold closeGap at inPool
        split at inPool <;> omega
      rw [turn_withoutRow member (by omega) within] at place
      exact ⟨by omega, by omega, place⟩
  · intro covered row isMarked
    rw [removed.forImmediateRemoval] at isMarked
    rcases mem_withoutRow.mp isMarked with ⟨old, wasMarked, other, rfl⟩
    rcases covered old wasMarked with ⟨inPool, below, place⟩
    have atLeast := first old wasMarked
    refine ⟨?_, Nat.lt_of_le_of_lt closeGap_le below, ?_⟩
    · unfold closeGap
      rw [if_pos (by omega)]
      omega
    · rwa [removed.forImmediateRemoval, turn_withoutRow member (by omega) (by omega)]

theorem covered_iff_of_body (continued : body session validators iteration loop = .next following) :
    Covered validators following.accounts.state ↔ Covered validators loop.accounts.state := by
  rcases effect_of_body continued with ⟨index, scanned, removed⟩
  rcases scan_eq_some scanned with ⟨member, inside, first⟩
  exact covered_iff_of_removed removed member inside first

theorem marks_lt_of_body (continued : body session validators iteration loop = .next following) :
    following.marks < loop.marks := by
  rcases effect_of_body continued with ⟨index, scanned, removed⟩
  rw [marks, marks, BitMask.count_eq_card, BitMask.count_eq_card, removed.forImmediateRemoval]
  exact card_withoutRow_lt (scan_eq_some scanned).1

/-- The loop makes progress exactly if all marks are covered at its start. -/
theorem makesProgress_iff {accounts : Accounts}
    (passes : ChecksPass session validators (start accounts)) :
    MakesProgress (body session validators) (start accounts) marks
        (SubmitsMarked session validators) ↔
      Covered validators accounts.state := by
  have settled : ∀ loop : InstantRemovalLoop, loop.marks = 0 →
      Covered validators loop.accounts.state := by
    intro loop none index isMarked
    rw [BitMask.count_eq_zero_iff.mp none] at isMarked
    exact absurd isMarked (Finset.notMem_empty _)
  have goesOn : ∀ iteration loop,
      Flow.Reaches (body session validators) (start accounts) iteration loop → loop.marks ≠ 0 →
        SubmitsMarked session validators loop →
          ∃ following, body session validators iteration loop = .next following := by
    intro iteration loop reaches remain ⟨index, scanned, _⟩
    have running : loop.running = true := by
      rw [running, bne_iff_ne, loop.validatorsToRemove_eq]
      exact remain
    rcases passes iteration loop reaches running _ scanned with ⟨delivers, accounts, handled⟩
    exact body_of_handler running scanned delivers handled
  have always : (∀ iteration loop, Flow.Reaches (body session validators) (start accounts)
      iteration loop → loop.marks ≠ 0 → SubmitsMarked session validators loop) ↔
        Covered validators accounts.state :=
    Flow.finds_iff (fun loop : InstantRemovalLoop => Covered validators loop.accounts.state)
      settled (fun _ => submitsMarked_of_covered) (fun _ _ _ => covered_iff_of_body)
      (fun _ _ _ _ _ => marks_lt_of_body) goesOn
  have decreases : ∀ iteration loop following,
      Flow.Reaches (body session validators) (start accounts) iteration loop →
        body session validators iteration loop = .next following →
          following.marks < loop.marks :=
    fun _ _ _ _ => marks_lt_of_body
  constructor
  · exact fun progress => always.mp progress.submits
  · intro covered
    exact {
      submits := always.mpr covered
      decreases := fun iteration loop following reaches _ =>
        decreases iteration loop following reaches
      ends := Flow.run_of_decreases decreases (by omega) }

/-- With a list from which the marked validators have gone, only a mark on the last row is out of
reach. -/
theorem covered_iff_of_fresh {state : StewardStateV2}
    (inside : ∀ index ∈ state.validatorsForImmediateRemoval.rows,
      index < state.numPoolValidators + state.validatorsAdded)
    (capacity : state.numPoolValidators + state.validatorsAdded ≤ maxValidators) :
    Covered (state.numPoolValidators + state.validatorsAdded -
        state.validatorsForImmediateRemoval.count) state ↔
      state.numPoolValidators + state.validatorsAdded - 1 ∉
        state.validatorsForImmediateRemoval.rows := by
  rw [← turn_lt_iff inside, BitMask.count_eq_card]
  constructor
  · exact fun covered row member => (covered row member).2.2
  · intro places row member
    have bounded := inside row member
    exact ⟨bounded, by omega, places row member⟩

end InstantRemovalLoop

/-! ## Both loops -/

/-- On chains whose checks pass, each of the two loops makes progress exactly if the marks are
covered at its start. -/
theorem removalLoops_makeProgress_iff {session instantSession : Session} {epoch validators : Nat}
    {accounts instantAccounts : Accounts} (behind : accounts.state.currentEpoch < epoch)
    (passes : EpochMaintenanceLoop.ChecksPass session (.start epoch accounts))
    (instantPasses :
      InstantRemovalLoop.ChecksPass instantSession validators (.start instantAccounts)) :
    (MakesProgress (EpochMaintenanceLoop.body session) (.start epoch accounts)
        EpochMaintenanceLoop.marks (EpochMaintenanceLoop.SubmitsMarked session) ↔
      EpochMaintenanceLoop.Covered accounts.state) ∧
    (MakesProgress (InstantRemovalLoop.body instantSession validators) (.start instantAccounts)
        InstantRemovalLoop.marks (InstantRemovalLoop.SubmitsMarked instantSession validators) ↔
      InstantRemovalLoop.Covered validators instantAccounts.state) :=
  ⟨EpochMaintenanceLoop.makesProgress_iff behind passes,
    InstantRemovalLoop.makesProgress_iff instantPasses⟩

/-! ## Pools with one mark -/

/-- A validator list in an epoch. -/
def sampleRound (epoch : Nat) (entries : List Steward.ValidatorStakeInfo) : Round where
  environment := {
    clock := ⟨epoch, 0⟩
    epochSchedule := .withoutWarmup 1000
    config := ⟨.fixture, false⟩
    validatorList := ⟨.validatorList, entries, []⟩ }
  delivery := .confirmed
  stateFetched := true
  epochInfo := .ok epoch
  notBehind := fun _ same => (Except.ok.inj same).le

/-- Every iteration meets with the same list, and the stake pool is up to date. -/
def sampleSession (epoch : Nat) (entries : List Steward.ValidatorStakeInfo) : Session where
  rounds := fun _ => sampleRound epoch entries
  lastUpdateEpoch := epoch
  display := fun _ => "BitmaskOutOfBounds"

theorem sampleRound_delivers (epoch : Nat) (entries : List Steward.ValidatorStakeInfo) :
    (sampleRound epoch entries).Delivers :=
  ⟨rfl, rfl, epoch, rfl⟩

def singleMask (row : Nat) : BitMask := ⟨WordSet.assign BitMask.empty.values row true⟩

theorem rows_singleMask {row : Nat} (bounded : row < maxValidators) :
    (singleMask row).rows = {row} := by
  have written : BitMask.empty.set row true = .ok (singleMask row) :=
    BitMask.set_of_lt bounded true
  rw [BitMask.rows_set_true written, BitMask.rows_empty]
  rfl

/-- One validator, which is marked for removal, in the epoch before. -/
def regularMark : Accounts where
  state := { Steward.ReallocState.initialState 1 10 0 with validatorsToRemove := singleMask 0 }
  stakeMeta := .initial

/-- The last one of some validators is marked for immediate removal. -/
def immediateMark (epoch pool : Nat) : Accounts where
  state := { Steward.ReallocState.initialState pool 10 0 with
    currentEpoch := epoch
    validatorsForImmediateRemoval := singleMask (pool - 1) }
  stakeMeta := .initial

theorem regularMark_covered : EpochMaintenanceLoop.Covered regularMark.state := by
  intro index isMarked
  have rows : regularMark.state.validatorsToRemove.rows = {0} := rows_singleMask (by decide)
  have noRows : regularMark.state.validatorsForImmediateRemoval.rows = ∅ := BitMask.rows_empty
  rw [rows, noRows, Finset.mem_singleton] at isMarked
  rcases isMarked with rfl | none
  · rw [rows]
    exact ⟨Finset.mem_singleton_self 0, by decide, by decide⟩
  · exact absurd none (Finset.notMem_empty _)

theorem regularMark_marks : (EpochMaintenanceLoop.start 1 regularMark).marks = 1 := by
  decide +kernel

/-- The mark is removed, and with that the epoch is opened. -/
theorem regularMark_checksPass :
    EpochMaintenanceLoop.ChecksPass (sampleSession 1 []) (.start 1 regularMark) := by
  have submits : EpochMaintenanceLoop.SubmitsMarked (sampleSession 1 []) (.start 1 regularMark) :=
    EpochMaintenanceLoop.submitsMarked_of_covered regularMark_covered (by
      rw [regularMark_marks]
      decide)
  have finishes : ∀ iteration following, EpochMaintenanceLoop.body (sampleSession 1 []) iteration
      (.start 1 regularMark) = .next following → following.running = false := by
    intro iteration following continued
    have fewer := EpochMaintenanceLoop.marks_lt_of_body submits continued
    rw [regularMark_marks] at fewer
    have none : following.accounts.state.marks = 0 := Nat.lt_one_iff.mp fewer
    rcases EpochMaintenanceLoop.effect_of_body continued with ⟨_, _, effect, fetched⟩
    have opened := effect.currentEpoch
    rw [if_pos none] at opened
    have current : 1 = following.currentEpoch := Except.ok.inj fetched
    rw [EpochMaintenanceLoop.running, following.stateEpoch_eq, opened, ← current]
    rfl
  intro iteration loop reaches running requested scanned
  rcases reaches.start_or finishes (fun _ _ _ => whileLoop_ne_next) with rfl | stopped
  · refine ⟨sampleRound_delivers 1 [], ?_⟩
    rcases submits with ⟨index, found, _⟩
    have first : index = 0 := by
      have inPool : index < 1 := (EpochMaintenanceLoop.scan_eq_some found).2
      omega
    have same : requested = some 0 := by
      rw [← first]
      exact Except.ok.inj (scanned.symm.trans found)
    rw [same]
    have handled : (Steward.EpochMaintenance.handler (sampleRound 1 []).environment 1 (some 0)
      regularMark).isOk = true := by decide +kernel
    exact Outcome.exists_eq_ok handled
  · rw [stopped] at running
    cases running

/-- The list of the only validator was fetched before the validator left it. -/
theorem immediateMark_covered :
    InstantRemovalLoop.Covered 1 (immediateMark 1 1).state := by
  intro index isMarked
  have rows : (immediateMark 1 1).state.validatorsForImmediateRemoval.rows = {0} :=
    rows_singleMask (by decide)
  rw [rows, Finset.mem_singleton] at isMarked
  subst index
  exact ⟨by decide, by decide, Nat.lt_of_le_of_lt (Nat.sub_le _ _) Nat.one_pos⟩

theorem immediateMark_checksPass :
    InstantRemovalLoop.ChecksPass (sampleSession 1 []) 1 (.start (immediateMark 1 1)) := by
  have marks : (InstantRemovalLoop.start (immediateMark 1 1)).marks = 1 := by
    decide +kernel
  have finishes : ∀ iteration following, InstantRemovalLoop.body (sampleSession 1 []) 1 iteration
      (.start (immediateMark 1 1)) = .next following → following.running = false := by
    intro iteration following continued
    have fewer := InstantRemovalLoop.marks_lt_of_body continued
    rw [marks] at fewer
    rw [InstantRemovalLoop.running, following.validatorsToRemove_eq]
    exact bne_eq_false_iff_eq.mpr (Nat.lt_one_iff.mp fewer)
  intro iteration loop reaches running index scanned
  rcases reaches.start_or finishes (fun _ _ _ => whileLoop_ne_next) with rfl | stopped
  · refine ⟨sampleRound_delivers 1 [], ?_⟩
    have first : index = 0 := by
      have inside := (InstantRemovalLoop.scan_eq_some scanned).2.1
      omega
    rw [first]
    have handled : (Steward.InstantRemoveValidator.handler (sampleRound 1 []).environment 1 0
      (immediateMark 1 1)).isOk = true := by decide +kernel
    exact Outcome.exists_eq_ok handled
  · rw [stopped] at running
    cases running

theorem removalLoops_makeProgress_marked :
    MakesProgress (EpochMaintenanceLoop.body (sampleSession 1 [])) (.start 1 regularMark)
        EpochMaintenanceLoop.marks (EpochMaintenanceLoop.SubmitsMarked (sampleSession 1 [])) ∧
      MakesProgress (InstantRemovalLoop.body (sampleSession 1 []) 1) (.start (immediateMark 1 1))
        InstantRemovalLoop.marks (InstantRemovalLoop.SubmitsMarked (sampleSession 1 []) 1) := by
  have progress := removalLoops_makeProgress_iff (show regularMark.state.currentEpoch < 1 by decide)
    regularMark_checksPass immediateMark_checksPass
  exact ⟨progress.1.mpr regularMark_covered, progress.2.mpr immediateMark_covered⟩

/-! ## Marks that are not covered -/

/-- The epoch has not been opened, and the mark for immediate removal is still there. -/
structure Unopened (loop : EpochMaintenanceLoop) : Prop where
  same : SameMarks loop.accounts.state (immediateMark 0 1).state
  stateEpoch : loop.accounts.state.currentEpoch = 0
  currentEpoch : loop.currentEpoch = 1

namespace Unopened

variable {iteration : Nat} {loop following : EpochMaintenanceLoop}

theorem marks (unopened : Unopened loop) : loop.accounts.state.marks = 1 := by
  have one : (immediateMark 0 1).state.marks = 1 := by decide +kernel
  rw [unopened.same.marks, one]

/-- The mark is looked for in the other mask. -/
theorem scan (unopened : Unopened loop) : loop.scan (sampleSession 1 []) = .ok none := by
  apply findMarked_eq_none
  · intro row member
    have noRows : loop.validatorsToRemove.rows = ∅ := by
      rw [loop.validatorsToRemove_eq, unopened.same.toRemove]
      exact BitMask.rows_empty
    rw [noRows] at member
    exact absurd member (Finset.notMem_empty row)
  · rw [loop.numValidators_eq, unopened.same.numPoolValidators]
    decide

/-- A transaction without a validator to remove succeeds. -/
theorem handled (unopened : Unopened loop) :
    ∃ accounts, Steward.EpochMaintenance.handler (sampleRound 1 []).environment 1 none
      loop.accounts = .ok accounts := by
  apply Steward.EpochMaintenance.handler_none_succeeds rfl
  · rw [unopened.stateEpoch]
    exact Nat.one_pos
  · rfl
  · rw [unopened.marks, unopened.same.numPoolValidators, unopened.same.validatorsAdded]
    rfl
  · rw [unopened.marks, unopened.same.numPoolValidators, unopened.same.validatorsAdded]
    decide

theorem next (unopened : Unopened loop)
    (continued : EpochMaintenanceLoop.body (sampleSession 1 []) iteration loop =
      .next following) : Unopened following := by
  rcases EpochMaintenanceLoop.effect_of_body continued with ⟨requested, scanned, effect, fetched⟩
  have none : requested = none := Except.ok.inj (scanned.symm.trans unopened.scan)
  have kept := effect.kept none
  have currentEpoch := effect.currentEpoch
  rw [kept.marks, unopened.marks, if_neg Nat.one_ne_zero, unopened.stateEpoch] at currentEpoch
  exact ⟨kept.trans unopened.same, currentEpoch, (Except.ok.inj fetched).symm⟩

theorem of_reaches (reaches : Flow.Reaches (EpochMaintenanceLoop.body (sampleSession 1 []))
    (.start 1 (immediateMark 0 1)) iteration loop) : Unopened loop :=
  reaches.invariant Unopened ⟨⟨rfl, rfl, rfl, rfl⟩, rfl, rfl⟩ fun _ _ _ => next

end Unopened

theorem unopened_checksPass :
    EpochMaintenanceLoop.ChecksPass (sampleSession 1 []) (.start 1 (immediateMark 0 1)) := by
  intro iteration loop reaches _ requested scanned
  have unopened := Unopened.of_reaches reaches
  have none : requested = none := Except.ok.inj (scanned.symm.trans unopened.scan)
  rw [none]
  exact ⟨sampleRound_delivers 1 [], unopened.handled⟩

/-- A mark for immediate removal that is left from the epoch before keeps the loop going for
ever. -/
theorem unopened_endless (fuel : Nat) :
    Flow.run (EpochMaintenanceLoop.body (sampleSession 1 [])) fuel 0
      (.start 1 (immediateMark 0 1)) = none := by
  apply Flow.run_eq_none
  intro iteration loop reaches
  have unopened := Unopened.of_reaches reaches
  have running : loop.running = true := by
    rw [EpochMaintenanceLoop.running, loop.stateEpoch_eq, unopened.stateEpoch,
      unopened.currentEpoch]
    rfl
  rcases unopened.handled with ⟨accounts, handled⟩
  exact EpochMaintenanceLoop.body_of_handler running unopened.scan (sampleRound_delivers 1 [])
    handled

/-- The list without the last one of two validators. -/
def firstEntry : List Steward.ValidatorStakeInfo := [⟨0, 0, 0, .active, 1⟩]

theorem lastMark_rows : (immediateMark 1 2).state.validatorsForImmediateRemoval.rows = {1} :=
  rows_singleMask (by decide)

theorem lastMark_scan : (InstantRemovalLoop.start (immediateMark 1 2)).scan
    (sampleSession 1 firstEntry) 1 = .ok none := by
  apply findMarked_eq_none
  · intro row member
    rw [(InstantRemovalLoop.start (immediateMark 1 2)).validatorsToRemove_eq] at member
    have last : row ∈ ({1} : Finset Nat) := lastMark_rows ▸ member
    exact (Finset.mem_singleton.mp last).ge
  · decide

/-- A mark on the last row, whose validator has left the list, is not found. -/
theorem lastMark_panics (iteration : Nat) :
    InstantRemovalLoop.body (sampleSession 1 firstEntry) 1 iteration
      (.start (immediateMark 1 2)) = .stop (.error .panicked) := by
  have running : (InstantRemovalLoop.start (immediateMark 1 2)).running = true := by
    decide +kernel
  rw [InstantRemovalLoop.body, whileLoop, if_pos running, InstantRemovalLoop.iterate,
    lastMark_scan]
  rfl

theorem lastMark_checksPass :
    InstantRemovalLoop.ChecksPass (sampleSession 1 firstEntry) 1 (.start (immediateMark 1 2)) := by
  have finishes : ∀ iteration following,
      InstantRemovalLoop.body (sampleSession 1 firstEntry) 1 iteration
        (.start (immediateMark 1 2)) = .next following → following.running = false := by
    intro iteration following continued
    rw [lastMark_panics] at continued
    cases continued
  intro iteration loop reaches running index scanned
  rcases reaches.start_or finishes (fun _ _ _ => whileLoop_ne_next) with rfl | stopped
  · cases lastMark_scan.symm.trans scanned
  · rw [stopped] at running
    cases running

/-- In epoch maintenance, a mark for immediate removal is left from the epoch before: all
transactions succeed, and the loop never ends. In instant removal, the last one of two validators
is marked and has left the list: its removal would succeed, but the loop panics. -/
theorem removalLoops_stuck :
    ((immediateMark 0 1).state.currentEpoch < 1 ∧
      0 ∈ (immediateMark 0 1).state.validatorsForImmediateRemoval.rows ∧
      EpochMaintenanceLoop.ChecksPass (sampleSession 1 []) (.start 1 (immediateMark 0 1)) ∧
      (∀ fuel, Flow.run (EpochMaintenanceLoop.body (sampleSession 1 [])) fuel 0
        (.start 1 (immediateMark 0 1)) = none) ∧
      ¬MakesProgress (EpochMaintenanceLoop.body (sampleSession 1 []))
        (.start 1 (immediateMark 0 1)) EpochMaintenanceLoop.marks
        (EpochMaintenanceLoop.SubmitsMarked (sampleSession 1 []))) ∧
    (1 ∈ (immediateMark 1 2).state.validatorsForImmediateRemoval.rows ∧
      (Steward.InstantRemoveValidator.handler (sampleRound 1 firstEntry).environment 1 1
        (immediateMark 1 2)).isOk = true ∧
      InstantRemovalLoop.ChecksPass (sampleSession 1 firstEntry) 1 (.start (immediateMark 1 2)) ∧
      InstantRemovalLoop.body (sampleSession 1 firstEntry) 1 0 (.start (immediateMark 1 2)) =
        .stop (.error .panicked) ∧
      ¬MakesProgress (InstantRemovalLoop.body (sampleSession 1 firstEntry) 1)
        (.start (immediateMark 1 2)) InstantRemovalLoop.marks
        (InstantRemovalLoop.SubmitsMarked (sampleSession 1 firstEntry) 1)) := by
  constructor
  · have rows : (immediateMark 0 1).state.validatorsForImmediateRemoval.rows = {0} :=
      rows_singleMask (by decide)
    refine ⟨by decide, ?_, unopened_checksPass, unopened_endless, fun progress => ?_⟩
    · rw [rows]
      exact Finset.mem_singleton_self 0
    · rcases progress.ends with ⟨result, ended⟩
      rw [unopened_endless] at ended
      cases ended
  · refine ⟨?_, by decide +kernel, lastMark_checksPass, lastMark_panics 0, fun progress => ?_⟩
    · rw [lastMark_rows]
      exact Finset.mem_singleton_self 1
    · have remain : (InstantRemovalLoop.start (immediateMark 1 2)).marks ≠ 0 := by
        decide +kernel
      rcases progress.submits 0 _ .start remain with ⟨index, scanned, _⟩
      cases lastMark_scan.symm.trans scanned

end Stakenet.Keeper

import Stakenet.Steward.PoolMembership

/-! Agreement of the removal masks with the validator list while validators enter
and leave the pool. -/

namespace Stakenet.Steward

/-! ## Marks -/

namespace StewardStateV2

/-- The index is in one of the two removal masks. -/
def Marked (state : StewardStateV2) (index : Nat) : Prop :=
  state.validatorsToRemove.contains index = true ∨
    state.validatorsForImmediateRemoval.contains index = true

/-- No index is in both removal masks. -/
def MarksExclusive (state : StewardStateV2) : Prop :=
  ∀ index, ¬(state.validatorsToRemove.contains index = true ∧
    state.validatorsForImmediateRemoval.contains index = true)

end StewardStateV2

/-- One more index is marked, in one of the masks. -/
structure MarkedOne (state next : StewardStateV2) (index : Nat) : Prop where
  marked : ∀ other, next.Marked other ↔ other = index ∨ state.Marked other
  exclusive : ¬state.Marked index → state.MarksExclusive → next.MarksExclusive

section Masks

variable {mask next other : BitMask} {index : Nat}

theorem BitMask.union_set (isSet : mask.set index true = .ok next) (queried : Nat) :
    (next.contains queried = true ∨ other.contains queried = true) ↔
      queried = index ∨ (mask.contains queried = true ∨ other.contains queried = true) := by
  rw [BitMask.contains_set isSet]
  by_cases same : queried = index <;> simp [same]

theorem BitMask.disjoint_set (isSet : mask.set index true = .ok next)
    (absent : ¬other.contains index = true)
    (disjoint : ∀ queried, ¬(mask.contains queried = true ∧ other.contains queried = true))
    (queried : Nat) : ¬(next.contains queried = true ∧ other.contains queried = true) := by
  rw [BitMask.contains_set isSet]
  by_cases same : queried = index
  · subst same
    exact fun both => absent both.2
  · rw [if_neg same]
    exact disjoint queried

end Masks

theorem markValidatorForRemoval_marks {state next : StewardStateV2} {index : Nat}
    (written : state.markValidatorForRemoval index = .ok next) : MarkedOne state next index := by
  simp only [StewardStateV2.markValidatorForRemoval, Outcome.bind_eq_ok,
    Outcome.pure_eq_ok] at written
  rcases written with ⟨mask, isSet, rfl⟩
  refine ⟨BitMask.union_set isSet, fun unmarked exclusive => ?_⟩
  exact BitMask.disjoint_set isSet (fun present => unmarked (.inr present)) exclusive

theorem markValidatorForImmediateRemoval_marks {state next : StewardStateV2} {index : Nat}
    (written : state.markValidatorForImmediateRemoval index = .ok next) :
    MarkedOne state next index := by
  simp only [StewardStateV2.markValidatorForImmediateRemoval, Outcome.bind_eq_ok,
    Outcome.pure_eq_ok] at written
  rcases written with ⟨mask, isSet, rfl⟩
  refine ⟨fun other => ?_, fun unmarked exclusive other both => ?_⟩
  · simp only [StewardStateV2.Marked]
    rw [or_comm, BitMask.union_set isSet]
    exact or_congr_right or_comm
  · apply BitMask.disjoint_set isSet (fun present => unmarked (.inl present)) _ other both.symm
    exact fun queried together => exclusive queried together.symm

/-- Whatever mask the status selects, a successful removal marks its index. -/
theorem markRemovedValidator_marks {epoch index : Nat} {authority : PoolAuthority}
    {stakeState : Result StakeStateV2} {status : StakeStatus} {state next : StewardStateV2}
    (written : markRemovedValidator epoch authority stakeState status index state = .ok next) :
    status ≠ .active ∧ MarkedOne state next index := by
  cases status with
  | active => simp [markRemovedValidator] at written
  | deactivatingTransient => exact ⟨nofun, markValidatorForRemoval_marks written⟩
  | readyForRemoval => exact ⟨nofun, markValidatorForImmediateRemoval_marks written⟩
  | deactivatingAll => exact ⟨nofun, markValidatorForRemoval_marks written⟩
  | deactivatingValidator =>
      refine ⟨nofun, ?_⟩
      simp only [markRemovedValidator, Outcome.bind_eq_ok] at written
      rcases written with ⟨decoded, _, written⟩
      cases decoded with
      | other => simp at written
      | stake accountMeta delegation =>
          simp only at written
          split at written
          · exact markValidatorForImmediateRemoval_marks written
          · exact markValidatorForRemoval_marks written

/-! ## The pool -/

namespace StakePool

variable {Ledger : Type} {program : StakePoolProgram Ledger}

/-- There is an entry at the index and it is not active. -/
def Deactivated (pool : StakePool program) (index : Nat) : Prop :=
  ∃ entry, pool.entries[index]? = some entry ∧ entry.status ≠ .active

theorem entryAt_eq_ok {pool : StakePool program} {index : Nat} {entry : PoolEntry}
    (read : pool.entryAt index = .ok entry) : pool.entries[index]? = some entry := by
  cases found : pool.entries[index]? <;> simp_all [entryAt]

theorem deactivated_addValidator {pool next : StakePool program} {ledger : Ledger}
    {voteAccount stakeAccount : Pubkey} {seed : Nat}
    (added : pool.addValidator ledger voteAccount seed stakeAccount = .ok next) (index : Nat) :
    next.Deactivated index ↔ pool.Deactivated index := by
  simp only [addValidator] at added
  split at added
  case h_2 => simp at added
  case h_1 entries appended =>
    cases added
    rcases program.add_appends appended with ⟨entry, rfl, active, _⟩
    simp only [Deactivated]
    rcases Nat.lt_trichotomy index pool.entries.length with below | same | above
    · rw [List.getElem?_append_left below]
    · simp [same, active]
    · have beyond : (pool.entries ++ [entry]).length ≤ index := by
        rw [List.length_append]
        exact above
      rw [List.getElem?_eq_none beyond, List.getElem?_eq_none (Nat.le_of_lt above)]

/-- The entry that a removal acts on. -/
theorem deactivated_removeValidator {pool next : StakePool program} {ledger : Ledger}
    {stakeAccount : Pubkey} (removed : pool.removeValidator ledger stakeAccount = .ok next) :
    ∃ acted entry, pool.entries[acted]? = some entry ∧
      program.stakeAddressOf entry = stakeAccount ∧ ¬pool.Deactivated acted ∧
      ∀ index, next.Deactivated index ↔ index = acted ∨ pool.Deactivated index := by
  simp only [removeValidator] at removed
  split at removed
  case h_2 => simp at removed
  case h_1 entries deactivated =>
    cases removed
    rcases program.remove_deactivates deactivated with
      ⟨acted, entry, status, found, address, active, inactive, rfl⟩
    refine ⟨acted, entry, found, address, ?_, fun index => ?_⟩
    · intro ⟨other, same, notActive⟩
      rw [found, Option.some.injEq] at same
      exact notActive (same ▸ active)
    · have bounded := (List.getElem?_eq_some_iff.mp found).1
      simp only [Deactivated, List.getElem?_set]
      by_cases same : acted = index
      · subst same
        simp [bounded, inactive]
      · simp [same, Ne.symm same]

end StakePool

namespace PoolSystem

variable {Ledger : Type} {program : StakePoolProgram Ledger}

/-- The marked indices are those of the non-active entries, and each is in one
mask only. -/
structure MarksAgree (system : PoolSystem program) : Prop where
  marked : ∀ index, system.state.Marked index ↔ system.pool.Deactivated index
  exclusive : system.state.MarksExclusive

/-- A successful removal: the pool deactivates the entry at `acted`, and the
Steward marks `named`, which must not be active afterwards. -/
structure Removal (system next : PoolSystem program) (named acted : Nat) : Prop where
  active : ¬system.pool.Deactivated acted
  deactivated : ∀ index, next.pool.Deactivated index ↔
    index = acted ∨ system.pool.Deactivated index
  inactive : next.pool.Deactivated named
  marks : MarkedOne system.state next.state named

variable {system next : PoolSystem program} {named acted : Nat}

theorem Removal.marksAgree (removal : Removal system next named acted) (same : named = acted)
    (agree : system.MarksAgree) : next.MarksAgree where
  marked := fun index => by
    rw [removal.marks.marked, removal.deactivated, agree.marked, same]
  exclusive := by
    apply removal.marks.exclusive _ agree.exclusive
    rw [agree.marked, same]
    exact removal.active

/-- An index that was not active before is not the one the pool acts on, so the
deactivated entry stays unmarked. -/
theorem Removal.not_marksAgree (removal : Removal system next named acted)
    (earlier : system.pool.Deactivated named) (agree : system.MarksAgree) :
    ¬next.MarksAgree := by
  intro agreeing
  have different : acted ≠ named := fun same => removal.active (same ▸ earlier)
  have reached : next.state.Marked acted :=
    (agreeing.marked acted).mpr ((removal.deactivated acted).mpr (.inl rfl))
  rcases (removal.marks.marked acted).mp reached with same | marked
  · exact different same
  · exact removal.active ((agree.marked acted).mp marked)

end PoolSystem

/-! ## Calls -/

namespace PoolTransaction

variable {Ledger : Type} {program : StakePoolProgram Ledger}
variable {system next : PoolSystem program} {transaction : PoolTransaction Ledger}

/-- A removal that names an index past the rows of the state, of an entry that
has been deactivated before. -/
def Misdirected (transaction : PoolTransaction Ledger) (system : PoolSystem program) : Prop :=
  ∃ inputs, transaction.call = .removeValidatorFromPool inputs ∧
    system.state.numPoolValidators ≤ inputs.validatorListIndex ∧
    system.pool.Deactivated inputs.validatorListIndex

/-- An addition keeps the marks and deactivates no entry. -/
structure Addition (system next : PoolSystem program) : Prop where
  deactivated : ∀ index, next.pool.Deactivated index ↔ system.pool.Deactivated index
  validatorsToRemove : next.state.validatorsToRemove = system.state.validatorsToRemove
  validatorsForImmediateRemoval :
    next.state.validatorsForImmediateRemoval = system.state.validatorsForImmediateRemoval

theorem incrementValidatorToAdd_masks {state next : StewardStateV2}
    (incremented : state.incrementValidatorToAdd = .ok next) :
    next.validatorsToRemove = state.validatorsToRemove ∧
      next.validatorsForImmediateRemoval = state.validatorsForImmediateRemoval := by
  simp only [StewardStateV2.incrementValidatorToAdd] at incremented
  split at incremented
  case isTrue =>
    cases incremented
    exact ⟨rfl, rfl⟩
  case isFalse => simp at incremented

theorem removeValidatorFromPool_removal {inputs : RemoveValidatorFromPool.Inputs Ledger}
    (removes : transaction.call = .removeValidatorFromPool inputs)
    (succeeded : transaction.process system = .ok next) :
    ∃ acted, system.Removal next inputs.validatorListIndex acted ∧
      (inputs.validatorListIndex < system.state.numPoolValidators →
        inputs.validatorListIndex = acted) := by
  simp only [process, removes, RemoveValidatorFromPool.handler, Outcome.bind_eq_ok,
    Outcome.pure_eq_ok, require_eq_ok, exists_const] at succeeded
  rcases succeeded with ⟨result, ⟨_, _, checked, pool, removed, entry, read, state, marked, rfl⟩,
    rfl⟩
  rcases StakePool.deactivated_removeValidator removed with
    ⟨acted, deactivatedEntry, found, address, active, deactivated⟩
  rcases markRemovedValidator_marks marked with ⟨inactive, marks⟩
  refine ⟨acted, ⟨active, deactivated, ⟨entry, StakePool.entryAt_eq_ok read, inactive⟩, marks⟩, ?_⟩
  intro scored
  simp only [RemoveValidatorFromPool.requireStakeAccount, if_pos scored, Outcome.bind_eq_ok,
    require_eq_ok] at checked
  rcases checked with ⟨named, readNamed, ownAddress⟩
  exact system.pool.distinct.index_eq (StakePool.entryAt_eq_ok readNamed) found
    (ownAddress.trans address.symm)

theorem autoRemoveValidatorFromPool_removal {inputs : AutoRemoveValidatorFromPool.Inputs Ledger}
    (removes : transaction.call = .autoRemoveValidatorFromPool inputs)
    (succeeded : transaction.process system = .ok next) :
    system.Removal next inputs.validatorListIndex inputs.validatorListIndex := by
  simp only [process, removes, AutoRemoveValidatorFromPool.handler, Outcome.bind_eq_ok,
    Outcome.pure_eq_ok, require_eq_ok, exists_const] at succeeded
  rcases succeeded with ⟨result, ⟨_, checked, _, _, named, readNamed, ownVoteAccount, _, _, _, _,
    _, pool, removed, entry, read, state, marked, rfl⟩, rfl⟩
  rcases StakePool.deactivated_removeValidator removed with
    ⟨acted, deactivatedEntry, found, address, active, deactivated⟩
  rcases markRemovedValidator_marks marked with ⟨inactive, marks⟩
  have readBefore := StakePool.entryAt_eq_ok readNamed
  have same : inputs.validatorListIndex = acted := by
    apply system.pool.distinct.index_eq readBefore found
    simp only [AutoRemoveValidatorFromPool.requireStakeAccount, readNamed, Outcome.ok_bind]
      at checked
    split at checked
    case isFalse => simp at checked
    case isTrue derived =>
      rw [address, ← derived, ← ownVoteAccount]
      rfl
  subst same
  exact ⟨active, deactivated, ⟨entry, StakePool.entryAt_eq_ok read, inactive⟩, marks⟩

theorem autoAddValidatorToPool_addition {ledger : Ledger} {eligibility : Result Unit}
    {voteAccount : Pubkey}
    (adds : transaction.call = .autoAddValidatorToPool ledger eligibility voteAccount)
    (succeeded : transaction.process system = .ok next) : Addition system next := by
  simp only [process, adds, AutoAddValidatorToPool.handler, Outcome.bind_eq_ok,
    Outcome.pure_eq_ok] at succeeded
  rcases succeeded with
    ⟨state, ⟨_, _, _, _, _, _, _, _, _, incremented, _, _, rfl⟩, pool, added, rfl⟩
  rcases incrementValidatorToAdd_masks incremented with ⟨kept, keptImmediate⟩
  exact ⟨StakePool.deactivated_addValidator added, kept, keptImmediate⟩

theorem addValidatorToPool_addition {ledger : Ledger} {voteAccount stakeAccount : Pubkey}
    {validatorSeed : Nat}
    (adds : transaction.call =
      .addValidatorToPool ledger voteAccount validatorSeed stakeAccount)
    (succeeded : transaction.process system = .ok next) : Addition system next := by
  simp only [process, adds, AddValidatorToPool.handler, Outcome.bind_eq_ok,
    Outcome.pure_eq_ok] at succeeded
  rcases succeeded with ⟨state, ⟨_, _, _, _, _, incremented, _, _, rfl⟩, pool, added, rfl⟩
  rcases incrementValidatorToAdd_masks incremented with ⟨kept, keptImmediate⟩
  exact ⟨StakePool.deactivated_addValidator added, kept, keptImmediate⟩

theorem Addition.marksAgree (addition : Addition system next) (agree : system.MarksAgree) :
    next.MarksAgree := by
  rcases addition with ⟨deactivated, kept, keptImmediate⟩
  refine ⟨fun index => ?_, ?_⟩
  · rw [deactivated, ← agree.marked, StewardStateV2.Marked, kept, keptImmediate]
    rfl
  · rw [StewardStateV2.MarksExclusive, kept, keptImmediate]
    exact agree.exclusive

/-- Every call that is not misdirected keeps the agreement. -/
theorem process_marksAgree (directed : ¬transaction.Misdirected system)
    (agree : system.MarksAgree) (succeeded : transaction.process system = .ok next) :
    next.MarksAgree := by
  cases called : transaction.call with
  | autoAddValidatorToPool ledger eligibility voteAccount =>
      exact (autoAddValidatorToPool_addition called succeeded).marksAgree agree
  | addValidatorToPool ledger voteAccount validatorSeed stakeAccount =>
      exact (addValidatorToPool_addition called succeeded).marksAgree agree
  | autoRemoveValidatorFromPool inputs =>
      exact (autoRemoveValidatorFromPool_removal called succeeded).marksAgree rfl agree
  | removeValidatorFromPool inputs =>
      rcases removeValidatorFromPool_removal called succeeded with ⟨acted, removal, scored⟩
      apply removal.marksAgree _ agree
      by_cases below : inputs.validatorListIndex < system.state.numPoolValidators
      · exact scored below
      · -- The named entry is not active afterwards and was active before.
        have before : ¬system.pool.Deactivated inputs.validatorListIndex :=
          fun earlier => directed ⟨inputs, called, Nat.le_of_not_lt below, earlier⟩
        exact ((removal.deactivated _).mp removal.inactive).resolve_right before

/-- A misdirected call that succeeds breaks it. -/
theorem process_not_marksAgree (misdirected : transaction.Misdirected system)
    (agree : system.MarksAgree) (succeeded : transaction.process system = .ok next) :
    ¬next.MarksAgree := by
  rcases misdirected with ⟨inputs, called, _, earlier⟩
  rcases removeValidatorFromPool_removal called succeeded with ⟨acted, removal, _⟩
  exact removal.not_marksAgree earlier agree

end PoolTransaction

/-! ## Runs -/

section Runs

variable {Ledger : Type} {program : StakePoolProgram Ledger}

theorem executePool_marksAgree (system : PoolSystem program)
    (transaction : PoolTransaction Ledger) (agree : system.MarksAgree)
    (directed : ¬transaction.Misdirected system) :
    (executePool system transaction).MarksAgree := by
  rcases Outcome.commit_cases system (transaction.process system) with unchanged | succeeded
  · rw [executePool, unchanged]
    exact agree
  · exact PoolTransaction.process_marksAgree directed agree succeeded

/-- The masks agree with the list in every state of a run without misdirected
removals, and a misdirected removal that succeeds always breaks the agreement. -/
theorem run_marksAgree {initial : PoolSystem program} (agree : initial.MarksAgree)
    (transactions : List (PoolTransaction Ledger)) :
    (Execution.EveryStep executePool
        (fun system transaction => ¬transaction.Misdirected system) initial transactions →
      ∀ system ∈ Execution.visited executePool initial transactions, system.MarksAgree) ∧
    ∀ system ∈ Execution.visited executePool initial transactions, system.MarksAgree →
      ∀ (transaction : PoolTransaction Ledger) (next : PoolSystem program),
        transaction.Misdirected system → transaction.process system = .ok next →
          ¬next.MarksAgree := by
  refine ⟨fun directed => ?_, fun system _ agreeing transaction next misdirected succeeded => ?_⟩
  · exact Execution.visited_invariant PoolSystem.MarksAgree executePool_marksAgree agree directed
  · exact PoolTransaction.process_not_marksAgree misdirected agreeing succeeded

end Runs

/-! ## A pool with one validator -/

/-- A stake pool program over the status that the stake accounts of a removed
validator lead to. -/
def listProgram : StakePoolProgram StakeStatus where
  findStakeProgramAddress := fun voteAccount seed =>
    voteAccount + BitVec.ofNat 256 (2 ^ 128 * (seed + 1))
  addValidatorToPool := fun _ entries voteAccount seed stakeAccount =>
    let address := fun (voteAccount : Pubkey) (seed : Nat) =>
      voteAccount + BitVec.ofNat 256 (2 ^ 128 * (seed + 1))
    if stakeAccount = address voteAccount seed ∧ ∀ entry ∈ entries,
        entry.voteAccountAddress ≠ voteAccount ∧
          address entry.voteAccountAddress entry.validatorSeedSuffix ≠ stakeAccount then
      .ok (entries ++ [{
        activeStakeLamports := 0
        transientStakeLamports := 0
        transientSeedSuffix := 0
        status := .active
        voteAccountAddress := voteAccount
        validatorSeedSuffix := seed }])
    else
      .error .external
  removeValidatorFromPool := fun status entries stakeAccount =>
    let index := entries.findIdx fun entry => entry.voteAccountAddress +
      BitVec.ofNat 256 (2 ^ 128 * (entry.validatorSeedSuffix + 1)) == stakeAccount
    match entries[index]? with
    | none => .error .external
    | some entry =>
        if entry.status = .active ∧ status ≠ .active then
          .ok (entries.set index { entry with status := status })
        else
          .error .external
  add_appends := by
    intro _ entries voteAccount seed stakeAccount next added
    simp only at added
    split at added
    case isFalse => simp at added
    case isTrue accepted =>
      cases added
      rcases accepted with ⟨rfl, fresh⟩
      exact ⟨_, rfl, rfl, fun entry member => (fresh entry member).2⟩
  remove_deactivates := by
    intro status entries stakeAccount next removed
    simp only at removed
    split at removed
    case h_1 => simp at removed
    case h_2 entry found =>
      split at removed
      case isFalse => simp at removed
      case isTrue accepted =>
        cases removed
        rcases List.getElem?_eq_some_iff.mp found with ⟨bounded, same⟩
        have address := List.findIdx_getElem (w := bounded)
        rw [same, beq_iff_eq] at address
        exact ⟨_, entry, status, found, address, accepted.1, accepted.2, rfl⟩

theorem PoolSystem.marksAgree_of_active {Ledger : Type} {program : StakePoolProgram Ledger}
    {system : PoolSystem program} (unmarked : ∀ index, ¬system.state.Marked index)
    (active : ∀ entry ∈ system.pool.entries, entry.status = .active) : system.MarksAgree where
  marked := fun index => by
    refine iff_of_false (unmarked index) fun deactivated => ?_
    rcases deactivated with ⟨entry, found, inactive⟩
    exact inactive (active entry (List.mem_of_getElem? found))
  exclusive := fun index both => unmarked index (.inl both.1)

/-- One active validator, and no marks. -/
def oneValidatorPool : PoolSystem listProgram where
  pool := {
    accountType := .validatorList
    entries := [{
      activeStakeLamports := 0
      transientStakeLamports := 0
      transientSeedSuffix := 0
      status := .active
      voteAccountAddress := 1
      validatorSeedSuffix := 0 }]
    distinct := List.pairwise_singleton _ _ }
  state := ReallocState.initialState 1 10 0

theorem oneValidatorPool_marksAgree : oneValidatorPool.MarksAgree := by
  apply PoolSystem.marksAgree_of_active
  · simp [oneValidatorPool, StewardStateV2.Marked, ReallocState.initialState]
  · simp [oneValidatorPool]

abbrev poolTransaction (call : PoolCall StakeStatus) : PoolTransaction StakeStatus where
  clock := ⟨0, 0⟩
  epochSchedule := .withoutWarmup 100
  config := ⟨.fixture, false⟩
  call := call

/-- A second validator enters the pool, at index 1. -/
abbrev secondAddition : PoolTransaction StakeStatus :=
  poolTransaction (.addValidatorToPool .active 2 0 (listProgram.findStakeProgramAddress 2 0))

/-- Index 1 is named with the stake account of a given validator. -/
abbrev secondRemoval (voteAccount : Pubkey) : PoolTransaction StakeStatus :=
  poolTransaction (.removeValidatorFromPool {
    ledger := .deactivatingAll
    validatorListIndex := 1
    stakeAccount := listProgram.findStakeProgramAddress voteAccount 0
    authority := ⟨0, 0, 0, 0⟩
    stakeStateAfter := .ok .other })

theorem run_marksAgree_oneValidatorPool :
    (Execution.run executePool oneValidatorPool [secondAddition, secondRemoval 2]).MarksAgree := by
  apply (run_marksAgree oneValidatorPool_marksAgree [secondAddition, secondRemoval 2]).1 _ _
    (Execution.run_mem_visited _ _)
  refine ⟨fun misdirected => ?_, fun misdirected => ?_, trivial⟩
  · rcases misdirected with ⟨inputs, called, _⟩
    cases called
  · rcases misdirected with ⟨inputs, called, _, entry, found, inactive⟩
    cases called
    have active : ((executePool oneValidatorPool secondAddition).pool.entries[1]?).map
        (fun entry => entry.status) = some .active := by
      decide +kernel
    rw [found, Option.map_some, Option.some.injEq] at active
    exact inactive active

/-- After its own removal index 1 is named once more, with the stake account of
the validator at index 0: that validator is deactivated and not marked. -/
theorem not_run_marksAgree :
    ¬∀ (Ledger : Type) (program : StakePoolProgram Ledger) (initial : PoolSystem program),
      initial.MarksAgree → ∀ transactions : List (PoolTransaction Ledger),
        ∀ system ∈ Execution.visited executePool initial transactions, system.MarksAgree := by
  intro always
  have agree := always StakeStatus listProgram oneValidatorPool oneValidatorPool_marksAgree
    [secondAddition, secondRemoval 2, secondRemoval 1] _ (Execution.run_mem_visited _ _)
  have unmarked : ¬StewardStateV2.Marked (Execution.run executePool oneValidatorPool
      [secondAddition, secondRemoval 2, secondRemoval 1]).state 0 := by
    unfold StewardStateV2.Marked
    decide +kernel
  apply unmarked
  rw [agree.marked]
  have deactivated : ((Execution.run executePool oneValidatorPool
      [secondAddition, secondRemoval 2, secondRemoval 1]).pool.entries[0]?).map
        (fun entry => entry.status) = some .deactivatingAll := by
    decide +kernel
  rcases Option.map_eq_some_iff.mp deactivated with ⟨entry, found, status⟩
  exact ⟨entry, found, by rw [status]; nofun⟩

end Stakenet.Steward

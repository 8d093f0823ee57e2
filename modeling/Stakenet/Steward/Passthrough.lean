import Stakenet.Steward.Maintenance

/-! The instructions by which the admin moves stake of one validator through the
Steward into the stake pool program. -/

namespace Stakenet.Steward

namespace SplPassthrough

structure Inputs where
  voteAccount : Pubkey
  /-- `index` of the validator history account that is derived from the vote account. -/
  validatorHistoryIndex : Nat
  lamports : Nat
  /-- Outcome of the call into the stake pool program. -/
  invoke : Result Unit

/-- Sets the balance of the validator, unless it is not tracked. -/
def setBalance (change : Nat → Nat → Result Nat) (inputs : Inputs) (state : StewardStateV2) :
    Result StewardStateV2 := do
  require (inputs.validatorHistoryIndex < maxValidators) .validatorIndexOutOfBounds
  let balance := state.validatorLamportBalances inputs.validatorHistoryIndex
  if balance ≠ lamportBalanceDefault then
    let changed ← change balance inputs.lamports
    return { state with
      validatorLamportBalances :=
        Function.update state.validatorLamportBalances inputs.validatorHistoryIndex changed }
  else
    return state

/-- The four handlers differ in the change of the balance and in the call. -/
def moveStake (change : Nat → Nat → Result Nat) (inputs : Inputs) (state : StewardStateV2) :
    Result StewardStateV2 := do
  let changed ← setBalance change inputs state
  inputs.invoke
  return changed

def increaseValidatorStakeHandler : Inputs → StewardStateV2 → Result StewardStateV2 :=
  moveStake checkedAdd

def decreaseValidatorStakeHandler : Inputs → StewardStateV2 → Result StewardStateV2 :=
  moveStake checkedSub

def increaseAdditionalValidatorStakeHandler :
    Inputs → StewardStateV2 → Result StewardStateV2 :=
  moveStake checkedAdd

def decreaseAdditionalValidatorStakeHandler :
    Inputs → StewardStateV2 → Result StewardStateV2 :=
  moveStake checkedSub

/-- A successful call changed the row of the history index, if that is tracked. -/
theorem moveStake_cases {change : Nat → Nat → Result Nat} {inputs : Inputs}
    {state next : StewardStateV2} (succeeded : moveStake change inputs state = .ok next) :
    state.validatorLamportBalances inputs.validatorHistoryIndex = lamportBalanceDefault ∧
        next = state ∨
      state.validatorLamportBalances inputs.validatorHistoryIndex ≠ lamportBalanceDefault ∧
        ∃ changed, change (state.validatorLamportBalances inputs.validatorHistoryIndex)
            inputs.lamports = .ok changed ∧
          next = { state with
            validatorLamportBalances := Function.update state.validatorLamportBalances
              inputs.validatorHistoryIndex changed } := by
  simp only [moveStake, setBalance, Outcome.bind_eq_ok, require_eq_ok] at succeeded
  rcases succeeded with ⟨middle, ⟨_, _, setting⟩, _, _, finished⟩
  cases finished
  split at setting
  case isTrue tracked =>
      simp only [Outcome.bind_eq_ok, Outcome.pure_eq_ok] at setting
      rcases setting with ⟨changed, changing, rfl⟩
      exact .inr ⟨tracked, changed, changing, rfl⟩
  case isFalse untracked =>
      cases setting
      exact .inl ⟨not_not.mp untracked, rfl⟩

end SplPassthrough

open SplPassthrough

/-- The instructions that move stake of a validator. -/
inductive StakeMove
  | increaseValidatorStake
  | decreaseValidatorStake
  | increaseAdditionalValidatorStake
  | decreaseAdditionalValidatorStake

namespace StakeMove

def handler : StakeMove → Inputs → StewardStateV2 → Result StewardStateV2
  | .increaseValidatorStake => increaseValidatorStakeHandler
  | .decreaseValidatorStake => decreaseValidatorStakeHandler
  | .increaseAdditionalValidatorStake => increaseAdditionalValidatorStakeHandler
  | .decreaseAdditionalValidatorStake => decreaseAdditionalValidatorStakeHandler

/-- A balance changed by exactly the moved lamports. -/
def Moves : StakeMove → Nat → Nat → Nat → Prop
  | .increaseValidatorStake, lamports, before, after => after = before + lamports
  | .decreaseValidatorStake, lamports, before, after => after + lamports = before
  | .increaseAdditionalValidatorStake, lamports, before, after => after = before + lamports
  | .decreaseAdditionalValidatorStake, lamports, before, after => after + lamports = before

/-- Of all balances only that of one row changed, by the moved lamports if it is
tracked. -/
structure MovesRow (move : StakeMove) (lamports row : Nat) (before after : Nat → Nat) :
    Prop where
  others : ∀ other, other ≠ row → after other = before other
  untracked : before row = lamportBalanceDefault → after row = before row
  tracked : before row ≠ lamportBalanceDefault → move.Moves lamports (before row) (after row)

variable {move : StakeMove} {inputs : Inputs} {state next : StewardStateV2}
variable {lamports row : Nat} {before after : Nat → Nat}

@[simp] theorem moves_self (move : StakeMove) (lamports balance : Nat) :
    move.Moves lamports balance balance ↔ lamports = 0 := by
  cases move <;> simp [Moves]

@[simp] theorem moves_zero {old new : Nat} : move.Moves 0 old new ↔ new = old := by
  cases move <;> simp [Moves]

/-- What a handler does to a balance. -/
def change : StakeMove → Nat → Nat → Result Nat
  | .increaseValidatorStake => checkedAdd
  | .decreaseValidatorStake => checkedSub
  | .increaseAdditionalValidatorStake => checkedAdd
  | .decreaseAdditionalValidatorStake => checkedSub

theorem handler_eq (move : StakeMove) : move.handler = moveStake move.change := by
  cases move <;> rfl

theorem moves_of_change {old new : Nat} (changed : move.change old lamports = .ok new) :
    move.Moves lamports old new := by
  cases move with
  | increaseValidatorStake => exact (checkedAdd_eq_ok.mp changed).2.symm
  | decreaseValidatorStake =>
      rcases checkedSub_eq_ok.mp changed with ⟨covered, rfl⟩
      exact Nat.sub_add_cancel covered
  | increaseAdditionalValidatorStake => exact (checkedAdd_eq_ok.mp changed).2.symm
  | decreaseAdditionalValidatorStake =>
      rcases checkedSub_eq_ok.mp changed with ⟨covered, rfl⟩
      exact Nat.sub_add_cancel covered

theorem movesRow_same (balances : Nat → Nat)
    (settled : lamports = 0 ∨ balances row = lamportBalanceDefault) :
    move.MovesRow lamports row balances balances where
  others := fun _ _ => rfl
  untracked := fun _ => rfl
  tracked := fun tracked => (moves_self move lamports _).mpr (settled.resolve_right tracked)

/-- The balance of the right row is moved exactly if the history index is that row, or
there is nothing to move. -/
theorem movesRow_iff (succeeded : move.handler inputs state = .ok next) :
    move.MovesRow inputs.lamports row state.validatorLamportBalances
        next.validatorLamportBalances ↔
      (inputs.validatorHistoryIndex = row ∨ inputs.lamports = 0 ∨
        state.validatorLamportBalances inputs.validatorHistoryIndex = lamportBalanceDefault ∧
          state.validatorLamportBalances row = lamportBalanceDefault) := by
  rw [handler_eq] at succeeded
  rcases moveStake_cases succeeded with ⟨untracked, same⟩ | ⟨tracked, changed, changing, rfl⟩
  · rw [same]
    constructor
    · intro moved
      by_cases rowTracked : state.validatorLamportBalances row = lamportBalanceDefault
      · exact .inr (.inr ⟨untracked, rowTracked⟩)
      · exact .inr (.inl ((moves_self move _ _).mp (moved.tracked rowTracked)))
    · rintro (rfl | nothing | ⟨_, rowUntracked⟩)
      · exact movesRow_same _ (.inr untracked)
      · exact movesRow_same _ (.inl nothing)
      · exact movesRow_same _ (.inr rowUntracked)
  · have moves := moves_of_change changing
    constructor
    · intro moved
      by_cases same : inputs.validatorHistoryIndex = row
      · exact .inl same
      · have kept := moved.others _ same
        simp only [Function.update_self] at kept
        rw [kept, moves_self] at moves
        exact .inr (.inl moves)
    · rintro (rfl | nothing | ⟨untracked, _⟩)
      · constructor
        · intro other different
          simp [different]
        · intro untracked
          exact absurd untracked tracked
        · intro _
          simpa using moves
      · rw [nothing, moves_zero] at moves
        simp only [moves, Function.update_eq_self]
        exact movesRow_same _ (.inl nothing)
      · exact absurd untracked tracked

/-! ## The row of the vote account -/

/-- The balance of the validator whose vote account was passed is moved. -/
def MovesListedRow (move : StakeMove) (validatorList : ValidatorList) (inputs : Inputs)
    (state next : StewardStateV2) : Prop :=
  ∀ row, RebalanceDirected.findVoteAccount validatorList inputs.voteAccount = some row →
    move.MovesRow inputs.lamports row state.validatorLamportBalances
      next.validatorLamportBalances

/-- A stake move updates the row of its validator and no other exactly if the index of
the history account is the position in the list, or there is nothing to move. -/
theorem movesListedRow_iff (move : StakeMove) (validatorList : ValidatorList) {inputs : Inputs}
    {state next : StewardStateV2} (succeeded : move.handler inputs state = .ok next) :
    move.MovesListedRow validatorList inputs state next ↔
      ∀ row, RebalanceDirected.findVoteAccount validatorList inputs.voteAccount = some row →
        inputs.validatorHistoryIndex = row ∨ inputs.lamports = 0 ∨
          state.validatorLamportBalances inputs.validatorHistoryIndex = lamportBalanceDefault ∧
            state.validatorLamportBalances row = lamportBalanceDefault := by
  constructor
  · intro moved row listed
    exact (movesRow_iff succeeded).mp (moved row listed)
  · intro agrees row listed
    exact (movesRow_iff succeeded).mpr (agrees row listed)

/-! Two validators with 1000 and 2000 lamports. The history account of the second was
created first. -/

def twoHistoriesList : ValidatorList :=
  ⟨.validatorList, [⟨1000, 0, 0, .active, 1⟩, ⟨2000, 0, 0, .active, 2⟩], []⟩

def twoHistoriesState : StewardStateV2 :=
  { ReallocState.initialState 2 10 0 with
    validatorLamportBalances := fun row =>
      if row = 0 then 1000 else if row = 1 then 2000 else lamportBalanceDefault }

def firstVoteInputs (validatorHistoryIndex : Nat) : Inputs where
  voteAccount := 1
  validatorHistoryIndex := validatorHistoryIndex
  lamports := 500
  invoke := .ok ()

theorem movesListedRow_sameIndex :
    ∃ next, handler .increaseValidatorStake (firstVoteInputs 0) twoHistoriesState = .ok next ∧
      MovesListedRow .increaseValidatorStake twoHistoriesList (firstVoteInputs 0)
        twoHistoriesState next := by
  refine ⟨_, rfl, (movesListedRow_iff _ _ rfl).mpr ?_⟩
  intro row listed
  have first : RebalanceDirected.findVoteAccount twoHistoriesList (firstVoteInputs 0).voteAccount =
      some 0 := rfl
  rw [first] at listed
  exact .inl (Option.some.inj listed)

/-- Stake for the first validator is recorded with the second. -/
theorem not_movesListedRow :
    ∃ next, handler .increaseValidatorStake (firstVoteInputs 1) twoHistoriesState = .ok next ∧
      next.validatorLamportBalances 0 = 1000 ∧ next.validatorLamportBalances 1 = 2500 ∧
      ¬MovesListedRow .increaseValidatorStake twoHistoriesList (firstVoteInputs 1)
        twoHistoriesState next := by
  refine ⟨_, rfl, rfl, rfl, ?_⟩
  intro moved
  have kept := (moved 0 rfl).others 1 (by decide)
  revert kept
  decide

end StakeMove

end Stakenet.Steward

import Stakenet.Steward.Basic

/-! The validator list account of the stake pool program, as far as the Steward
reads it. -/

namespace Stakenet.Steward

inductive StakeStatus
  | active
  | deactivatingTransient
  | readyForRemoval
  | deactivatingValidator
  | deactivatingAll
  deriving DecidableEq, Repr

inductive AccountType
  | uninitialized
  | stakePool
  | validatorList
  deriving DecidableEq, Repr

structure ValidatorStakeInfo where
  activeStakeLamports : Nat
  transientStakeLamports : Nat
  transientSeedSuffix : Nat
  status : StakeStatus
  voteAccountAddress : Pubkey
  deriving DecidableEq, Repr

/-- The account holds more room than entries. `leftover` is what the bytes after
the last entry decode to; only the accessors that index raw bytes see it. -/
structure ValidatorList where
  accountType : AccountType
  entries : List ValidatorStakeInfo
  leftover : List ValidatorStakeInfo

namespace ValidatorList

def len (validatorList : ValidatorList) : Nat := validatorList.entries.length

/-- The entry at a byte offset. Slicing past the end of the account panics. -/
def slotAt (validatorList : ValidatorList) (index : Nat) : Result ValidatorStakeInfo :=
  match (validatorList.entries ++ validatorList.leftover)[index]? with
  | some entry => .ok entry
  | none => .error .panicked

end ValidatorList

def stakeLamportsAtValidatorListIndex (validatorList : ValidatorList) (index : Nat) :
    Result (Nat × Bool) := do
  let entry ← validatorList.slotAt index
  return (entry.activeStakeLamports, entry.transientStakeLamports != 0)

def votePubkeyAtValidatorListIndex (validatorList : ValidatorList) (index : Nat) :
    Result Pubkey := do
  let entry ← validatorList.slotAt index
  return entry.voteAccountAddress

def requireValidatorList (validatorList : ValidatorList) : Result Unit :=
  require (validatorList.accountType = .validatorList) .validatorListTypeMismatch

/-- Goes through the bounds check of the stake pool program. -/
def getValidatorStakeInfoAtIndex (validatorList : ValidatorList) (index : Nat) :
    Result ValidatorStakeInfo := do
  requireValidatorList validatorList
  match validatorList.entries[index]? with
  | some entry => .ok entry
  | none => .error .external

def getValidatorListLength (validatorList : ValidatorList) : Result Nat := do
  requireValidatorList validatorList
  return validatorList.len

def checkValidatorListHasStakeStatusOtherThan (validatorList : ValidatorList)
    (flags : List StakeStatus) : Result Bool := do
  requireValidatorList validatorList
  return validatorList.entries.any fun entry => !flags.contains entry.status

structure StakeStatusTally where
  active : Nat
  deactivatingTransient : Nat
  readyForRemoval : Nat
  deactivatingValidator : Nat
  deactivatingAll : Nat

def tallyStakeStatus (validatorList : ValidatorList) : Result StakeStatusTally := do
  requireValidatorList validatorList
  let tally status := validatorList.entries.countP fun entry => entry.status == status
  return {
    active := tally .active
    deactivatingTransient := tally .deactivatingTransient
    readyForRemoval := tally .readyForRemoval
    deactivatingValidator := tally .deactivatingValidator
    deactivatingAll := tally .deactivatingAll }

/-! ## Reading entries -/

@[simp] theorem requireValidatorList_eq_ok {validatorList : ValidatorList} {value : Unit} :
    requireValidatorList validatorList = .ok value ↔
      validatorList.accountType = .validatorList := by
  simp [requireValidatorList]

theorem ValidatorList.slotAt_eq_ok {validatorList : ValidatorList} {index : Nat}
    {entry : ValidatorStakeInfo} :
    validatorList.slotAt index = .ok entry ↔
      (validatorList.entries ++ validatorList.leftover)[index]? = some entry := by
  unfold slotAt
  split <;> simp_all

theorem ValidatorList.slotAt_of_lt {validatorList : ValidatorList} {index : Nat}
    (bounded : index < validatorList.len) :
    validatorList.slotAt index = .ok (validatorList.entries.get ⟨index, bounded⟩) := by
  rw [slotAt_eq_ok, List.getElem?_append_left bounded]
  exact List.getElem?_eq_getElem bounded

theorem getValidatorStakeInfoAtIndex_eq_ok {validatorList : ValidatorList} {index : Nat}
    {entry : ValidatorStakeInfo} :
    getValidatorStakeInfoAtIndex validatorList index = .ok entry ↔
      validatorList.accountType = .validatorList ∧
        validatorList.entries[index]? = some entry := by
  cases found : validatorList.entries[index]? <;>
    simp [getValidatorStakeInfoAtIndex, found]

@[simp] theorem getValidatorListLength_eq_ok {validatorList : ValidatorList} {length : Nat} :
    getValidatorListLength validatorList = .ok length ↔
      validatorList.accountType = .validatorList ∧ validatorList.len = length := by
  simp [getValidatorListLength]

end Stakenet.Steward

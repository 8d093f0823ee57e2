import Mathlib.Data.List.Basic
import Stakenet.Foundation.Bincode
import Stakenet.Foundation.Outcome

/-! What the keeper's operations share: their failures, and the instructions that set the compute
budget of a transaction. -/

namespace Stakenet.Keeper

/-- The first three wrap errors of libraries. -/
inductive JitoTransactionError
  | clientError
  | transactionExecutionError
  | multipleAccountsError
  | custom (message : String)
  deriving DecidableEq, Repr

/-- An operation returns an error or panics. -/
inductive Failure
  | error (error : JitoTransactionError)
  | panicked
  deriving DecidableEq, Repr

abbrev Result (α : Type) := Except Failure α

/-- `Option::unwrap` and `Option::expect`. -/
def unwrap : Option α → Result α
  | some value => .ok value
  | none => .error .panicked

@[simp] theorem unwrap_eq_ok {option : Option α} {value : α} :
    unwrap option = .ok value ↔ option = some value := by
  cases option <;> simp [unwrap]

/-! ## The compute budget -/

/-- `ComputeBudget111111111111111111111111111111` -/
def computeBudgetProgram : BitVec 256 :=
  0x403a9b432c6b12f7c5bbe58cbce79bc372baadecff321721e56f460603

def setComputeUnitLimitData (units : Nat) : List Bytes.Byte := 2 :: Bincode.digits 4 units

def setComputeUnitPriceData (microLamports : Nat) : List Bytes.Byte :=
  3 :: Bincode.digits 8 microLamports

end Stakenet.Keeper

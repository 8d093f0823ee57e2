import Stakenet.Steward.State

/-! The directed stake account: stake targets in upload order, and two arrays
indexed by validator list position that mirror them. -/

namespace Stakenet.Steward

structure DirectedStakeTarget where
  votePubkey : Pubkey
  totalTargetLamports : Nat
  totalStakedLamports : Nat
  targetLastUpdatedEpoch : Nat
  stakedLastUpdatedEpoch : Nat
  deriving DecidableEq, Repr

/-- `DirectedStakeTarget::default()`. -/
def DirectedStakeTarget.none : DirectedStakeTarget := ⟨defaultPubkey, 0, 0, 0, 0⟩

structure DirectedStakeMeta where
  totalStakeTargets : Nat
  directedUnstakeTotal : Nat
  targets : Nat → DirectedStakeTarget
  directedStakeLamports : Nat → Nat
  directedStakeMetaIndices : Nat → Nat

/-- Filler of `directed_stake_meta_indices`: no target is wired to the row. -/
def metaIndexDefault : Nat := u64Max

namespace DirectedStakeMeta

/-- `DirectedStakeMeta::default()`. -/
def initial : DirectedStakeMeta where
  totalStakeTargets := 0
  directedUnstakeTotal := 0
  targets := fun _ => .none
  directedStakeLamports := fun _ => 0
  directedStakeMetaIndices := fun _ => metaIndexDefault

/-- The first target with this vote key, unused entries included. -/
def getTargetIndex (stakeMeta : DirectedStakeMeta) (votePubkey : Pubkey) : Option Nat :=
  (List.range maxValidators).find? fun index =>
    (stakeMeta.targets index).votePubkey == votePubkey

def updateTarget (stakeMeta : DirectedStakeMeta) (index : Nat)
    (change : DirectedStakeTarget → DirectedStakeTarget) : Result DirectedStakeMeta := do
  let target ← readRow stakeMeta.targets index
  return { stakeMeta with targets := ← writeRow stakeMeta.targets index (change target) }

def addToTotalStakedLamports (stakeMeta : DirectedStakeMeta) (index lamports : Nat) :
    Result DirectedStakeMeta :=
  stakeMeta.updateTarget index fun target =>
    { target with totalStakedLamports := saturatingAdd target.totalStakedLamports lamports }

def subtractFromTotalStakedLamports (stakeMeta : DirectedStakeMeta) (index lamports : Nat) :
    Result DirectedStakeMeta :=
  stakeMeta.updateTarget index fun target =>
    { target with totalStakedLamports := target.totalStakedLamports - lamports }

def updateStakedLastUpdatedEpoch (stakeMeta : DirectedStakeMeta) (index epoch : Nat) :
    Result DirectedStakeMeta :=
  stakeMeta.updateTarget index fun target => { target with stakedLastUpdatedEpoch := epoch }

/-- Entries without a vote key do not count. -/
def allTargetsRebalancedForEpoch (stakeMeta : DirectedStakeMeta) (epoch : Nat) : Bool :=
  (List.range maxValidators).all fun index =>
    (stakeMeta.targets index).votePubkey == defaultPubkey ||
      (stakeMeta.targets index).stakedLastUpdatedEpoch == epoch

def totalStakedLamports (stakeMeta : DirectedStakeMeta) : Nat :=
  (List.range maxValidators).foldl
    (fun total index => saturatingAdd total (stakeMeta.targets index).totalStakedLamports) 0

theorem totalStakedLamports_eq_zero {stakeMeta : DirectedStakeMeta}
    (unstaked : ∀ index, (stakeMeta.targets index).totalStakedLamports = 0) :
    stakeMeta.totalStakedLamports = 0 := by
  have step : (fun total index =>
      saturatingAdd total (stakeMeta.targets index).totalStakedLamports) =
      fun total _ => saturatingAdd total 0 := by
    funext total index
    rw [unstaked]
  rw [totalStakedLamports, step]
  generalize List.range maxValidators = indices
  induction indices with
  | nil => rfl
  | cons index rest induction => exact induction

end DirectedStakeMeta

end Stakenet.Steward

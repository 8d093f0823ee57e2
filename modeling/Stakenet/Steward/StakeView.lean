import Stakenet.Steward.Delegation

/-! The rows of the pool as the stake calculations see them: what each access of
a calculation reads, and when none of them fails. -/

namespace Stakenet.Steward

/-! ## Targets -/

theorem getTargetLamports_eq_ok {delegation : Delegation} {stakePoolLamports target : Nat}
    (computed : getTargetLamports delegation stakePoolLamports = .ok target) :
    target = stakePoolLamports * delegation.numerator / delegation.denominator := by
  unfold getTargetLamports at computed
  split at computed
  case h_1 numerator =>
      cases computed
      simp [numerator]
  case h_2 numerator =>
      rw [checkedDiv_eq_ok] at computed
      rw [numerator, Nat.mul_one]
      exact computed.2.symm
  case h_3 =>
      rw [Outcome.bind_eq_ok] at computed
      rcases computed with ⟨quotient, divided, computed⟩
      rw [checkedDiv_eq_ok] at divided
      split at computed
      case isTrue =>
          cases computed
          exact divided.2.symm
      case isFalse => simp at computed

theorem getTargetLamports_of_fits {delegation : Delegation} {stakePoolLamports : Nat}
    (denominator : delegation.denominator ≠ 0)
    (fits : stakePoolLamports * delegation.numerator / delegation.denominator ≤ u64Max) :
    getTargetLamports delegation stakePoolLamports =
      .ok (stakePoolLamports * delegation.numerator / delegation.denominator) := by
  unfold getTargetLamports
  split
  case h_1 numerator => simp [numerator]
  case h_2 numerator => simp [numerator, denominator]
  case h_3 =>
      rw [Outcome.bind_eq_ok]
      refine ⟨_, checkedDiv_eq_ok.mpr ⟨denominator, rfl⟩, ?_⟩
      exact if_pos fits

namespace StakeCalculation

variable (calculation : StakeCalculation)

/-! ## Rows -/

/-- Lamports of every stake account that cannot be moved. -/
def baseLamportBalance : Nat := calculation.minimumDelegation + calculation.stakeRent

/-- Undirected lamports of a row after the simulated adjustment, base lamports
excluded, and whether it has transient stake. Nothing, where the access fails. -/
def reading (index : Nat) : Nat × Bool :=
  (simulatedUndirectedLamports calculation.state calculation.stakeMeta calculation.validatorList
    index calculation.baseLamportBalance).toOption.getD (0, false)

def undirectedLamports (index : Nat) : Nat := (calculation.reading index).1

def someTransientStake (index : Nat) : Bool := (calculation.reading index).2

/-- The row's share of the pool. -/
def targetLamports (index : Nat) : Nat :=
  calculation.stakePoolLamports * (calculation.state.delegations index).numerator /
    (calculation.state.delegations index).denominator

variable {calculation} {index : Nat}

theorem simulated_eq_ok {simulated : Nat × Bool}
    (computed : simulatedUndirectedLamports calculation.state calculation.stakeMeta
      calculation.validatorList index calculation.baseLamportBalance = .ok simulated) :
    simulated = (calculation.undirectedLamports index, calculation.someTransientStake index) := by
  simp [undirectedLamports, someTransientStake, reading, computed, Except.toOption]

/-! ## Calculations that can be carried out -/

/-- No access to the rows of the pool fails. -/
structure Readable (calculation : StakeCalculation) : Prop where
  capacity : calculation.state.numPoolValidators ≤ maxValidators
  listed : calculation.state.numPoolValidators ≤
    (calculation.validatorList.entries ++ calculation.validatorList.leftover).length
  denominators : ∀ row < calculation.state.numPoolValidators,
    (calculation.state.delegations row).denominator ≠ 0
  targetsFit : ∀ row < calculation.state.numPoolValidators,
    calculation.targetLamports row ≤ u64Max
  directedIndices : ∀ row < calculation.state.numPoolValidators,
    calculation.stakeMeta.directedStakeMetaIndices row = metaIndexDefault ∨
      calculation.stakeMeta.directedStakeMetaIndices row < maxValidators
  base : calculation.baseLamportBalance ≤ u64Max

/-- Where all rows have one delegation and nothing is directed, only the sizes matter. -/
theorem Readable.of_uniform {delegation : Delegation}
    (uniform : calculation.state.delegations = fun _ => delegation)
    (undirected : calculation.stakeMeta = .initial)
    (denominator : delegation.denominator ≠ 0)
    (fits : calculation.stakePoolLamports * delegation.numerator / delegation.denominator ≤ u64Max)
    (capacity : calculation.state.numPoolValidators ≤ maxValidators)
    (listed : calculation.state.numPoolValidators ≤
      (calculation.validatorList.entries ++ calculation.validatorList.leftover).length)
    (base : calculation.baseLamportBalance ≤ u64Max) : calculation.Readable where
  capacity := capacity
  listed := listed
  denominators := fun row _ => by rwa [uniform]
  targetsFit := fun row _ => by
    unfold targetLamports
    rwa [uniform]
  directedIndices := fun row _ => by
    rw [undirected]
    exact .inl rfl
  base := base

theorem Readable.target_eq_ok (readable : calculation.Readable)
    (bounded : index < calculation.state.numPoolValidators) :
    getTargetLamports (calculation.state.delegations index) calculation.stakePoolLamports =
      .ok (calculation.targetLamports index) :=
  getTargetLamports_of_fits (readable.denominators index bounded)
    (readable.targetsFit index bounded)

theorem simulateAdjust_succeeds (state : StewardStateV2) {stakeMeta : DirectedStakeMeta}
    (listed : Nat) {directedIndex : Nat} (row : index < maxValidators)
    (named : stakeMeta.directedStakeMetaIndices index = metaIndexDefault ∨
      directedIndex < maxValidators) :
    ∃ adjusted, simulateAdjustDirectedStakeForDepositsAndWithdrawals state listed index
      directedIndex stakeMeta = .ok adjusted := by
  simp only [simulateAdjustDirectedStakeForDepositsAndWithdrawals, readRow_of_lt _ row,
    Outcome.ok_bind]
  by_cases default : stakeMeta.directedStakeMetaIndices index = metaIndexDefault
  · rw [if_pos default]
    exact ⟨_, rfl⟩
  · rw [if_neg default, readRow_of_lt _ (named.resolve_left default)]
    exact ⟨_, rfl⟩

theorem Readable.simulated_eq_ok (readable : calculation.Readable)
    (bounded : index < calculation.state.numPoolValidators) :
    simulatedUndirectedLamports calculation.state calculation.stakeMeta
        calculation.validatorList index calculation.baseLamportBalance =
      .ok (calculation.undirectedLamports index, calculation.someTransientStake index) := by
  have row : index < maxValidators := Nat.lt_of_lt_of_le bounded readable.capacity
  have succeeds : ∃ simulated, simulatedUndirectedLamports calculation.state
      calculation.stakeMeta calculation.validatorList index calculation.baseLamportBalance =
        .ok simulated := by
    have listed : index <
        (calculation.validatorList.entries ++ calculation.validatorList.leftover).length :=
      Nat.lt_of_lt_of_le bounded readable.listed
    have slots : ∃ entry, calculation.validatorList.slotAt index = .ok entry :=
      ⟨_, ValidatorList.slotAt_eq_ok.mpr (List.getElem?_eq_getElem listed)⟩
    rcases slots with ⟨entry, slot⟩
    rcases simulateAdjust_succeeds calculation.state entry.activeStakeLamports row
      (readable.directedIndices index bounded) with ⟨adjusted, adjusts⟩
    have stake : stakeLamportsAtValidatorListIndex calculation.validatorList index =
        .ok (entry.activeStakeLamports, entry.transientStakeLamports != 0) := by
      rw [stakeLamportsAtValidatorListIndex, slot]
      rfl
    simp only [simulatedUndirectedLamports, stake, Outcome.ok_bind, readRow_of_lt _ row, adjusts]
    exact ⟨_, rfl⟩
  rcases succeeds with ⟨simulated, computed⟩
  rw [computed, StakeCalculation.simulated_eq_ok computed]

end StakeCalculation

end Stakenet.Steward

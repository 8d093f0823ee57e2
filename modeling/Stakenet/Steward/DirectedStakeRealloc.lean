import Stakenet.Foundation.Bytes
import Stakenet.Steward.DirectedStake

/-! The byte layout of the directed stake account and the instruction that grows
and initialises it. -/

namespace Stakenet.Steward

open Bytes

/-! ## Layout -/

namespace DirectedStakeTarget

inductive Field
  | votePubkey
  | totalTargetLamports
  | totalStakedLamports
  | targetLastUpdatedEpoch
  | stakedLastUpdatedEpoch
  | padding0
  deriving DecidableEq

def struct : Struct Field where
  fields := [.votePubkey, .totalTargetLamports, .totalStakedLamports, .targetLastUpdatedEpoch,
    .stakedLastUpdatedEpoch, .padding0]
  layoutOf
    | .votePubkey => .array (.scalar 1) 32
    | .totalTargetLamports => .scalar 8
    | .totalStakedLamports => .scalar 8
    | .targetLastUpdatedEpoch => .scalar 8
    | .stakedLastUpdatedEpoch => .scalar 8
    | .padding0 => .array (.scalar 1) 32

end DirectedStakeTarget

namespace DirectedStakeMeta

inductive Field
  | totalStakeTargets
  | directedUnstakeTotal
  | padding0
  | isInitialized
  | targets
  | directedStakeLamports
  | directedStakeMetaIndices
  deriving DecidableEq

def struct : Struct Field where
  fields := [.totalStakeTargets, .directedUnstakeTotal, .padding0, .isInitialized, .targets,
    .directedStakeLamports, .directedStakeMetaIndices]
  layoutOf
    | .totalStakeTargets => .scalar 8
    | .directedUnstakeTotal => .scalar 8
    | .padding0 => .array (.scalar 1) 63
    | .isInitialized => .scalar 1
    | .targets => .array DirectedStakeTarget.struct.layout maxValidators
    | .directedStakeLamports => .array (.scalar 8) maxValidators
    | .directedStakeMetaIndices => .array (.scalar 8) maxValidators

/-- The bytes of a field, in the data of the account. -/
def span (field : Field) : Span where
  start := 8 + struct.offset field
  width := (struct.layoutOf field).size

/-- The bytes of a field of one target. -/
def targetSpan (index : Nat) (field : DirectedStakeTarget.Field) : Span where
  start := (span .targets).start + index * DirectedStakeTarget.struct.layout.size +
    DirectedStakeTarget.struct.offset field
  width := (DirectedStakeTarget.struct.layoutOf field).size

/-- `DirectedStakeMeta::SIZE`. -/
def accountSize : Nat := 8 + struct.layout.size

/-- `IS_INITIALIZED_BYTE_POSITION`, as the source adds it up. -/
def isInitializedBytePosition : Nat := 8 + 8 * 5 + 63

end DirectedStakeMeta

/-! ## Growing and initialising -/

namespace ReallocDirectedStakeMeta

def maxAllocBytes : Nat := 10240

def isInitialized (account : AccountData) : Bool :=
  decide (DirectedStakeMeta.accountSize ≤ account.size) &&
    account.bytes DirectedStakeMeta.isInitializedBytePosition != 0

def getReallocSize (account : AccountData) : Result Nat :=
  if account.size < DirectedStakeMeta.accountSize then do
    let grown ← checkedAdd account.size maxAllocBytes
    return min DirectedStakeMeta.accountSize grown
  else
    .ok account.size

/-- A default target is all zeros, `u64::MAX` all ones. -/
def writeDefaults (data : Memory) : Memory :=
  let data := fill data (DirectedStakeMeta.span .targets) 0
  let data := fill data (DirectedStakeMeta.span .directedStakeLamports) 0
  let data := fill data (DirectedStakeMeta.span .directedStakeMetaIndices) 255
  fill data (DirectedStakeMeta.span .isInitialized) 1

/-- The account is resized before the handler looks at it. -/
def handler (account : AccountData) : Result AccountData := do
  let size ← getReallocSize account
  let account := { account with size := size }
  if DirectedStakeMeta.accountSize ≤ account.size ∧ isInitialized account = false then
    return { account with bytes := writeDefaults account.bytes }
  else
    return account

/-! ## What the instruction keeps -/

/-- The fields that carry directed stake. -/
def dataFields : List DirectedStakeMeta.Field :=
  [.totalStakeTargets, .directedUnstakeTotal, .targets, .directedStakeLamports,
    .directedStakeMetaIndices]

/-- Every byte of the listed fields is kept. -/
def Preserved (before after : Memory) : Prop :=
  ∀ field ∈ dataFields, ∀ address, (DirectedStakeMeta.span field).Contains address →
    after address = before address

/-- The targets and both arrays hold what initialisation writes. -/
structure Blank (data : Memory) : Prop where
  targets : ∀ address, (DirectedStakeMeta.span .targets).Contains address → data address = 0
  directedStakeLamports : ∀ address,
    (DirectedStakeMeta.span .directedStakeLamports).Contains address → data address = 0
  directedStakeMetaIndices : ∀ address,
    (DirectedStakeMeta.span .directedStakeMetaIndices).Contains address → data address = 255

/-- The byte that is tested lies in the vote key of the first target. -/
theorem isInitializedBytePosition_eq :
    DirectedStakeMeta.isInitializedBytePosition =
      (DirectedStakeMeta.targetSpan 0 .votePubkey).start + 23 := by
  decide

theorem span_disjoint {left right : DirectedStakeMeta.Field} (different : left ≠ right) :
    (DirectedStakeMeta.span left).Disjoint (DirectedStakeMeta.span right) := by
  revert different
  cases left <;> cases right <;> decide

/-- Filling one field leaves the others. -/
theorem fill_other (filled : DirectedStakeMeta.Field) {field : DirectedStakeMeta.Field}
    {data : Memory} {byte : Byte} {address : Nat}
    (inside : (DirectedStakeMeta.span field).Contains address) (different : filled ≠ field) :
    fill data (DirectedStakeMeta.span filled) byte address = data address :=
  fill_of_not_contains ((span_disjoint different).not_contains inside)

theorem blank_writeDefaults (data : Memory) : Blank (writeDefaults data) where
  targets := fun address inside => by
    rw [writeDefaults, fill_other .isInitialized inside (by decide),
      fill_other .directedStakeMetaIndices inside (by decide),
      fill_other .directedStakeLamports inside (by decide), fill_of_contains inside]
  directedStakeLamports := fun address inside => by
    rw [writeDefaults, fill_other .isInitialized inside (by decide),
      fill_other .directedStakeMetaIndices inside (by decide), fill_of_contains inside]
  directedStakeMetaIndices := fun address inside => by
    rw [writeDefaults, fill_other .isInitialized inside (by decide), fill_of_contains inside]

/-- The two counters in front of the flag are not written. -/
theorem writeDefaults_counters {field : DirectedStakeMeta.Field} {data : Memory} {address : Nat}
    (inside : (DirectedStakeMeta.span field).Contains address)
    (counter : field = .totalStakeTargets ∨ field = .directedUnstakeTotal) :
    writeDefaults data address = data address := by
  have different : ∀ filled ∈ [DirectedStakeMeta.Field.targets, .directedStakeLamports,
      .directedStakeMetaIndices, .isInitialized], filled ≠ field := by
    rcases counter with rfl | rfl <;> decide
  rw [writeDefaults, fill_other .isInitialized inside (different _ (by decide)),
    fill_other .directedStakeMetaIndices inside (different _ (by decide)),
    fill_other .directedStakeLamports inside (different _ (by decide)),
    fill_other .targets inside (different _ (by decide))]

/-- Initialisation loses nothing only where there is nothing to lose. -/
theorem preserved_writeDefaults_iff (data : Memory) :
    Preserved data (writeDefaults data) ↔ Blank data := by
  have initialized := blank_writeDefaults data
  constructor
  · intro preserved
    refine ⟨fun address inside => ?_, fun address inside => ?_, fun address inside => ?_⟩
    · rw [← preserved .targets (by decide) address inside]
      exact initialized.targets address inside
    · rw [← preserved .directedStakeLamports (by decide) address inside]
      exact initialized.directedStakeLamports address inside
    · rw [← preserved .directedStakeMetaIndices (by decide) address inside]
      exact initialized.directedStakeMetaIndices address inside
  · intro blank field member address inside
    cases field with
    | targets => rw [initialized.targets address inside, blank.targets address inside]
    | directedStakeLamports =>
        rw [initialized.directedStakeLamports address inside,
          blank.directedStakeLamports address inside]
    | directedStakeMetaIndices =>
        rw [initialized.directedStakeMetaIndices address inside,
          blank.directedStakeMetaIndices address inside]
    | totalStakeTargets => exact writeDefaults_counters inside (.inl rfl)
    | directedUnstakeTotal => exact writeDefaults_counters inside (.inr rfl)
    | padding0 => exact absurd member (by decide)
    | isInitialized => exact absurd member (by decide)

/-- A full account keeps its data exactly when byte 23 of the first target's vote
key is set, or when there is no data. -/
theorem handler_preserves_data_iff (account : AccountData)
    (full : DirectedStakeMeta.accountSize ≤ account.size) :
    ∃ next, handler account = .ok next ∧
      (Preserved account.bytes next.bytes ↔
        account.bytes ((DirectedStakeMeta.targetSpan 0 .votePubkey).start + 23) ≠ 0 ∨
          Blank account.bytes) := by
  rw [← isInitializedBytePosition_eq]
  have sameSize : getReallocSize account = .ok account.size := if_neg (Nat.not_lt.mpr full)
  by_cases tested : account.bytes DirectedStakeMeta.isInitializedBytePosition = 0
  · have reset : isInitialized account = false := by
      simp [isInitialized, tested]
    refine ⟨{ account with bytes := writeDefaults account.bytes }, ?_, ?_⟩
    · rw [handler, sameSize, Outcome.ok_bind, if_pos ⟨full, reset⟩]
      rfl
    · rw [preserved_writeDefaults_iff]
      simp [tested]
  · have kept : ¬isInitialized account = false := by
      simpa [isInitialized, full] using tested
    refine ⟨account, ?_, ?_⟩
    · rw [handler, sameSize, Outcome.ok_bind, if_neg (fun reset => kept reset.2)]
      rfl
    · exact iff_of_true (fun _ _ _ _ => rfl) (.inl tested)

/-- A full account that this instruction has initialised, with one target
uploaded since: the vote key starts with the given byte and has the given byte at
position 23. -/
def oneTargetAccount (first tested : Byte) : AccountData where
  size := DirectedStakeMeta.accountSize
  bytes :=
    let data := writeDefaults fun _ => 0
    let data := write data (DirectedStakeMeta.span .totalStakeTargets) 1
    let voteKey := (DirectedStakeMeta.targetSpan 0 .votePubkey).start
    let data := Function.update data voteKey first
    let data := Function.update data (voteKey + 23) tested
    let data := write data (DirectedStakeMeta.targetSpan 0 .totalTargetLamports) 5000
    write data ⟨(DirectedStakeMeta.span .directedStakeMetaIndices).start, 8⟩ 0

theorem handler_preserves_data_oneTarget :
    ∃ next, handler (oneTargetAccount 7 9) = .ok next ∧
      Preserved (oneTargetAccount 7 9).bytes next.bytes := by
  rcases handler_preserves_data_iff (oneTargetAccount 7 9) (Nat.le_refl _) with
    ⟨next, handled, preserved⟩
  exact ⟨next, handled, preserved.mpr (.inl (by decide +kernel))⟩

/-- A vote key with a zero byte at position 23 makes the initialised account look
new, and the instruction erases its target. -/
theorem not_handler_preserves_data :
    ¬∀ account : AccountData, DirectedStakeMeta.accountSize ≤ account.size →
      account.bytes (DirectedStakeMeta.span .isInitialized).start = 1 →
      ∀ next, handler account = .ok next → Preserved account.bytes next.bytes := by
  intro always
  have handled : handler (oneTargetAccount 7 0) = .ok {
      oneTargetAccount 7 0 with bytes := writeDefaults (oneTargetAccount 7 0).bytes } := by
    have reset : isInitialized (oneTargetAccount 7 0) = false := by decide +kernel
    have sameSize : getReallocSize (oneTargetAccount 7 0) = .ok (oneTargetAccount 7 0).size :=
      if_neg (Nat.lt_irrefl _)
    rw [handler, sameSize, Outcome.ok_bind, if_pos ⟨Nat.le_refl _, reset⟩]
    rfl
  have preserved := always (oneTargetAccount 7 0) (Nat.le_refl _) (by decide +kernel) _ handled
    .targets (by decide) 88 (by decide)
  exact absurd preserved (by decide +kernel)

end ReallocDirectedStakeMeta

end Stakenet.Steward

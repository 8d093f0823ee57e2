import Mathlib.Data.Nat.Digits.Defs
import Stakenet.Foundation.Bytes
import Stakenet.Steward.BitMask

/-! The two layouts of the Steward state account and the instruction that turns
the first into the second in place. -/

namespace Stakenet.Steward

open Bytes

/-- Bytes taken by the account discriminator. -/
def discriminatorSpan : Span := ⟨0, 8⟩

/-! ## Layouts

A field of a state struct is an array of integers of one width, a single integer
included. -/

/-- Width and number of the integers of a field. -/
structure Elements where
  width : Nat
  count : Nat

def Elements.layout (elements : Elements) : TypeLayout :=
  .array (.scalar elements.width) elements.count

namespace StewardStateV1

inductive Field
  | stateTag
  | validatorLamportBalances
  | scores
  | sortedScoreIndices
  | yieldScores
  | sortedYieldScoreIndices
  | delegations
  | instantUnstake
  | progress
  | validatorsForImmediateRemoval
  | validatorsToRemove
  | startComputingScoresSlot
  | currentEpoch
  | nextCycleEpoch
  | numPoolValidators
  | scoringUnstakeTotal
  | instantUnstakeTotal
  | stakeDepositUnstakeTotal
  | statusFlags
  | validatorsAdded
  | padding0
  deriving DecidableEq

/-- A delegation is two `u32`, a bit mask an array of words. -/
def elements : Field → Elements
  | .stateTag => ⟨8, 1⟩
  | .validatorLamportBalances => ⟨8, maxValidators⟩
  | .scores => ⟨4, maxValidators⟩
  | .sortedScoreIndices => ⟨2, maxValidators⟩
  | .yieldScores => ⟨4, maxValidators⟩
  | .sortedYieldScoreIndices => ⟨2, maxValidators⟩
  | .delegations => ⟨4, 2 * maxValidators⟩
  | .instantUnstake => ⟨8, bitmaskSize⟩
  | .progress => ⟨8, bitmaskSize⟩
  | .validatorsForImmediateRemoval => ⟨8, bitmaskSize⟩
  | .validatorsToRemove => ⟨8, bitmaskSize⟩
  | .startComputingScoresSlot => ⟨8, 1⟩
  | .currentEpoch => ⟨8, 1⟩
  | .nextCycleEpoch => ⟨8, 1⟩
  | .numPoolValidators => ⟨8, 1⟩
  | .scoringUnstakeTotal => ⟨8, 1⟩
  | .instantUnstakeTotal => ⟨8, 1⟩
  | .stakeDepositUnstakeTotal => ⟨8, 1⟩
  | .statusFlags => ⟨4, 1⟩
  | .validatorsAdded => ⟨2, 1⟩
  | .padding0 => ⟨1, maxValidators * 8 + 2⟩

def struct : Struct Field where
  fields := [.stateTag, .validatorLamportBalances, .scores, .sortedScoreIndices, .yieldScores,
    .sortedYieldScoreIndices, .delegations, .instantUnstake, .progress,
    .validatorsForImmediateRemoval, .validatorsToRemove, .startComputingScoresSlot,
    .currentEpoch, .nextCycleEpoch, .numPoolValidators, .scoringUnstakeTotal,
    .instantUnstakeTotal, .stakeDepositUnstakeTotal, .statusFlags, .validatorsAdded, .padding0]
  layoutOf := fun field => (elements field).layout

end StewardStateV1

namespace StewardStateV2

inductive Field
  | stateTag
  | validatorLamportBalances
  | scores
  | sortedScoreIndices
  | sortedRawScoreIndices
  | delegations
  | instantUnstake
  | progress
  | validatorsForImmediateRemoval
  | validatorsToRemove
  | startComputingScoresSlot
  | currentEpoch
  | nextCycleEpoch
  | numPoolValidators
  | scoringUnstakeTotal
  | instantUnstakeTotal
  | stakeDepositUnstakeTotal
  | statusFlags
  | validatorsAdded
  | padding0
  | rawScores
  deriving DecidableEq

def elements : Field → Elements
  | .stateTag => ⟨8, 1⟩
  | .validatorLamportBalances => ⟨8, maxValidators⟩
  | .scores => ⟨8, maxValidators⟩
  | .sortedScoreIndices => ⟨2, maxValidators⟩
  | .sortedRawScoreIndices => ⟨2, maxValidators⟩
  | .delegations => ⟨4, 2 * maxValidators⟩
  | .instantUnstake => ⟨8, bitmaskSize⟩
  | .progress => ⟨8, bitmaskSize⟩
  | .validatorsForImmediateRemoval => ⟨8, bitmaskSize⟩
  | .validatorsToRemove => ⟨8, bitmaskSize⟩
  | .startComputingScoresSlot => ⟨8, 1⟩
  | .currentEpoch => ⟨8, 1⟩
  | .nextCycleEpoch => ⟨8, 1⟩
  | .numPoolValidators => ⟨8, 1⟩
  | .scoringUnstakeTotal => ⟨8, 1⟩
  | .instantUnstakeTotal => ⟨8, 1⟩
  | .stakeDepositUnstakeTotal => ⟨8, 1⟩
  | .statusFlags => ⟨4, 1⟩
  | .validatorsAdded => ⟨2, 1⟩
  | .padding0 => ⟨1, 2⟩
  | .rawScores => ⟨8, maxValidators⟩

def struct : Struct Field where
  fields := [.stateTag, .validatorLamportBalances, .scores, .sortedScoreIndices,
    .sortedRawScoreIndices, .delegations, .instantUnstake, .progress,
    .validatorsForImmediateRemoval, .validatorsToRemove, .startComputingScoresSlot,
    .currentEpoch, .nextCycleEpoch, .numPoolValidators, .scoringUnstakeTotal,
    .instantUnstakeTotal, .stakeDepositUnstakeTotal, .statusFlags, .validatorsAdded, .padding0,
    .rawScores]
  layoutOf := fun field => (elements field).layout

end StewardStateV2

namespace StewardStateAccount

inductive Field
  | state
  | isInitialized
  | bump
  | padding
  deriving DecidableEq

def struct : Struct Field where
  fields := [.state, .isInitialized, .bump, .padding]
  layoutOf
    | .state => StewardStateV1.struct.layout
    | .isInitialized => .scalar 1
    | .bump => .scalar 1
    | .padding => .array (.scalar 1) 6

/-- First bytes of `sha256("account:StewardStateAccount")`. -/
def discriminator : Nat := Nat.ofDigits 256 [55, 216, 46, 49, 148, 67, 228, 29]

/-- The elements of a state field, in the data of the account. -/
def stateRows (field : StewardStateV1.Field) : Rows where
  start := 8 + struct.offset .state + StewardStateV1.struct.offset field
  width := (StewardStateV1.elements field).width

def stateAt (data : Memory) (field : StewardStateV1.Field) (index : Nat) : Nat :=
  read data ((stateRows field).at index)

def bumpSpan : Span := ⟨8 + struct.offset .bump, 1⟩

end StewardStateAccount

namespace StewardStateAccountV2

inductive Field
  | state
  | bump
  | padding0
  deriving DecidableEq

def struct : Struct Field where
  fields := [.state, .bump, .padding0]
  layoutOf
    | .state => StewardStateV2.struct.layout
    | .bump => .scalar 1
    | .padding0 => .array (.scalar 1) 7

/-- First bytes of `sha256("account:StewardStateAccountV2")`. -/
def discriminator : Nat := Nat.ofDigits 256 [213, 198, 44, 174, 226, 145, 14, 103]

def stateRows (field : StewardStateV2.Field) : Rows where
  start := 8 + struct.offset .state + StewardStateV2.struct.offset field
  width := (StewardStateV2.elements field).width

def stateAt (data : Memory) (field : StewardStateV2.Field) (index : Nat) : Nat :=
  read data ((stateRows field).at index)

def bumpSpan : Span := ⟨8 + struct.offset .bump, 1⟩

def padding0Span : Span := ⟨8 + struct.offset .padding0, 7⟩

end StewardStateAccountV2

/-! ## Migration -/

namespace MigrateStateToV2

/-- Both layouts have this size. -/
def accountSize : Nat := StewardStateAccount.struct.layout.size

/-- `StewardStateEnum::ComputeScores as u64`. -/
def computeScoresTag : Nat := 0

def copyYieldScores (data : Memory) : Memory :=
  moveRows (StewardStateAccount.stateRows .yieldScores)
    (StewardStateAccountV2.stateRows .rawScores) (List.range maxValidators) data

def copySortedScoreIndices (data : Memory) : Memory :=
  moveRows (StewardStateAccount.stateRows .sortedScoreIndices)
    (StewardStateAccountV2.stateRows .sortedScoreIndices) (List.range maxValidators) data

/-- Backwards, since a wide score covers the narrow ones of later rows. -/
def expandScores (data : Memory) : Memory :=
  moveRows (StewardStateAccount.stateRows .scores)
    (StewardStateAccountV2.stateRows .scores) (List.range maxValidators).reverse data

def finalizeAccount (data : Memory) : Memory :=
  let v1Bump := read data StewardStateAccount.bumpSpan
  write (write data StewardStateAccountV2.bumpSpan v1Bump) StewardStateAccountV2.padding0Span 0

def migrate (data : Memory) : Memory :=
  let data := write data discriminatorSpan StewardStateAccountV2.discriminator
  finalizeAccount (expandScores (copySortedScoreIndices (copyYieldScores data)))

/-- The handler writes in place, so it returns the data also when it fails. -/
def handler (account : AccountData) : Result Unit × AccountData :=
  if account.size < 8 + accountSize then
    (.error .panicked, account)
  else if StewardStateAccount.stateAt account.bytes .stateTag 0 = computeScoresTag then
    (fail .invalidState, account)
  else if read account.bytes discriminatorSpan ≠ StewardStateAccount.discriminator then
    (.error .external, account)
  else
    (.ok (), { account with bytes := migrate account.bytes })

/-! ## What becomes of each field -/

/-- The field of the first layout that a field of the second one stands for. -/
def origin : StewardStateV2.Field → Option StewardStateV1.Field
  | .stateTag => some .stateTag
  | .validatorLamportBalances => some .validatorLamportBalances
  | .scores => some .scores
  | .sortedScoreIndices => some .sortedScoreIndices
  | .sortedRawScoreIndices => some .sortedYieldScoreIndices
  | .delegations => some .delegations
  | .instantUnstake => some .instantUnstake
  | .progress => some .progress
  | .validatorsForImmediateRemoval => some .validatorsForImmediateRemoval
  | .validatorsToRemove => some .validatorsToRemove
  | .startComputingScoresSlot => some .startComputingScoresSlot
  | .currentEpoch => some .currentEpoch
  | .nextCycleEpoch => some .nextCycleEpoch
  | .numPoolValidators => some .numPoolValidators
  | .scoringUnstakeTotal => some .scoringUnstakeTotal
  | .instantUnstakeTotal => some .instantUnstakeTotal
  | .stakeDepositUnstakeTotal => some .stakeDepositUnstakeTotal
  | .statusFlags => some .statusFlags
  | .validatorsAdded => some .validatorsAdded
  | .padding0 => none
  | .rawScores => some .yieldScores

/-- Every field has the value of its origin, as a number and hence zero-extended
where the field is wider. -/
structure Migrated (before after : Memory) : Prop where
  discriminator : read after discriminatorSpan = StewardStateAccountV2.discriminator
  state : ∀ field source, origin field = some source →
    ∀ index < (StewardStateV2.elements field).count,
      StewardStateAccountV2.stateAt after field index =
        StewardStateAccount.stateAt before source index
  bump : read after StewardStateAccountV2.bumpSpan = read before StewardStateAccount.bumpSpan
  padding : ∀ address, StewardStateAccountV2.padding0Span.Contains address → after address = 0

theorem read_copyYieldScores_of_disjoint {data : Memory} {span : Span}
    (disjoint : ((StewardStateAccountV2.stateRows .rawScores).region maxValidators).Disjoint span) :
    read (copyYieldScores data) span = read data span :=
  moveRows.read_of_disjoint fun _ member =>
    Rows.at_disjoint (List.mem_range.mp member) disjoint

theorem read_copySortedScoreIndices_of_disjoint {data : Memory} {span : Span}
    (disjoint : ((StewardStateAccountV2.stateRows .sortedScoreIndices).region
      maxValidators).Disjoint span) :
    read (copySortedScoreIndices data) span = read data span :=
  moveRows.read_of_disjoint fun _ member =>
    Rows.at_disjoint (List.mem_range.mp member) disjoint

theorem read_expandScores_of_disjoint {data : Memory} {span : Span}
    (disjoint : ((StewardStateAccountV2.stateRows .scores).region maxValidators).Disjoint span) :
    read (expandScores data) span = read data span :=
  moveRows.read_of_disjoint fun _ member =>
    Rows.at_disjoint (List.mem_range.mp (List.mem_reverse.mp member)) disjoint

theorem read_finalizeAccount_of_disjoint {data : Memory} {span : Span}
    (fromBump : StewardStateAccountV2.bumpSpan.Disjoint span)
    (fromPadding : StewardStateAccountV2.padding0Span.Disjoint span) :
    read (finalizeAccount data) span = read data span := by
  rw [finalizeAccount, read_write_of_disjoint fromPadding, read_write_of_disjoint fromBump]

/-- The bytes of a state field in the first layout. -/
abbrev regionV1 (field : StewardStateV1.Field) : Span :=
  (StewardStateAccount.stateRows field).region (StewardStateV1.elements field).count

/-- The bytes of a state field in the second layout. -/
abbrev regionV2 (field : StewardStateV2.Field) : Span :=
  (StewardStateAccountV2.stateRows field).region (StewardStateV2.elements field).count

theorem disjoint_stateV2_row {field : StewardStateV2.Field} {index : Nat}
    (inside : index < (StewardStateV2.elements field).count) {span : Span}
    (disjoint : (regionV2 field).Disjoint span) :
    span.Disjoint ((StewardStateAccountV2.stateRows field).at index) :=
  (Rows.at_disjoint inside disjoint).symm

theorem disjoint_stateV1_row {field : StewardStateV1.Field} {index : Nat}
    (inside : index < (StewardStateV1.elements field).count) {span : Span}
    (disjoint : (regionV1 field).Disjoint span) :
    span.Disjoint ((StewardStateAccount.stateRows field).at index) :=
  (Rows.at_disjoint inside disjoint).symm

/-- The last step leaves the state alone. -/
theorem stateAt_finalizeAccount (data : Memory) {field : StewardStateV2.Field} {index : Nat}
    (inside : index < (StewardStateV2.elements field).count) :
    StewardStateAccountV2.stateAt (finalizeAccount data) field index =
      StewardStateAccountV2.stateAt data field index := by
  have fromBump : (regionV2 field).Disjoint StewardStateAccountV2.bumpSpan := by
    cases field <;> decide
  have fromPadding : (regionV2 field).Disjoint StewardStateAccountV2.padding0Span := by
    cases field <;> decide
  exact read_finalizeAccount_of_disjoint (disjoint_stateV2_row inside fromBump)
    (disjoint_stateV2_row inside fromPadding)

theorem scores_migrate (data : Memory) {index : Nat} (inside : index < maxValidators) :
    StewardStateAccountV2.stateAt (migrate data) .scores index =
      StewardStateAccount.stateAt data .scores index := by
  rw [migrate, stateAt_finalizeAccount _ inside]
  calc StewardStateAccountV2.stateAt (expandScores _) .scores index
      = StewardStateAccount.stateAt (copySortedScoreIndices _) .scores index :=
        moveRows.read_range_reverse (by decide) (by decide) inside
    _ = StewardStateAccount.stateAt (copyYieldScores _) .scores index :=
        read_copySortedScoreIndices_of_disjoint (disjoint_stateV1_row inside (by decide))
    _ = StewardStateAccount.stateAt (write data _ _) .scores index :=
        read_copyYieldScores_of_disjoint (disjoint_stateV1_row inside (by decide))
    _ = StewardStateAccount.stateAt data .scores index :=
        read_write_of_disjoint (disjoint_stateV1_row inside (by decide))

theorem sortedScoreIndices_migrate (data : Memory) {index : Nat}
    (inside : index < maxValidators) :
    StewardStateAccountV2.stateAt (migrate data) .sortedScoreIndices index =
      StewardStateAccount.stateAt data .sortedScoreIndices index := by
  rw [migrate, stateAt_finalizeAccount _ inside]
  calc StewardStateAccountV2.stateAt (expandScores _) .sortedScoreIndices index
      = StewardStateAccountV2.stateAt (copySortedScoreIndices _) .sortedScoreIndices index :=
        read_expandScores_of_disjoint (disjoint_stateV2_row inside (by decide))
    _ = StewardStateAccount.stateAt (copyYieldScores _) .sortedScoreIndices index :=
        moveRows.read_range (by decide) (by decide) inside
    _ = StewardStateAccount.stateAt (write data _ _) .sortedScoreIndices index :=
        read_copyYieldScores_of_disjoint (disjoint_stateV1_row inside (by decide))
    _ = StewardStateAccount.stateAt data .sortedScoreIndices index :=
        read_write_of_disjoint (disjoint_stateV1_row inside (by decide))

theorem rawScores_migrate (data : Memory) {index : Nat} (inside : index < maxValidators) :
    StewardStateAccountV2.stateAt (migrate data) .rawScores index =
      StewardStateAccount.stateAt data .yieldScores index := by
  rw [migrate, stateAt_finalizeAccount _ inside]
  calc StewardStateAccountV2.stateAt (expandScores _) .rawScores index
      = StewardStateAccountV2.stateAt (copySortedScoreIndices _) .rawScores index :=
        read_expandScores_of_disjoint (disjoint_stateV2_row inside (by decide))
    _ = StewardStateAccountV2.stateAt (copyYieldScores _) .rawScores index :=
        read_copySortedScoreIndices_of_disjoint (disjoint_stateV2_row inside (by decide))
    _ = StewardStateAccount.stateAt (write data _ _) .yieldScores index :=
        moveRows.read_range (by decide) (by decide) inside
    _ = StewardStateAccount.stateAt data .yieldScores index :=
        read_write_of_disjoint (disjoint_stateV1_row inside (by decide))

/-- The fields that no step writes: they stand at the same place in both layouts. -/
def inPlace : StewardStateV2.Field → Bool
  | .scores => false
  | .sortedScoreIndices => false
  | .rawScores => false
  | _ => true

theorem stateRows_inPlace {field : StewardStateV2.Field} {source : StewardStateV1.Field}
    (stands : inPlace field = true) (isOrigin : origin field = some source) :
    StewardStateAccountV2.stateRows field = StewardStateAccount.stateRows source := by
  cases field <;> cases stands <;> cases isOrigin <;> decide

theorem inPlace_migrate (data : Memory) {field : StewardStateV2.Field}
    (stands : inPlace field = true) {index : Nat}
    (inside : index < (StewardStateV2.elements field).count) :
    StewardStateAccountV2.stateAt (migrate data) field index =
      StewardStateAccountV2.stateAt data field index := by
  have fromScores : (regionV2 field).Disjoint (regionV2 .scores) := by
    cases field <;> cases stands <;> decide
  have fromIndices : (regionV2 field).Disjoint (regionV2 .sortedScoreIndices) := by
    cases field <;> cases stands <;> decide
  have fromRawScores : (regionV2 field).Disjoint (regionV2 .rawScores) := by
    cases field <;> cases stands <;> decide
  have fromDiscriminator : (regionV2 field).Disjoint discriminatorSpan := by
    cases field <;> decide
  rw [migrate, stateAt_finalizeAccount _ inside]
  calc StewardStateAccountV2.stateAt (expandScores _) field index
      = StewardStateAccountV2.stateAt (copySortedScoreIndices _) field index :=
        read_expandScores_of_disjoint (disjoint_stateV2_row inside fromScores)
    _ = StewardStateAccountV2.stateAt (copyYieldScores _) field index :=
        read_copySortedScoreIndices_of_disjoint (disjoint_stateV2_row inside fromIndices)
    _ = StewardStateAccountV2.stateAt (write data _ _) field index :=
        read_copyYieldScores_of_disjoint (disjoint_stateV2_row inside fromRawScores)
    _ = StewardStateAccountV2.stateAt data field index :=
        read_write_of_disjoint (disjoint_stateV2_row inside fromDiscriminator)

theorem state_migrate (data : Memory) (field : StewardStateV2.Field)
    (source : StewardStateV1.Field) (isOrigin : origin field = some source) (index : Nat)
    (inside : index < (StewardStateV2.elements field).count) :
    StewardStateAccountV2.stateAt (migrate data) field index =
      StewardStateAccount.stateAt data source index := by
  cases stands : inPlace field with
  | true =>
      rw [inPlace_migrate data stands inside, StewardStateAccountV2.stateAt,
        stateRows_inPlace stands isOrigin]
      rfl
  | false =>
      cases field with
      | scores =>
          cases isOrigin
          exact scores_migrate data inside
      | sortedScoreIndices =>
          cases isOrigin
          exact sortedScoreIndices_migrate data inside
      | rawScores =>
          cases isOrigin
          exact rawScores_migrate data inside
      | _ => cases stands

/-- The loops stay inside the state. -/
theorem read_loops_of_disjoint {data : Memory} {span : Span}
    (fromScores : (regionV2 .scores).Disjoint span)
    (fromIndices : (regionV2 .sortedScoreIndices).Disjoint span)
    (fromRawScores : (regionV2 .rawScores).Disjoint span) :
    read (expandScores (copySortedScoreIndices (copyYieldScores data))) span =
      read data span := by
  rw [read_expandScores_of_disjoint fromScores,
    read_copySortedScoreIndices_of_disjoint fromIndices,
    read_copyYieldScores_of_disjoint fromRawScores]

theorem discriminator_migrate (data : Memory) :
    read (migrate data) discriminatorSpan = StewardStateAccountV2.discriminator := by
  rw [migrate, read_finalizeAccount_of_disjoint (by decide) (by decide),
    read_loops_of_disjoint (by decide) (by decide) (by decide), read_write]
  decide

theorem bump_migrate (data : Memory) :
    read (migrate data) StewardStateAccountV2.bumpSpan =
      read data StewardStateAccount.bumpSpan := by
  rw [migrate, finalizeAccount, read_write_of_disjoint (by decide), read_write,
    read_loops_of_disjoint (by decide) (by decide) (by decide),
    read_write_of_disjoint (by decide)]
  exact Nat.mod_eq_of_lt (read_lt _ _)

theorem padding_migrate (data : Memory) (address : Nat)
    (inside : StewardStateAccountV2.padding0Span.Contains address) :
    migrate data address = 0 := by
  rw [migrate, finalizeAccount, write, if_pos inside, Nat.zero_div]
  rfl

theorem migrated_migrate (data : Memory) : Migrated data (migrate data) where
  discriminator := discriminator_migrate data
  state := state_migrate data
  bump := bump_migrate data
  padding := padding_migrate data

/-- An account in the first layout that is not being scored is carried over field
by field; any other account is refused and keeps its bytes. -/
theorem handler_migrates_state (account : AccountData) (full : 8 + accountSize ≤ account.size) :
    (read account.bytes discriminatorSpan = StewardStateAccount.discriminator ∧
        StewardStateAccount.stateAt account.bytes .stateTag 0 ≠ computeScoresTag →
      (handler account).1 = .ok () ∧
        (handler account).2.size = account.size ∧
        Migrated account.bytes (handler account).2.bytes) ∧
    (¬(read account.bytes discriminatorSpan = StewardStateAccount.discriminator ∧
        StewardStateAccount.stateAt account.bytes .stateTag 0 ≠ computeScoresTag) →
      (∃ failure, (handler account).1 = .error failure) ∧ (handler account).2 = account) := by
  have longEnough : ¬account.size < 8 + accountSize := Nat.not_lt.mpr full
  refine ⟨fun accepted => ?_, fun refused => ?_⟩
  · have handled : handler account =
        (.ok (), { account with bytes := migrate account.bytes }) := by
      rw [handler, if_neg longEnough, if_neg accepted.2, if_neg (not_not.mpr accepted.1)]
    rw [handled]
    exact ⟨rfl, rfl, migrated_migrate account.bytes⟩
  · rw [handler, if_neg longEnough]
    by_cases scoring : StewardStateAccount.stateAt account.bytes .stateTag 0 = computeScoresTag
    · rw [if_pos scoring]
      exact ⟨⟨_, rfl⟩, rfl⟩
    · have different : read account.bytes discriminatorSpan ≠
          StewardStateAccount.discriminator := fun same => refused ⟨same, scoring⟩
      rw [if_neg scoring, if_pos different]
      exact ⟨⟨_, rfl⟩, rfl⟩

/-- A full account with the first discriminator whose other bytes are all one. -/
def idleAccountV1 : AccountData where
  size := 8 + accountSize
  bytes := write (fun _ => 1) discriminatorSpan StewardStateAccount.discriminator

theorem handler_migrates_state_idleAccount :
    (handler idleAccountV1).1 = .ok () ∧
      Migrated idleAccountV1.bytes (handler idleAccountV1).2.bytes := by
  have handled := (handler_migrates_state idleAccountV1 (Nat.le_refl _)).1
    ⟨by decide +kernel, by decide +kernel⟩
  exact ⟨handled.1, handled.2.2⟩

end MigrateStateToV2

end Stakenet.Steward

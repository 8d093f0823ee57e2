import Stakenet.History.ClusterHistory
import Stakenet.History.RingInvariant

/-! The fields of a validator history as other programs read them: from the newest entry, or
over a range of epochs. A field that has its default value counts as missing. -/

namespace Stakenet.History

/-- The account with the key and the index that identify the validator. -/
structure ValidatorHistoryAccount extends ValidatorHistory where
  voteAccount : Pubkey
  index : Nat

def tvcMultiplier : Nat := 16

/-- `credits.saturating_mul(TVC_MULTIPLIER)` of an epoch before timely vote credits. -/
def normalizeCredits (epoch tvcActivationEpoch credits : Nat) : Nat :=
  if epoch < tvcActivationEpoch then min (credits * tvcMultiplier) (2 ^ 32 - 1) else credits

namespace CircBuf

/-! ## Accessors -/

section Accessors

variable {β : Type} [DecidableEq β]

/-- `field_latest!` -/
def fieldLatest (history : CircBuf) (field : ValidatorHistoryEntry → β) : Option β :=
  match history.last with
  | some entry => if field entry ≠ field .unset then some (field entry) else none
  | none => none

/-- The field of an entry that may be missing, or may not have it. -/
def fieldOf (field : ValidatorHistoryEntry → β) (maybeEntry : Option ValidatorHistoryEntry) :
    Option β :=
  (maybeEntry.map field).filter fun value => decide (value ≠ field .unset)

theorem fieldOf_some (field : ValidatorHistoryEntry → β) (entry : ValidatorHistoryEntry) :
    fieldOf field (some entry) =
      if field entry ≠ field .unset then some (field entry) else none := by
  by_cases unset : field entry = field .unset
  · rw [if_neg (not_not_intro unset), fieldOf, Option.map_some, Option.filter, if_neg]
    simpa using unset
  · rw [if_pos unset, fieldOf, Option.map_some, Option.filter, if_pos]
    simpa using unset

/-- `field_range!` -/
def fieldRange (history : CircBuf) (startEpoch endEpoch : Nat)
    (field : ValidatorHistoryEntry → β) : List (Option β) :=
  (history.epochRange startEpoch endEpoch).map (fieldOf field)

end Accessors

variable (history : CircBuf) (startEpoch endEpoch : Nat)

def commissionLatest : Option Nat := history.fieldLatest ValidatorHistoryEntry.commission

def commissionRange : List (Option Nat) :=
  history.fieldRange startEpoch endEpoch ValidatorHistoryEntry.commission

def mevCommissionRange : List (Option Nat) :=
  history.fieldRange startEpoch endEpoch ValidatorHistoryEntry.mevCommission

def epochCreditsLatest : Option Nat := history.fieldLatest ValidatorHistoryEntry.epochCredits

def epochCreditsLatestNormalized (currentEpoch tvcActivationEpoch : Nat) : Option Nat :=
  history.epochCreditsLatest.map (normalizeCredits currentEpoch tvcActivationEpoch)

def epochCreditsRangeNormalized (tvcActivationEpoch : Nat) : List (Option Nat) :=
  ((history.fieldRange startEpoch endEpoch ValidatorHistoryEntry.epochCredits).zip
    (epochs startEpoch endEpoch)).map fun (maybeCredits, epoch) =>
      maybeCredits.map (normalizeCredits epoch tvcActivationEpoch)

def merkleRootUploadAuthorityLatest : Option MerkleRootUploadAuthority :=
  history.fieldLatest ValidatorHistoryEntry.merkleRootUploadAuthority

def priorityFeeMerkleRootUploadAuthorityLatest : Option MerkleRootUploadAuthority :=
  history.fieldLatest ValidatorHistoryEntry.priorityFeeMerkleRootUploadAuthority

def priorityFeeMerkleRootUploadAuthorityRange : List (Option MerkleRootUploadAuthority) :=
  history.fieldRange startEpoch endEpoch
    ValidatorHistoryEntry.priorityFeeMerkleRootUploadAuthority

def priorityFeeTipsRange : List (Option Nat) :=
  history.fieldRange startEpoch endEpoch ValidatorHistoryEntry.priorityFeeTips

def totalPriorityFeesRange : List (Option Nat) :=
  history.fieldRange startEpoch endEpoch ValidatorHistoryEntry.totalPriorityFees

def isBamConnectedRange : List (Option Nat) :=
  history.fieldRange startEpoch endEpoch ValidatorHistoryEntry.isBamConnected

def voteAccountLastUpdateSlotLatest : Option Nat :=
  history.fieldLatest ValidatorHistoryEntry.voteAccountLastUpdateSlot

/-- Protects against unexpected values. -/
def expectFlag (value : Nat) : Option Nat :=
  if value = 0 ∨ value = 1 then some value else none

/-- `field_latest!` returns the flag out of the function, so that it is not checked. -/
def superminorityLatest : Option Nat :=
  history.fieldLatest ValidatorHistoryEntry.isSuperminority

def superminorityRange : List (Option Nat) :=
  (history.fieldRange startEpoch endEpoch ValidatorHistoryEntry.isSuperminority).map
    fun maybeValue => maybeValue.bind expectFlag

/-! ## Ranges -/

theorem matchEpochs_eq_matchByEpoch (epochs : List Nat) (entries : List ValidatorHistoryEntry) :
    matchEpochs epochs entries = matchByEpoch ValidatorHistoryEntry.epoch epochs entries := by
  induction epochs generalizing entries with
  | nil => rfl
  | cons epoch epochs induction =>
      cases entries with
      | nil => rw [matchEpochs, matchByEpoch, induction]
      | cons entry entries => rw [matchEpochs, matchByEpoch, induction, induction]

section Field

variable {β : Type} [DecidableEq β]

theorem length_fieldRange (field : ValidatorHistoryEntry → β) :
    (history.fieldRange startEpoch endEpoch field).length = endEpoch + 1 - startEpoch := by
  rw [fieldRange, List.length_map, epochRange, matchEpochs_eq_matchByEpoch, length_matchByEpoch,
    epochs, List.length_range']

theorem length_epochCreditsRangeNormalized (tvcActivationEpoch : Nat) :
    (history.epochCreditsRangeNormalized startEpoch endEpoch tvcActivationEpoch).length =
      endEpoch + 1 - startEpoch := by
  rw [epochCreditsRangeNormalized, List.length_map, List.length_zip, length_fieldRange, epochs,
    List.length_range', Nat.min_self]

end Field

namespace Holds

variable {history startEpoch endEpoch} {stored : List ValidatorHistoryEntry}
variable {β : Type} [DecidableEq β] {field : ValidatorHistoryEntry → β}

theorem last_eq (holds : history.Holds stored) : history.last = stored.getLast? := by
  rw [last, holds.empty]
  cases nonempty : stored.isEmpty with
  | true =>
      rw [List.isEmpty_iff.mp nonempty]
      rfl
  | false => exact (holds.arr_idx (List.isEmpty_eq_false_iff.mp nonempty)).symm

theorem fieldRange_eq (holds : history.Holds stored) (valid : endEpoch < epochDefault) :
    history.fieldRange startEpoch endEpoch field = (epochs startEpoch endEpoch).map fun epoch =>
      fieldOf field (stored.find? fun entry => decide (entry.epoch = epoch)) := by
  rw [fieldRange, holds.epochRange valid, List.map_map]
  rfl

theorem fieldLatest_eq (holds : history.Holds stored) :
    history.fieldLatest field = fieldOf field stored.getLast? := by
  rw [fieldLatest, holds.last_eq]
  cases stored.getLast? with
  | none => rfl
  | some entry => rw [fieldOf_some]

/-- What no entry has is missing everywhere. -/
theorem fieldRange_of_unset (holds : history.Holds stored) (valid : endEpoch < epochDefault)
    (unset : ∀ entry ∈ stored, field entry = field .unset) :
    ∀ item ∈ history.fieldRange startEpoch endEpoch field, item = none := by
  rw [holds.fieldRange_eq valid, List.forall_mem_map]
  intro epoch _
  cases found : stored.find? fun entry => decide (entry.epoch = epoch) with
  | none => rfl
  | some entry =>
      rw [fieldOf_some, if_neg (not_not_intro (unset entry (List.mem_of_find?_eq_some found)))]

end Holds

end CircBuf

end Stakenet.History

import Stakenet.History.CreditRecord

/-! The age of a validator, kept up to date by counting only the new epochs, against a
recount of all epochs that the ring holds. -/

namespace Stakenet.History

open ValidatorHistory (saturatingAddU32)

/-! ## Counting -/

/-- The credits are set and not zero. -/
def ValidatorHistoryEntry.HasCredits (entry : ValidatorHistoryEntry) : Prop :=
  entry.epochCredits ≠ ValidatorHistoryEntry.unset.epochCredits ∧ 0 < entry.epochCredits

instance (entry : ValidatorHistoryEntry) : Decidable entry.HasCredits :=
  inferInstanceAs (Decidable (_ ∧ _))

/-- The epochs up to the last one that have credits. -/
def creditedEpochs (stored : List ValidatorHistoryEntry) (endEpoch : Nat) : Finset Nat :=
  ((stored.filter fun entry => decide (entry.epoch ≤ endEpoch ∧ entry.HasCredits)).map
    ValidatorHistoryEntry.epoch).toFinset

/-- Counting with `u32::saturating_add`. -/
theorem foldl_saturatingAddU32 (chosen : α → Prop) [DecidablePred chosen] (items : List α)
    {start : Nat} (fits : start ≤ 2 ^ 32 - 1) :
    items.foldl (fun total item => if chosen item then saturatingAddU32 total 1 else total) start =
      saturatingAddU32 start (items.countP fun item => decide (chosen item)) := by
  induction items generalizing start with
  | nil => exact (Nat.min_eq_left fits).symm
  | cons item items induction =>
      rw [List.foldl_cons, List.countP_cons]
      by_cases counted : chosen item
      · have limited : saturatingAddU32 start 1 ≤ 2 ^ 32 - 1 := Nat.min_le_right _ _
        rw [if_pos counted, induction limited, if_pos (decide_eq_true counted)]
        simp only [saturatingAddU32]
        omega
      · rw [if_neg counted, induction fits, if_neg (by simpa using counted), Nat.add_zero]

section Counting

variable {stored : List ValidatorHistoryEntry} {history : CircBuf}

theorem mem_creditedEpochs {endEpoch epoch : Nat} :
    epoch ∈ creditedEpochs stored endEpoch ↔
      epoch ≤ endEpoch ∧ ∃ entry ∈ stored, entry.epoch = epoch ∧ entry.HasCredits := by
  simp only [creditedEpochs, List.mem_toFinset, List.mem_map, List.mem_filter, decide_eq_true_eq]
  constructor
  · intro counted
    rcases counted with ⟨entry, ⟨member, completed, credited⟩, rfl⟩
    exact ⟨completed, entry, member, rfl, credited⟩
  · intro counted
    rcases counted with ⟨completed, entry, member, rfl, credited⟩
    exact ⟨entry, ⟨member, completed, credited⟩, rfl⟩

theorem Sorted.card_creditedEpochs (sorted : Sorted stored) (endEpoch : Nat) :
    (creditedEpochs stored endEpoch).card =
      stored.countP fun entry => decide (entry.epoch ≤ endEpoch ∧ entry.HasCredits) := by
  have distinct : ((stored.filter fun entry =>
      decide (entry.epoch ≤ endEpoch ∧ entry.HasCredits)).map
        ValidatorHistoryEntry.epoch).Nodup := by
    rw [List.Nodup, List.pairwise_map]
    exact (sorted.increasing.sublist List.filter_sublist).imp Nat.ne_of_lt
  rw [creditedEpochs, List.toFinset_card_of_nodup distinct, List.length_map,
    List.countP_eq_length_filter]

theorem CircBuf.Holds.card_creditedEpochs_le (holds : history.Holds stored) (endEpoch : Nat) :
    (creditedEpochs stored endEpoch).card ≤ maxItems := by
  rw [holds.sorted.card_creditedEpochs]
  exact List.countP_le_length.trans holds.length_le

/-- A scan of the array in any order meets every entry once. -/
theorem CircBuf.Holds.countP_arr (holds : history.Holds stored)
    {chosen : ValidatorHistoryEntry → Bool}
    (onlyFilled : ∀ entry, entry.epoch = epochDefault → chosen entry = false) :
    ((List.range maxItems).map history.arr).countP chosen = stored.countP chosen := by
  have bounded := history.inBounds
  rcases holds.rows with ⟨blanks, split, blank⟩
  have whole : List.range maxItems =
      List.range (history.idx + 1) ++
        List.range' (history.idx + 1) (maxItems - (history.idx + 1)) := by
    have appended := List.range'_append_1 (s := 0) (m := history.idx + 1)
      (n := maxItems - (history.idx + 1))
    rw [Nat.zero_add, show history.idx + 1 + (maxItems - (history.idx + 1)) = maxItems by omega]
      at appended
    rw [List.range_eq_range', List.range_eq_range', appended]
  have noBlanks : blanks.countP chosen = 0 := by
    rw [List.countP_eq_zero]
    intro entry member
    rw [onlyFilled entry (blank entry member)]
    exact Bool.false_ne_true
  calc ((List.range maxItems).map history.arr).countP chosen
      = history.rows.countP chosen := by
        rw [whole, List.map_append, CircBuf.rows, Ring.slots_eq_append bounded, List.countP_append,
          List.countP_append, Nat.add_comm]
    _ = stored.countP chosen := by rw [split, List.countP_append, noBlanks, Nat.zero_add]

/-- The first count goes over the whole ring. -/
theorem initializeValidatorAge_eq {account : ValidatorHistory}
    (holds : account.history.Holds stored) {currentEpoch : Nat} (positive : currentEpoch ≠ 0)
    (valid : currentEpoch < epochDefault) :
    account.initializeValidatorAge currentEpoch = { account with
      validatorAge := (creditedEpochs stored (currentEpoch - 1)).card
      validatorAgeLastUpdatedEpoch := currentEpoch - 1 } := by
  have few := holds.card_creditedEpochs_le (currentEpoch - 1)
  have onlyFilled : ∀ entry : ValidatorHistoryEntry, entry.epoch = epochDefault →
      decide (entry.epoch ≤ currentEpoch - 1 ∧ entry.HasCredits) = false := by
    intro entry unfilled
    simp only [unfilled, decide_eq_false_iff_not]
    omega
  have scanned := holds.countP_arr onlyFilled
  rw [← holds.sorted.card_creditedEpochs] at scanned
  have sameCondition : (fun entry : ValidatorHistoryEntry => decide (entry.epoch ≠ epochDefault ∧
      entry.epoch ≤ currentEpoch - 1 ∧
      entry.epochCredits ≠ ValidatorHistoryEntry.unset.epochCredits ∧ 0 < entry.epochCredits)) =
      fun entry => decide (entry.epoch ≤ currentEpoch - 1 ∧ entry.HasCredits) := by
    funext entry
    rw [decide_eq_decide, ValidatorHistoryEntry.HasCredits]
    exact ⟨And.right, fun completed => ⟨by omega, completed⟩⟩
  have counted := foldl_saturatingAddU32 (fun _ : ValidatorHistoryEntry => True)
    (((List.range maxItems).map account.history.arr).filter fun entry =>
      decide (entry.epoch ≤ currentEpoch - 1 ∧ entry.HasCredits)) (Nat.zero_le (2 ^ 32 - 1))
  simp only [if_true, decide_true, List.countP_true, ← List.countP_eq_length_filter, scanned]
    at counted
  have room : maxItems ≤ 2 ^ 32 - 1 := by decide
  rw [saturatingAddU32, Nat.zero_add, Nat.min_eq_left (few.trans room)] at counted
  rw [ValidatorHistory.initializeValidatorAge, if_neg positive]
  dsimp only
  rw [sameCondition, counted]

/-- Whether an epoch has credits, as the lookup of a range sees it. -/
theorem Sorted.find_hasCredits (sorted : Sorted stored) (epoch : Nat) :
    (∃ entry, stored.find? (fun entry => decide (entry.epoch = epoch)) = some entry ∧
      entry.HasCredits) ↔ ∃ entry ∈ stored, entry.epoch = epoch ∧ entry.HasCredits := by
  constructor
  · intro found
    rcases found with ⟨entry, found, credited⟩
    have sameEpoch := List.find?_some found
    exact ⟨entry, List.mem_of_find?_eq_some found, of_decide_eq_true sameEpoch, credited⟩
  · intro present
    rcases present with ⟨entry, member, rfl, credited⟩
    cases found : stored.find? fun other => decide (other.epoch = entry.epoch) with
    | none =>
        rw [List.find?_eq_none] at found
        exact absurd (decide_eq_true rfl) (found entry member)
    | some other =>
        have sameEpoch := List.find?_some found
        have same : other.epoch = entry.epoch := of_decide_eq_true sameEpoch
        have unique := sorted.eq_of_epoch (List.mem_of_find?_eq_some found) member same
        exact ⟨other, rfl, unique ▸ credited⟩

/-- The new epochs are counted by their lookup. -/
theorem countEpochsWithCreditsFromRange_eq (holds : history.Holds stored)
    {startEpoch endEpoch : Nat} (valid : endEpoch < epochDefault) :
    ValidatorHistory.countEpochsWithCreditsFromRange
        (history.epochCreditsRange startEpoch endEpoch) =
      ((creditedEpochs stored endEpoch).filter (startEpoch ≤ ·)).card := by
  have credited : ∀ epoch, (((stored.find? fun entry => decide (entry.epoch = epoch)).bind
      fun entry => if entry.epochCredits = ValidatorHistoryEntry.unset.epochCredits then none
        else some entry.epochCredits).map fun credits => decide (0 < credits)).getD false =
      decide (∃ entry ∈ stored, entry.epoch = epoch ∧ entry.HasCredits) := by
    intro epoch
    rw [Bool.eq_iff_iff, decide_eq_true_eq, ← holds.sorted.find_hasCredits epoch]
    cases stored.find? fun entry => decide (entry.epoch = epoch) with
    | none => simp
    | some entry =>
        by_cases unset : entry.epochCredits = ValidatorHistoryEntry.unset.epochCredits
        · simp [ValidatorHistoryEntry.HasCredits, unset]
        · simp [ValidatorHistoryEntry.HasCredits, unset]
  have sameEpochs : ((creditedEpochs stored endEpoch).filter (startEpoch ≤ ·)) =
      ((CircBuf.epochs startEpoch endEpoch).filter fun epoch =>
        decide (∃ entry ∈ stored, entry.epoch = epoch ∧ entry.HasCredits)).toFinset := by
    ext epoch
    rw [Finset.mem_filter, mem_creditedEpochs, List.mem_toFinset, List.mem_filter,
      decide_eq_true_eq, CircBuf.epochs, List.mem_range'_1]
    constructor
    · intro counted
      exact ⟨by omega, counted.1.2⟩
    · intro counted
      exact ⟨⟨by omega, counted.2⟩, counted.1.1⟩
  have distinct : ((CircBuf.epochs startEpoch endEpoch).filter fun epoch =>
      decide (∃ entry ∈ stored, entry.epoch = epoch ∧ entry.HasCredits)).Nodup :=
    List.Nodup.filter _ List.nodup_range'
  have few : ((creditedEpochs stored endEpoch).filter (startEpoch ≤ ·)).card ≤ 2 ^ 32 - 1 := by
    have inside := Finset.card_filter_le (creditedEpochs stored endEpoch) (startEpoch ≤ ·)
    have fits := holds.card_creditedEpochs_le endEpoch
    exact inside.trans (fits.trans (by decide))
  have sameCondition : (((fun found : Option Nat =>
        ((id found).map fun credits => decide (0 < credits)).getD false) ∘
      fun found : Option ValidatorHistoryEntry => do
        let entry ← found
        if entry.epochCredits = ValidatorHistoryEntry.unset.epochCredits then none
        else some entry.epochCredits) ∘
      fun epoch => stored.find? fun entry => decide (entry.epoch = epoch)) =
      fun epoch => decide (∃ entry ∈ stored, entry.epoch = epoch ∧ entry.HasCredits) := by
    funext epoch
    exact credited epoch
  rw [sameEpochs, List.toFinset_card_of_nodup distinct, ← List.countP_eq_length_filter] at few ⊢
  rw [ValidatorHistory.countEpochsWithCreditsFromRange,
    foldl_saturatingAddU32 (fun credits : Nat => 0 < credits) _ (Nat.zero_le _),
    CircBuf.epochCreditsRange, holds.epochRange valid, List.countP_filterMap, List.countP_map,
    List.countP_map, sameCondition, saturatingAddU32, Nat.zero_add, Nat.min_eq_left few]

end Counting

/-! ## The update of the age -/

/-- The number of completed epochs with credits. -/
def recountedAge (stored : List ValidatorHistoryEntry) (currentEpoch : Nat) : Nat :=
  if currentEpoch = 0 then 0 else (creditedEpochs stored (currentEpoch - 1)).card

section Update

variable {account : ValidatorHistory} {stored : List ValidatorHistoryEntry}

/-- The epochs completed since the checkpoint come on top of those before it. -/
theorem recountedAge_add {previousEpoch currentEpoch : Nat} (positive : previousEpoch ≠ 0)
    (ordered : previousEpoch ≤ currentEpoch) :
    recountedAge stored previousEpoch +
        ((creditedEpochs stored (currentEpoch - 1)).filter (previousEpoch ≤ ·)).card =
      recountedAge stored currentEpoch := by
  have before : creditedEpochs stored (previousEpoch - 1) =
      (creditedEpochs stored (currentEpoch - 1)).filter (¬previousEpoch ≤ ·) := by
    ext epoch
    rw [Finset.mem_filter, mem_creditedEpochs, mem_creditedEpochs]
    constructor
    · intro counted
      exact ⟨⟨by omega, counted.2⟩, by omega⟩
    · intro counted
      exact ⟨by omega, counted.1.2⟩
  rw [recountedAge, recountedAge, if_neg positive, if_neg (by omega), before, Nat.add_comm]
  exact Finset.card_filter_add_card_filter_not (s := creditedEpochs stored (currentEpoch - 1))
    (previousEpoch ≤ ·)

theorem history_updateValidatorAge (account : ValidatorHistory) (currentEpoch : Nat) :
    (account.updateValidatorAge currentEpoch).history = account.history := by
  simp only [ValidatorHistory.updateValidatorAge, ValidatorHistory.initializeValidatorAge]
  repeat' split
  all_goals rfl

/-- The age is that of a recount if it was so at the checkpoint. -/
theorem updateValidatorAge_eq (holds : account.history.Holds stored)
    {previousEpoch currentEpoch : Nat} (ordered : previousEpoch ≤ currentEpoch)
    (valid : currentEpoch < epochDefault)
    (checkpoint : account.validatorAgeLastUpdatedEpoch = previousEpoch - 1)
    (counted : account.validatorAge = recountedAge stored previousEpoch) :
    account.updateValidatorAge currentEpoch = { account with
      validatorAge := recountedAge stored currentEpoch
      validatorAgeLastUpdatedEpoch := currentEpoch - 1 } := by
  rw [ValidatorHistory.updateValidatorAge]
  by_cases unset : account.validatorAgeLastUpdatedEpoch = ValidatorHistory.validatorAgeEpochDefault
  · rw [if_pos unset]
    by_cases zero : currentEpoch = 0
    · rw [ValidatorHistory.initializeValidatorAge, if_pos zero, recountedAge, if_pos zero, zero]
    · rw [initializeValidatorAge_eq holds zero valid, recountedAge, if_neg zero]
  · rw [if_neg unset]
    have started : previousEpoch - 1 ≠ 0 := by
      rw [← checkpoint]
      exact unset
    by_cases repeated : currentEpoch - 1 ≤ account.validatorAgeLastUpdatedEpoch
    · have same : currentEpoch = previousEpoch := by omega
      rw [same] at repeated ⊢
      rw [if_pos repeated, ← counted, ← checkpoint]
    · have bound : epochDefault = 2 ^ 16 - 1 := rfl
      have start : min (account.validatorAgeLastUpdatedEpoch + 1) (2 ^ 16 - 1) = previousEpoch := by
        omega
      have total : recountedAge stored previousEpoch + _ = recountedAge stored currentEpoch :=
        recountedAge_add (by omega) ordered
      have few : recountedAge stored currentEpoch ≤ 2 ^ 32 - 1 := by
        rw [recountedAge, if_neg (by omega)]
        exact (holds.card_creditedEpochs_le _).trans (by decide)
      rw [if_neg repeated]
      dsimp only
      rw [start, if_neg (by omega), countEpochsWithCreditsFromRange_eq holds (by omega), counted,
        saturatingAddU32, total, Nat.min_eq_left few]

end Update

/-! ## One call -/

/-- A call, with the credits that the validator has earned in each epoch by then. The list
of the vote account tells them for some epochs. -/
structure VoteCall where
  epoch : Nat
  slot : Nat
  commission : Nat
  epochCredits : List EpochCredits
  earned : Nat → Nat
  notBegun : ∀ later, epoch < later → earned later = 0
  truthful : ∀ credits ∈ epochCredits, credits.current - credits.previous = earned credits.epoch

namespace VoteCall

def Lists (call : VoteCall) (epoch : Nat) : Prop :=
  ∃ credits ∈ call.epochCredits, credits.epoch = epoch

def execute (account : ValidatorHistory) (call : VoteCall) : Result ValidatorHistory :=
  account.copyVoteAccount call.epoch call.slot call.commission call.epochCredits

/-- The credits of an epoch do not change once a later one has begun, and those that changed
since the previous call are in the list. The first call lists its own epoch. -/
def Follows (call : VoteCall) : Option VoteCall → Prop
  | none => call.earned call.epoch ≠ 0 → call.Lists call.epoch
  | some previous => previous.epoch ≤ call.epoch ∧
      (∀ epoch < previous.epoch, call.earned epoch = previous.earned epoch) ∧
      ∀ epoch, call.earned epoch ≠ previous.earned epoch → call.Lists epoch

/-- The write of the commission to the entry of the current epoch. -/
def date (call : VoteCall) (entry : ValidatorHistoryEntry) : ValidatorHistoryEntry :=
  { entry with commission := call.commission, voteAccountLastUpdateSlot := call.slot }

/-- The history with an entry of the current epoch. -/
def dated (call : VoteCall) (stored : List ValidatorHistoryEntry) : List ValidatorHistoryEntry :=
  record call.epoch call.date stored

end VoteCall

/-- The entries between the first epoch of the history and the current one agree with the
credits earned. An entry without credits is of an epoch without credits. -/
structure Ledger (stored : List ValidatorHistoryEntry) (first now : Nat) (earned : Nat → Nat) :
    Prop where
  oldest : ∃ entry ∈ stored, entry.epoch = first
  newest : ∃ entry ∈ stored, entry.epoch = now
  bounds : ∀ entry ∈ stored, first ≤ entry.epoch ∧ entry.epoch ≤ now
  credits : ∀ entry ∈ stored, entry.epochCredits = earned entry.epoch % 2 ^ 32 ∨
    entry.epochCredits = ValidatorHistoryEntry.unset.epochCredits ∧ earned entry.epoch = 0
  complete : ∀ epoch, first ≤ epoch → epoch ≤ now → earned epoch ≠ 0 →
    ∃ entry ∈ stored, entry.epoch = epoch

/-- Credits that count as such when they are stored. -/
def Countable (credits : Nat) : Prop :=
  credits % 2 ^ 32 ≠ ValidatorHistoryEntry.unset.epochCredits ∧ 0 < credits % 2 ^ 32

namespace Ledger

variable {stored later : List ValidatorHistoryEntry} {first now : Nat} {earned : Nat → Nat}

theorem mem_creditedEpochs (ledger : Ledger stored first now earned) {endEpoch epoch : Nat}
    (completed : endEpoch ≤ now) :
    epoch ∈ creditedEpochs stored endEpoch ↔
      first ≤ epoch ∧ epoch ≤ endEpoch ∧ Countable (earned epoch) := by
  rw [History.mem_creditedEpochs]
  constructor
  · intro counted
    rcases counted with ⟨upTo, entry, member, rfl, credited⟩
    refine ⟨(ledger.bounds entry member).1, upTo, ?_⟩
    rcases ledger.credits entry member with same | unset
    · rw [Countable, ← same]
      exact credited
    · exact absurd unset.1 credited.1
  · intro counted
    rcases counted with ⟨atLeast, upTo, countable⟩
    have positive : earned epoch ≠ 0 := by
      intro zero
      rw [Countable, zero] at countable
      exact Nat.lt_irrefl 0 countable.2
    rcases ledger.complete epoch atLeast (by omega) positive with ⟨entry, member, rfl⟩
    refine ⟨upTo, entry, member, rfl, ?_⟩
    rcases ledger.credits entry member with same | unset
    · rw [ValidatorHistoryEntry.HasCredits, same]
      exact countable
    · exact absurd unset.2 positive

theorem length_le (ledger : Ledger stored first now earned) (sorted : Sorted stored) :
    stored.length ≤ now + 1 := by
  have distinct : (stored.map ValidatorHistoryEntry.epoch).Nodup := by
    rw [List.Nodup, List.pairwise_map]
    exact sorted.increasing.imp Nat.ne_of_lt
  have inside : (stored.map ValidatorHistoryEntry.epoch).toFinset ⊆ Finset.range (now + 1) := by
    intro epoch member
    rw [List.mem_toFinset, List.mem_map] at member
    rcases member with ⟨entry, isStored, rfl⟩
    exact Finset.mem_range_succ_iff.mpr (ledger.bounds entry isStored).2
  calc stored.length
      = (stored.map ValidatorHistoryEntry.epoch).toFinset.card := by
        rw [List.toFinset_card_of_nodup distinct, List.length_map]
    _ ≤ (Finset.range (now + 1)).card := Finset.card_le_card inside
    _ = now + 1 := Finset.card_range _

/-- What is completed stays as it is. -/
theorem recountedAge_eq (ledger : Ledger stored first now earned) {current : Nat}
    {earnedLater : Nat → Nat} (continued : Ledger later first current earnedLater)
    (ordered : now ≤ current) (settled : ∀ epoch < now, earnedLater epoch = earned epoch) :
    recountedAge later now = recountedAge stored now := by
  rw [recountedAge, recountedAge]
  by_cases zero : now = 0
  · rw [if_pos zero, if_pos zero]
  · rw [if_neg zero, if_neg zero]
    congr 1
    ext epoch
    rw [continued.mem_creditedEpochs (by omega), ledger.mem_creditedEpochs (by omega)]
    constructor
    · intro counted
      rw [← settled epoch (by omega)]
      exact counted
    · intro counted
      rw [settled epoch (by omega)]
      exact counted

end Ledger

/-- Nothing is cut off while the oldest entry stays. -/
theorem newest_eq_self {items : List ValidatorHistoryEntry} (sorted : Sorted items) {first : Nat}
    (atLeast : ∀ entry ∈ items, first ≤ entry.epoch)
    (stays : ∃ entry ∈ newest items, entry.epoch = first) : newest items = items := by
  rcases stays with ⟨oldest, isKept, rfl⟩
  apply Window.last_of_length_le
  apply Nat.le_of_not_lt
  intro long
  have cut : 0 < (items.take (items.length - maxItems)).length := by
    rw [List.length_take]
    omega
  rcases List.exists_mem_of_length_pos cut with ⟨entry, isCut⟩
  have below := Window.cut_lt_last sorted.increasing isCut isKept
  exact absurd (atLeast entry (List.mem_of_mem_take isCut)) (Nat.not_le.mpr below)

/-- What a call makes of the history. -/
structure Copied (call : VoteCall) (stored later : List ValidatorHistoryEntry)
    (epochs : List Nat) (creditsMap : List (Nat × Nat)) : Prop where
  valid : call.epoch < epochDefault
  converted : epochCreditsMap call.epochCredits = .ok creditsMap
  extended : Extends (call.dated stored) (fillIn epochs (call.dated stored))
  filled : ∀ epoch, epoch ∈ epochs ↔ call.Lists epoch ∧ InRange (call.dated stored) epoch ∧
    ∀ entry ∈ call.dated stored, entry.epoch ≠ epoch
  result : later = (newest (fillIn epochs (call.dated stored))).map (credit creditsMap)

section Call

variable {account next : ValidatorHistory} {stored later : List ValidatorHistoryEntry}
variable {call : VoteCall} {epochs : List Nat} {creditsMap : List (Nat × Nat)}

/-- The steps before the update of the age change only the ring. -/
theorem execute_ring (succeeded : call.execute account = .ok next) :
    ∃ dated filled credited : CircBuf,
      account.setCommissionAndSlot call.epoch call.commission call.slot =
        .ok { account with history := dated } ∧
      ({ account with history := dated } : ValidatorHistory).insertMissingEntries
        call.epochCredits = .ok { account with history := filled } ∧
      ({ account with history := filled } : ValidatorHistory).setEpochCredits
        call.epochCredits = .ok { account with history := credited } ∧
      call.epoch < epochDefault ∧
      next = ({ account with history := credited } : ValidatorHistory).updateValidatorAge
        call.epoch := by
  simp only [VoteCall.execute, ValidatorHistory.copyVoteAccount, Outcome.bind_eq_ok,
    Outcome.pure_eq_ok, castEpoch_eq_ok] at succeeded
  rcases succeeded with ⟨epoch, ⟨valid, rfl⟩, dated, first, filled, second, credited, third, rfl⟩
  have onlyRing : dated = { account with history := dated.history } := by
    simp only [ValidatorHistory.setCommissionAndSlot, ValidatorHistory.setEntry,
      Outcome.bind_eq_ok, Outcome.pure_eq_ok] at first
    rcases first with ⟨_, _, rfl⟩
    rfl
  have stillRing : filled = { account with history := filled.history } := by
    simp only [ValidatorHistory.insertMissingEntries, Outcome.bind_eq_ok, Outcome.pure_eq_ok]
      at second
    rcases second with ⟨_, _, _, _, _, _, rfl⟩
    rw [onlyRing]
  have againRing : credited = { account with history := credited.history } := by
    rw [ValidatorHistory.setEpochCredits] at third
    split at third
    case isTrue =>
      cases third
      exact stillRing
    case isFalse =>
      simp only [Outcome.bind_eq_ok, Outcome.pure_eq_ok] at third
      rcases third with ⟨_, _, _, _, rfl⟩
      rw [stillRing]
  rw [onlyRing] at first second
  rw [stillRing] at second third
  rw [againRing] at third
  refine ⟨_, _, _, first, second, third, valid, ?_⟩
  rw [← againRing]

theorem execute_copied (holds : account.history.Holds stored)
    (succeeded : call.execute account = .ok next) :
    ∃ (credited : ValidatorHistory) (later : List ValidatorHistoryEntry) (epochs : List Nat)
        (creditsMap : List (Nat × Nat)),
      Copied call stored later epochs creditsMap ∧ credited.history.Holds later ∧
      credited.validatorAge = account.validatorAge ∧
      credited.validatorAgeLastUpdatedEpoch = account.validatorAgeLastUpdatedEpoch ∧
      next = credited.updateValidatorAge call.epoch := by
  rcases execute_ring succeeded with ⟨dated, filled, credited, first, second, third, valid, updated⟩
  have keepsEpoch : ∀ entry, (call.date entry).epoch = entry.epoch := fun _ => rfl
  have datedHolds : dated.Holds (call.dated stored) :=
    ValidatorHistory.setEntry_holds holds keepsEpoch valid first
  rcases ValidatorHistory.insertMissingEntries_extends datedHolds second with
    ⟨epochs, full, rfl, extended, filledHolds, inEpochs⟩
  rcases ValidatorHistory.setEpochCredits_holds filledHolds third with
    ⟨creditsMap, converted, creditedHolds⟩
  exact ⟨_, _, epochs, creditsMap, ⟨valid, converted, extended, inEpochs, rfl⟩,
    creditedHolds, rfl, rfl, updated⟩

namespace Copied

variable {first : Nat}

/-- Nothing has been cut off if the oldest epoch is still there. -/
theorem whole (copied : Copied call stored later epochs creditsMap)
    (atLeast : ∀ entry ∈ call.dated stored, first ≤ entry.epoch)
    (stays : ∃ entry ∈ later, entry.epoch = first) :
    later = (fillIn epochs (call.dated stored)).map (credit creditsMap) := by
  rw [copied.result, newest_eq_self copied.extended.sorted]
  · intro entry member
    rcases copied.extended.within entry member with ⟨⟨low, lowMember, lower⟩, _⟩
    exact (atLeast low lowMember).trans lower
  · rw [copied.result] at stays
    rcases stays with ⟨_, member, rfl⟩
    rcases List.mem_map.mp member with ⟨oldest, isKept, rfl⟩
    exact ⟨oldest, isKept, (credit_epoch creditsMap oldest).symm⟩

/-- The list of credits is written, and what it does not name is as it was. -/
theorem ledger (copied : Copied call stored later epochs creditsMap)
    (bounds : ∀ entry ∈ call.dated stored, first ≤ entry.epoch ∧ entry.epoch ≤ call.epoch)
    (current : ∃ entry ∈ call.dated stored, entry.epoch = call.epoch)
    (stays : ∃ entry ∈ later, entry.epoch = first)
    (unlisted : ∀ entry ∈ call.dated stored, ¬call.Lists entry.epoch →
      entry.epochCredits = call.earned entry.epoch % 2 ^ 32 ∨
        entry.epochCredits = ValidatorHistoryEntry.unset.epochCredits ∧
          call.earned entry.epoch = 0)
    (complete : ∀ epoch, first ≤ epoch → epoch ≤ call.epoch → call.earned epoch ≠ 0 →
      ¬call.Lists epoch → ∃ entry ∈ call.dated stored, entry.epoch = epoch) :
    Ledger later first call.epoch call.earned := by
  have isWhole := copied.whole (fun entry member => (bounds entry member).1) stays
  have original : ∀ entry ∈ later, ∃ uncredited ∈ fillIn epochs (call.dated stored),
      entry = credit creditsMap uncredited := by
    intro entry member
    rw [isWhole] at member
    rcases List.mem_map.mp member with ⟨uncredited, isFilled, rfl⟩
    exact ⟨uncredited, isFilled, rfl⟩
  have filled : ∀ entry ∈ fillIn epochs (call.dated stored),
      ∃ credited ∈ later, credited.epoch = entry.epoch := by
    intro entry member
    rw [isWhole]
    exact ⟨_, List.mem_map_of_mem member, credit_epoch creditsMap entry⟩
  have kept : ∀ entry ∈ call.dated stored, ∃ credited ∈ later, credited.epoch = entry.epoch :=
    fun entry member => filled entry (copied.extended.contains entry member)
  -- The oldest entry, or one before it, is there before the list is filled in.
  have lowest : ∃ entry ∈ call.dated stored, entry.epoch ≤ first := by
    rcases stays with ⟨oldest, member, rfl⟩
    rcases original oldest member with ⟨uncredited, isFilled, rfl⟩
    rw [credit_epoch]
    exact (copied.extended.within uncredited isFilled).1
  exact {
    oldest := stays
    newest := by
      rcases current with ⟨entry, member, same⟩
      rcases kept entry member with ⟨credited, isLater, sameEpoch⟩
      exact ⟨credited, isLater, sameEpoch.trans same⟩
    bounds := by
      intro entry member
      rcases original entry member with ⟨uncredited, isFilled, rfl⟩
      rcases copied.extended.within uncredited isFilled with
        ⟨⟨low, lowMember, lower⟩, high, highMember, upper⟩
      rw [credit_epoch]
      exact ⟨(bounds low lowMember).1.trans lower, upper.trans (bounds high highMember).2⟩
    credits := by
      intro entry member
      rcases original entry member with ⟨uncredited, isFilled, rfl⟩
      rw [credit_epoch]
      by_cases isListed : call.Lists uncredited.epoch
      · rcases isListed with ⟨credits, inList, same⟩
        rcases lookup_of_mem copied.converted inList with ⟨value, found⟩
        rcases mem_of_lookup copied.converted found with ⟨other, isOther, otherEpoch, earned⟩
        rw [same] at found otherEpoch
        left
        rw [credit_of_lookup found, ← earned, EpochCredits.earned, call.truthful other isOther,
          otherEpoch]
      · have absent : ∀ credits ∈ call.epochCredits, credits.epoch ≠ uncredited.epoch :=
          fun credits inList same => isListed ⟨credits, inList, same⟩
        rw [credit_of_unlisted copied.converted absent]
        rcases mem_fillIn.mp isFilled with isDated | ⟨epoch, isMissing, rfl⟩
        · exact unlisted uncredited isDated isListed
        · exact absurd ((copied.filled epoch).mp isMissing).1 isListed
    complete := by
      intro epoch atLeast atMost positive
      by_cases present : ∃ entry ∈ call.dated stored, entry.epoch = epoch
      · rcases present with ⟨entry, member, rfl⟩
        exact kept entry member
      · have isListed : call.Lists epoch := by
          by_contra isUnlisted
          exact present (complete epoch atLeast atMost positive isUnlisted)
        have inRange : InRange (call.dated stored) epoch := by
          rcases lowest with ⟨low, lowMember, lower⟩
          rcases current with ⟨entry, member, same⟩
          exact ⟨⟨low, lowMember, lower.trans atLeast⟩, entry, member, by omega⟩
        have isMissing : epoch ∈ epochs := by
          apply (copied.filled epoch).mpr
          exact ⟨isListed, inRange, fun entry member same => present ⟨entry, member, same⟩⟩
        exact filled _ (mem_fillIn.mpr (.inr ⟨epoch, isMissing, rfl⟩)) }

end Copied

/-- An entry of the dated history is an old one, or the new one of the current epoch. -/
theorem mem_dated {entry : ValidatorHistoryEntry} (member : entry ∈ call.dated stored) :
    (∃ old ∈ stored, old.epoch = entry.epoch ∧ entry.epochCredits = old.epochCredits) ∨
      (∀ old ∈ stored, old.epoch < call.epoch) ∧ entry.epoch = call.epoch ∧
        entry.epochCredits = ValidatorHistoryEntry.unset.epochCredits := by
  rw [VoteCall.dated, record] at member
  split at member
  case isTrue later =>
    rcases List.mem_append.mp (Window.mem_of_mem_last member) with isOld | isNew
    · exact .inl ⟨entry, isOld, rfl, rfl⟩
    · rw [List.mem_singleton.mp isNew]
      exact .inr ⟨later, rfl, rfl⟩
  case isFalse =>
    rcases List.mem_map.mp member with ⟨old, isOld, rfl⟩
    refine .inl ⟨old, isOld, ?_⟩
    split <;> exact ⟨rfl, rfl⟩

theorem exists_dated (upToNow : ∀ entry ∈ stored, entry.epoch ≤ call.epoch) :
    ∃ entry ∈ call.dated stored, entry.epoch = call.epoch := by
  rw [VoteCall.dated, record]
  split
  case isTrue =>
    have room := maxItems_pos
    refine ⟨call.date (.ofEpoch call.epoch), ?_, rfl⟩
    rw [newest, Window.last, List.length_append, List.length_singleton,
      List.drop_append_of_le_length (by omega)]
    exact List.mem_append_right _ (List.mem_singleton_self _)
  case isFalse notLater =>
    push Not at notLater
    rcases notLater with ⟨entry, member, reached⟩
    refine ⟨_, List.mem_map_of_mem member, ?_⟩
    have same := Nat.le_antisymm (upToNow entry member) reached
    split <;> exact same

/-- The ledger begins with the first call. -/
theorem ledger_first (follows : call.Follows none)
    (copied : Copied call [] later epochs creditsMap) :
    Ledger later call.epoch call.epoch call.earned := by
  have onlyNew : ∀ entry ∈ call.dated [], entry.epoch = call.epoch ∧
      entry.epochCredits = ValidatorHistoryEntry.unset.epochCredits := by
    intro entry member
    rcases mem_dated member with ⟨_, isOld, _⟩ | isNew
    · cases isOld
    · exact isNew.2
  have current : ∃ entry ∈ call.dated [], entry.epoch = call.epoch := exists_dated (by simp)
  apply copied.ledger _ current
  · rcases current with ⟨entry, member, same⟩
    rcases copied.extended.exists_ge member same.ge with ⟨kept, isKept, reached⟩
    rcases copied.extended.within kept (Window.mem_of_mem_last isKept) with
      ⟨_, high, highMember, upper⟩
    rw [(onlyNew high highMember).1] at upper
    refine ⟨_, copied.result ▸ List.mem_map_of_mem isKept, ?_⟩
    rw [credit_epoch]
    exact Nat.le_antisymm upper reached
  · intro entry member isUnlisted
    right
    refine ⟨(onlyNew entry member).2, ?_⟩
    by_contra positive
    rw [(onlyNew entry member).1] at positive isUnlisted
    exact isUnlisted (follows positive)
  · intro epoch atLeast atMost _ _
    rcases current with ⟨entry, member, same⟩
    exact ⟨entry, member, by omega⟩
  · intro entry member
    rw [(onlyNew entry member).1]
    exact ⟨Nat.le_refl _, Nat.le_refl _⟩

/-- Every further call keeps it. -/
theorem Ledger.extend {previous : VoteCall} {first : Nat}
    (ledger : Ledger stored first previous.epoch previous.earned)
    (follows : call.Follows (some previous)) (copied : Copied call stored later epochs creditsMap)
    (kept : ∀ old ∈ stored, ∃ entry ∈ later, entry.epoch = old.epoch) :
    Ledger later first call.epoch call.earned := by
  rcases follows with ⟨ordered, settled, lists⟩
  have upToNow : ∀ entry ∈ stored, entry.epoch ≤ call.epoch :=
    fun entry member => (ledger.bounds entry member).2.trans ordered
  have unchanged : ∀ epoch, ¬call.Lists epoch → call.earned epoch = previous.earned epoch := by
    intro epoch isUnlisted
    by_contra changed
    exact isUnlisted (lists epoch changed)
  rcases ledger.oldest with ⟨oldest, isOldest, rfl⟩
  apply copied.ledger _ (exists_dated upToNow) (kept oldest isOldest)
  · intro entry member isUnlisted
    rcases mem_dated member with ⟨old, isOld, same, sameCredits⟩ | ⟨isLast, isNew, unset⟩
    · rw [sameCredits, unchanged entry.epoch isUnlisted, ← same]
      exact ledger.credits old isOld
    · rcases ledger.newest with ⟨last, lastMember, lastEpoch⟩
      have begins := isLast last lastMember
      rw [unchanged entry.epoch isUnlisted, isNew, previous.notBegun call.epoch (by omega)]
      exact .inr ⟨unset, rfl⟩
  · intro epoch atLeast _ positive isUnlisted
    rw [unchanged epoch isUnlisted] at positive
    have begun : epoch ≤ previous.epoch := by
      by_contra future
      exact positive (previous.notBegun epoch (by omega))
    rcases ledger.complete epoch atLeast begun positive with ⟨old, isOld, rfl⟩
    rcases kept old isOld with ⟨entry, member, same⟩
    rw [copied.result] at member
    rcases List.mem_map.mp member with ⟨uncredited, isKept, rfl⟩
    rw [credit_epoch] at same
    rcases mem_fillIn.mp (Window.mem_of_mem_last isKept) with isDated | ⟨missing, isMissing, rfl⟩
    · exact ⟨uncredited, isDated, same⟩
    · have isListed := ((copied.filled missing).mp isMissing).1
      have sameEpoch : missing = old.epoch := same
      exact absurd (sameEpoch ▸ isListed) isUnlisted
  · intro entry member
    have atLeast : ∀ old ∈ stored, oldest.epoch ≤ old.epoch :=
      fun old isOld => (ledger.bounds old isOld).1
    rcases mem_dated member with ⟨old, isOld, same, _⟩ | ⟨isLast, isNew, _⟩
    · rw [← same]
      exact ⟨atLeast old isOld, upToNow old isOld⟩
    · rw [isNew]
      exact ⟨(isLast oldest isOldest).le, Nat.le_refl _⟩

/-- While there is room nothing is evicted. -/
theorem Copied.kept_of_room (copied : Copied call stored later epochs creditsMap)
    (room : stored.length + 1 + call.epochCredits.length ≤ maxItems) :
    ∀ old ∈ stored, ∃ entry ∈ later, entry.epoch = old.epoch := by
  have dated : (call.dated stored).length ≤ stored.length + 1 ∧
      ∀ old ∈ stored, ∃ entry ∈ call.dated stored, entry.epoch = old.epoch := by
    rw [VoteCall.dated, record]
    split
    case isTrue =>
      have fits : (stored ++ [call.date (.ofEpoch call.epoch)]).length ≤ maxItems := by
        rw [List.length_append, List.length_singleton]
        omega
      rw [newest, Window.last_of_length_le fits, List.length_append, List.length_singleton]
      exact ⟨Nat.le_refl _, fun old isOld => ⟨old, List.mem_append_left _ isOld, rfl⟩⟩
    case isFalse =>
      rw [amend, List.length_map]
      refine ⟨Nat.le_succ _, fun old isOld => ⟨_, List.mem_map_of_mem isOld, ?_⟩⟩
      split <;> rfl
  have fits : (fillIn epochs (call.dated stored)).length ≤ maxItems := by
    have distinct :
        ((fillIn epochs (call.dated stored)).map ValidatorHistoryEntry.epoch).Nodup := by
      rw [List.Nodup, List.pairwise_map]
      exact copied.extended.sorted.increasing.imp Nat.ne_of_lt
    have inside : ((fillIn epochs (call.dated stored)).map ValidatorHistoryEntry.epoch).toFinset ⊆
        ((call.dated stored).map ValidatorHistoryEntry.epoch ++
          call.epochCredits.map EpochCredits.epoch).toFinset := by
      intro epoch member
      rw [List.mem_toFinset, List.mem_map] at member
      rw [List.mem_toFinset, List.mem_append, List.mem_map, List.mem_map]
      rcases member with ⟨entry, isFilled, rfl⟩
      rcases mem_fillIn.mp isFilled with isDated | ⟨missing, isMissing, rfl⟩
      · exact .inl ⟨entry, isDated, rfl⟩
      · exact .inr ((copied.filled missing).mp isMissing).1
    have few := (Finset.card_le_card inside).trans (List.toFinset_card_le _)
    rw [List.toFinset_card_of_nodup distinct, List.length_append, List.length_map,
      List.length_map, List.length_map] at few
    have atMost := dated.1
    omega
  intro old isOld
  rcases dated.2 old isOld with ⟨entry, member, same⟩
  rw [copied.result, newest, Window.last_of_length_le fits]
  refine ⟨_, List.mem_map_of_mem (copied.extended.contains entry member), ?_⟩
  rw [credit_epoch, same]

end Call

/-! ## Runs -/

/-- A successful call that evicts no entry. -/
structure VoteStep (previous : Option VoteCall) (account : ValidatorHistory) (call : VoteCall)
    (next : ValidatorHistory) : Prop where
  follows : call.Follows previous
  succeeded : call.execute account = .ok next
  kept : account.history.epochSet ⊆ next.history.epochSet

/-- What such calls make of a new account, with the last of them. -/
inductive VoteRun : Option VoteCall → ValidatorHistory → Prop
  | fresh {account : ValidatorHistory} (arr : Nat → ValidatorHistoryEntry)
      (history : account.history = CircBuf.initial arr) (age : account.validatorAge = 0)
      (checkpoint : account.validatorAgeLastUpdatedEpoch = 0) : VoteRun none account
  | call {previous : Option VoteCall} {account next : ValidatorHistory} {call : VoteCall}
      (run : VoteRun previous account) (step : VoteStep previous account call next) :
      VoteRun (some call) next

/-- The age is that of a recount. -/
def AgeCounted (account : ValidatorHistory) : Option VoteCall → Prop
  | none => account.history.Holds [] ∧ account.validatorAge = 0 ∧
      account.validatorAgeLastUpdatedEpoch = 0
  | some call => ∃ stored first, account.history.Holds stored ∧
      Ledger stored first call.epoch call.earned ∧
      account.validatorAge = recountedAge stored call.epoch ∧
      account.validatorAgeLastUpdatedEpoch = call.epoch - 1

section Run

variable {previous : Option VoteCall} {account next : ValidatorHistory} {call : VoteCall}

theorem AgeCounted.first (counted : AgeCounted account none)
    (step : VoteStep none account call next) : AgeCounted next (some call) := by
  rcases counted with ⟨holds, age, checkpoint⟩
  rcases execute_copied holds step.succeeded with
    ⟨credited, later, epochs, creditsMap, copied, creditedHolds, sameAge, sameCheckpoint, rfl⟩
  have ledger := ledger_first step.follows copied
  rw [← sameAge] at age
  rw [← sameCheckpoint] at checkpoint
  rw [updateValidatorAge_eq creditedHolds (Nat.zero_le _) copied.valid checkpoint age]
  exact ⟨later, call.epoch, creditedHolds, ledger, rfl, rfl⟩

/-- A further call, which leaves the age if it is in the same epoch. -/
theorem AgeCounted.further {previous : VoteCall} (counted : AgeCounted account (some previous))
    (step : VoteStep (some previous) account call next) :
    AgeCounted next (some call) ∧
      (call.epoch = previous.epoch → next.validatorAge = account.validatorAge) := by
  rcases counted with ⟨stored, first, holds, ledger, age, checkpoint⟩
  rcases execute_copied holds step.succeeded with
    ⟨credited, later, epochs, creditsMap, copied, creditedHolds, sameAge, sameCheckpoint, rfl⟩
  have kept : ∀ old ∈ stored, ∃ entry ∈ later, entry.epoch = old.epoch := by
    intro old isOld
    have member := step.kept (CircBuf.mem_epochSet.mpr ⟨old, holds.entries_eq ▸ isOld, rfl⟩)
    rwa [history_updateValidatorAge, CircBuf.mem_epochSet, creditedHolds.entries_eq] at member
  have continued := ledger.extend step.follows copied kept
  rw [← sameAge, ← ledger.recountedAge_eq continued step.follows.1 step.follows.2.1] at age
  rw [← sameCheckpoint] at checkpoint
  rw [updateValidatorAge_eq creditedHolds step.follows.1 copied.valid checkpoint age]
  refine ⟨⟨later, first, creditedHolds, continued, rfl, rfl⟩, fun repeated => ?_⟩
  calc recountedAge later call.epoch
      = credited.validatorAge := by rw [repeated, age]
    _ = account.validatorAge := sameAge

theorem VoteRun.ageCounted (run : VoteRun previous account) : AgeCounted account previous := by
  induction run with
  | fresh arr history age checkpoint =>
      refine ⟨?_, age, checkpoint⟩
      rw [history]
      exact CircBuf.holds_initial arr
  | @call previous account next call run step induction =>
      cases previous with
      | none => exact induction.first step
      | some previous => exact (induction.further step).1

/-- After every call the age is the number of completed epochs with credits in the ring, and
another call in the same epoch leaves it. -/
theorem run_age_recounted (run : VoteRun (some call) account) :
    (1 ≤ call.epoch → account.validatorAge =
      (creditedEpochs account.history.entries (call.epoch - 1)).card) ∧
    ∀ again next, VoteStep (some call) account again next → again.epoch = call.epoch →
      next.validatorAge = account.validatorAge := by
  refine ⟨fun positive => ?_, fun again next step => (run.ageCounted.further step).2⟩
  rcases run.ageCounted with ⟨stored, first, holds, ledger, age, checkpoint⟩
  rw [age, recountedAge, if_neg (by omega), holds.entries_eq]

/-- A call succeeds with a list that can be read. -/
theorem exists_voteStep {stored : List ValidatorHistoryEntry} (follows : call.Follows previous)
    (holds : account.history.Holds stored) (valid : call.epoch < epochDefault)
    (nonempty : call.epochCredits ≠ []) (usable : ∀ credits ∈ call.epochCredits, credits.Usable)
    (room : stored.length + 1 + call.epochCredits.length ≤ maxItems) :
    ∃ next, VoteStep previous account call next := by
  rcases account.setCommissionAndSlot_succeeds call.epoch call.commission call.slot with
    ⟨dated, first⟩
  rcases dated.insertMissingEntries_succeeds nonempty usable with ⟨filled, second⟩
  rcases filled.setEpochCredits_succeeds nonempty usable with ⟨credited, third⟩
  have succeeded : call.execute account = .ok (credited.updateValidatorAge call.epoch) := by
    simp only [VoteCall.execute, ValidatorHistory.copyVoteAccount, castEpoch, if_pos valid, first,
      second, third, Outcome.ok_bind]
    rfl
  refine ⟨_, follows, succeeded, ?_⟩
  rcases execute_copied holds succeeded with
    ⟨credited, later, epochs, creditsMap, copied, creditedHolds, _, _, updated⟩
  intro epoch member
  rw [CircBuf.mem_epochSet, holds.entries_eq] at member
  rcases member with ⟨old, isOld, rfl⟩
  rw [updated, history_updateValidatorAge, CircBuf.mem_epochSet, creditedHolds.entries_eq]
  exact copied.kept_of_room room old isOld

/-- A call in epoch 5. -/
def earlyCall : VoteCall where
  epoch := 5
  slot := 1000
  commission := 7
  epochCredits := [⟨4, 100, 20⟩, ⟨5, 300, 100⟩]
  earned := fun epoch => if epoch = 4 then 80 else if epoch = 5 then 200 else 0
  notBegun := by
    intro later begun
    rw [if_neg (by omega), if_neg (by omega)]
  truthful := by decide

/-- One in epoch 8, with more credits for epoch 5 and none for epoch 7. -/
def lateCall : VoteCall where
  epoch := 8
  slot := 2200
  commission := 8
  epochCredits := [⟨5, 350, 100⟩, ⟨6, 600, 350⟩, ⟨8, 640, 600⟩]
  earned := fun epoch => if epoch = 4 then 80 else if epoch = 5 then 250 else
    if epoch = 6 then 250 else if epoch = 8 then 40 else 0
  notBegun := by
    intro later begun
    rw [if_neg (by omega), if_neg (by omega), if_neg (by omega), if_neg (by omega)]
  truthful := by decide

theorem lateCall_follows : lateCall.Follows (some earlyCall) := by
  refine ⟨by decide, by decide, fun epoch changed => ?_⟩
  by_contra unlisted
  apply changed
  have notFive : epoch ≠ 5 := fun same => unlisted ⟨⟨5, 350, 100⟩, by decide, same.symm⟩
  have notSix : epoch ≠ 6 := fun same => unlisted ⟨⟨6, 600, 350⟩, by decide, same.symm⟩
  have notEight : epoch ≠ 8 := fun same => unlisted ⟨⟨8, 640, 600⟩, by decide, same.symm⟩
  simp only [lateCall, earlyCall, if_neg notFive, if_neg notSix, if_neg notEight]

theorem exists_lateCall_run : ∃ account, VoteRun (some lateCall) account := by
  have start : VoteRun none .blank := .fresh (fun _ => .unset) rfl rfl rfl
  have early : earlyCall.Follows none := fun _ => ⟨⟨5, 300, 100⟩, by decide, rfl⟩
  have empty : ValidatorHistory.blank.history.Holds [] := CircBuf.holds_initial fun _ => .unset
  rcases exists_voteStep early empty (by decide) (by decide) (by decide) (by decide) with
    ⟨account, first⟩
  have begun := start.call first
  rcases begun.ageCounted with ⟨stored, _, holds, ledger, _⟩
  have few : stored.length ≤ 6 := ledger.length_le holds.sorted
  have room : stored.length + 1 + 3 ≤ maxItems := by
    have capacity : maxItems = 512 := rfl
    omega
  rcases exists_voteStep lateCall_follows holds (by decide) (by decide) (by decide) room with
    ⟨next, second⟩
  exact ⟨next, begun.call second⟩

theorem run_age_recounted_lateCall : ∃ account, VoteRun (some lateCall) account ∧
    (1 ≤ 8 → account.validatorAge = (creditedEpochs account.history.entries 7).card) ∧
    ∀ again next, VoteStep (some lateCall) account again next → again.epoch = 8 →
      next.validatorAge = account.validatorAge := by
  rcases exists_lateCall_run with ⟨account, run⟩
  exact ⟨account, run, run_age_recounted run⟩

end Run

end Stakenet.History

import Stakenet.History.ValidatorAge
import Stakenet.Steward.ValidatorScore

/-! The filters of the score and the checks for instant unstake, compared on one history. -/

namespace Stakenet.Steward

open History (CircBuf ValidatorHistoryAccount ValidatorHistoryEntry Setter)

/-! ## Maxima of windows -/

section Maxima

variable {window : List (Option Nat)} {currentEpoch : Nat}

theorem maxByKey_append {α : Type} (items : List (Nat × α)) (item : Nat × α) :
    maxByKey (items ++ [item]) =
      match maxByKey items with
      | some greatest => if greatest.1 ≤ item.1 then some item else some greatest
      | none => some item := by
  rw [maxByKey, List.foldl_append]
  rfl

/-- Nothing is above the maximum. -/
theorem exists_maxByKey {α : Type} {items : List (Nat × α)} {item : Nat × α}
    (member : item ∈ items) : ∃ greatest, maxByKey items = some greatest ∧ item.1 ≤ greatest.1 := by
  induction items using List.reverseRecOn with
  | nil => cases member
  | append_singleton items last induction =>
      rw [maxByKey_append]
      cases earlier : maxByKey items with
      | none =>
          rcases List.mem_append.mp member with before | atLast
          · rcases induction before with ⟨greatest, found, _⟩
            rw [earlier] at found
            cases found
          · exact ⟨last, rfl, by rw [List.mem_singleton.mp atLast]⟩
      | some greatest =>
          have bound : item.1 ≤ greatest.1 ∨ item = last := by
            rcases List.mem_append.mp member with before | atLast
            · rcases induction before with ⟨other, found, above⟩
              obtain rfl : greatest = other := Option.some.inj (earlier.symm.trans found)
              exact .inl above
            · exact .inr (List.mem_singleton.mp atLast)
          by_cases larger : greatest.1 ≤ last.1
          · refine ⟨last, if_pos larger, ?_⟩
            rcases bound with below | rfl
            · exact below.trans larger
            · exact Nat.le_refl _
          · refine ⟨greatest, if_neg larger, ?_⟩
            rcases bound with below | rfl
            · exact below
            · exact Nat.le_of_not_le larger

theorem mem_observed {β : Type} {window : List (Option β)} {value : β}
    (member : some value ∈ window) (currentEpoch : Nat) :
    ∃ epoch, (value, epoch) ∈ observed window currentEpoch := by
  rcases List.getElem?_of_mem (List.mem_reverse.mpr member) with ⟨i, found⟩
  have indexed : (some value, i) ∈ window.reverse.zipIdx :=
    List.mem_zipIdx_iff_getElem?.mpr found
  exact ⟨_, List.mem_filterMap.mpr ⟨_, indexed, rfl⟩⟩

theorem le_maxObserved {missing : Nat × Nat} {greatest epoch value : Nat}
    (computed : maxObserved window currentEpoch missing = .ok (greatest, epoch))
    (member : some value ∈ window) : value ≤ greatest := by
  obtain ⟨valueEpoch, inObserved⟩ := mem_observed member currentEpoch
  rcases exists_maxByKey inObserved with ⟨⟨top, topEpoch⟩, found, above⟩
  rw [maxObserved, found] at computed
  cases topEpoch with
  | none => cases computed
  | some topEpoch =>
      cases computed
      exact above

theorem passes_ne_zero {condition : Prop} [Decidable condition] :
    passes condition ≠ 0 ↔ condition := by
  by_cases holds : condition <;> simp [passes, holds]

/-- A window that passes has no value above the threshold. -/
theorem le_of_filterMaximum {threshold score greatest epoch value : Nat} {missing : Nat × Nat}
    (computed : filterMaximum window currentEpoch threshold missing = .ok (score, greatest, epoch))
    (passed : score ≠ 0) (member : some value ∈ window) : value ≤ threshold := by
  simp only [filterMaximum, Outcome.bind_eq_ok, Outcome.pure_eq_ok] at computed
  rcases computed with ⟨⟨_, _⟩, computed, same⟩
  cases same
  exact (le_maxObserved computed member).trans (passes_ne_zero.mp passed)

end Maxima

/-! ## The same data for both -/

section SameData

variable {history : CircBuf} {stored : List ValidatorHistoryEntry} {entry : ValidatorHistoryEntry}
variable {β : Type} [DecidableEq β] {field : ValidatorHistoryEntry → β}

/-- A longer range has all that a shorter one with the same end has. -/
theorem mem_fieldRange_of_le (holds : history.Holds stored) {earlier later endEpoch : Nat}
    (valid : endEpoch < History.epochDefault) (start : earlier ≤ later) {item : Option β}
    (member : item ∈ history.fieldRange later endEpoch field) :
    item ∈ history.fieldRange earlier endEpoch field := by
  rw [holds.fieldRange_eq valid, List.mem_map] at member ⊢
  rcases member with ⟨epoch, inRange, found⟩
  have bounds := List.mem_range'_1.mp inRange
  exact ⟨epoch, List.mem_range'_1.mpr ⟨start.trans bounds.1, by omega⟩, found⟩

/-- A range that ends with the newest epoch has the fields of the newest entry. -/
theorem mem_fieldRange_newest (holds : history.Holds stored) (newest : history.last = some entry)
    (set : field entry ≠ field .unset) {startEpoch : Nat} (start : startEpoch ≤ entry.epoch) :
    some (field entry) ∈ history.fieldRange startEpoch entry.epoch field := by
  rw [holds.last_eq] at newest
  have member : entry ∈ stored := List.mem_of_getLast? newest
  have found : stored.find? (fun other => decide (other.epoch = entry.epoch)) = some entry := by
    cases search : stored.find? fun other => decide (other.epoch = entry.epoch) with
    | none =>
        rw [List.find?_eq_none] at search
        exact absurd (decide_eq_true rfl) (search entry member)
    | some other =>
        have decided := List.find?_some search
        have same : other.epoch = entry.epoch := of_decide_eq_true decided
        exact congrArg some
          (holds.sorted.eq_of_epoch (List.mem_of_find?_eq_some search) member same)
  rw [holds.fieldRange_eq (holds.sorted.valid entry member), List.mem_map]
  refine ⟨entry.epoch, List.mem_range'_1.mpr ⟨start, by omega⟩, ?_⟩
  rw [found, CircBuf.fieldOf_some, if_pos set]

end SameData

/-! ## Agreement -/

/-- Only delinquency is left to unstake a validator. -/
structure OnlyDelinquency (checks : InstantUnstakeComponentsV3) : Prop where
  commissionCheck : checks.commissionCheck = false
  mevCommissionCheck : checks.mevCommissionCheck = false
  isBlacklisted : checks.isBlacklisted = false
  isBadMerkleRootUploadAuthority : checks.isBadMerkleRootUploadAuthority = false
  isBadPriorityFeeMerkleRootUploadAuthority :
    checks.isBadPriorityFeeMerkleRootUploadAuthority = false
  instantUnstake : checks.instantUnstake = checks.delinquencyCheck

/-- How the checks come about. -/
structure Checked (validator : ValidatorHistoryAccount) (config : ScoringConfig)
    (currentEpoch : Nat) (checks : InstantUnstakeComponentsV3) : Prop where
  commissionCheck : checks.commissionCheck =
    (calculateInstantUnstakeCommission validator config.parameters.commissionThreshold).1
  mevCommissionCheck : checks.mevCommissionCheck = (calculateInstantUnstakeMevCommission validator
    currentEpoch config.parameters.mevCommissionBpsThreshold).1
  isBlacklisted : calculateInstantUnstakeBlacklist config validator.index =
    .ok checks.isBlacklisted
  isBadMerkleRootUploadAuthority : calculateInstantUnstakeMerkleRootUploadAuth
    validator.history.merkleRootUploadAuthorityLatest = .ok checks.isBadMerkleRootUploadAuthority
  isBadPriorityFeeMerkleRootUploadAuthority : calculateInstantUnstakeMerkleRootUploadAuth
    validator.history.priorityFeeMerkleRootUploadAuthorityLatest =
      .ok checks.isBadPriorityFeeMerkleRootUploadAuthority
  instantUnstake : checks.instantUnstake = (checks.delinquencyCheck || checks.commissionCheck ||
    checks.mevCommissionCheck || checks.isBlacklisted || checks.isBadMerkleRootUploadAuthority ||
    checks.isBadPriorityFeeMerkleRootUploadAuthority)

section Agreement

variable {validator : ValidatorHistoryAccount} {cluster : History.ClusterHistory}
variable {config : ScoringConfig} {currentEpoch tvcActivationEpoch : Nat}
variable {components : ScoreComponentsV5} {checks : InstantUnstakeComponentsV3}

theorem checked_of_eq_ok {epochStartSlot : Nat}
    (checked : instantUnstakeValidator validator cluster config epochStartSlot currentEpoch
      tvcActivationEpoch = .ok checks) : Checked validator config currentEpoch checks := by
  simp only [instantUnstakeValidator, Outcome.bind_eq_ok, Outcome.pure_eq_ok] at checked
  obtain ⟨_, _, _, _, _, _, _, _, _, _, _, blacklisted, _, badAuthority, _, badFeeAuthority, rfl⟩ :=
    checked
  exact {
    commissionCheck := rfl
    mevCommissionCheck := rfl
    isBlacklisted := blacklisted
    isBadMerkleRootUploadAuthority := badAuthority
    isBadPriorityFeeMerkleRootUploadAuthority := badFeeAuthority
    instantUnstake := rfl }

/-- Every filter has let the validator pass. -/
theorem filters_of_positive {firstReliableEpoch : Nat}
    (scored : Scored firstReliableEpoch validator cluster config currentEpoch tvcActivationEpoch
      components) (positive : 0 < components.score) :
    components.mevCommissionScore ≠ 0 ∧ components.commissionScore ≠ 0 ∧
      components.blacklistedScore ≠ 0 ∧ components.merkleRootUploadAuthorityScore ≠ 0 ∧
      components.priorityFeeMerkleRootUploadAuthorityScore ≠ 0 := by
  have product := positive.ne'
  rw [scored.score] at product
  simp only [ne_eq, Nat.mul_eq_zero, not_or] at product
  obtain ⟨⟨⟨⟨⟨⟨⟨⟨⟨⟨_, mev⟩, commission⟩, _⟩, blacklisted⟩, _⟩, _⟩, _⟩, authority⟩, _⟩,
    feeAuthority⟩ := product
  exact ⟨mev, commission, blacklisted, authority, feeAuthority⟩

/-- The score inverts the check of an upload authority. -/
theorem merkleRootAuthority_agrees {latest : Option History.MerkleRootUploadAuthority}
    {score : Nat} {bad : Bool} (scored : merkleRootAuthorityScore latest = .ok score)
    (passed : score ≠ 0)
    (checked : calculateInstantUnstakeMerkleRootUploadAuth latest = .ok bad) : bad = false := by
  rw [merkleRootAuthorityScore, checked, Outcome.ok_bind] at scored
  cases scored
  exact Bool.eq_false_iff.mpr (passes_ne_zero.mp passed)

theorem blacklist_agrees {index score : Nat} {blacklisted : Bool}
    (scored : calculateBlacklistScore config index = .ok score) (passed : score ≠ 0)
    (checked : calculateInstantUnstakeBlacklist config index = .ok blacklisted) :
    blacklisted = false := by
  rw [calculateInstantUnstakeBlacklist] at checked
  rw [calculateBlacklistScore, checked, Outcome.ok_bind] at scored
  cases scored
  exact Bool.eq_false_iff.mpr (passes_ne_zero.mp passed)

/-- The two latest epochs are part of the window that the score has looked at. -/
theorem mevCommission_agrees {firstReliableEpoch : Nat} {stored : List ValidatorHistoryEntry}
    (holds : validator.history.Holds stored) (valid : currentEpoch < History.epochDefault)
    (twoEpochs : 1 ≤ config.parameters.mevCommissionRange)
    (scored : Scored firstReliableEpoch validator cluster config currentEpoch tvcActivationEpoch
      components) (passed : components.mevCommissionScore ≠ 0) :
    (calculateInstantUnstakeMevCommission validator currentEpoch
      config.parameters.mevCommissionBpsThreshold).1 = false := by
  have inside := scored.mevCommission.1
  have start : currentEpoch - config.parameters.mevCommissionRange ≤ currentEpoch - 1 := by omega
  have bounded : ∀ commission ∈ (validator.history.mevCommissionRange (currentEpoch - 1)
      currentEpoch).filterMap id, commission ≤ config.parameters.mevCommissionBpsThreshold := by
    intro commission member
    rcases List.mem_filterMap.mp member with ⟨item, inWindow, same⟩
    rw [id] at same
    exact le_of_filterMaximum scored.mevCommission.2 passed
      (mem_fieldRange_of_le holds valid start (same ▸ inWindow))
  rw [calculateInstantUnstakeMevCommission]
  apply decide_eq_false
  apply Nat.not_lt.mpr
  cases greatest : ((validator.history.mevCommissionRange (currentEpoch - 1)
      currentEpoch).filterMap id).max? with
  | none => exact Nat.zero_le _
  | some commission => exact bounded commission (List.max?_mem greatest)

/-- A commission that counts as missing is the maximum for one of the filters. -/
theorem commission_agrees_iff {firstReliableEpoch : Nat} {stored : List ValidatorHistoryEntry}
    {entry : ValidatorHistoryEntry} (holds : validator.history.Holds stored)
    (newest : validator.history.last = some entry) (current : entry.epoch = currentEpoch)
    (scored : Scored firstReliableEpoch validator cluster config currentEpoch tvcActivationEpoch
      components) (passed : components.commissionScore ≠ 0) :
    (calculateInstantUnstakeCommission validator config.parameters.commissionThreshold).1 = false ↔
      entry.commission ≠ 255 ∨ 100 ≤ config.parameters.commissionThreshold := by
  subst current
  have latest : validator.history.commissionLatest =
      if entry.commission ≠ 255 then some entry.commission else none := by
    rw [CircBuf.commissionLatest, CircBuf.fieldLatest, newest]
    rfl
  rw [calculateInstantUnstakeCommission, latest]
  by_cases set : entry.commission ≠ 255
  · have bounded : entry.commission ≤ config.parameters.commissionThreshold :=
      le_of_filterMaximum scored.commission.2 passed
        (mem_fieldRange_newest holds newest set (Nat.sub_le _ _))
    rw [if_pos set]
    exact iff_of_true (decide_eq_false (Nat.not_lt.mpr bounded)) (.inl set)
  · rw [if_neg set]
    simp only [set, false_or, Option.getD_none, decide_eq_false_iff_not, Nat.not_lt]
    rfl

theorem instantUnstakeValidator_onlyDelinquency_iff {account : History.ValidatorHistory}
    {arr : Nat → ValidatorHistoryEntry} {setters : List Setter} {entry : ValidatorHistoryEntry}
    {firstReliableEpoch epochStartSlot : Nat} (fresh : account.history = CircBuf.initial arr)
    (valid : ∀ setter ∈ setters, ∀ epoch ∈ setter.epochs, epoch < History.epochDefault)
    (built : validator.history = (Execution.run Setter.execute account setters).history)
    (newest : validator.history.last = some entry) (current : entry.epoch = currentEpoch)
    (twoEpochs : 1 ≤ config.parameters.mevCommissionRange)
    (scored : validatorScore firstReliableEpoch validator cluster config currentEpoch
      tvcActivationEpoch = .ok components)
    (positive : 0 < components.score)
    (checked : instantUnstakeValidator validator cluster config epochStartSlot currentEpoch
      tvcActivationEpoch = .ok checks) :
    OnlyDelinquency checks ↔
      entry.commission ≠ 255 ∨ 100 ≤ config.parameters.commissionThreshold := by
  have start : ∃ stored, account.history.Holds stored := by
    rw [fresh]
    exact ⟨[], CircBuf.holds_initial arr⟩
  obtain ⟨stored, holds⟩ := Setter.run_holds start valid
  rw [← built] at holds
  have inHistory := holds.last_eq.symm.trans newest
  have inRange := holds.sorted.valid entry (List.mem_of_getLast? inHistory)
  have parts := scored_of_eq_ok scored
  have verdicts := checked_of_eq_ok checked
  obtain ⟨mev, commission, blacklist, authority, feeAuthority⟩ :=
    filters_of_positive parts positive
  have commissionIff := commission_agrees_iff holds newest current parts commission
  constructor
  · intro only
    exact commissionIff.mp (verdicts.commissionCheck.symm.trans only.commissionCheck)
  · intro condition
    have noCommission := verdicts.commissionCheck.trans (commissionIff.mpr condition)
    have noMev := verdicts.mevCommissionCheck.trans
      (mevCommission_agrees holds (current ▸ inRange) twoEpochs parts mev)
    have notListed := blacklist_agrees parts.blacklist blacklist verdicts.isBlacklisted
    have goodAuthority := merkleRootAuthority_agrees parts.merkleRootUploadAuthority authority
      verdicts.isBadMerkleRootUploadAuthority
    have goodFeeAuthority := merkleRootAuthority_agrees
      parts.priorityFeeMerkleRootUploadAuthority feeAuthority
      verdicts.isBadPriorityFeeMerkleRootUploadAuthority
    have total := verdicts.instantUnstake
    rw [noCommission, noMev, notListed, goodAuthority, goodFeeAuthority] at total
    simp only [Bool.or_false] at total
    exact ⟨noCommission, noMev, notListed, goodAuthority, goodFeeAuthority, total⟩

end Agreement

/-! ### A validator of two epochs -/

section TwoEpochs

/-- The ring of a new account without the pushes that fill it. -/
def emptyRing : CircBuf := { CircBuf.unused fun _ => .unset with isEmpty := true }

theorem emptyRing_eq : emptyRing = CircBuf.initial fun _ => .unset := by
  have arr : ∀ count, ((CircBuf.unused fun _ => .unset).pushUnset count).arr = fun _ => .unset := by
    intro count
    induction count with
    | zero => rfl
    | succ count induction =>
        rw [CircBuf.pushUnset, List.range_succ, List.foldl_append]
        exact (congrArg (Function.update · _ _) induction).trans (Function.update_eq_self _ _)
  have idx : ((CircBuf.unused fun _ => .unset).pushUnset History.maxItems).idx =
      History.maxItems - 1 :=
    CircBuf.idx_pushUnset (CircBuf.unused fun _ => .unset) History.maxItems
  have same : ∀ first second : CircBuf, first.idx = second.idx → first.arr = second.arr →
      { first with isEmpty := true } = { second with isEmpty := true } := by
    rintro ⟨_, _, _, _⟩ ⟨_, _, _, _⟩ sameIdx sameArr
    cases sameIdx
    cases sameArr
    rfl
  exact (same _ (CircBuf.unused fun _ => .unset) idx (arr History.maxItems)).symm

def emptyAccount : History.ValidatorHistory :=
  { History.ValidatorHistory.blank with history := emptyRing }

/-- All credits in both epochs, and the given commission in the second one. -/
def twoEpochSetters (commission : Nat) : List Setter :=
  [.setCommissionAndSlot 0 5 100, .setEpochCredits [⟨0, 16, 0⟩],
    .setCommissionAndSlot 1 commission 4000, .setEpochCredits [⟨1, 16016, 16⟩],
    .setStake 1 700 3 false, .setMevCommission 1 800 60 .tipRouter]

def twoEpochValidator (commission : Nat) : ValidatorHistoryAccount where
  toValidatorHistory :=
    Execution.run Setter.execute emptyAccount (twoEpochSetters commission)
  voteAccount := 21
  index := 4

/-- One block in the first epoch and a thousand ones in the second. -/
def twoEpochCluster : History.ClusterHistory where
  clusterHistoryLastUpdateSlot := 4000
  history := {
    idx := 1
    isEmpty := false
    arr := fun position => if position = 0 then ⟨1, 0, 0⟩ else
      if position = 1 then ⟨1000, 1, 0⟩ else .unset
    inBounds := by decide }

def twoEpochConfig : ScoringConfig where
  parameters := { Parameters.fixture with
    mevCommissionRange := 1, epochCreditsRange := 1, commissionRange := 1 }
  validatorHistoryBlacklist := ⟨fun _ => 0⟩

/-- Whether the score is positive, the delinquency and the commission check with the verdict, and
the newest epoch with its commission. -/
def twoEpochOutcome (commission : Nat) :
    Result Bool × Result (Bool × Bool × Bool) × Option (Nat × Nat) :=
  let validator := twoEpochValidator commission
  ((validatorScore 0 validator twoEpochCluster twoEpochConfig 1 0).map
      fun components => decide (0 < components.score),
    (instantUnstakeValidator validator twoEpochCluster twoEpochConfig 3000 1 0).map
      fun checks => (checks.delinquencyCheck, checks.commissionCheck, checks.instantUnstake),
    validator.history.last.map fun entry => (entry.epoch, entry.commission))

/-- The validator with a commission of 5 in both epochs. -/
theorem instantUnstakeValidator_onlyDelinquency_iff_twoEpochs :
    ∃ checks, instantUnstakeValidator (twoEpochValidator 5) twoEpochCluster twoEpochConfig 3000 1
        0 = .ok checks ∧
      (OnlyDelinquency checks ↔ 5 ≠ 255 ∨ 100 ≤ twoEpochConfig.parameters.commissionThreshold) := by
  have outcome : twoEpochOutcome 5 = (.ok true, .ok (false, false, false), some (1, 5)) := by
    decide +kernel
  simp only [twoEpochOutcome, Prod.mk.injEq] at outcome
  rcases outcome with ⟨scored, checked, newest⟩
  rcases Outcome.map_eq_ok.mp scored with ⟨components, scored, positive⟩
  rcases Outcome.map_eq_ok.mp checked with ⟨checks, checked, _⟩
  rcases Option.map_eq_some_iff.mp newest with ⟨entry, newest, same⟩
  injection same with epoch commission
  have fresh : emptyAccount.history = CircBuf.initial fun _ => .unset := emptyRing_eq
  have valid : ∀ setter ∈ twoEpochSetters 5, ∀ epoch ∈ setter.epochs,
      epoch < History.epochDefault := by decide
  have built : (twoEpochValidator 5).history = (Execution.run Setter.execute
      emptyAccount (twoEpochSetters 5)).history := rfl
  have iff := instantUnstakeValidator_onlyDelinquency_iff fresh valid built newest epoch
    (Nat.le_refl _) scored (of_decide_eq_true positive) checked
  rw [commission] at iff
  exact ⟨checks, checked, iff⟩

/-- A commission of 255 is not seen by the score, and counts as 100 for the instant unstake. -/
theorem not_instantUnstakeValidator_onlyDelinquency :
    ∃ components checks,
      validatorScore 0 (twoEpochValidator 255) twoEpochCluster twoEpochConfig 1 0 =
        .ok components ∧ 0 < components.score ∧
      instantUnstakeValidator (twoEpochValidator 255) twoEpochCluster twoEpochConfig 3000 1 0 =
        .ok checks ∧ checks.delinquencyCheck = false ∧ checks.commissionCheck = true ∧
      checks.instantUnstake = true ∧ ¬ OnlyDelinquency checks := by
  have outcome : twoEpochOutcome 255 = (.ok true, .ok (false, true, true), some (1, 255)) := by
    decide +kernel
  simp only [twoEpochOutcome, Prod.mk.injEq] at outcome
  rcases outcome with ⟨scored, checked, _⟩
  rcases Outcome.map_eq_ok.mp scored with ⟨components, scored, positive⟩
  rcases Outcome.map_eq_ok.mp checked with ⟨checks, checked, same⟩
  simp only [Prod.mk.injEq] at same
  refine ⟨components, checks, scored, of_decide_eq_true positive, checked, same.1, same.2.1,
    same.2.2, fun only => ?_⟩
  have passed := only.commissionCheck
  rw [same.2.1] at passed
  cases passed

end TwoEpochs

end Stakenet.Steward

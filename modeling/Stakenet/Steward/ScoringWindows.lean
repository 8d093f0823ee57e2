import Stakenet.Steward.ValidatorScore

/-! The windows of epochs that a score looks at, for parameters that validation accepts. -/

namespace Stakenet.Steward

open History (CircBuf ValidatorHistoryAccount ValidatorHistoryEntry ClusterHistoryEntry
  CircBufCluster)

/-! ## Well-formed windows -/

/-- The bounds of all windows can be computed, and vote credits and blocks cover the same epochs,
of which there is at least one. -/
structure WellFormedWindows (parameters : Parameters) (currentEpoch : Nat) : Prop where
  mevCommission : ∃ start, checkedSub currentEpoch parameters.mevCommissionRange = .ok start
  commission : ∃ start, checkedSub currentEpoch parameters.commissionRange = .ok start
  epochCredits : ∃ start last, checkedSub currentEpoch parameters.epochCreditsRange = .ok start ∧
    checkedSub currentEpoch 1 = .ok last ∧
    ∀ (validator : ValidatorHistoryAccount) (cluster : History.ClusterHistory)
      (tvcActivationEpoch : Nat),
      let epochCreditsWindow :=
        validator.history.epochCreditsRangeNormalized start last tvcActivationEpoch
      let totalBlocksWindow := cluster.history.totalBlocksRange start last
      epochCreditsWindow ≠ [] ∧ totalBlocksWindow ≠ [] ∧
        epochCreditsWindow.length = totalBlocksWindow.length
  bam : ∃ last start, checkedSub currentEpoch 1 = .ok last ∧
    checkedSub last parameters.jitoBamWindowEpochs = .ok start

/-- Whatever the blacklist, some validator can be scored. -/
def ScoresSome (firstReliableEpoch : Nat) (parameters : Parameters) (currentEpoch : Nat) : Prop :=
  ∀ blacklist tvcActivationEpoch, ∃ validator cluster components,
    validatorScore firstReliableEpoch validator cluster ⟨parameters, blacklist⟩ currentEpoch
      tvcActivationEpoch = .ok components

/-- What validation says about the ranges, at any later epoch. -/
structure RangesInside (parameters : Parameters) (currentEpoch : Nat) : Prop where
  mevCommission : parameters.mevCommissionRange ≤ currentEpoch
  epochCredits : parameters.epochCreditsRange ≤ currentEpoch
  commission : parameters.commissionRange ≤ currentEpoch
  bam : parameters.jitoBamWindowEpochs ≤ currentEpoch

section Ranges

variable {parameters : Parameters} {firstReliableEpoch epoch slotsPerEpoch currentEpoch : Nat}

theorem rangesInside_of_validate
    (accepted : parameters.validate firstReliableEpoch epoch slotsPerEpoch = .ok ())
    (later : epoch ≤ currentEpoch) : RangesInside parameters currentEpoch := by
  simp only [Parameters.validate, Outcome.bind_eq_ok, checkedSub_eq_ok, castEpoch, require_eq_ok,
    exists_const] at accepted
  obtain ⟨_, ⟨_, rfl⟩, windowMax, cast, bounds⟩ := accepted
  split at cast
  case isTrue =>
    cases cast
    exact ⟨by omega, by omega, by omega, by omega⟩
  case isFalse => cases cast

theorem wellFormedWindows_iff (ranges : RangesInside parameters currentEpoch) :
    WellFormedWindows parameters currentEpoch ↔
      1 ≤ parameters.epochCreditsRange ∧ parameters.jitoBamWindowEpochs < currentEpoch := by
  constructor
  · intro windows
    obtain ⟨_, _, begun, bam⟩ := windows.bam
    rw [checkedSub_eq_ok] at begun bam
    obtain ⟨start, last, first, previous, wellFormed⟩ := windows.epochCredits
    rw [checkedSub_eq_ok] at first previous
    have nonempty := (wellFormed ⟨⟨0, 0, 0, 0, CircBuf.unused fun _ => .unset⟩, 0, 0⟩
      ⟨0, ⟨0, true, fun _ => .unset, by decide⟩⟩ 0).1
    have positive := List.length_pos_iff.mpr nonempty
    rw [CircBuf.length_epochCreditsRangeNormalized] at positive
    omega
  · rintro ⟨some, bam⟩
    have inside := ranges.epochCredits
    refine ⟨⟨_, checkedSub_eq_ok.mpr ⟨ranges.mevCommission, rfl⟩⟩,
      ⟨_, checkedSub_eq_ok.mpr ⟨ranges.commission, rfl⟩⟩,
      ⟨_, _, checkedSub_eq_ok.mpr ⟨inside, rfl⟩, checkedSub_eq_ok.mpr ⟨by omega, rfl⟩, ?_⟩,
      ⟨_, _, checkedSub_eq_ok.mpr ⟨by omega, rfl⟩, checkedSub_eq_ok.mpr ⟨by omega, rfl⟩⟩⟩
    intro validator cluster tvcActivationEpoch epochCreditsWindow totalBlocksWindow
    have credits : epochCreditsWindow.length = parameters.epochCreditsRange := by
      rw [CircBuf.length_epochCreditsRangeNormalized]
      omega
    have blocks : totalBlocksWindow.length = parameters.epochCreditsRange := by
      rw [CircBufCluster.length_totalBlocksRange]
      omega
    exact ⟨List.length_pos_iff.mp (by omega), List.length_pos_iff.mp (by omega), by omega⟩

/-- Without an epoch of credits, or with too long a window, there is no score at all. -/
theorem validatorScore_windows {validator : ValidatorHistoryAccount}
    {cluster : History.ClusterHistory} {config : ScoringConfig} {tvcActivationEpoch : Nat}
    {components : ScoreComponentsV5}
    (scored : validatorScore firstReliableEpoch validator cluster config currentEpoch
      tvcActivationEpoch = .ok components) :
    1 ≤ config.parameters.epochCreditsRange ∧
      config.parameters.jitoBamWindowEpochs < currentEpoch := by
  have parts := scored_of_eq_ok scored
  obtain ⟨inside, begun, _, computed⟩ := parts.epochCredits
  have bam := parts.bamWindow
  rw [calculateEpochCredits] at computed
  split at computed
  case isTrue => cases computed
  case isFalse filled =>
    rw [not_or] at filled
    have nonempty : ¬ validator.history.epochCreditsRangeNormalized
        (currentEpoch - config.parameters.epochCreditsRange) (currentEpoch - 1)
        tvcActivationEpoch = [] := fun empty => filled.1 (List.isEmpty_iff.mpr empty)
    have positive := List.length_pos_iff.mpr nonempty
    rw [CircBuf.length_epochCreditsRangeNormalized] at positive
    omega

end Ranges

/-! ## Windows without data -/

section NoData

variable {currentEpoch : Nat}

theorem filterMap_of_none {β : Type} {window : List (Option β)}
    (none : ∀ item ∈ window, item = Option.none) : window.filterMap id = [] :=
  List.filterMap_eq_nil_iff.mpr none

theorem observed_of_none {β : Type} {window : List (Option β)}
    (none : ∀ item ∈ window, item = Option.none) : observed window currentEpoch = [] := by
  rw [observed, List.filterMap_eq_nil_iff]
  rintro ⟨item, i⟩ member
  have inWindow := List.mem_reverse.mp (List.fst_mem_of_mem_zipIdx member)
  rw [none item inWindow]
  rfl

theorem maxObserved_of_none {window : List (Option Nat)} {missing : Nat × Nat}
    (none : ∀ item ∈ window, item = Option.none) :
    maxObserved window currentEpoch missing = .ok missing := by
  rw [maxObserved, observed_of_none none]
  rfl

theorem exists_filterMaximum {window : List (Option Nat)} (threshold : Nat)
    (missing : Nat × Nat) (none : ∀ item ∈ window, item = Option.none) :
    ∃ outcome, filterMaximum window currentEpoch threshold missing = .ok outcome := by
  rw [filterMaximum, maxObserved_of_none none]
  exact ⟨_, rfl⟩

/-- The search for delinquency gets through if nothing overflows. -/
theorem exists_findDelinquency {epochCreditsStart : Nat} {ratio : ℚ}
    {items : List ((Option Nat × Option Nat) × Nat)}
    (small : ∀ item ∈ items, (∀ blocks, item.1.2 = some blocks →
      blocks * History.tvcMultiplier ≤ u32Max) ∧ epochCreditsStart + item.2 ≤ u16Max) :
    ∃ outcome, findDelinquency epochCreditsStart ratio items = .ok outcome := by
  induction items with
  | nil => exact ⟨_, rfl⟩
  | cons item items induction =>
      rw [List.forall_mem_cons] at small
      rcases item with ⟨⟨maybeCredits, maybeBlocks⟩, i⟩
      cases maybeBlocks with
      | none => exact induction small.2
      | some blocks =>
          have product : mulU32 blocks History.tvcMultiplier = .ok _ :=
            if_pos (small.1.1 blocks rfl)
          have index : castU16 i ≤ i := Nat.mod_le _ _
          have epoch : checkedAddU16 epochCreditsStart (castU16 i) = .ok _ :=
            if_pos (show _ ≤ u16Max from (Nat.add_le_add_left index _).trans small.1.2)
          simp only [findDelinquency, product, epoch, Outcome.ok_bind]
          split
          · exact ⟨_, rfl⟩
          · exact induction small.2

/-- No credits, and a single block. -/
theorem exists_calculateEpochCredits {epochCreditsWindow totalBlocksWindow : List (Option Nat)}
    {epochCreditsStart : Nat} {ratio : ℚ} (filled : epochCreditsWindow ≠ [])
    (noCredits : ∀ item ∈ epochCreditsWindow, item = Option.none)
    (oneBlock : totalBlocksWindow.filterMap id = [1])
    (fits : epochCreditsStart + epochCreditsWindow.length ≤ u16Max) :
    ∃ outcome, calculateEpochCredits epochCreditsWindow totalBlocksWindow epochCreditsStart ratio =
      .ok outcome := by
  have isOne : ∀ blocks, some blocks ∈ totalBlocksWindow → blocks = 1 := by
    intro blocks member
    have inValues : blocks ∈ totalBlocksWindow.filterMap id :=
      List.mem_filterMap.mpr ⟨_, member, rfl⟩
    rw [oneBlock] at inValues
    exact List.mem_singleton.mp inValues
  have uploaded : some 1 ∈ totalBlocksWindow := by
    have inValues : 1 ∈ totalBlocksWindow.filterMap id := oneBlock ▸ List.mem_singleton_self 1
    rcases List.mem_filterMap.mp inValues with ⟨item, member, same⟩
    exact same ▸ member
  have nonempty : ¬(epochCreditsWindow.isEmpty = true ∨ totalBlocksWindow.isEmpty = true) := by
    rw [List.isEmpty_iff, List.isEmpty_iff, not_or]
    exact ⟨filled, List.ne_nil_of_mem uploaded⟩
  have nonzero : ¬(totalBlocksWindow.filter Option.isSome).length = 0 :=
    (List.length_pos_of_mem (List.mem_filter.mpr ⟨uploaded, rfl⟩)).ne'
  have credits : sumU32 (epochCreditsWindow.filterMap id) = .ok _ :=
    if_pos (show _ ≤ u32Max by rw [filterMap_of_none noCredits]; decide)
  have blocks : sumU32 (totalBlocksWindow.filterMap id) = .ok _ :=
    if_pos (show _ ≤ u32Max by rw [oneBlock]; decide)
  have search : ∃ outcome, findDelinquency epochCreditsStart ratio
      (epochCreditsWindow.zip totalBlocksWindow).zipIdx = .ok outcome := by
    apply exists_findDelinquency
    rintro ⟨⟨maybeCredits, maybeBlocks⟩, i⟩ member
    have inZip := List.fst_mem_of_mem_zipIdx member
    have index := List.snd_lt_of_mem_zipIdx member
    rw [List.length_zip] at index
    refine ⟨fun amount same => ?_, by omega⟩
    obtain rfl : maybeBlocks = some amount := same
    rw [isOne amount (List.of_mem_zip inZip).2]
    decide
  rcases search with ⟨⟨score, delinquencyRatio, epoch⟩, found⟩
  simp only [calculateEpochCredits, if_neg nonempty, if_neg nonzero, credits, blocks, found,
    Outcome.ok_bind]
  exact ⟨_, rfl⟩

end NoData

/-! ## A validator that can be scored -/

section Fresh

/-- The ring holds one entry without any data. -/
def freshAccount (epoch : Nat) : ValidatorHistoryAccount where
  toValidatorHistory := { History.ValidatorHistory.blank with
    history := History.ValidatorHistory.blank.history.push (.ofEpoch epoch) }
  voteAccount := defaultPubkey
  index := 0

/-- One block in one epoch. -/
def oneEpochCluster (epoch : Nat) : History.ClusterHistory where
  clusterHistoryLastUpdateSlot := 0
  history := {
    idx := 0
    isEmpty := false
    arr := fun position => if position = 0 then ⟨1, epoch, 0⟩ else .unset
    inBounds := by decide }

variable {epoch startEpoch endEpoch : Nat}

theorem freshAccount_holds (valid : epoch < History.epochDefault) :
    (freshAccount epoch).history.Holds [.ofEpoch epoch] := by
  have empty : History.ValidatorHistory.blank.history.Holds [] :=
    CircBuf.holds_initial fun _ => .unset
  have later : ∀ entry ∈ ([] : List ValidatorHistoryEntry),
      entry.epoch < (ValidatorHistoryEntry.ofEpoch epoch).epoch :=
    fun _ member => absurd member List.not_mem_nil
  have pushed := empty.push later valid
  have fits : ([] ++ [ValidatorHistoryEntry.ofEpoch epoch]).length ≤ History.maxItems :=
    show 1 ≤ 512 by decide
  rwa [History.newest, Window.last_of_length_le fits] at pushed

theorem oneEpochCluster_blocks (first : startEpoch ≤ epoch) (last : epoch ≤ endEpoch)
    (valid : endEpoch < History.epochDefault) :
    ((oneEpochCluster epoch).history.totalBlocksRange startEpoch endEpoch).filterMap id = [1] := by
  have older : ((List.range' (0 + 1) (History.maxItems - (0 + 1))).map
      (oneEpochCluster epoch).history.arr).filter
      (fun entry => decide (startEpoch ≤ entry.epoch ∧ entry.epoch ≤ endEpoch)) = [] := by
    rw [List.filter_eq_nil_iff, List.forall_mem_map]
    intro position member
    have behind := (List.mem_range'_1.mp member).1
    have unset : (oneEpochCluster epoch).history.arr position = .unset :=
      if_neg (by omega)
    rw [unset, decide_eq_true_eq]
    exact fun inside => absurd inside.2 (not_le_of_gt valid)
  have newest : ((List.range (0 + 1)).map (oneEpochCluster epoch).history.arr).filter
      (fun entry => decide (startEpoch ≤ entry.epoch ∧ entry.epoch ≤ endEpoch)) =
        [⟨1, epoch, 0⟩] :=
    List.filter_eq_self.mpr fun entry member => by
      rw [List.mem_singleton.mp member, decide_eq_true_eq]
      exact ⟨first, last⟩
  have listed : epoch ∈ CircBuf.epochs startEpoch endEpoch :=
    List.mem_range'_1.mpr ⟨first, by omega⟩
  have found : ((oneEpochCluster epoch).history.epochRange startEpoch endEpoch).filterMap id =
      [⟨1, epoch, 0⟩] := by
    rw [CircBufCluster.epochRange]
    dsimp only [oneEpochCluster] at older newest ⊢
    rw [List.filter_append, older, newest, List.nil_append]
    exact History.filterMap_matchByEpoch_singleton listed
  have values : ∀ window : List (Option ClusterHistoryEntry),
      (window.map CircBufCluster.blocksOf).filterMap id =
        (window.filterMap id).filterMap fun entry => CircBufCluster.blocksOf (some entry) := by
    intro window
    rw [List.filterMap_map, List.filterMap_filterMap]
    apply List.filterMap_congr
    intro item _
    cases item with
    | none | some entry => rfl
  rw [CircBufCluster.totalBlocksRange, values, found]
  rfl

/-- The entry has no data but its epoch. -/
theorem freshAccount_range {β : Type} [DecidableEq β] (field : ValidatorHistoryEntry → β)
    (unset : field (.ofEpoch epoch) = field .unset) (current : epoch < History.epochDefault)
    (valid : endEpoch < History.epochDefault) :
    ∀ item ∈ (freshAccount epoch).history.fieldRange startEpoch endEpoch field, item = none :=
  (freshAccount_holds current).fieldRange_of_unset valid fun entry member => by
    rw [List.mem_singleton.mp member, unset]

theorem freshAccount_latest {β : Type} [DecidableEq β] (field : ValidatorHistoryEntry → β)
    (unset : field (.ofEpoch epoch) = field .unset) (current : epoch < History.epochDefault) :
    (freshAccount epoch).history.fieldLatest field = none := by
  rw [(freshAccount_holds current).fieldLatest_eq, List.getLast?_singleton,
    CircBuf.fieldOf_some, if_neg (not_not_intro unset)]

/-- A validator without priority fees passes. -/
theorem freshAccount_priorityFees (config : ScoringConfig)
    (current : epoch < History.epochDefault) :
    ∃ outcome, calculatePriorityFeeCommission config (freshAccount epoch) epoch = .ok outcome := by
  have range : (config.priorityFeeEpochRange epoch).1 ≤ (config.priorityFeeEpochRange epoch).2 :=
    Nat.sub_le _ _
  have last : (config.priorityFeeEpochRange epoch).2 < History.epochDefault :=
    (Nat.sub_le _ _).trans_lt current
  have missing : ∀ field : ValidatorHistoryEntry → Nat,
      field (.ofEpoch epoch) = field .unset →
        ((freshAccount epoch).history.fieldRange (config.priorityFeeEpochRange epoch).1
          (config.priorityFeeEpochRange epoch).2 field).head? = some none := by
    intro field unset
    have length := (freshAccount epoch).history.length_fieldRange
      (config.priorityFeeEpochRange epoch).1 (config.priorityFeeEpochRange epoch).2 field
    cases window : (freshAccount epoch).history.fieldRange
        (config.priorityFeeEpochRange epoch).1 (config.priorityFeeEpochRange epoch).2 field with
    | nil =>
        rw [window, List.length_nil] at length
        omega
    | cons first rest =>
        have inWindow : first ∈ (freshAccount epoch).history.fieldRange
            (config.priorityFeeEpochRange epoch).1 (config.priorityFeeEpochRange epoch).2 field :=
          window ▸ List.mem_cons_self
        exact congrArg some (freshAccount_range field unset current last first inWindow)
  have tips := missing ValidatorHistoryEntry.priorityFeeTips rfl
  have fees := missing ValidatorHistoryEntry.totalPriorityFees rfl
  simp only [calculatePriorityFeeCommission, CircBuf.priorityFeeTipsRange,
    CircBuf.totalPriorityFeesRange, tips, fees]
  exact ⟨_, rfl⟩

theorem freshAccount_mevCommission (startEpoch threshold : Nat)
    (current : epoch < History.epochDefault) :
    ∃ outcome, calculateMaxMevCommission ((freshAccount epoch).history.mevCommissionRange
      startEpoch epoch) epoch threshold = .ok outcome :=
  exists_filterMaximum threshold _
    (freshAccount_range ValidatorHistoryEntry.mevCommission rfl current current)

theorem freshAccount_commission (startEpoch threshold : Nat)
    (current : epoch < History.epochDefault) :
    ∃ outcome, calculateMaxCommission ((freshAccount epoch).history.commissionRange
      startEpoch epoch) epoch threshold = .ok outcome :=
  exists_filterMaximum threshold _
    (freshAccount_range ValidatorHistoryEntry.commission rfl current current)

theorem freshAccount_historicalCommission (firstReliableEpoch threshold : Nat)
    (current : epoch < History.epochDefault) :
    ∃ outcome, calculateHistoricalCommission firstReliableEpoch (freshAccount epoch) epoch
      threshold = .ok outcome :=
  exists_filterMaximum threshold _
    (freshAccount_range ValidatorHistoryEntry.commission rfl current current)

/-- Without credits and flags a validator is not in the superminority. -/
theorem freshAccount_superminority {commissionRange : Nat} (inside : commissionRange ≤ epoch)
    (current : epoch < History.epochDefault) :
    ∃ outcome, calculateSuperminority (freshAccount epoch) epoch commissionRange =
      .ok outcome := by
  have noCredits : (freshAccount epoch).history.epochCreditsLatest = none :=
    freshAccount_latest ValidatorHistoryEntry.epochCredits rfl current
  have start : checkedSub epoch commissionRange = .ok _ := checkedSub_eq_ok.mpr ⟨inside, rfl⟩
  have unset : ∀ item ∈ (freshAccount epoch).history.fieldRange (epoch - commissionRange) epoch
      ValidatorHistoryEntry.isSuperminority, item = none :=
    freshAccount_range ValidatorHistoryEntry.isSuperminority rfl current current
  have noFlags : ∀ item ∈ (freshAccount epoch).history.superminorityRange
      (epoch - commissionRange) epoch, item = none := by
    rw [CircBuf.superminorityRange, List.forall_mem_map]
    intro item member
    rw [unset item member]
    rfl
  simp only [calculateSuperminority, noCredits, start, Outcome.ok_bind, observed_of_none noFlags]
  exact ⟨_, rfl⟩

theorem freshAccount_merkleRoot (current : epoch < History.epochDefault) :
    calculateMerkleRootAuthorityScore (freshAccount epoch) = .ok 1 := by
  have authority : (freshAccount epoch).history.merkleRootUploadAuthorityLatest = none :=
    freshAccount_latest ValidatorHistoryEntry.merkleRootUploadAuthority rfl current
  rw [calculateMerkleRootAuthorityScore, authority]
  rfl

theorem freshAccount_priorityFeeMerkleRoot (current : epoch < History.epochDefault) :
    calculatePriorityFeeMerkleRootAuthorityScore (freshAccount epoch) = .ok 1 := by
  have authority : (freshAccount epoch).history.priorityFeeMerkleRootUploadAuthorityLatest =
      none :=
    freshAccount_latest ValidatorHistoryEntry.priorityFeeMerkleRootUploadAuthority rfl current
  rw [calculatePriorityFeeMerkleRootAuthorityScore, authority]
  rfl

/-- No credits, and one block in the epoch before. -/
theorem freshAccount_epochCredits (tvcActivationEpoch : Nat) (ratio : ℚ)
    (first : startEpoch < epoch) (current : epoch < History.epochDefault) :
    ∃ outcome, calculateEpochCredits
      ((freshAccount epoch).history.epochCreditsRangeNormalized startEpoch (epoch - 1)
        tvcActivationEpoch)
      ((oneEpochCluster (epoch - 1)).history.totalBlocksRange startEpoch (epoch - 1)) startEpoch
      ratio = .ok outcome := by
  have length := (freshAccount epoch).history.length_epochCreditsRangeNormalized startEpoch
    (epoch - 1) tvcActivationEpoch
  have previous : epoch - 1 < History.epochDefault := (Nat.sub_le _ _).trans_lt current
  have bounded : epoch ≤ u16Max := Nat.le_of_lt current
  have unset : ∀ item ∈ (freshAccount epoch).history.fieldRange startEpoch (epoch - 1)
      ValidatorHistoryEntry.epochCredits, item = none :=
    freshAccount_range ValidatorHistoryEntry.epochCredits rfl current previous
  apply exists_calculateEpochCredits
  · exact List.length_pos_iff.mp (by omega)
  · rw [CircBuf.epochCreditsRangeNormalized, List.forall_mem_map]
    rintro ⟨maybeCredits, epoch⟩ member
    rw [unset maybeCredits (List.of_mem_zip member).1]
    rfl
  · exact oneEpochCluster_blocks (by omega) (Nat.le_refl _) previous
  · omega

variable {parameters : Parameters} {firstReliableEpoch currentEpoch : Nat}

theorem scoresSome (ranges : RangesInside parameters currentEpoch)
    (valid : currentEpoch < u16Max) (someCredits : 1 ≤ parameters.epochCreditsRange)
    (bam : parameters.jitoBamWindowEpochs < currentEpoch) :
    ScoresSome firstReliableEpoch parameters currentEpoch := by
  intro blacklist tvcActivationEpoch
  have current : currentEpoch < History.epochDefault := valid
  have creditsInside := ranges.epochCredits
  have creditsBefore : currentEpoch - parameters.epochCreditsRange < currentEpoch := by omega
  have mevStart : checkedSub currentEpoch parameters.mevCommissionRange = .ok _ :=
    checkedSub_eq_ok.mpr ⟨ranges.mevCommission, rfl⟩
  have creditsStart : checkedSub currentEpoch parameters.epochCreditsRange = .ok _ :=
    checkedSub_eq_ok.mpr ⟨creditsInside, rfl⟩
  have commissionStart : checkedSub currentEpoch parameters.commissionRange = .ok _ :=
    checkedSub_eq_ok.mpr ⟨ranges.commission, rfl⟩
  have previous : checkedSub currentEpoch 1 = .ok _ := checkedSub_eq_ok.mpr ⟨by omega, rfl⟩
  have bamStart : checkedSub (currentEpoch - 1) parameters.jitoBamWindowEpochs = .ok _ :=
    checkedSub_eq_ok.mpr ⟨by omega, rfl⟩
  obtain ⟨⟨_, _, _⟩, mevCommission⟩ := freshAccount_mevCommission
    (currentEpoch - parameters.mevCommissionRange) parameters.mevCommissionBpsThreshold current
  obtain ⟨⟨_, _, _, _⟩, epochCredits⟩ := freshAccount_epochCredits tvcActivationEpoch
    parameters.scoringDelinquencyThresholdRatio creditsBefore current
  obtain ⟨⟨_, _, _⟩, commission⟩ := freshAccount_commission
    (currentEpoch - parameters.commissionRange) parameters.commissionThreshold current
  obtain ⟨⟨_, _, _⟩, historical⟩ := freshAccount_historicalCommission firstReliableEpoch
    parameters.historicalCommissionThreshold current
  obtain ⟨⟨_, _⟩, superminority⟩ := freshAccount_superminority ranges.commission current
  obtain ⟨⟨_, _, _⟩, priorityFees⟩ := freshAccount_priorityFees ⟨parameters, blacklist⟩ current
  have notBlacklisted : calculateBlacklistScore ⟨parameters, blacklist⟩
      (freshAccount currentEpoch).index = .ok _ := rfl
  refine ⟨freshAccount currentEpoch, oneEpochCluster (currentEpoch - 1), ?_⟩
  simp only [validatorScore, mevStart, creditsStart, commissionStart, previous, bamStart,
    mevCommission, epochCredits, commission, historical, superminority, notBlacklisted,
    freshAccount_merkleRoot current, freshAccount_priorityFeeMerkleRoot current, priorityFees,
    Outcome.ok_bind]
  exact ⟨_, rfl⟩

end Fresh

/-! ## Validated parameters -/

section Validated

variable {parameters : Parameters} {firstReliableEpoch epoch slotsPerEpoch currentEpoch : Nat}

/-- The windows are well formed, and there are scores at all, under the same condition. -/
theorem validate_wellFormedWindows_iff
    (accepted : parameters.validate firstReliableEpoch epoch slotsPerEpoch = .ok ())
    (later : epoch ≤ currentEpoch) (valid : currentEpoch < u16Max) :
    (WellFormedWindows parameters currentEpoch ↔
      1 ≤ parameters.epochCreditsRange ∧ parameters.jitoBamWindowEpochs < currentEpoch) ∧
    (ScoresSome firstReliableEpoch parameters currentEpoch ↔
      1 ≤ parameters.epochCreditsRange ∧ parameters.jitoBamWindowEpochs < currentEpoch) := by
  have ranges := rangesInside_of_validate accepted later
  refine ⟨wellFormedWindows_iff ranges, fun scores => ?_, fun condition => ?_⟩
  · rcases scores ⟨fun _ => 0⟩ 0 with ⟨validator, cluster, components, scored⟩
    exact validatorScore_windows scored
  · exact scoresSome ranges valid condition.1 condition.2

/-- The windows of thirty epochs that mainnet might use. -/
def thirtyEpochs : Parameters :=
  { Parameters.fixture with
    mevCommissionRange := 30
    epochCreditsRange := 30
    commissionRange := 30
    jitoBamWindowEpochs := 30
    jitoBamMinimumEpochs := 20 }

theorem validate_wellFormedWindows_iff_thirtyEpochs :
    (WellFormedWindows thirtyEpochs 701 ↔
      1 ≤ thirtyEpochs.epochCreditsRange ∧ thirtyEpochs.jitoBamWindowEpochs < 701) ∧
    (ScoresSome 520 thirtyEpochs 701 ↔
      1 ≤ thirtyEpochs.epochCreditsRange ∧ thirtyEpochs.jitoBamWindowEpochs < 701) := by
  have accepted : thirtyEpochs.validate 520 700 432000 = .ok () := by decide +kernel
  exact validate_wellFormedWindows_iff accepted (by decide) (by decide)

/-- Only one epoch of credits. -/
def oneEpoch : Parameters := { thirtyEpochs with epochCreditsRange := 1 }

/-- A range of no credits is accepted, and so is a window as long as the epochs so far. Then
nothing can be scored. -/
theorem not_validate_wellFormedWindows :
    (Parameters.fixture.validate 520 700 432000 = .ok () ∧
      ¬ WellFormedWindows .fixture 700 ∧ ¬ ScoresSome 520 .fixture 700) ∧
    (oneEpoch.validate 0 30 432000 = .ok () ∧
      ¬ WellFormedWindows oneEpoch 30 ∧ ¬ ScoresSome 0 oneEpoch 30) := by
  have noCredits : Parameters.fixture.validate 520 700 432000 = .ok () := by decide +kernel
  have longWindow : oneEpoch.validate 0 30 432000 = .ok () := by decide +kernel
  refine ⟨⟨noCredits, fun windows => ?_, fun scores => ?_⟩,
    longWindow, fun windows => ?_, fun scores => ?_⟩
  · have credits := ((wellFormedWindows_iff
      (rangesInside_of_validate noCredits (Nat.le_refl _))).mp windows).1
    exact absurd credits (by decide)
  · rcases scores ⟨fun _ => 0⟩ 0 with ⟨validator, cluster, components, scored⟩
    exact absurd (validatorScore_windows scored).1 (by decide)
  · have bam := ((wellFormedWindows_iff
      (rangesInside_of_validate longWindow (Nat.le_refl _))).mp windows).2
    exact absurd bam (by decide)
  · rcases scores ⟨fun _ => 0⟩ 0 with ⟨validator, cluster, components, scored⟩
    exact absurd (validatorScore_windows scored).2 (by decide)

end Validated

end Stakenet.Steward

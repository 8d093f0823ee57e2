import Stakenet.History.RingInvariant

/-! Copying the credits of a vote account: which epochs the ring holds afterwards,
and what becomes of each entry. -/

namespace Stakenet.History

/-! ## Backfilling -/

/-- Blank entries for all the listed epochs, whatever the length. -/
def fillIn (epochs : List Nat) (stored : List ValidatorHistoryEntry) :
    List ValidatorHistoryEntry :=
  epochs.foldl (fun stored epoch => insertByEpoch (.ofEpoch epoch) stored) stored

theorem fillIn_nil (stored : List ValidatorHistoryEntry) : fillIn [] stored = stored := rfl

theorem fillIn_cons (epoch : Nat) (epochs : List Nat) (stored : List ValidatorHistoryEntry) :
    fillIn (epoch :: epochs) stored =
      fillIn epochs (insertByEpoch (.ofEpoch epoch) stored) := rfl

/-- An epoch that is filled in does not stand in the way of another one. -/
theorem fresh_insertByEpoch {epoch : Nat} {epochs : List Nat}
    {stored : List ValidatorHistoryEntry} (notListed : epoch ∉ epochs)
    (fresh : ∀ other ∈ epochs, ∀ entry ∈ stored, entry.epoch ≠ other) :
    ∀ other ∈ epochs, ∀ entry ∈ insertByEpoch (.ofEpoch epoch) stored, entry.epoch ≠ other := by
  intro other member entry inserted same
  rcases Window.mem_insert.mp inserted with rfl | earlier
  · have isOther : epoch = other := same
    rw [isOther] at notListed
    exact notListed member
  · exact fresh other member entry earlier same

theorem mem_fillIn {epochs : List Nat} {stored : List ValidatorHistoryEntry}
    {entry : ValidatorHistoryEntry} :
    entry ∈ fillIn epochs stored ↔ entry ∈ stored ∨ ∃ epoch ∈ epochs, entry = .ofEpoch epoch := by
  induction epochs generalizing stored with
  | nil => simp [fillIn]
  | cons epoch epochs induction =>
      rw [fillIn_cons, induction, insertByEpoch, Window.mem_insert, List.exists_mem_cons_iff]
      tauto

/-- A history with entries added between its oldest and its newest one. -/
structure Extends (stored full : List ValidatorHistoryEntry) : Prop where
  sorted : Sorted full
  contains : ∀ entry ∈ stored, entry ∈ full
  within : ∀ entry ∈ full, InRange stored entry.epoch

namespace Extends

variable {stored full : List ValidatorHistoryEntry} {epoch : Nat}

theorem refl (sorted : Sorted stored) : Extends stored stored where
  sorted := sorted
  contains := fun _ member => member
  within := fun entry member =>
    ⟨⟨entry, member, Nat.le_refl _⟩, ⟨entry, member, Nat.le_refl _⟩⟩

theorem insertByEpoch (extended : Extends stored full) (inRange : InRange stored epoch)
    (fresh : ∀ entry ∈ full, entry.epoch ≠ epoch) (valid : epoch < epochDefault) :
    Extends stored (insertByEpoch (.ofEpoch epoch) full) where
  sorted := extended.sorted.insertByEpoch fresh valid
  contains := fun entry member => Window.mem_insert.mpr (.inr (extended.contains entry member))
  within := fun entry member => by
    rcases Window.mem_insert.mp member with rfl | earlier
    · exact inRange
    · exact extended.within entry earlier

/-- The newest entry is among those that stay. -/
theorem exists_ge (extended : Extends stored full) {high : ValidatorHistoryEntry}
    (member : high ∈ stored) (upper : epoch ≤ high.epoch) :
    ∃ entry ∈ newest full, epoch ≤ entry.epoch := by
  have inFull := extended.contains high member
  have positive := List.length_pos_of_mem inFull
  have capacity := maxItems_pos
  have count := Window.length_last maxItems full
  rw [← Window.take_append_last maxItems full, List.mem_append] at inFull
  rcases inFull with isCut | stays
  · rcases List.exists_mem_of_length_pos (show 0 < (Window.last maxItems full).length by omega)
      with ⟨kept, isKept⟩
    have larger := Window.cut_lt_last extended.sorted.increasing isCut isKept
    exact ⟨kept, isKept, Nat.le_trans upper (Nat.le_of_lt larger)⟩
  · exact ⟨high, stays, upper⟩

/-- Cutting the list at every insertion is the same as cutting it at the end. -/
theorem backfill_newest (extended : Extends stored full) (inRange : InRange stored epoch)
    (fresh : ∀ entry ∈ full, entry.epoch ≠ epoch) :
    backfill epoch (newest full) = newest (History.insertByEpoch (.ofEpoch epoch) full) := by
  rcases inRange with ⟨⟨low, lowMember, lower⟩, high, highMember, upper⟩
  have reached := extended.exists_ge highMember upper
  have stillFresh : ∀ entry ∈ newest full, entry.epoch ≠ epoch :=
    fun entry stays => fresh entry (Window.mem_of_mem_last stays)
  by_cases above : ∃ entry ∈ newest full, entry.epoch ≤ epoch
  · rw [backfill, if_pos ⟨⟨above, reached⟩, stillFresh⟩]
    exact Window.last_insert_last extended.sorted.increasing above
  · rw [backfill, if_neg fun inserted => above inserted.1.1]
    have long : maxItems ≤ full.length := by
      apply Nat.le_of_not_lt
      intro short
      refine above ⟨low, ?_, lower⟩
      rw [newest, Window.last_of_length_le (Nat.le_of_lt short)]
      exact extended.contains low lowMember
    refine (Window.last_insert_of_lt long fun entry stays => ?_).symm
    exact Nat.lt_of_not_le fun atMost => above ⟨entry, stays, atMost⟩

theorem backfill_outside (extended : Extends stored full) (outside : ¬InRange stored epoch) :
    backfill epoch (newest full) = newest full := by
  refine if_neg fun inserted => outside ?_
  rcases inserted.1 with ⟨⟨low, lowStays, lower⟩, high, highStays, upper⟩
  rcases extended.within low (Window.mem_of_mem_last lowStays) with
    ⟨⟨lowest, lowestMember, atMost⟩, _⟩
  rcases extended.within high (Window.mem_of_mem_last highStays) with
    ⟨_, highest, highestMember, atLeast⟩
  exact ⟨⟨lowest, lowestMember, Nat.le_trans atMost lower⟩,
    ⟨highest, highestMember, Nat.le_trans upper atLeast⟩⟩

theorem fillIn (extended : Extends stored full) {epochs : List Nat} (distinct : epochs.Nodup)
    (inRange : ∀ epoch ∈ epochs, InRange stored epoch)
    (fresh : ∀ epoch ∈ epochs, ∀ entry ∈ full, entry.epoch ≠ epoch)
    (valid : ∀ epoch ∈ epochs, epoch < epochDefault) :
    Extends stored (History.fillIn epochs full) := by
  induction epochs generalizing full with
  | nil => exact extended
  | cons epoch epochs induction =>
      rw [List.nodup_cons] at distinct
      rw [List.forall_mem_cons] at inRange fresh valid
      exact induction (extended.insertByEpoch inRange.1 fresh.1 valid.1) distinct.2 inRange.2
        (fresh_insertByEpoch distinct.1 fresh.2) valid.2

/-- The whole loop, although the range in which it inserts moves on the way. -/
theorem foldl_backfill (extended : Extends stored full) {epochs : List Nat}
    (distinct : epochs.Nodup) (fresh : ∀ epoch ∈ epochs, ∀ entry ∈ full, entry.epoch ≠ epoch)
    (valid : ∀ epoch ∈ epochs, epoch < epochDefault) :
    epochs.foldl (fun stored epoch => backfill epoch stored) (newest full) =
      newest (History.fillIn (epochs.filter (InRange stored ·)) full) := by
  induction epochs generalizing full with
  | nil =>
      rw [List.filter_nil, fillIn_nil, List.foldl_nil]
  | cons epoch epochs induction =>
      rw [List.nodup_cons] at distinct
      rw [List.forall_mem_cons] at fresh valid
      rw [List.foldl_cons]
      by_cases inRange : InRange stored epoch
      · have chosen : decide (InRange stored epoch) = true := decide_eq_true inRange
        rw [extended.backfill_newest inRange fresh.1, List.filter_cons, if_pos chosen, fillIn_cons]
        exact induction (extended.insertByEpoch inRange fresh.1 valid.1) distinct.2
          (fresh_insertByEpoch distinct.1 fresh.2) valid.2
      · have skipped : ¬decide (InRange stored epoch) = true := by simpa using inRange
        rw [extended.backfill_outside inRange, List.filter_cons, if_neg skipped]
        exact induction extended distinct.2 fresh.2 valid.2

end Extends

/-! ## Single entries -/

theorem Sorted.eq_of_epoch {stored : List ValidatorHistoryEntry} (sorted : Sorted stored)
    {first second : ValidatorHistoryEntry} (firstMember : first ∈ stored)
    (secondMember : second ∈ stored) (same : first.epoch = second.epoch) : first = second := by
  have distinct : (stored.map ValidatorHistoryEntry.epoch).Nodup := by
    rw [List.Nodup, List.pairwise_map]
    exact sorted.increasing.imp Nat.ne_of_lt
  exact List.inj_on_of_nodup_map distinct firstMember secondMember same

section Record

variable {stored : List ValidatorHistoryEntry} {epoch : Nat}
variable {change : ValidatorHistoryEntry → ValidatorHistoryEntry}

/-- After a write the entry of an old epoch is the old one, changed if it is of the
epoch that is written. -/
theorem record_entry (sorted : Sorted stored)
    (keepsEpoch : ∀ entry, (change entry).epoch = entry.epoch)
    {old entry : ValidatorHistoryEntry} (isOld : old ∈ stored)
    (isEntry : entry ∈ record epoch change stored) (same : entry.epoch = old.epoch) :
    entry = if old.epoch = epoch then change old else old := by
  rw [record] at isEntry
  split at isEntry
  case isTrue later =>
    have before := later old isOld
    rw [if_neg (Nat.ne_of_lt before)]
    rcases List.mem_append.mp (Window.mem_of_mem_last isEntry) with earlier | isItem
    · exact sorted.eq_of_epoch earlier isOld same
    · have itemEpoch : entry.epoch = epoch := by
        rw [List.mem_singleton.mp isItem, keepsEpoch]
        rfl
      omega
  case isFalse =>
    rcases List.mem_map.mp isEntry with ⟨original, isOriginal, rfl⟩
    have originalEpoch : original.epoch = old.epoch := by
      rw [← same]
      split
      · exact (keepsEpoch original).symm
      · rfl
    rw [sorted.eq_of_epoch isOriginal isOld originalEpoch]

/-- An old entry that does not stay was the oldest. -/
theorem record_cut (sorted : Sorted stored)
    (keepsEpoch : ∀ entry, (change entry).epoch = entry.epoch)
    {old : ValidatorHistoryEntry} (isOld : old ∈ stored) :
    (∃ entry ∈ record epoch change stored, entry.epoch = old.epoch) ∨
      ∀ entry ∈ record epoch change stored, old.epoch < entry.epoch := by
  rw [record]
  split
  case isTrue later =>
    have itemEpoch : (change (.ofEpoch epoch)).epoch = epoch := keepsEpoch _
    have increasing : (stored ++ [change (.ofEpoch epoch)]).Pairwise
        fun first second => first.epoch < second.epoch := by
      refine List.pairwise_append.mpr ⟨sorted.increasing, List.pairwise_singleton _ _, ?_⟩
      intro entry member item isItem
      rw [List.mem_singleton.mp isItem, itemEpoch]
      exact later entry member
    have member : old ∈ stored ++ [change (.ofEpoch epoch)] := List.mem_append_left _ isOld
    rw [← Window.take_append_last maxItems (stored ++ [change (.ofEpoch epoch)]),
      List.mem_append] at member
    rcases member with isCut | stays
    · exact .inr fun entry isKept => Window.cut_lt_last increasing isCut isKept
    · exact .inl ⟨old, stays, rfl⟩
  case isFalse =>
    refine .inl ⟨_, List.mem_map_of_mem isOld, ?_⟩
    split
    · exact keepsEpoch old
    · rfl

/-- Neither is the entry of an old epoch replaced by a blank one. -/
theorem fillIn_record_entry (sorted : Sorted stored)
    (keepsEpoch : ∀ entry, (change entry).epoch = entry.epoch) {epochs : List Nat}
    (missing : ∀ other ∈ epochs, InRange (record epoch change stored) other ∧
      ∀ entry ∈ record epoch change stored, entry.epoch ≠ other)
    {old entry : ValidatorHistoryEntry} (isOld : old ∈ stored)
    (isEntry : entry ∈ fillIn epochs (record epoch change stored))
    (same : entry.epoch = old.epoch) :
    entry = if old.epoch = epoch then change old else old := by
  rcases mem_fillIn.mp isEntry with recorded | ⟨other, listed, rfl⟩
  · exact record_entry sorted keepsEpoch isOld recorded same
  · have isOther : other = old.epoch := same
    rcases missing other listed with ⟨⟨⟨low, lowMember, lower⟩, _⟩, absent⟩
    rcases record_cut sorted keepsEpoch isOld with ⟨stays, member, sameEpoch⟩ | older
    · exact absurd (sameEpoch.trans isOther.symm) (absent stays member)
    · have below := older low lowMember
      omega

end Record

theorem credit_others (creditsMap : List (Nat × Nat)) (entry : ValidatorHistoryEntry)
    (value : Nat) :
    { credit creditsMap entry with epochCredits := value } =
      { entry with epochCredits := value } := by
  unfold credit
  split <;> rfl

theorem credit_of_lookup {creditsMap : List (Nat × Nat)} {entry : ValidatorHistoryEntry}
    {value : Nat} (found : creditsMap.lookup entry.epoch = some value) :
    (credit creditsMap entry).epochCredits = value := by
  rw [credit, found]

theorem credit_of_unlisted {epochCredits : List EpochCredits} {creditsMap : List (Nat × Nat)}
    (converted : epochCreditsMap epochCredits = .ok creditsMap) {entry : ValidatorHistoryEntry}
    (unlisted : ∀ credits ∈ epochCredits, credits.epoch ≠ entry.epoch) :
    credit creditsMap entry = entry := by
  cases found : creditsMap.lookup entry.epoch with
  | none => rw [credit, found]
  | some value =>
      rcases mem_of_lookup converted found with ⟨credits, member, same, _⟩
      exact absurd same (unlisted credits member)

theorem lookup_eq_earned {epochCredits : List EpochCredits} {creditsMap : List (Nat × Nat)}
    (converted : epochCreditsMap epochCredits = .ok creditsMap)
    (distinct : (epochCredits.map EpochCredits.epoch).Nodup) {credits : EpochCredits}
    (member : credits ∈ epochCredits) :
    creditsMap.lookup credits.epoch = some credits.earned := by
  rcases lookup_of_mem converted member with ⟨value, found⟩
  rcases mem_of_lookup converted found with ⟨other, isOther, same, earned⟩
  rw [found, ← earned, List.inj_on_of_nodup_map distinct isOther member same]

/-! ## The three steps -/

section Success

variable {epochCredits : List EpochCredits}

theorem getMinEpoch_succeeds (nonempty : epochCredits ≠ [])
    (valid : ∀ credits ∈ epochCredits, credits.epoch < epochDefault) :
    ∃ epoch, getMinEpoch epochCredits = .ok epoch := by
  cases least : (epochCredits.map EpochCredits.epoch).min? with
  | none => exact absurd (List.map_eq_nil_iff.mp (List.min?_eq_none_iff.mp least)) nonempty
  | some epoch =>
      rcases List.mem_map.mp (List.min?_mem least) with ⟨credits, member, same⟩
      have inRange := valid credits member
      refine ⟨epoch, ?_⟩
      rw [getMinEpoch, least]
      exact castEpoch_eq_ok.mpr ⟨same ▸ inRange, rfl⟩

theorem getMaxEpoch_succeeds (nonempty : epochCredits ≠ [])
    (valid : ∀ credits ∈ epochCredits, credits.epoch < epochDefault) :
    ∃ epoch, getMaxEpoch epochCredits = .ok epoch := by
  cases greatest : (epochCredits.map EpochCredits.epoch).max? with
  | none => exact absurd (List.map_eq_nil_iff.mp (List.max?_eq_none_iff.mp greatest)) nonempty
  | some epoch =>
      rcases List.mem_map.mp (List.max?_mem greatest) with ⟨credits, member, same⟩
      have inRange := valid credits member
      refine ⟨epoch, ?_⟩
      rw [getMaxEpoch, greatest]
      exact castEpoch_eq_ok.mpr ⟨same ▸ inRange, rfl⟩

namespace ValidatorHistory

theorem setCommissionAndSlot_succeeds (account : ValidatorHistory) (epoch commission slot : Nat) :
    ∃ next, account.setCommissionAndSlot epoch commission slot = .ok next := by
  rcases account.history.setEntry_skipped epoch fun entry =>
    { entry with commission := commission, voteAccountLastUpdateSlot := slot } with ⟨next, written⟩
  refine ⟨{ account with history := next }, ?_⟩
  rw [setCommissionAndSlot, setEntry, written]
  rfl

theorem insertMissingEntries_succeeds (account : ValidatorHistory) (nonempty : epochCredits ≠ [])
    (usable : ∀ credits ∈ epochCredits, credits.Usable) :
    ∃ next, account.insertMissingEntries epochCredits = .ok next := by
  have valid : ∀ credits ∈ epochCredits, credits.epoch < epochDefault :=
    fun credits member => (usable credits member).1
  rcases getMinEpoch_succeeds nonempty valid with ⟨startEpoch, least⟩
  rcases getMaxEpoch_succeeds nonempty valid with ⟨endEpoch, greatest⟩
  simp only [insertMissingEntries, least, greatest, epochCreditsMap_eq_ok.mpr ⟨usable, rfl⟩,
    Outcome.ok_bind]
  exact ⟨_, rfl⟩

theorem setEpochCredits_succeeds (account : ValidatorHistory) (nonempty : epochCredits ≠ [])
    (usable : ∀ credits ∈ epochCredits, credits.Usable) :
    ∃ next, account.setEpochCredits epochCredits = .ok next := by
  have valid : ∀ credits ∈ epochCredits, credits.epoch < epochDefault :=
    fun credits member => (usable credits member).1
  have filled : ¬epochCredits.isEmpty = true := by
    rw [List.isEmpty_iff]
    exact nonempty
  rcases getMinEpoch_succeeds nonempty valid with ⟨minEpoch, least⟩
  rw [setEpochCredits, if_neg filled]
  simp only [least, epochCreditsMap_eq_ok.mpr ⟨usable, rfl⟩, Outcome.ok_bind]
  exact ⟨_, rfl⟩

end ValidatorHistory

end Success

namespace ValidatorHistory

variable {account next : ValidatorHistory} {stored : List ValidatorHistoryEntry}
variable {epochCredits : List EpochCredits}

/-- The epochs that are filled in, and the history that they are filled into. -/
theorem insertMissingEntries_extends (holds : account.history.Holds stored)
    (succeeded : account.insertMissingEntries epochCredits = .ok next) :
    ∃ epochs full, full = fillIn epochs stored ∧ Extends stored full ∧
      next.history.Holds (newest full) ∧
      ∀ epoch, epoch ∈ epochs ↔
        (∃ credits ∈ epochCredits, credits.epoch = epoch) ∧ InRange stored epoch ∧
          ∀ entry ∈ stored, entry.epoch ≠ epoch := by
  rcases insertMissingEntries_holds holds succeeded with
    ⟨startEpoch, endEpoch, creditsMap, least, greatest, converted, held⟩
  have lowest := getMinEpoch_eq_ok least
  have highest := getMaxEpoch_eq_ok greatest
  have isMissing : ∀ epoch, epoch ∈ missingEpochs stored creditsMap startEpoch endEpoch ↔
      (∃ credits ∈ epochCredits, credits.epoch = epoch) ∧
        ∀ entry ∈ stored, entry.epoch ≠ epoch := by
    intro epoch
    simp only [missingEpochs, List.mem_filter, Bool.and_eq_true, Bool.not_eq_true',
      Option.isSome_eq_false_iff, Option.isNone_iff_eq_none, List.find?_eq_none,
      decide_eq_true_eq, Option.isSome_iff_exists]
    constructor
    · intro missing
      rcases missing.2.2 with ⟨value, found⟩
      rcases mem_of_lookup converted found with ⟨credits, member, same, _⟩
      exact ⟨⟨credits, member, same⟩, missing.2.1⟩
    · intro missing
      rcases missing.1 with ⟨credits, member, rfl⟩
      have atLeast := lowest.2.2 credits member
      have atMost := highest.2 credits member
      refine ⟨?_, missing.2, lookup_of_mem converted member⟩
      rw [CircBuf.epochs, List.mem_range'_1]
      omega
  have distinct : (missingEpochs stored creditsMap startEpoch endEpoch).Nodup :=
    List.Nodup.filter _ List.nodup_range'
  have fresh : ∀ epoch ∈ missingEpochs stored creditsMap startEpoch endEpoch,
      ∀ entry ∈ stored, entry.epoch ≠ epoch :=
    fun epoch missing => ((isMissing epoch).mp missing).2
  have valid : ∀ epoch ∈ missingEpochs stored creditsMap startEpoch endEpoch,
      epoch < epochDefault := by
    intro epoch missing
    rcases ((isMissing epoch).mp missing).1 with ⟨credits, member, rfl⟩
    exact ((epochCreditsMap_eq_ok.mp converted).1 credits member).1
  have whole : newest stored = stored := Window.last_of_length_le holds.length_le
  have extended := Extends.refl holds.sorted
  have loop := extended.foldl_backfill distinct fresh valid
  rw [whole] at loop
  rw [loop] at held
  have inList : ∀ epoch, epoch ∈ (missingEpochs stored creditsMap startEpoch endEpoch).filter
      (InRange stored ·) ↔ (∃ credits ∈ epochCredits, credits.epoch = epoch) ∧
        InRange stored epoch ∧ ∀ entry ∈ stored, entry.epoch ≠ epoch := by
    intro epoch
    rw [List.mem_filter, isMissing, decide_eq_true_eq, and_assoc]
    exact and_congr_right fun _ => and_comm
  refine ⟨_, _, rfl, ?_, held, inList⟩
  apply extended.fillIn (distinct.filter _)
  · exact fun epoch member => ((inList epoch).mp member).2.1
  · exact fun epoch member => ((inList epoch).mp member).2.2
  · exact fun epoch member => valid epoch (List.mem_of_mem_filter member)

end ValidatorHistory

/-! ## What is recorded -/

namespace CircBuf

/-- The ring holds its filled slots in order, as it does after any calls. -/
def WellFormed (history : CircBuf) : Prop := history.Holds history.entries

theorem Holds.wellFormed {history : CircBuf} {stored : List ValidatorHistoryEntry}
    (holds : history.Holds stored) : history.WellFormed := by
  rw [WellFormed, holds.entries_eq]
  exact holds

/-- The epochs that have an entry. -/
def epochSet (history : CircBuf) : Finset Nat :=
  (history.entries.map ValidatorHistoryEntry.epoch).toFinset

theorem mem_epochSet {history : CircBuf} {epoch : Nat} :
    epoch ∈ history.epochSet ↔ ∃ entry ∈ history.entries, entry.epoch = epoch := by
  rw [epochSet, List.mem_toFinset, List.mem_map]

/-- The epochs with credits between the oldest and the newest epoch of the ring. -/
def creditEpochs (history : CircBuf) (epochCredits : List EpochCredits) : Finset Nat :=
  {epoch ∈ (epochCredits.map EpochCredits.epoch).toFinset | InRange history.entries epoch}

theorem mem_creditEpochs {history : CircBuf} {epochCredits : List EpochCredits} {epoch : Nat} :
    epoch ∈ history.creditEpochs epochCredits ↔
      (∃ credits ∈ epochCredits, credits.epoch = epoch) ∧ InRange history.entries epoch := by
  rw [creditEpochs, Finset.mem_filter, List.mem_toFinset, List.mem_map]

/-- The ring `after` records the credits: `before` is the ring at the start and
`dated` the one with an entry for the current epoch. -/
structure CreditsRecorded (before dated after : CircBuf) (epoch commission slot : Nat)
    (epochCredits : List EpochCredits) : Prop where
  wellFormed : after.WellFormed
  epochs : Window.Largest maxItems after.epochSet
    (dated.epochSet ∪ dated.creditEpochs epochCredits)
  credits : ∀ entry ∈ after.entries, ∀ credits ∈ epochCredits, credits.epoch = entry.epoch →
    entry.epochCredits = (credits.current - credits.previous) % 2 ^ 32
  unlisted : ∀ old ∈ before.entries, ∀ entry ∈ after.entries, entry.epoch = old.epoch →
    (∀ credits ∈ epochCredits, credits.epoch ≠ old.epoch) → entry.epochCredits = old.epochCredits
  otherFields : ∀ old ∈ before.entries, ∀ entry ∈ after.entries, entry.epoch = old.epoch →
    { entry with epochCredits := old.epochCredits } =
      if old.epoch = epoch then
        { old with commission := commission, voteAccountLastUpdateSlot := slot }
      else
        old

end CircBuf

/-- The epochs after filling in, before the cut. -/
theorem epochs_fillIn {history : CircBuf} {stored : List ValidatorHistoryEntry}
    (holds : history.Holds stored) {epochs : List Nat} {epochCredits : List EpochCredits}
    (inEpochs : ∀ epoch, epoch ∈ epochs ↔
      (∃ credits ∈ epochCredits, credits.epoch = epoch) ∧ InRange stored epoch ∧
        ∀ entry ∈ stored, entry.epoch ≠ epoch) :
    ((fillIn epochs stored).map ValidatorHistoryEntry.epoch).toFinset =
      history.epochSet ∪ history.creditEpochs epochCredits := by
  ext epoch
  rw [Finset.mem_union, CircBuf.mem_epochSet, CircBuf.mem_creditEpochs, holds.entries_eq,
    List.mem_toFinset, List.mem_map]
  constructor
  · intro recorded
    rcases recorded with ⟨entry, member, rfl⟩
    rcases mem_fillIn.mp member with isOld | ⟨other, listed, rfl⟩
    · exact .inl ⟨entry, isOld, rfl⟩
    · have missing := (inEpochs other).mp listed
      exact .inr ⟨missing.1, missing.2.1⟩
  · intro expected
    by_cases present : ∃ entry ∈ stored, entry.epoch = epoch
    · rcases present with ⟨entry, isOld, same⟩
      exact ⟨entry, mem_fillIn.mpr (.inl isOld), same⟩
    · have credited := expected.resolve_left present
      have absent : ∀ entry ∈ stored, entry.epoch ≠ epoch :=
        fun entry member same => present ⟨entry, member, same⟩
      have listed := (inEpochs epoch).mpr ⟨credited.1, credited.2, absent⟩
      exact ⟨_, mem_fillIn.mpr (.inr ⟨epoch, listed, rfl⟩), rfl⟩

namespace ValidatorHistory

theorem copyVoteAccount_records (account : ValidatorHistory)
    (wellFormed : account.history.WellFormed) (epoch commission slot : Nat)
    (valid : epoch < epochDefault) (epochCredits : List EpochCredits)
    (nonempty : epochCredits ≠ []) (distinct : (epochCredits.map EpochCredits.epoch).Nodup)
    (upToNow : ∀ credits ∈ epochCredits, credits.epoch ≤ epoch)
    (increasing : ∀ credits ∈ epochCredits, credits.previous ≤ credits.current) :
    ∃ dated filled credited,
      account.setCommissionAndSlot epoch commission slot = .ok dated ∧
      dated.insertMissingEntries epochCredits = .ok filled ∧
      filled.setEpochCredits epochCredits = .ok credited ∧
      account.copyVoteAccount epoch slot commission epochCredits =
        .ok (credited.updateValidatorAge epoch) ∧
      account.history.CreditsRecorded dated.history credited.history epoch commission slot
        epochCredits := by
  have usable : ∀ credits ∈ epochCredits, credits.Usable := fun credits member =>
    ⟨Nat.lt_of_le_of_lt (upToNow credits member) valid, increasing credits member⟩
  rcases account.setCommissionAndSlot_succeeds epoch commission slot with ⟨dated, first⟩
  rcases dated.insertMissingEntries_succeeds nonempty usable with ⟨filled, second⟩
  rcases filled.setEpochCredits_succeeds nonempty usable with ⟨credited, third⟩
  refine ⟨dated, filled, credited, first, second, third, ?_, ?_⟩
  · simp only [copyVoteAccount, castEpoch, if_pos valid, first, second, third, Outcome.ok_bind]
    rfl
  have keepsEpoch : ∀ entry : ValidatorHistoryEntry,
      ({ entry with commission := commission, voteAccountLastUpdateSlot := slot } :
        ValidatorHistoryEntry).epoch = entry.epoch := fun _ => rfl
  have datedHolds := setEntry_holds wellFormed keepsEpoch valid first
  rcases insertMissingEntries_extends datedHolds second with
    ⟨epochs, full, isFull, extended, filledHolds, inEpochs⟩
  rcases setEpochCredits_holds filledHolds third with ⟨creditsMap, converted, creditedHolds⟩
  have original : ∀ entry ∈ credited.history.entries,
      ∃ uncredited ∈ full, entry = credit creditsMap uncredited := by
    intro entry member
    rw [creditedHolds.entries_eq] at member
    rcases List.mem_map.mp member with ⟨uncredited, stays, rfl⟩
    exact ⟨uncredited, Window.mem_of_mem_last stays, rfl⟩
  have survivor : ∀ old ∈ account.history.entries, ∀ entry ∈ credited.history.entries,
      entry.epoch = old.epoch → entry = credit creditsMap (if old.epoch = epoch then
        { old with commission := commission, voteAccountLastUpdateSlot := slot } else old) := by
    intro old isOld entry member same
    rcases original entry member with ⟨uncredited, inFull, rfl⟩
    rw [credit_epoch] at same
    rw [isFull] at inFull
    congr 1
    apply fillIn_record_entry wellFormed.sorted keepsEpoch _ isOld inFull same
    exact fun other listed => ((inEpochs other).mp listed).2
  exact {
    wellFormed := creditedHolds.wellFormed
    epochs := by
      rw [← epochs_fillIn datedHolds inEpochs, ← isFull, CircBuf.epochSet,
        creditedHolds.entries_eq]
      have sameEpochs : ((newest full).map (credit creditsMap)).map ValidatorHistoryEntry.epoch =
          Window.last maxItems (full.map ValidatorHistoryEntry.epoch) := by
        rw [newest, Window.map_last, Window.map_last, List.map_map]
        congr 1
        exact List.map_congr_left fun entry _ => credit_epoch creditsMap entry
      rw [sameEpochs]
      exact Window.largest_last (List.pairwise_map.mpr extended.sorted.increasing) maxItems
    credits := by
      intro entry member credits listed same
      rcases original entry member with ⟨uncredited, inFull, rfl⟩
      rw [credit_epoch] at same
      have found := lookup_eq_earned converted distinct listed
      rw [same] at found
      exact credit_of_lookup found
    unlisted := by
      intro old isOld entry member same absent
      have isSurvivor := survivor old isOld entry member same
      rw [isSurvivor, credit_of_unlisted converted]
      · split <;> rfl
      · rw [isSurvivor, credit_epoch] at same
        rwa [same]
    otherFields := by
      intro old isOld entry member same
      rw [survivor old isOld entry member same, credit_others]
      split <;> rfl }

/-- The account after the late writes. -/
def backfilled : ValidatorHistory := Execution.run Setter.execute blank lateSetters

theorem backfilled_wellFormed : backfilled.history.WellFormed := by
  have start : ∃ stored, blank.history.Holds stored :=
    ⟨[], CircBuf.holds_initial fun _ => .unset⟩
  have valid : ∀ setter ∈ lateSetters, ∀ epoch ∈ setter.epochs, epoch < epochDefault := by decide
  rcases Setter.run_holds start valid with ⟨stored, holds⟩
  exact holds.wellFormed

theorem copyVoteAccount_records_backfilled :
    ∃ dated filled credited,
      backfilled.setCommissionAndSlot 15 7 9000 = .ok dated ∧
      dated.insertMissingEntries [⟨9, 500, 100⟩, ⟨13, 1600, 900⟩, ⟨15, 2000, 1600⟩] = .ok filled ∧
      filled.setEpochCredits [⟨9, 500, 100⟩, ⟨13, 1600, 900⟩, ⟨15, 2000, 1600⟩] = .ok credited ∧
      backfilled.copyVoteAccount 15 9000 7 [⟨9, 500, 100⟩, ⟨13, 1600, 900⟩, ⟨15, 2000, 1600⟩] =
        .ok (credited.updateValidatorAge 15) ∧
      backfilled.history.CreditsRecorded dated.history credited.history 15 7 9000
        [⟨9, 500, 100⟩, ⟨13, 1600, 900⟩, ⟨15, 2000, 1600⟩] :=
  backfilled.copyVoteAccount_records backfilled_wellFormed 15 7 9000 (by decide)
    [⟨9, 500, 100⟩, ⟨13, 1600, 900⟩, ⟨15, 2000, 1600⟩] (by decide) (by decide) (by decide)
    (by decide)

end ValidatorHistory

end Stakenet.History

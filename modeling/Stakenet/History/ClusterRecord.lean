import Stakenet.Foundation.Execution
import Stakenet.History.ClusterProgram

/-! The entries of the cluster history over whole runs of the program: their order, where the
numbers of blocks come from, and when they are final. -/

namespace Stakenet.History

/-! ## Entries -/

namespace CircBufCluster

/-- The slots that have been filled, from the oldest to the newest. -/
def entries (history : CircBufCluster) : List ClusterHistoryEntry :=
  (Ring.slots maxItems history.idx history.arr).filter fun entry =>
    decide (entry.epoch ≠ epochDefault)

/-- The entries have increasing epochs and stand after the slots that have not been filled. -/
structure Sound (history : CircBufCluster) : Prop where
  holds : KeyedRing.Holds ClusterHistoryEntry.epoch epochDefault maxItems history.idx history.arr
    history.entries
  empty : history.isEmpty = history.entries.isEmpty

theorem Sound.of_holds {history : CircBufCluster} {stored : List ClusterHistoryEntry}
    (holds : KeyedRing.Holds ClusterHistoryEntry.epoch epochDefault maxItems history.idx
      history.arr stored)
    (empty : history.isEmpty = stored.isEmpty) : history.Sound ∧ history.entries = stored := by
  have same : history.entries = stored := holds.filter_slots
  exact ⟨⟨same ▸ holds, same ▸ empty⟩, same⟩

theorem initial_sound : initial.Sound ∧ initial.entries = [] :=
  Sound.of_holds (KeyedRing.holds_nil (fun _ _ => rfl) maxItems_pos) rfl

end CircBufCluster

/-- A write of the blocks of one epoch: its entry is changed, or appended after all others. -/
def recordBlocks (epoch blocks : Nat) (entries : List ClusterHistoryEntry) :
    List ClusterHistoryEntry :=
  if ∀ entry ∈ entries, entry.epoch < epoch then
    Window.last maxItems (entries ++ [.ofBlocks epoch blocks])
  else
    KeyedRing.amend ClusterHistoryEntry.epoch epoch (.withBlocks blocks) entries

/-- A change of nothing but the time at which an epoch starts. -/
structure KeepsBlocks (change : ClusterHistoryEntry → ClusterHistoryEntry) : Prop where
  epoch : ∀ entry, (change entry).epoch = entry.epoch
  totalBlocks : ∀ entry, (change entry).totalBlocks = entry.totalBlocks

namespace CircBufCluster.Sound

variable {history : CircBufCluster}

theorem last_eq_none (sound : history.Sound) : history.last = none ↔ history.entries = [] := by
  rw [← List.isEmpty_iff, ← sound.empty, last]
  cases history.isEmpty <;> simp

theorem last_eq_some (sound : history.Sound) {entry : ClusterHistoryEntry}
    (isLast : history.last = some entry) :
    entry = history.arr history.idx ∧ entry ∈ history.entries ∧
      ∀ other ∈ history.entries, other.epoch ≤ entry.epoch := by
  have nonempty : history.entries ≠ [] := fun none => by
    rw [sound.last_eq_none.mpr none] at isLast
    cases isLast
  have filled : history.isEmpty = false := by
    rw [sound.empty, List.isEmpty_eq_false_iff]
    exact nonempty
  rw [last, filled] at isLast
  cases isLast
  refine ⟨rfl, ?_, fun other member => sound.holds.le_youngest history.inBounds member⟩
  exact List.mem_of_getLast? (sound.holds.getLast?_eq history.inBounds nonempty)

theorem push (sound : history.Sound) {item : ClusterHistoryEntry}
    (later : ∀ entry ∈ history.entries, entry.epoch < item.epoch)
    (valid : item.epoch ≠ epochDefault) :
    (history.push item).Sound ∧
      (history.push item).entries = Window.last maxItems (history.entries ++ [item]) := by
  refine CircBufCluster.Sound.of_holds (sound.holds.push history.inBounds later valid) ?_
  rw [eq_comm, CircBufCluster.push, List.isEmpty_eq_false_iff]
  refine List.ne_nil_of_length_pos ?_
  rw [Window.length_last, List.length_append, List.length_singleton]
  exact Nat.lt_min.mpr ⟨maxItems_pos, Nat.succ_pos _⟩

theorem updateAt (sound : history.Sound) {position epoch : Nat} (inside : position < maxItems)
    (isEpoch : (history.arr position).epoch = epoch) (valid : epoch ≠ epochDefault)
    {change : ClusterHistoryEntry → ClusterHistoryEntry}
    (keepsEpoch : ∀ entry, (change entry).epoch = entry.epoch) :
    (history.updateAt position change).Sound ∧
      (history.updateAt position change).entries =
        KeyedRing.amend ClusterHistoryEntry.epoch epoch change history.entries := by
  subst epoch
  refine CircBufCluster.Sound.of_holds
    (sound.holds.update history.inBounds inside valid keepsEpoch) ?_
  rw [CircBufCluster.updateAt, sound.empty, KeyedRing.amend, List.isEmpty_map]

theorem findEpoch_eq_none (sound : history.Sound) {epoch : Nat}
    (none : history.findEpoch epoch = none) : ∀ entry ∈ history.entries, entry.epoch ≠ epoch := by
  intro entry member same
  rcases ((sound.holds.mem_iff history.inBounds).mp member).2 with ⟨place, inside, rfl⟩
  have unequal := List.find?_eq_none.mp none place (List.mem_range.mpr inside)
  exact unequal (decide_eq_true same)

end CircBufCluster.Sound

namespace ClusterHistory

variable {account : ClusterHistory}

theorem setBlocks_sound (sound : account.history.Sound) {epoch : Nat}
    (valid : epoch ≠ epochDefault) (blocks : Nat) :
    (account.setBlocks epoch blocks).history.Sound ∧
      (account.setBlocks epoch blocks).history.entries =
        recordBlocks epoch blocks account.history.entries := by
  rw [setBlocks, recordBlocks]
  cases isLast : account.history.last with
  | none =>
      have none := sound.last_eq_none.mp isLast
      have later : ∀ entry ∈ account.history.entries, entry.epoch < epoch := by
        rw [none]
        exact fun _ member => absurd member List.not_mem_nil
      rw [if_pos later]
      exact sound.push later valid
  | some entry =>
      rcases sound.last_eq_some isLast with ⟨rfl, member, below⟩
      dsimp only
      cases order : compare (account.history.arr account.history.idx).epoch epoch with
      | eq =>
          have same := Nat.compare_eq_eq.mp order
          have notLater : ¬∀ entry ∈ account.history.entries, entry.epoch < epoch :=
            fun later => absurd same (later _ member).ne
          rw [if_neg notLater]
          exact sound.updateAt account.history.inBounds same valid fun _ => rfl
      | lt =>
          have older := Nat.compare_eq_lt.mp order
          have later : ∀ entry ∈ account.history.entries, entry.epoch < epoch :=
            fun other inEntries => Nat.lt_of_le_of_lt (below other inEntries) older
          rw [if_pos later]
          exact sound.push later valid
      | gt =>
          have younger := Nat.compare_eq_gt.mp order
          have notLater : ¬∀ entry ∈ account.history.entries, entry.epoch < epoch :=
            fun later => absurd (later _ member) younger.asymm
          rw [if_neg notLater]
          cases found : account.history.findEpoch epoch with
          | none =>
              refine ⟨sound, ?_⟩
              exact (KeyedRing.amend_of_absent (sound.findEpoch_eq_none found) _).symm
          | some position =>
              rw [CircBufCluster.findEpoch] at found
              have isEpoch := List.find?_some found
              rw [decide_eq_true_eq] at isEpoch
              have inside := List.mem_range.mp (List.mem_of_find?_eq_some found)
              exact sound.updateAt inside isEpoch valid fun _ => rfl

theorem setEpochStartTimestamp_sound (sound : account.history.Sound) {epoch : Nat}
    (valid : epoch ≠ epochDefault) (epochStartTimestamp : Nat) :
    let next := account.setEpochStartTimestamp epoch epochStartTimestamp
    next.history.Sound ∧ ∃ change, KeepsBlocks change ∧
      next.history.entries = account.history.entries.map change := by
  have unchanged : KeepsBlocks id := ⟨fun _ => rfl, fun _ => rfl⟩
  have same : account.history.entries = account.history.entries.map id := (List.map_id _).symm
  dsimp only
  rw [setEpochStartTimestamp]
  cases isLast : account.history.last with
  | none => exact ⟨sound, id, unchanged, same⟩
  | some entry =>
      rcases sound.last_eq_some isLast with ⟨rfl, _, _⟩
      dsimp only
      split
      case isTrue isEpoch =>
        have keepsEpoch : ∀ entry : ClusterHistoryEntry,
            (entry.withStart epochStartTimestamp).epoch = entry.epoch := fun _ => rfl
        have updated := sound.updateAt account.history.inBounds isEpoch valid keepsEpoch
        refine ⟨updated.1, fun other => if other.epoch = epoch then
          other.withStart epochStartTimestamp else other, ⟨fun other => ?_, fun other => ?_⟩,
          updated.2⟩
        · split <;> rfl
        · split <;> rfl
      case isFalse => exact ⟨sound, id, unchanged, same⟩

end ClusterHistory

/-! ## Ranges of epochs -/

/-- Strictly increasing epochs. -/
def Increasing (entries : List ClusterHistoryEntry) : Prop :=
  entries.Pairwise fun first second => first.epoch < second.epoch

def entryOf (entries : List ClusterHistoryEntry) (epoch : Nat) : Option ClusterHistoryEntry :=
  entries.find? fun entry => decide (entry.epoch = epoch)

/-- Entries of a range, one epoch after the other. -/
theorem matchByEpoch_eq {start count : Nat} {entries : List ClusterHistoryEntry}
    (increasing : Increasing entries)
    (inRange : ∀ entry ∈ entries, start ≤ entry.epoch ∧ entry.epoch < start + count) :
    matchByEpoch ClusterHistoryEntry.epoch (List.range' start count) entries =
      (List.range' start count).map (entryOf entries) := by
  induction count generalizing start entries with
  | zero => rfl
  | succ count induction =>
      rw [List.range'_succ, List.map_cons]
      cases entries with
      | nil =>
          rw [matchByEpoch]
          exact congrArg (none :: ·)
            (induction increasing fun _ member => absurd member List.not_mem_nil)
      | cons entry entries =>
          rcases List.pairwise_cons.mp increasing with ⟨above, rest⟩
          have bounds := inRange entry List.mem_cons_self
          have behind : ∀ other ∈ entries, start + 1 ≤ other.epoch ∧
              other.epoch < start + 1 + count := by
            intro other member
            have later := above other member
            have bounded := (inRange other (List.mem_cons_of_mem _ member)).2
            omega
          rw [matchByEpoch]
          split
          case isTrue same =>
            rw [induction rest behind]
            have first : entryOf (entry :: entries) start = some entry :=
              List.find?_cons_of_pos (decide_eq_true same)
            rw [first]
            congr 1
            refine List.map_congr_left fun epoch member => ?_
            rw [List.mem_range'_1] at member
            have skipped : entryOf (entry :: entries) epoch = entryOf entries epoch :=
              List.find?_cons_of_neg (by
                rw [decide_eq_true_eq]
                omega)
            exact skipped.symm
          case isFalse different =>
            have absent : entryOf (entry :: entries) start = none := by
              refine List.find?_eq_none.mpr fun other member => ?_
              rw [decide_eq_true_eq]
              rcases List.mem_cons.mp member with rfl | later
              · exact different
              · have beyond := behind other later
                omega
            rw [absent]
            congr 1
            refine induction increasing fun other member => ?_
            rcases List.mem_cons.mp member with rfl | later
            · omega
            · exact behind other later

/-- Each epoch of a range is looked up among the entries. -/
theorem CircBufCluster.Sound.epochRange_eq {history : CircBufCluster} (sound : history.Sound)
    {startEpoch endEpoch : Nat} (valid : endEpoch < epochDefault) :
    history.epochRange startEpoch endEpoch =
      (CircBuf.epochs startEpoch endEpoch).map (entryOf history.entries) := by
  have consecutive :
      (List.range' (history.idx + 1) (maxItems - (history.idx + 1))).map history.arr ++
      (List.range (history.idx + 1)).map history.arr =
      Ring.slots maxItems history.idx history.arr :=
    (Ring.slots_eq_append history.inBounds).symm
  -- Slots that have not been filled are out of every range.
  have filled : (Ring.slots maxItems history.idx history.arr).filter (fun entry =>
        decide (startEpoch ≤ entry.epoch ∧ entry.epoch ≤ endEpoch)) =
      history.entries.filter fun entry =>
        decide (startEpoch ≤ entry.epoch ∧ entry.epoch ≤ endEpoch) := by
    rw [CircBufCluster.entries, List.filter_filter]
    refine List.filter_congr fun entry _ => ?_
    rw [Bool.eq_iff_iff, Bool.and_eq_true, decide_eq_true_eq, decide_eq_true_eq]
    exact (and_iff_left_of_imp fun bounds => by omega).symm
  rw [CircBufCluster.epochRange, consecutive, filled, CircBuf.epochs, matchByEpoch_eq]
  · refine List.map_congr_left fun epoch member => ?_
    rw [List.mem_range'_1] at member
    generalize history.entries = stored
    rw [entryOf, entryOf, List.find?_filter]
    refine congrArg (fun holds => List.find? holds stored) (funext fun entry => ?_)
    rw [Bool.eq_iff_iff, decide_eq_true_eq, decide_eq_true_eq, decide_eq_true_eq]
    exact and_iff_right_of_imp fun same => by omega
  · exact sound.holds.increasing.filter _
  · intro entry member
    have bounds := of_decide_eq_true (List.mem_filter.mp member).2
    omega

/-! ## One epoch among the entries -/

section Record

variable {entries : List ClusterHistoryEntry} {epoch other blocks : Nat}

theorem increasing_recordBlocks (increasing : Increasing entries) :
    Increasing (recordBlocks epoch blocks entries) := by
  rw [recordBlocks]
  split
  case isTrue later => exact KeyedRing.increasing_last_append maxItems increasing later
  case isFalse => exact KeyedRing.increasing_amend increasing fun _ => rfl

/-- Only the entry of the epoch is new. -/
theorem mem_recordBlocks {entry : ClusterHistoryEntry}
    (member : entry ∈ recordBlocks epoch blocks entries) :
    (entry.epoch = epoch ∧ entry.totalBlocks = blocks) ∨
      (entry.epoch ≠ epoch ∧ entry ∈ entries) := by
  rw [recordBlocks] at member
  split at member
  case isTrue later =>
    rcases List.mem_append.mp (Window.mem_of_mem_last member) with earlier | isNew
    · exact .inr ⟨(later entry earlier).ne, earlier⟩
    · rw [List.mem_singleton.mp isNew]
      exact .inl ⟨rfl, rfl⟩
  case isFalse =>
    rcases KeyedRing.mem_amend.mp member with ⟨earlier, inEntries, rfl⟩
    split
    case isTrue same => exact .inl ⟨same, rfl⟩
    case isFalse different => exact .inr ⟨different, inEntries⟩

theorem mem_last_append (item : ClusterHistoryEntry) :
    item ∈ Window.last maxItems (entries ++ [item]) := by
  have room : (entries ++ [item]).length - maxItems ≤ entries.length := by
    rw [List.length_append, List.length_singleton]
    have positive := maxItems_pos
    omega
  rw [Window.last, List.drop_append_of_le_length room]
  exact List.mem_append_right _ (List.mem_singleton_self item)

/-- An entry of the epoch is kept, or all entries that are kept are younger. -/
def Listed (epoch : Nat) (entries : List ClusterHistoryEntry) : Prop :=
  (∃ entry ∈ entries, entry.epoch = epoch) ∨
    (∃ entry ∈ entries, epoch < entry.epoch) ∧ ∀ entry ∈ entries, epoch < entry.epoch

theorem listed_recordBlocks (increasing : Increasing entries) (listed : Listed epoch entries) :
    Listed epoch (recordBlocks other blocks entries) := by
  rw [recordBlocks]
  split
  case isTrue later =>
    have isNew : .ofBlocks other blocks ∈
        Window.last maxItems (entries ++ [.ofBlocks other blocks]) := mem_last_append _
    have ordered : (entries ++ [ClusterHistoryEntry.ofBlocks other blocks]).Pairwise
        fun first second => first.epoch < second.epoch := by
      refine List.pairwise_append.mpr ⟨increasing, List.pairwise_singleton _ _, ?_⟩
      intro entry member last isLast
      rw [List.mem_singleton.mp isLast]
      exact later entry member
    rcases listed with ⟨entry, member, rfl⟩ | ⟨⟨entry, member, above⟩, younger⟩
    · have whole := List.mem_append_left [ClusterHistoryEntry.ofBlocks other blocks] member
      rw [← Window.take_append_last maxItems (entries ++ _), List.mem_append] at whole
      rcases whole with isCut | isKept
      · refine .inr ⟨⟨_, isNew, later entry member⟩, fun kept isKept => ?_⟩
        exact Window.cut_lt_last ordered isCut isKept
      · exact .inl ⟨entry, isKept, rfl⟩
    · have newer : epoch < other := above.trans (later entry member)
      refine .inr ⟨⟨_, isNew, newer⟩, fun kept isKept => ?_⟩
      rcases List.mem_append.mp (Window.mem_of_mem_last isKept) with earlier | isLast
      · exact younger kept earlier
      · rw [List.mem_singleton.mp isLast]
        exact newer
  case isFalse =>
    have sameEpochs : ∀ entry : ClusterHistoryEntry, (if entry.epoch = other then
        entry.withBlocks blocks else entry).epoch = entry.epoch := by
      intro entry
      split <;> rfl
    rcases listed with ⟨entry, member, isEpoch⟩ | ⟨⟨entry, member, above⟩, younger⟩
    · exact .inl ⟨_, List.mem_map_of_mem member, (sameEpochs entry).trans isEpoch⟩
    · refine .inr ⟨⟨_, List.mem_map_of_mem member, above.trans_eq (sameEpochs entry).symm⟩, ?_⟩
      intro kept isKept
      rcases KeyedRing.mem_amend.mp isKept with ⟨earlier, inEntries, rfl⟩
      exact (younger earlier inEntries).trans_eq (sameEpochs earlier).symm

/-- After a write there is an entry for the epoch, unless it is missing among later ones. -/
theorem listed_of_recordBlocks
    (present : (∃ entry ∈ entries, entry.epoch = epoch) ∨ ∀ entry ∈ entries, entry.epoch < epoch) :
    Listed epoch (recordBlocks epoch blocks entries) := by
  rw [recordBlocks]
  split
  case isTrue => exact .inl ⟨_, mem_last_append _, rfl⟩
  case isFalse notLater =>
    rcases present.resolve_right notLater with ⟨entry, member, same⟩
    refine .inl ⟨entry.withBlocks blocks, ?_, same⟩
    exact KeyedRing.mem_amend.mpr ⟨entry, member, if_pos same⟩

/-- The entries reach at least as far as before, and to the epoch. -/
theorem reaches_recordBlocks :
    (∃ entry ∈ recordBlocks epoch blocks entries, epoch ≤ entry.epoch) ∧
      ∀ entry ∈ entries, ∃ later ∈ recordBlocks epoch blocks entries,
        entry.epoch ≤ later.epoch := by
  rw [recordBlocks]
  split
  case isTrue later =>
    have isNew : .ofBlocks epoch blocks ∈
        Window.last maxItems (entries ++ [.ofBlocks epoch blocks]) := mem_last_append _
    exact ⟨⟨_, isNew, le_rfl⟩, fun entry member => ⟨_, isNew, (later entry member).le⟩⟩
  case isFalse notLater =>
    have kept : ∀ entry ∈ entries, ∃ later ∈ KeyedRing.amend ClusterHistoryEntry.epoch epoch
        (.withBlocks blocks) entries, entry.epoch = later.epoch := by
      intro entry member
      refine ⟨_, List.mem_map_of_mem member, ?_⟩
      split <;> rfl
    constructor
    · simp only [not_forall, Nat.not_lt] at notLater
      rcases notLater with ⟨entry, member, atLeast⟩
      rcases kept entry member with ⟨later, inKept, same⟩
      exact ⟨later, inKept, atLeast.trans_eq same⟩
    · intro entry member
      rcases kept entry member with ⟨later, inKept, same⟩
      exact ⟨later, inKept, same.le⟩

/-- The blocks of an epoch that lies before some entry, once they are final. -/
structure Final (epoch blocks : Nat) (entries : List ClusterHistoryEntry) : Prop where
  passed : ∃ entry ∈ entries, epoch < entry.epoch
  settled : ∀ entry ∈ entries, entry.epoch = epoch → entry.totalBlocks = blocks

theorem Final.recordBlocks {final : Nat} (isFinal : Final epoch final entries)
    (different : other ≠ epoch) : Final epoch final (recordBlocks other blocks entries) where
  passed := by
    rcases isFinal.passed with ⟨entry, member, above⟩
    rcases reaches_recordBlocks.2 entry member with ⟨later, inNext, atLeast⟩
    exact ⟨later, inNext, above.trans_le atLeast⟩
  settled := by
    intro entry member isEpoch
    rcases mem_recordBlocks member with ⟨isOther, _⟩ | ⟨_, earlier⟩
    · exact absurd (isOther.symm.trans isEpoch) different
    · exact isFinal.settled entry earlier isEpoch

theorem Final.map {final : Nat} (isFinal : Final epoch final entries)
    {change : ClusterHistoryEntry → ClusterHistoryEntry} (keeps : KeepsBlocks change) :
    Final epoch final (entries.map change) where
  passed := by
    rcases isFinal.passed with ⟨entry, member, above⟩
    exact ⟨_, List.mem_map_of_mem member, above.trans_eq (keeps.epoch entry).symm⟩
  settled := by
    intro entry member isEpoch
    rcases List.mem_map.mp member with ⟨earlier, inEntries, rfl⟩
    rw [keeps.totalBlocks]
    exact isFinal.settled earlier inEntries ((keeps.epoch earlier).symm.trans isEpoch)

theorem Listed.map (listed : Listed epoch entries)
    {change : ClusterHistoryEntry → ClusterHistoryEntry} (keeps : KeepsBlocks change) :
    Listed epoch (entries.map change) := by
  rcases listed with ⟨entry, member, isEpoch⟩ | ⟨⟨entry, member, above⟩, younger⟩
  · exact .inl ⟨_, List.mem_map_of_mem member, (keeps.epoch entry).trans isEpoch⟩
  · refine .inr ⟨⟨_, List.mem_map_of_mem member, above.trans_eq (keeps.epoch entry).symm⟩, ?_⟩
    intro kept isKept
    rcases List.mem_map.mp isKept with ⟨earlier, inEntries, rfl⟩
    exact (younger earlier inEntries).trans_eq (keeps.epoch earlier).symm

end Record

end Stakenet.History

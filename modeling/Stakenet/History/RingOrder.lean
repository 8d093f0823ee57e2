import Stakenet.Foundation.Execution
import Stakenet.Foundation.Window
import Stakenet.History.Setters

/-! The ring as a sorted list of entries, and what each operation does to it. -/

namespace Stakenet.History

/-! ## Sorted histories -/

/-- The youngest entries that fit into the ring. -/
def newest (stored : List ValidatorHistoryEntry) : List ValidatorHistoryEntry :=
  Window.last maxItems stored

/-- Sorted insertion by epoch. -/
def insertByEpoch (entry : ValidatorHistoryEntry) (stored : List ValidatorHistoryEntry) :
    List ValidatorHistoryEntry :=
  Window.insert ValidatorHistoryEntry.epoch entry stored

/-- The change of the entry of one epoch. -/
def amend (epoch : Nat) (change : ValidatorHistoryEntry → ValidatorHistoryEntry)
    (stored : List ValidatorHistoryEntry) : List ValidatorHistoryEntry :=
  stored.map fun entry => if entry.epoch = epoch then change entry else entry

/-- A write to one epoch: its entry is changed, or appended after all others. -/
def record (epoch : Nat) (change : ValidatorHistoryEntry → ValidatorHistoryEntry)
    (stored : List ValidatorHistoryEntry) : List ValidatorHistoryEntry :=
  if ∀ entry ∈ stored, entry.epoch < epoch then
    newest (stored ++ [change (.ofEpoch epoch)])
  else
    amend epoch change stored

/-- The epoch lies between those of the oldest and the newest entry. -/
def InRange (stored : List ValidatorHistoryEntry) (epoch : Nat) : Prop :=
  (∃ entry ∈ stored, entry.epoch ≤ epoch) ∧ ∃ entry ∈ stored, epoch ≤ entry.epoch

instance (stored : List ValidatorHistoryEntry) (epoch : Nat) :
    Decidable (InRange stored epoch) :=
  inferInstanceAs (Decidable (_ ∧ _))

/-- A blank entry for an epoch in range that has none. -/
def backfill (epoch : Nat) (stored : List ValidatorHistoryEntry) : List ValidatorHistoryEntry :=
  if InRange stored epoch ∧ ∀ entry ∈ stored, entry.epoch ≠ epoch then
    newest (insertByEpoch (.ofEpoch epoch) stored)
  else
    stored

theorem amend_of_absent {epoch : Nat} {stored : List ValidatorHistoryEntry}
    (absent : ∀ entry ∈ stored, entry.epoch ≠ epoch)
    (change : ValidatorHistoryEntry → ValidatorHistoryEntry) :
    amend epoch change stored = stored := by
  calc amend epoch change stored
      = stored.map id := List.map_congr_left fun entry member => if_neg (absent entry member)
    _ = stored := List.map_id stored

/-- Strictly increasing epochs, none of them the default. -/
structure Sorted (stored : List ValidatorHistoryEntry) : Prop where
  increasing : stored.Pairwise fun first second => first.epoch < second.epoch
  valid : ∀ entry ∈ stored, entry.epoch < epochDefault

namespace Sorted

variable {stored : List ValidatorHistoryEntry}

theorem newest (sorted : Sorted stored) : Sorted (newest stored) where
  increasing := sorted.increasing.sublist (List.drop_sublist _ _)
  valid := fun entry member => sorted.valid entry (List.mem_of_mem_drop member)

theorem append (sorted : Sorted stored) {item : ValidatorHistoryEntry}
    (later : ∀ entry ∈ stored, entry.epoch < item.epoch) (valid : item.epoch < epochDefault) :
    Sorted (stored ++ [item]) where
  increasing := by
    refine List.pairwise_append.mpr ⟨sorted.increasing, List.pairwise_singleton _ _, ?_⟩
    intro entry member other isItem
    rw [List.mem_singleton.mp isItem]
    exact later entry member
  valid := fun entry member => by
    rcases List.mem_append.mp member with earlier | isItem
    · exact sorted.valid entry earlier
    · rw [List.mem_singleton.mp isItem]
      exact valid

theorem insertByEpoch (sorted : Sorted stored) {item : ValidatorHistoryEntry}
    (fresh : ∀ entry ∈ stored, entry.epoch ≠ item.epoch) (valid : item.epoch < epochDefault) :
    Sorted (insertByEpoch item stored) where
  increasing := Window.pairwise_insert sorted.increasing fresh
  valid := fun entry member => by
    rcases Window.mem_insert.mp member with rfl | earlier
    · exact valid
    · exact sorted.valid entry earlier

/-- A change that keeps epochs keeps the order. -/
theorem map (sorted : Sorted stored) {change : ValidatorHistoryEntry → ValidatorHistoryEntry}
    (keepsEpoch : ∀ entry, (change entry).epoch = entry.epoch) : Sorted (stored.map change) where
  increasing := by
    rw [List.pairwise_map]
    simpa only [keepsEpoch] using sorted.increasing
  valid := fun entry member => by
    rcases List.mem_map.mp member with ⟨original, inStored, rfl⟩
    rw [keepsEpoch]
    exact sorted.valid original inStored

end Sorted

/-- A write that may be skipped does not fail. -/
theorem CircBuf.setEntry_skipped (history : CircBuf) (epoch : Nat)
    (change : ValidatorHistoryEntry → ValidatorHistoryEntry) :
    ∃ next, history.setEntry .skipped epoch change = .ok next := by
  unfold CircBuf.setEntry
  cases history.last with
  | none => exact ⟨_, rfl⟩
  | some entry =>
      dsimp only
      cases compare entry.epoch epoch with
      | eq | lt => exact ⟨_, rfl⟩
      | gt =>
          cases history.findEpoch epoch with
          | none | some => exact ⟨_, rfl⟩

/-! ## What a ring holds -/

/-- All slots from the oldest to the newest, the unfilled ones first. -/
def CircBuf.rows (history : CircBuf) : List ValidatorHistoryEntry :=
  Ring.slots maxItems history.idx history.arr

/-- The ring holds the given entries, from the oldest to the newest. While there
are unfilled slots the entries start at position zero. -/
structure CircBuf.Holds (history : CircBuf) (stored : List ValidatorHistoryEntry) : Prop where
  rows : ∃ blanks : List ValidatorHistoryEntry, history.rows = blanks ++ stored ∧
    ∀ entry ∈ blanks, entry.epoch = epochDefault
  sorted : Sorted stored
  aligned : stored.length < maxItems → (history.idx + 1) % maxItems = stored.length
  empty : history.isEmpty = stored.isEmpty

namespace CircBuf.Holds

variable {history : CircBuf} {stored : List ValidatorHistoryEntry}

/-- The unfilled slots, counted. -/
theorem blanks (holds : history.Holds stored) :
    ∃ blanks : List ValidatorHistoryEntry, history.rows = blanks ++ stored ∧
      (∀ entry ∈ blanks, entry.epoch = epochDefault) ∧
      blanks.length + stored.length = maxItems := by
  rcases holds.rows with ⟨blanks, split, blank⟩
  refine ⟨blanks, split, blank, ?_⟩
  rw [← List.length_append, ← split, CircBuf.rows, Ring.length_slots]

theorem length_le (holds : history.Holds stored) : stored.length ≤ maxItems := by
  rcases holds.blanks with ⟨blanks, _, _, length⟩
  omega

/-- The entry of a rank counted from the oldest one. -/
theorem arr_position (holds : history.Holds stored) {rank : Nat} (inside : rank < stored.length) :
    stored[rank]? = some (history.arr
      (Ring.position maxItems history.idx (maxItems - stored.length + rank))) := by
  rcases holds.blanks with ⟨blanks, split, _, length⟩
  have blankCount : maxItems - stored.length = blanks.length := by omega
  rw [← Ring.getElem?_slots (by omega), ← CircBuf.rows, split, blankCount,
    List.getElem?_append_right (by omega), Nat.add_sub_cancel_left]

/-- An unfilled slot comes before the oldest entry. -/
theorem blank_position (holds : history.Holds stored) {rank : Nat}
    (unfilled : rank < maxItems - stored.length) :
    (history.arr (Ring.position maxItems history.idx rank)).epoch = epochDefault := by
  rcases holds.blanks with ⟨blanks, split, blank, length⟩
  have slot : history.rows[rank]? = some (history.arr
      (Ring.position maxItems history.idx rank)) := Ring.getElem?_slots (by omega)
  rw [split, List.getElem?_append_left (by omega)] at slot
  exact blank _ (List.mem_of_getElem? slot)

/-- While there are unfilled slots, an entry stands at the position of its rank. -/
theorem position_of_room (holds : history.Holds stored) (room : stored.length < maxItems)
    {rank : Nat} (inside : rank < maxItems) :
    Ring.position maxItems history.idx (maxItems - stored.length + rank) = rank := by
  rw [Ring.position, ← Nat.mod_add_mod, holds.aligned room,
    show stored.length + (maxItems - stored.length + rank) = rank + maxItems by omega,
    Nat.add_mod_right, Nat.mod_eq_of_lt inside]

theorem arr_idx (holds : history.Holds stored) (nonempty : stored ≠ []) :
    stored.getLast? = some (history.arr history.idx) := by
  have positive := List.length_pos_iff.mpr nonempty
  have fits := holds.length_le
  rw [List.getLast?_eq_getElem?, holds.arr_position (by omega),
    show maxItems - stored.length + (stored.length - 1) = maxItems - 1 by omega,
    Ring.position_last history.inBounds]

theorem idx_of_room (holds : history.Holds stored) (room : stored.length < maxItems)
    (nonempty : stored ≠ []) : history.idx + 1 = stored.length := by
  have aligned := holds.aligned room
  have bounded := history.inBounds
  have positive := List.length_pos_iff.mpr nonempty
  by_cases last : history.idx + 1 = maxItems
  · rw [last, Nat.mod_self] at aligned
    omega
  · rwa [Nat.mod_eq_of_lt (by omega)] at aligned

/-- The slot after the newest entry is unfilled, or it holds the oldest entry. -/
theorem minEpoch_eq (holds : history.Holds stored) {oldest : ValidatorHistoryEntry}
    {rest : List ValidatorHistoryEntry} (starts : stored = oldest :: rest) :
    history.minEpoch = oldest.epoch := by
  have nonempty : 0 < stored.length := by simp [starts]
  have first : stored[0]? = some oldest := by simp [starts]
  have next : (history.idx + 1) % maxItems = Ring.position maxItems history.idx 0 := rfl
  by_cases full : stored.length < maxItems
  · rw [minEpoch, next, if_pos (holds.blank_position (by omega))]
    rw [holds.arr_position nonempty, holds.position_of_room full maxItems_pos,
      Option.some.injEq] at first
    rw [first]
  · have fits := holds.length_le
    have valid := holds.sorted.valid oldest (List.mem_of_getElem? first)
    rw [holds.arr_position nonempty, Option.some.injEq,
      show maxItems - stored.length + 0 = 0 by omega] at first
    rw [minEpoch, next, first, if_neg (by omega)]

/-- Only as many entries as fit are kept, so the oldest one goes when the ring is
full. -/
theorem newest_of_room {extended : List ValidatorHistoryEntry}
    (room : stored.length < maxItems) (length : extended.length = stored.length + 1) :
    History.newest extended = extended := by
  exact Window.last_of_length_le (by omega)

theorem newest_of_full (holds : history.Holds stored) (full : ¬stored.length < maxItems)
    {extended : List ValidatorHistoryEntry} (length : extended.length = stored.length + 1) :
    History.newest extended = extended.tail := by
  have fits := holds.length_le
  rw [History.newest, Window.last, show extended.length - maxItems = 1 by omega, List.drop_one]

/-- A ring whose rows lose the first one and otherwise are those of an extended
list holds the newest of that list. -/
theorem of_extended (holds : history.Holds stored) {next : CircBuf}
    {extended : List ValidatorHistoryEntry} (length : extended.length = stored.length + 1)
    (sorted : Sorted extended) (advanced : next.idx = (history.idx + 1) % maxItems)
    (filled : next.isEmpty = false)
    (rows : ∀ blanks, history.rows = blanks ++ stored → next.rows = (blanks ++ extended).tail) :
    next.Holds (History.newest extended) := by
  rcases holds.blanks with ⟨blanks, split, blank, count⟩
  have shifted := rows blanks split
  by_cases room : stored.length < maxItems
  · rw [newest_of_room room length]
    cases blanks with
    | nil =>
        simp only [List.length_nil] at count
        omega
    | cons oldest blanks =>
        refine ⟨⟨blanks, shifted, fun entry member => blank entry (List.mem_cons_of_mem _ member)⟩,
          sorted, fun stillRoom => ?_, ?_⟩
        · rw [advanced, holds.aligned room, length, Nat.mod_eq_of_lt (by omega)]
        · rw [filled, List.isEmpty_eq_false_iff.mpr (List.ne_nil_of_length_eq_add_one length)]
  · rw [holds.newest_of_full room length]
    have none : blanks = [] := List.length_eq_zero_iff.mp (by omega)
    rw [none, List.nil_append] at shifted
    have tailLength : extended.tail.length = stored.length := by
      rw [List.length_tail, length, Nat.add_sub_cancel]
    refine ⟨⟨[], by simpa using shifted, by simp⟩, ?_, fun stillRoom => ?_, ?_⟩
    · have kept := sorted.newest
      rwa [holds.newest_of_full room length] at kept
    · omega
    · have fits := maxItems_pos
      rw [filled, eq_comm, List.isEmpty_eq_false_iff]
      exact List.ne_nil_of_length_pos (by omega)

theorem push (holds : history.Holds stored) {item : ValidatorHistoryEntry}
    (later : ∀ entry ∈ stored, entry.epoch < item.epoch) (valid : item.epoch < epochDefault) :
    (history.push item).Holds (History.newest (stored ++ [item])) := by
  apply holds.of_extended (by simp) (holds.sorted.append later valid) rfl rfl
  intro blanks split
  have pushed : (history.push item).rows = history.rows.tail ++ [item] :=
    Ring.slots_push maxItems_pos item
  have nonempty : blanks ++ stored ≠ [] := by
    rw [← split]
    exact List.ne_nil_of_length_pos (by rw [CircBuf.rows, Ring.length_slots]; decide)
  rw [pushed, split, ← List.append_assoc, List.tail_append_of_ne_nil nonempty]

/-- The newest entry has the largest epoch. -/
theorem le_newest (holds : history.Holds stored) {entry : ValidatorHistoryEntry}
    (member : entry ∈ stored) : entry.epoch ≤ (history.arr history.idx).epoch := by
  have nonempty := List.ne_nil_of_mem member
  have last := holds.arr_idx nonempty
  rw [List.getLast?_eq_some_getLast nonempty, Option.some.injEq] at last
  have increasing := holds.sorted.increasing
  rw [← List.dropLast_append_getLast nonempty] at increasing member
  rw [last] at increasing member
  rcases List.mem_append.mp member with earlier | isLast
  · exact Nat.le_of_lt ((List.pairwise_append.mp increasing).2.2 entry earlier _
      (List.mem_singleton_self _))
  · rw [List.mem_singleton.mp isLast]

/-! ### Changes in place -/

/-- Only one slot has the epoch of an entry. -/
theorem epoch_inj (holds : history.Holds stored) {first second : Nat}
    (firstInside : first < maxItems) (secondInside : second < maxItems)
    (valid : (history.arr first).epoch < epochDefault)
    (same : (history.arr first).epoch = (history.arr second).epoch) : first = second := by
  -- Both positions have ranks, and the ranks are those of entries.
  have ranked : ∀ place < maxItems, (history.arr place).epoch < epochDefault →
      ∃ rank < stored.length, Ring.position maxItems history.idx
        (maxItems - stored.length + rank) = place := by
    intro place inside filled
    rcases Ring.exists_rank history.inBounds inside with ⟨rank, rankInside, here⟩
    have entry : ¬rank < maxItems - stored.length := fun unfilled => by
      have blank := holds.blank_position unfilled
      rw [here] at blank
      omega
    refine ⟨rank - (maxItems - stored.length), by omega, ?_⟩
    rw [← here]
    congr 1
    omega
  rcases ranked first firstInside valid with ⟨low, lowInside, atFirst⟩
  rcases ranked second secondInside (same ▸ valid) with ⟨high, highInside, atSecond⟩
  have lowEntry := holds.arr_position lowInside
  have highEntry := holds.arr_position highInside
  rw [atFirst] at lowEntry
  rw [atSecond] at highEntry
  rcases List.getElem?_eq_some_iff.mp lowEntry with ⟨_, lowValue⟩
  rcases List.getElem?_eq_some_iff.mp highEntry with ⟨_, highValue⟩
  have ordered := List.pairwise_iff_getElem.mp holds.sorted.increasing
  rcases Nat.lt_trichotomy low high with below | equal | above
  · have less := ordered low high lowInside highInside below
    rw [lowValue, highValue] at less
    omega
  · rw [← atFirst, ← atSecond, equal]
  · have less := ordered high low highInside lowInside above
    rw [lowValue, highValue] at less
    omega

/-- A change of all slots that keeps the epochs changes the entries. -/
theorem map (holds : history.Holds stored) {next : CircBuf}
    {change : ValidatorHistoryEntry → ValidatorHistoryEntry}
    (rows : next.rows = history.rows.map change) (sameIdx : next.idx = history.idx)
    (sameFlag : next.isEmpty = history.isEmpty)
    (keepsEpoch : ∀ entry, (change entry).epoch = entry.epoch) :
    next.Holds (stored.map change) := by
  rcases holds.rows with ⟨blanks, split, blank⟩
  refine ⟨⟨blanks.map change, ?_, fun entry member => ?_⟩, holds.sorted.map keepsEpoch, ?_, ?_⟩
  · rw [rows, split, List.map_append]
  · rcases List.mem_map.mp member with ⟨original, inBlanks, rfl⟩
    rw [keepsEpoch]
    exact blank original inBlanks
  · rw [List.length_map, sameIdx]
    exact holds.aligned
  · rw [List.isEmpty_map, sameFlag]
    exact holds.empty

/-- Changing the slot of an epoch changes the entry of that epoch. -/
theorem updateAt (holds : history.Holds stored)
    {change : ValidatorHistoryEntry → ValidatorHistoryEntry}
    (keepsEpoch : ∀ entry, (change entry).epoch = entry.epoch) {place : Nat}
    (inside : place < maxItems) (valid : (history.arr place).epoch < epochDefault) :
    (history.updateAt place change).Holds
      (amend (history.arr place).epoch change stored) := by
  have rowsUpdated : (history.updateAt place change).rows =
      amend (history.arr place).epoch change history.rows := by
    apply Ring.slots_eq_of_getElem?
    · simp [amend, CircBuf.rows]
    · intro rank rankInside
      have slot : history.rows[rank]? = some (history.arr
        (Ring.position maxItems history.idx rank)) := Ring.getElem?_slots rankInside
      rw [amend, List.getElem?_map, slot, Option.map_some, Option.some.injEq]
      by_cases here : Ring.position maxItems history.idx rank = place
      · rw [CircBuf.updateAt]
        simp [here]
      · have differs : (history.arr (Ring.position maxItems history.idx rank)).epoch ≠
            (history.arr place).epoch := fun same => here
          (holds.epoch_inj inside (Ring.position_lt maxItems_pos rank) valid same.symm).symm
        rw [if_neg differs, CircBuf.updateAt]
        exact (Function.update_of_ne here _ _).symm
  have keeps : ∀ entry : ValidatorHistoryEntry,
      (if entry.epoch = (history.arr place).epoch then change entry else entry).epoch =
        entry.epoch := by
    intro entry
    split
    · exact keepsEpoch entry
    · rfl
  exact holds.map rowsUpdated rfl rfl keeps

/-- Every entry stands in some slot. -/
theorem exists_slot (holds : history.Holds stored) {entry : ValidatorHistoryEntry}
    (member : entry ∈ stored) : ∃ place < maxItems, history.arr place = entry := by
  rcases List.getElem?_of_mem member with ⟨rank, found⟩
  have inside := (List.getElem?_eq_some_iff.mp found).1
  rw [holds.arr_position inside, Option.some.injEq] at found
  exact ⟨_, Ring.position_lt maxItems_pos _, found⟩

theorem setEntry (holds : history.Holds stored) {late : LateWrite} {epoch : Nat}
    {change : ValidatorHistoryEntry → ValidatorHistoryEntry}
    (keepsEpoch : ∀ entry, (change entry).epoch = entry.epoch) (valid : epoch < epochDefault)
    {next : CircBuf} (succeeded : history.setEntry late epoch change = .ok next) :
    next.Holds (record epoch change stored) := by
  have pushed : (∀ entry ∈ stored, entry.epoch < epoch) →
      (history.push (change (.ofEpoch epoch))).Holds (record epoch change stored) := by
    intro later
    have itemEpoch : (change (.ofEpoch epoch)).epoch = epoch := keepsEpoch _
    rw [record, if_pos later]
    apply holds.push
    · rwa [itemEpoch]
    · rwa [itemEpoch]
  have amended : ∀ {entry : ValidatorHistoryEntry}, entry ∈ stored → epoch ≤ entry.epoch →
      record epoch change stored = amend epoch change stored := by
    intro entry member reached
    exact if_neg fun later => Nat.not_lt.mpr reached (later entry member)
  unfold CircBuf.setEntry last at succeeded
  rw [holds.empty] at succeeded
  cases stored with
  | nil =>
      cases succeeded
      exact pushed (by simp)
  | cons oldest rest =>
      have nonempty : oldest :: rest ≠ [] := List.cons_ne_nil _ _
      have newestMember : history.arr history.idx ∈ oldest :: rest :=
        List.mem_of_getLast? (holds.arr_idx nonempty)
      simp only [List.isEmpty_cons, Bool.false_eq_true, if_false] at succeeded
      split at succeeded
      case h_1 same =>
        cases succeeded
        have isEqual := Nat.compare_eq_eq.mp same
        rw [amended newestMember (Nat.le_of_eq isEqual.symm), ← isEqual]
        apply holds.updateAt keepsEpoch history.inBounds
        rw [isEqual]
        exact valid
      case h_2 earlier =>
        have isEarlier := Nat.compare_eq_gt.mp earlier
        rw [amended newestMember (Nat.le_of_lt isEarlier)]
        split at succeeded
        case h_1 position found =>
          cases succeeded
          rw [findEpoch] at found
          have atEpoch := List.find?_some found
          have inside := List.mem_range.mp (List.mem_of_find?_eq_some found)
          simp only [decide_eq_true_eq] at atEpoch
          rw [← atEpoch]
          apply holds.updateAt keepsEpoch inside
          rw [atEpoch]
          exact valid
        case h_2 missing =>
          cases succeeded
          rw [amend_of_absent]
          · exact holds
          · intro entry member same
            rcases holds.exists_slot member with ⟨place, inside, here⟩
            rw [findEpoch, List.find?_eq_none] at missing
            have differs := missing place (List.mem_range.mpr inside)
            exact differs (by simp [here, same])
        case h_3 => simp at succeeded
      case h_3 later =>
        cases succeeded
        have isLater := Nat.compare_eq_lt.mp later
        exact pushed fun entry member => Nat.lt_of_le_of_lt (holds.le_newest member) isLater

/-! ### Insertion -/

/-- The epoch of a rank counted from the oldest entry. -/
theorem epoch_at (holds : history.Holds stored) {rank : Nat} (inside : rank < stored.length) :
    (history.arr (Ring.position maxItems history.idx
      (maxItems - stored.length + rank))).epoch = stored[rank].epoch := by
  have entry := holds.arr_position inside
  rw [List.getElem?_eq_getElem inside, Option.some.injEq] at entry
  rw [entry]

/-- Where a new epoch belongs: before it come the smaller epochs, from it on the
larger ones. -/
structure Gap (stored : List ValidatorHistoryEntry) (epoch rank : Nat) : Prop where
  bounded : rank ≤ stored.length
  below : ∀ entry ∈ stored.take rank, entry.epoch < epoch
  above : ∀ entry ∈ stored.drop rank, epoch < entry.epoch

theorem Gap.of_epochs {epoch rank : Nat} (bounded : rank ≤ stored.length)
    (below : ∀ index, (inside : index < stored.length) → index < rank →
      stored[index].epoch < epoch)
    (above : ∀ index, (inside : index < stored.length) → rank ≤ index →
      epoch < stored[index].epoch) : Gap stored epoch rank where
  bounded := bounded
  below := fun entry member => by
    rcases List.mem_iff_getElem.mp member with ⟨index, inTake, rfl⟩
    rw [List.length_take] at inTake
    rw [List.getElem_take]
    exact below index (by omega) (by omega)
  above := fun entry member => by
    rcases List.mem_iff_getElem.mp member with ⟨index, inDrop, rfl⟩
    rw [List.length_drop] at inDrop
    rw [List.getElem_drop]
    exact above (rank + index) (by omega) (by omega)

/-- Bisection over the entries, wherever they stand in the array. -/
theorem bisect_gap (holds : history.Holds stored) {epoch left : Nat} {place : Nat → Nat}
    (places : ∀ rank < stored.length, place rank =
      Ring.position maxItems history.idx (maxItems - stored.length + rank))
    (searched : Ring.bisect (fun mid => compare (history.arr (place mid)).epoch epoch) 0
      stored.length = some left) : Gap stored epoch left := by
  have epochAt : ∀ rank, (inside : rank < stored.length) →
      (history.arr (place rank)).epoch = stored[rank].epoch := by
    intro rank inside
    rw [places rank inside, holds.epoch_at inside]
  have ordered := List.pairwise_iff_getElem.mp holds.sorted.increasing
  have increasing : ∀ low high, low < high → high < stored.length →
      (history.arr (place low)).epoch < (history.arr (place high)).epoch := by
    intro low high below inside
    rw [epochAt low (by omega), epochAt high inside]
    exact ordered low high (by omega) inside below
  rcases Ring.bisect_eq_some increasing (Nat.zero_le _) (Nat.le_refl _)
    (fun index none => absurd none (Nat.not_lt_zero _)) (fun index atLeast inside => by omega)
    searched with ⟨bounded, below, above⟩
  refine Gap.of_epochs bounded (fun index inside under => ?_) (fun index inside beyond => ?_)
  · rw [← epochAt index inside]
    exact below index under
  · rw [← epochAt index inside]
    exact above index beyond inside

theorem bisect_none (holds : history.Holds stored) {epoch : Nat} {place : Nat → Nat}
    (places : ∀ rank < stored.length, place rank =
      Ring.position maxItems history.idx (maxItems - stored.length + rank))
    (searched : Ring.bisect (fun mid => compare (history.arr (place mid)).epoch epoch) 0
      stored.length = none) : ∃ entry ∈ stored, entry.epoch = epoch := by
  have present : ∃ rank < stored.length, (history.arr (place rank)).epoch = epoch :=
    Ring.bisect_eq_none (Nat.le_refl _) searched
  rcases present with ⟨rank, inside, found⟩
  rw [places rank inside, holds.epoch_at inside] at found
  exact ⟨stored[rank], List.getElem_mem inside, found⟩

/-- The search takes the branch without wraparound exactly while there is room. -/
theorem search_branch (holds : history.Holds stored) (nonempty : stored ≠ []) :
    (history.idx ≠ maxItems - 1 ∧ (history.arr (history.idx + 1)).epoch = epochDefault) ↔
      stored.length < maxItems := by
  have positive := List.length_pos_iff.mpr nonempty
  have bounded := history.inBounds
  constructor
  · intro unfilled
    apply Nat.lt_of_not_le
    intro full
    have next : Ring.position maxItems history.idx (maxItems - stored.length + 0) =
        history.idx + 1 := by
      rw [show maxItems - stored.length + 0 = 0 by omega]
      exact Nat.mod_eq_of_lt (by omega)
    have oldest := holds.epoch_at positive
    have valid := holds.sorted.valid stored[0] (List.getElem_mem positive)
    rw [next, unfilled.2] at oldest
    omega
  · intro room
    have place := holds.idx_of_room room nonempty
    have next : Ring.position maxItems history.idx 0 = history.idx + 1 :=
      Nat.mod_eq_of_lt (by omega)
    refine ⟨by omega, ?_⟩
    rw [← next]
    exact holds.blank_position (by omega)

/-- The search in the array is a search among the entries. -/
theorem findInsertPosition_eq (holds : history.Holds stored) (nonempty : stored ≠ [])
    (epoch : Nat) :
    ∃ place : Nat → Nat, (∀ rank < stored.length, place rank =
        Ring.position maxItems history.idx (maxItems - stored.length + rank)) ∧
      findInsertPosition history.arr maxItems history.idx epoch =
        (Ring.bisect (fun mid => compare (history.arr (place mid)).epoch epoch) 0
          stored.length).bind fun left =>
            let insertPos := Ring.position maxItems history.idx (maxItems - stored.length + left)
            if (history.arr insertPos).epoch = epoch then none else some insertPos := by
  have branch := holds.search_branch nonempty
  have fits := holds.length_le
  rw [findInsertPosition, if_neg (by decide)]
  by_cases room : stored.length < maxItems
  · have places : ∀ rank < stored.length, rank =
        Ring.position maxItems history.idx (maxItems - stored.length + rank) :=
      fun rank inside => (holds.position_of_room room (by omega)).symm
    refine ⟨fun mid => mid, places, ?_⟩
    rw [if_pos (branch.mpr room), holds.idx_of_room room nonempty]
    cases searched : Ring.bisect (fun mid => compare (history.arr mid).epoch epoch) 0
        stored.length with
    | none => rfl
    | some left =>
        have upper := (holds.bisect_gap places searched).bounded
        have inside : left < maxItems := by omega
        simp only [Option.map_some, Option.bind_some, holds.position_of_room room inside,
          Nat.mod_eq_of_lt inside]
  · have full : maxItems - stored.length = 0 := by omega
    have whole : stored.length = maxItems := by omega
    refine ⟨fun mid => ((history.idx + 1) + mid) % maxItems, fun rank inside => ?_, ?_⟩
    · rw [full, Nat.zero_add]
      rfl
    · rw [if_neg (fun unfilled => room (branch.mp unfilled)), full, whole]
      simp only [Nat.zero_add, Ring.position, Option.bind_map]
      rfl

theorem Gap.fresh {epoch rank : Nat} (gap : Gap stored epoch rank) {entry : ValidatorHistoryEntry}
    (member : entry ∈ stored) : entry.epoch ≠ epoch := by
  rw [← List.take_append_drop rank stored] at member
  rcases List.mem_append.mp member with earlier | later
  · exact Nat.ne_of_lt (gap.below entry earlier)
  · exact Nat.ne_of_gt (gap.above entry later)

theorem Gap.insertByEpoch_eq {rank : Nat} {item : ValidatorHistoryEntry}
    (gap : Gap stored item.epoch rank) :
    insertByEpoch item stored = stored.take rank ++ item :: stored.drop rank := by
  have larger : ∀ entry ∈ stored.drop rank, item.epoch ≤ entry.epoch :=
    fun entry member => Nat.le_of_lt (gap.above entry member)
  calc insertByEpoch item stored
      = insertByEpoch item (stored.take rank ++ stored.drop rank) := by
        rw [List.take_append_drop]
    _ = stored.take rank ++ insertByEpoch item ([] ++ stored.drop rank) := by
        rw [insertByEpoch, Window.insert_append_of_lt gap.below]
        rfl
    _ = stored.take rank ++ item :: stored.drop rank := by
        rw [insertByEpoch, Window.insert_append_of_le larger]
        rfl

/-- A new entry in a gap between the oldest and the newest. -/
theorem insert_at_gap (holds : history.Holds stored) {entry : ValidatorHistoryEntry} {rank : Nat}
    (gap : Gap stored entry.epoch rank) (notOldest : 0 < rank) (notNewest : rank < stored.length)
    (valid : entry.epoch < epochDefault) {next : CircBuf}
    (advanced : next.idx = (history.idx + 1) % maxItems) (filled : next.isEmpty = false)
    (written : next.arr = Function.update
      (Ring.shiftUp maxItems
        (Ring.position maxItems history.idx (maxItems - stored.length + rank))
        (stored.length - rank) history.arr)
      (Ring.position maxItems history.idx (maxItems - stored.length + rank)) entry) :
    next.Holds (History.newest (insertByEpoch entry stored)) := by
  have fits := holds.length_le
  have fresh : ∀ other ∈ stored, other.epoch ≠ entry.epoch := fun _ member => gap.fresh member
  have oneMore : (insertByEpoch entry stored).length = stored.length + 1 :=
    Window.length_insert stored
  apply holds.of_extended oneMore (holds.sorted.insertByEpoch fresh valid) advanced filled
  intro blanks split
  have length := congrArg List.length split
  rw [CircBuf.rows, Ring.length_slots, List.length_append] at length
  have blankCount : maxItems - stored.length = blanks.length := by omega
  have shifted : stored.length - rank = maxItems - (maxItems - stored.length + rank) := by omega
  have rowsInserted : next.rows =
      (history.rows.take (blanks.length + rank)).tail ++
        entry :: history.rows.drop (blanks.length + rank) := by
    rw [CircBuf.rows, advanced, written, shifted, blankCount]
    apply Ring.slots_insert (by omega) (by omega)
    exact Nat.mod_mod _ _
  have nonempty : blanks ++ stored.take rank ≠ [] := by
    apply List.ne_nil_of_length_pos
    rw [List.length_append, List.length_take]
    omega
  rw [rowsInserted, split, List.take_length_add_append, List.drop_length_add_append,
    gap.insertByEpoch_eq, ← List.append_assoc, List.tail_append_of_ne_nil nonempty]

/-- The range check of an insertion. -/
theorem inRange_iff (holds : history.Holds stored) (nonempty : stored ≠ []) (epoch : Nat) :
    ¬(epoch < history.minEpoch ∨ (history.arr history.idx).epoch < epoch) ↔
      InRange stored epoch := by
  have last := List.mem_of_getLast? (holds.arr_idx nonempty)
  rcases List.exists_cons_of_ne_nil nonempty with ⟨oldest, rest, starts⟩
  have isOldest : oldest ∈ stored := by simp [starts]
  have oldestLe : ∀ entry ∈ stored, oldest.epoch ≤ entry.epoch := by
    intro entry member
    have increasing := holds.sorted.increasing
    rw [starts] at member increasing
    rcases List.mem_cons.mp member with rfl | later
    · exact Nat.le_refl _
    · exact Nat.le_of_lt ((List.pairwise_cons.mp increasing).1 entry later)
  rw [holds.minEpoch_eq starts]
  constructor
  · intro inside
    exact ⟨⟨oldest, isOldest, by omega⟩, ⟨_, last, by omega⟩⟩
  · intro inRange
    rcases inRange with ⟨⟨low, lowMember, lower⟩, high, highMember, upper⟩
    have first := oldestLe low lowMember
    have final := holds.le_newest highMember
    omega

/-- A gap for an epoch in range lies inside the history. -/
theorem Gap.inside {epoch rank : Nat} (gap : Gap stored epoch rank)
    (inRange : InRange stored epoch) : 0 < rank ∧ rank < stored.length := by
  rcases inRange with ⟨⟨low, lowMember, lower⟩, high, highMember, upper⟩
  have bounded := gap.bounded
  refine ⟨Nat.pos_of_ne_zero fun first => ?_, Nat.lt_of_not_le fun final => ?_⟩
  · have above := gap.above low (by rw [first, List.drop_zero]; exact lowMember)
    omega
  · have below := gap.below high (by rw [List.take_of_length_le final]; exact highMember)
    omega

/-- An epoch in range without an entry is inserted. -/
theorem insert_missing (holds : history.Holds stored) {entry : ValidatorHistoryEntry}
    (valid : entry.epoch < epochDefault) (inRange : InRange stored entry.epoch)
    (fresh : ∀ other ∈ stored, other.epoch ≠ entry.epoch) :
    ∃ next, history.insert entry entry.epoch = .ok next ∧
      next.Holds (History.newest (insertByEpoch entry stored)) := by
  rcases inRange.1 with ⟨low, lowMember, _⟩
  have nonempty := List.ne_nil_of_mem lowMember
  have filled : history.isEmpty = false := by
    rw [holds.empty, List.isEmpty_eq_false_iff]
    exact nonempty
  rcases holds.findInsertPosition_eq nonempty entry.epoch with ⟨place, places, search⟩
  cases searched : Ring.bisect (fun mid => compare (history.arr (place mid)).epoch entry.epoch) 0
      stored.length with
  | none =>
      rcases holds.bisect_none places searched with ⟨other, member, same⟩
      exact absurd same (fresh other member)
  | some rank =>
      have gap := holds.bisect_gap places searched
      rcases gap.inside inRange with ⟨notOldest, notNewest⟩
      have fits := holds.length_le
      have different : (history.arr (Ring.position maxItems history.idx
          (maxItems - stored.length + rank))).epoch ≠ entry.epoch := by
        rw [holds.epoch_at notNewest]
        exact fresh _ (List.getElem_mem notNewest)
      rw [searched, Option.bind_some, if_neg different] at search
      have shiftLength := Ring.endIndex_sub_position history.inBounds
        (show 0 < maxItems - stored.length + rank by omega)
        (show maxItems - stored.length + rank < maxItems by omega)
      rw [show maxItems - (maxItems - stored.length + rank) = stored.length - rank by omega]
        at shiftLength
      unfold CircBuf.insert
      simp only [filled, Bool.false_eq_true, if_false]
      rw [if_neg ((holds.inRange_iff nonempty entry.epoch).mpr inRange), search]
      refine ⟨_, rfl, holds.insert_at_gap gap notOldest notNewest valid rfl rfl ?_⟩
      rw [shiftLength]

/-- An epoch out of range is refused, as is every epoch while the ring is empty. -/
theorem insert_outOfRange (holds : history.Holds stored) {epoch : Nat}
    (outside : ¬InRange stored epoch) (entry : ValidatorHistoryEntry) :
    history.insert entry epoch = fail .epochOutOfRange := by
  unfold CircBuf.insert
  by_cases nonempty : stored = []
  · have isEmpty : history.isEmpty = true := by rw [holds.empty, nonempty, List.isEmpty_nil]
    rw [if_pos isEmpty]
  · have filled : ¬history.isEmpty = true := by
      rw [holds.empty, List.isEmpty_iff]
      exact nonempty
    have beyond := mt (holds.inRange_iff nonempty epoch).mp outside
    rw [if_neg filled, if_pos (not_not.mp beyond)]

/-- An epoch that has an entry is refused. -/
theorem insert_duplicate (holds : history.Holds stored) {epoch : Nat}
    (duplicate : ∃ other ∈ stored, other.epoch = epoch) (entry : ValidatorHistoryEntry) :
    history.insert entry epoch = fail .duplicateEpoch := by
  rcases duplicate with ⟨other, member, same⟩
  have nonempty := List.ne_nil_of_mem member
  have filled : ¬history.isEmpty = true := by
    rw [holds.empty, List.isEmpty_iff]
    exact nonempty
  have inRange : InRange stored epoch := ⟨⟨other, member, same.le⟩, other, member, same.ge⟩
  rcases holds.findInsertPosition_eq nonempty epoch with ⟨place, places, search⟩
  unfold CircBuf.insert
  rw [if_neg filled, if_neg ((holds.inRange_iff nonempty epoch).mpr inRange), search]
  cases searched : Ring.bisect (fun mid => compare (history.arr (place mid)).epoch epoch) 0
      stored.length with
  | none => rfl
  | some rank => exact absurd same ((holds.bisect_gap places searched).fresh member)

/-- Any other epoch than a new one in range is refused. -/
theorem insert_refused (holds : history.Holds stored) {epoch : Nat}
    (refused : ¬(InRange stored epoch ∧ ∀ other ∈ stored, other.epoch ≠ epoch))
    (entry : ValidatorHistoryEntry) :
    ∃ failure, history.insert entry epoch = .error failure := by
  by_cases inRange : InRange stored epoch
  · have duplicate : ∃ other ∈ stored, other.epoch = epoch := by
      by_contra none
      push Not at none
      exact refused ⟨inRange, none⟩
    exact ⟨_, holds.insert_duplicate duplicate entry⟩
  · exact ⟨_, holds.insert_outOfRange inRange entry⟩

theorem insertBlank (holds : history.Holds stored) {epoch : Nat} (valid : epoch < epochDefault) :
    (history.insertBlank epoch).Holds (backfill epoch stored) := by
  by_cases missing : InRange stored epoch ∧ ∀ entry ∈ stored, entry.epoch ≠ epoch
  · rw [backfill, if_pos missing]
    have blankEpoch : (ValidatorHistoryEntry.ofEpoch epoch).epoch = epoch := rfl
    rcases holds.insert_missing (by rwa [blankEpoch]) missing.1 missing.2 with
      ⟨next, inserted, held⟩
    rw [CircBuf.insertBlank]
    rw [blankEpoch] at inserted
    rw [inserted]
    exact held
  · rw [backfill, if_neg missing]
    rcases holds.insert_refused missing (.ofEpoch epoch) with ⟨failure, refused⟩
    rw [CircBuf.insertBlank, refused]
    exact holds

end CircBuf.Holds

/-! ## Epoch ranges -/

/-- One pass finds the entry of each epoch, if the entries are sorted and none is
older than the first epoch. -/
theorem matchEpochs_eq {start count : Nat} {entries : List ValidatorHistoryEntry}
    (increasing : entries.Pairwise fun first second => first.epoch < second.epoch)
    (atLeast : ∀ entry ∈ entries, start ≤ entry.epoch) :
    CircBuf.matchEpochs (List.range' start count) entries =
      (List.range' start count).map fun epoch =>
        entries.find? fun entry => decide (entry.epoch = epoch) := by
  induction count generalizing start entries with
  | zero => rfl
  | succ count induction =>
      rw [List.range'_succ, List.map_cons]
      cases entries with
      | nil =>
          rw [CircBuf.matchEpochs, induction List.Pairwise.nil (by simp)]
          rfl
      | cons entry entries =>
          rcases List.pairwise_cons.mp increasing with ⟨below, rest⟩
          have first := atLeast entry List.mem_cons_self
          rw [CircBuf.matchEpochs]
          split
          case isTrue same =>
            rw [List.find?_cons_of_pos (by simpa using same), induction rest]
            · congr 1
              apply List.map_congr_left
              intro epoch inRange
              have later := (List.mem_range'_1.mp inRange).1
              exact (List.find?_cons_of_neg (by simp; omega)).symm
            · intro other member
              have larger := below other member
              omega
          case isFalse different =>
            rw [List.find?_cons_of_neg (by simpa using different), induction increasing]
            · congr 1
              rw [eq_comm, List.find?_eq_none]
              intro other member same
              have larger := below other member
              simp only [decide_eq_true_eq] at same
              omega
            · intro other member
              rcases List.mem_cons.mp member with rfl | later
              · omega
              · have larger := below other later
                omega

theorem CircBuf.Holds.epochRange {history : CircBuf} {stored : List ValidatorHistoryEntry}
    (holds : history.Holds stored) {startEpoch endEpoch : Nat} (valid : endEpoch < epochDefault) :
    history.epochRange startEpoch endEpoch =
      (CircBuf.epochs startEpoch endEpoch).map fun epoch =>
        stored.find? fun entry => decide (entry.epoch = epoch) := by
  have consecutive : history.rows = _ := Ring.slots_eq_append history.inBounds
  rcases holds.rows with ⟨blanks, split, blank⟩
  have noBlanks : blanks.filter (fun entry =>
      decide (startEpoch ≤ entry.epoch ∧ entry.epoch ≤ endEpoch)) = [] := by
    rw [List.filter_eq_nil_iff]
    intro entry member inRange
    have unset := blank entry member
    simp only [decide_eq_true_eq] at inRange
    omega
  rw [CircBuf.epochRange, ← consecutive, split, List.filter_append, noBlanks, List.nil_append,
    CircBuf.epochs, matchEpochs_eq (holds.sorted.increasing.sublist List.filter_sublist)]
  · apply List.map_congr_left
    intro epoch inRange
    have bounds := List.mem_range'_1.mp inRange
    have sought : ∀ entry : ValidatorHistoryEntry,
        (decide (startEpoch ≤ entry.epoch ∧ entry.epoch ≤ endEpoch) = true ∧
          decide (entry.epoch = epoch) = true) ↔ entry.epoch = epoch := by
      intro entry
      simp only [decide_eq_true_eq]
      exact ⟨And.right, fun same => ⟨by omega, same⟩⟩
    rw [List.find?_filter]
    simp only [sought]
  · intro entry member
    have inside := (List.mem_filter.mp member).2
    simp only [decide_eq_true_eq] at inside
    exact inside.1

/-! ## The new ring -/

namespace CircBuf

theorem rows_push (history : CircBuf) (item : ValidatorHistoryEntry) :
    (history.push item).rows = history.rows.tail ++ [item] :=
  Ring.slots_push maxItems_pos item

/-- Pushing blank entries one after the other replaces the oldest ones. -/
theorem rows_pushUnset (history : CircBuf) (count : Nat) (fits : count ≤ maxItems) :
    (history.pushUnset count).rows =
      history.rows.drop count ++ List.replicate count .unset := by
  induction count with
  | zero => simp [pushUnset]
  | succ count induction =>
      have nonempty : history.rows.drop count ≠ [] := by
        apply List.ne_nil_of_length_pos
        rw [List.length_drop, rows, Ring.length_slots]
        omega
      have pushed : history.pushUnset (count + 1) = (history.pushUnset count).push .unset := by
        simp [pushUnset, List.range_succ]
      rw [pushed, rows_push, induction (by omega), List.tail_append_of_ne_nil nonempty,
        List.tail_drop, List.append_assoc, ← List.replicate_succ']

theorem idx_pushUnset (history : CircBuf) (count : Nat) :
    (history.pushUnset count).idx = (history.idx + count) % maxItems := by
  induction count with
  | zero => exact (Nat.mod_eq_of_lt history.inBounds).symm
  | succ count induction =>
      have pushed : history.pushUnset (count + 1) = (history.pushUnset count).push .unset := by
        simp [pushUnset, List.range_succ]
      rw [pushed]
      calc (CircBuf.push _ .unset).idx
          = ((history.pushUnset count).idx + 1) % maxItems := rfl
        _ = ((history.idx + count) % maxItems + 1) % maxItems := by rw [induction]
        _ = (history.idx + (count + 1)) % maxItems := by rw [Nat.mod_add_mod, Nat.add_assoc]

theorem rows_flag (history : CircBuf) (flag : Bool) :
    ({ history with isEmpty := flag } : CircBuf).rows = history.rows := rfl

theorem holds_initial (arr : Nat → ValidatorHistoryEntry) : (initial arr).Holds [] := by
  have filled := rows_pushUnset (unused arr) maxItems (Nat.le_refl _)
  have advanced := idx_pushUnset (unused arr) maxItems
  have none : (unused arr).rows.drop maxItems = [] := by
    rw [List.drop_eq_nil_iff, rows, Ring.length_slots]
  rw [none, List.nil_append] at filled
  rw [Nat.add_mod_right, Nat.mod_eq_of_lt (unused arr).inBounds] at advanced
  refine ⟨⟨List.replicate maxItems .unset, ?_, fun entry member => ?_⟩,
    ⟨List.Pairwise.nil, by simp⟩, fun _ => ?_, rfl⟩
  · rw [List.append_nil, initial, rows_flag]
    exact filled
  · rw [List.eq_of_mem_replicate member]
    rfl
  · have newestSlot : (unused arr).idx = maxItems - 1 := rfl
    rw [initial, advanced, newestSlot]
    decide

end CircBuf

end Stakenet.History

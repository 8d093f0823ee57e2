import Stakenet.History.RingOrder

/-! The order of the ring over whole runs of the setters, and the lookup of epoch
ranges in it. -/

namespace Stakenet.History

/-! ## Credit lists -/

/-- The credits of an epoch, as they are stored. -/
def EpochCredits.earned (credits : EpochCredits) : Nat :=
  (credits.current - credits.previous) % 2 ^ 32

/-- What the conversion of the list demands of each element. -/
def EpochCredits.Usable (credits : EpochCredits) : Prop :=
  credits.epoch < epochDefault ∧ credits.previous ≤ credits.current

instance (credits : EpochCredits) : Decidable credits.Usable :=
  inferInstanceAs (Decidable (_ ∧ _))

theorem mapM_creditsEarned {epochCredits : List EpochCredits} {earned : List (Nat × Nat)} :
    epochCredits.mapM creditsEarned = .ok earned ↔
      (∀ credits ∈ epochCredits, credits.Usable) ∧
        earned = epochCredits.map fun credits => (credits.epoch, credits.earned) := by
  induction epochCredits generalizing earned with
  | nil => simp [pure, Except.pure, eq_comm]
  | cons credits rest induction =>
      simp only [List.mapM_cons, Outcome.bind_eq_ok, Outcome.pure_eq_ok, induction,
        List.forall_mem_cons, List.map_cons]
      by_cases usable : credits.Usable
      · have converted : creditsEarned credits = .ok (credits.epoch, credits.earned) :=
          if_pos usable
        simp [converted, usable, eq_comm]
      · have panicked : creditsEarned credits = .error .panicked := if_neg usable
        simp [panicked, usable]

theorem epochCreditsMap_eq_ok {epochCredits : List EpochCredits}
    {creditsMap : List (Nat × Nat)} :
    epochCreditsMap epochCredits = .ok creditsMap ↔
      (∀ credits ∈ epochCredits, credits.Usable) ∧
        creditsMap =
          (epochCredits.map fun credits => (credits.epoch, credits.earned)).reverse := by
  simp only [epochCreditsMap, Outcome.bind_eq_ok, Outcome.pure_eq_ok, mapM_creditsEarned]
  constructor
  · intro converted
    rcases converted with ⟨earned, ⟨usable, rfl⟩, rfl⟩
    exact ⟨usable, rfl⟩
  · intro converted
    exact ⟨_, ⟨converted.1, rfl⟩, converted.2.symm⟩

/-- A key of the map is the epoch of some credits. -/
theorem mem_of_lookup {epochCredits : List EpochCredits} {creditsMap : List (Nat × Nat)}
    (converted : epochCreditsMap epochCredits = .ok creditsMap) {epoch value : Nat}
    (found : creditsMap.lookup epoch = some value) :
    ∃ credits ∈ epochCredits, credits.epoch = epoch ∧ credits.earned = value := by
  rw [(epochCreditsMap_eq_ok.mp converted).2] at found
  rcases List.lookup_eq_some_iff.mp found with ⟨before, after, split, _⟩
  have member : (epoch, value) ∈
      (epochCredits.map fun credits => (credits.epoch, credits.earned)).reverse := by
    rw [split]
    simp
  rw [List.mem_reverse, List.mem_map] at member
  rcases member with ⟨credits, inList, same⟩
  rw [Prod.mk.injEq] at same
  exact ⟨credits, inList, same.1, same.2⟩

theorem lookup_of_mem {epochCredits : List EpochCredits} {creditsMap : List (Nat × Nat)}
    (converted : epochCreditsMap epochCredits = .ok creditsMap) {credits : EpochCredits}
    (member : credits ∈ epochCredits) : ∃ value, creditsMap.lookup credits.epoch = some value := by
  cases found : creditsMap.lookup credits.epoch with
  | some value => exact ⟨value, rfl⟩
  | none =>
      rw [List.lookup_eq_none_iff, (epochCreditsMap_eq_ok.mp converted).2] at found
      have pair := found (credits.epoch, credits.earned)
        (List.mem_reverse.mpr (List.mem_map.mpr ⟨credits, member, rfl⟩))
      simp at pair

theorem getMinEpoch_eq_ok {epochCredits : List EpochCredits} {epoch : Nat}
    (found : getMinEpoch epochCredits = .ok epoch) :
    epoch < epochDefault ∧ (∃ credits ∈ epochCredits, credits.epoch = epoch) ∧
      ∀ credits ∈ epochCredits, epoch ≤ credits.epoch := by
  simp only [getMinEpoch] at found
  split at found
  case h_1 => simp at found
  case h_2 least isLeast =>
    rw [castEpoch_eq_ok] at found
    rcases found with ⟨valid, rfl⟩
    rcases List.min?_eq_some_iff.mp isLeast with ⟨member, lowest⟩
    rcases List.mem_map.mp member with ⟨credits, inList, same⟩
    exact ⟨valid, ⟨credits, inList, same⟩,
      fun other inOther => lowest _ (List.mem_map_of_mem inOther)⟩

theorem getMaxEpoch_eq_ok {epochCredits : List EpochCredits} {epoch : Nat}
    (found : getMaxEpoch epochCredits = .ok epoch) :
    epoch < epochDefault ∧ ∀ credits ∈ epochCredits, credits.epoch ≤ epoch := by
  simp only [getMaxEpoch] at found
  split at found
  case h_1 => simp at found
  case h_2 greatest isGreatest =>
    rw [castEpoch_eq_ok] at found
    rcases found with ⟨valid, rfl⟩
    rcases List.max?_eq_some_iff.mp isGreatest with ⟨_, highest⟩
    exact ⟨valid, fun other inOther => highest _ (List.mem_map_of_mem inOther)⟩

/-! ## Writing credits -/

/-- The entry with the credits of its epoch. -/
def credit (creditsMap : List (Nat × Nat)) (entry : ValidatorHistoryEntry) :
    ValidatorHistoryEntry :=
  match creditsMap.lookup entry.epoch with
  | some credits => { entry with epochCredits := credits }
  | none => entry

@[simp] theorem credit_epoch (creditsMap : List (Nat × Nat)) (entry : ValidatorHistoryEntry) :
    (credit creditsMap entry).epoch = entry.epoch := by
  unfold credit
  split <;> rfl

/-- The walk from the newest entry down, which ends at the lowest epoch. -/
def creditNewest (creditsMap : List (Nat × Nat)) (minEpoch : Nat) :
    List ValidatorHistoryEntry → List ValidatorHistoryEntry
  | [] => []
  | entry :: older =>
      if entry.epoch = minEpoch then
        credit creditsMap entry :: older
      else
        credit creditsMap entry :: creditNewest creditsMap minEpoch older

/-- The walk ends early only where no older entry has credits. -/
theorem creditNewest_eq_map {creditsMap : List (Nat × Nat)} {minEpoch : Nat}
    {entries : List ValidatorHistoryEntry}
    (nothingOlder : entries.Pairwise fun newer older =>
      newer.epoch = minEpoch → creditsMap.lookup older.epoch = none) :
    creditNewest creditsMap minEpoch entries = entries.map (credit creditsMap) := by
  induction entries with
  | nil => rfl
  | cons entry older induction =>
      rcases List.pairwise_cons.mp nothingOlder with ⟨first, rest⟩
      rw [creditNewest, List.map_cons]
      split
      case isTrue reached =>
        congr 1
        have unchanged : older.map (credit creditsMap) = older.map id :=
          List.map_congr_left fun other member => by
            rw [credit, first other member reached]
            rfl
        rw [unchanged, List.map_id]
      case isFalse => rw [induction rest]

namespace CircBuf

theorem creditAt_eq (history : CircBuf) (creditsMap : List (Nat × Nat)) (position : Nat) :
    history.creditAt creditsMap position = history.updateAt position (credit creditsMap) := by
  cases found : creditsMap.lookup (history.arr position).epoch with
  | some credits => simp [creditAt, updateAt, credit, found]
  | none => simp [creditAt, updateAt, credit, found]

theorem rows_updateAt (history : CircBuf) {rank : Nat} (inside : rank < maxItems)
    (change : ValidatorHistoryEntry → ValidatorHistoryEntry) :
    (history.updateAt (Ring.position maxItems history.idx rank) change).rows =
      history.rows.set rank (change (history.arr (Ring.position maxItems history.idx rank))) :=
  Ring.slots_update inside _

/-- The loop is the walk over the slots. -/
theorem writeCredits_rows (creditsMap : List (Nat × Nat)) (minEpoch : Nat) {history : CircBuf}
    {older newer : List ValidatorHistoryEntry} (split : history.rows = older ++ newer) :
    let written := history.writeCredits creditsMap minEpoch
      (List.range' newer.length older.length)
    written.rows = (creditNewest creditsMap minEpoch older.reverse).reverse ++ newer ∧
      written.idx = history.idx ∧ written.isEmpty = history.isEmpty := by
  induction older using List.reverseRecOn generalizing history newer with
  | nil => exact ⟨split, rfl, rfl⟩
  | append_singleton older entry induction =>
      have rowCount : history.rows.length = maxItems := Ring.length_slots
      rw [split, List.length_append, List.length_append, List.length_singleton] at rowCount
      have place : (history.idx + maxItems - newer.length) % maxItems =
          Ring.position maxItems history.idx older.length := by
        rw [Ring.position, show history.idx + maxItems - newer.length =
          history.idx + 1 + older.length by omega]
      have here : history.arr (Ring.position maxItems history.idx older.length) = entry := by
        have slot : history.rows[older.length]? = _ := Ring.getElem?_slots (by omega)
        rw [split, List.append_assoc, List.getElem?_append_right (Nat.le_refl _),
          Nat.sub_self] at slot
        simpa [eq_comm] using slot
      have written : (history.updateAt (Ring.position maxItems history.idx older.length)
          (credit creditsMap)).rows = older ++ (credit creditsMap entry :: newer) := by
        rw [rows_updateAt history (by omega), here, split, List.append_assoc,
          List.set_append_right _ _ (Nat.le_refl _), Nat.sub_self]
        rfl
      have sameEpoch : ((history.updateAt (Ring.position maxItems history.idx older.length)
          (credit creditsMap)).arr (Ring.position maxItems history.idx older.length)).epoch =
            entry.epoch := by
        simp [updateAt, here]
      rw [List.length_append, List.length_singleton, List.range'_succ, List.reverse_append,
        List.reverse_singleton, List.singleton_append]
      simp only [writeCredits, place, creditAt_eq, sameEpoch, creditNewest]
      split
      case isTrue reached =>
        rw [List.reverse_cons, List.reverse_reverse, List.append_assoc]
        exact ⟨written, rfl, rfl⟩
      case isFalse =>
        have rest := induction written
        rw [List.reverse_cons, List.append_assoc]
        exact rest

/-- Every entry gets the credits of its epoch. -/
theorem Holds.writeCredits {history : CircBuf} {stored : List ValidatorHistoryEntry}
    (holds : history.Holds stored) {creditsMap : List (Nat × Nat)} {minEpoch : Nat}
    (keys : ∀ epoch value, creditsMap.lookup epoch = some value →
      minEpoch ≤ epoch ∧ epoch < epochDefault) :
    (history.writeCredits creditsMap minEpoch (List.range maxItems)).Holds
      (stored.map (credit creditsMap)) := by
  have noCredits : ∀ epoch, epoch < minEpoch ∨ epoch = epochDefault →
      creditsMap.lookup epoch = none := by
    intro epoch excluded
    cases found : creditsMap.lookup epoch with
    | none => rfl
    | some value =>
        have key := keys epoch value found
        omega
  have nothingOlder : history.rows.Pairwise fun older newer =>
      newer.epoch = minEpoch → creditsMap.lookup older.epoch = none := by
    rcases holds.rows with ⟨blanks, split, blank⟩
    rw [split, List.pairwise_append]
    refine ⟨?_, ?_, fun older inBlanks _ _ _ => noCredits _ (.inr (blank older inBlanks))⟩
    · apply List.pairwise_of_forall_mem_list
      intro older inBlanks _ _ _
      exact noCredits _ (.inr (blank older inBlanks))
    · apply holds.sorted.increasing.imp
      intro older newer below reached
      exact noCredits _ (.inl (by omega))
  have rows : history.rows = history.rows ++ [] := (List.append_nil _).symm
  have walk := writeCredits_rows creditsMap minEpoch rows
  have rowCount : history.rows.length = maxItems := Ring.length_slots
  rw [rowCount, List.length_nil, ← List.range_eq_range'] at walk
  rw [creditNewest_eq_map (List.pairwise_reverse.mpr nothingOlder), List.map_reverse,
    List.reverse_reverse, List.append_nil] at walk
  exact holds.map walk.1 walk.2.1 walk.2.2 (credit_epoch creditsMap)

end CircBuf

/-! ## The setters -/

namespace ValidatorHistory

variable {account next : ValidatorHistory} {stored : List ValidatorHistoryEntry}

theorem setEntry_holds (holds : account.history.Holds stored) {late : LateWrite} {epoch : Nat}
    {change : ValidatorHistoryEntry → ValidatorHistoryEntry}
    (keepsEpoch : ∀ entry, (change entry).epoch = entry.epoch) (valid : epoch < epochDefault)
    (succeeded : account.setEntry late epoch change = .ok next) :
    next.history.Holds (record epoch change stored) := by
  simp only [setEntry, Outcome.bind_eq_ok, Outcome.pure_eq_ok] at succeeded
  rcases succeeded with ⟨history, written, rfl⟩
  exact holds.setEntry keepsEpoch valid written

theorem setEpochCredits_holds (holds : account.history.Holds stored)
    {epochCredits : List EpochCredits}
    (succeeded : account.setEpochCredits epochCredits = .ok next) :
    ∃ creditsMap, epochCreditsMap epochCredits = .ok creditsMap ∧
      next.history.Holds (stored.map (credit creditsMap)) := by
  simp only [setEpochCredits] at succeeded
  split at succeeded
  case isTrue isEmpty =>
    cases succeeded
    have unchanged : stored.map (credit []) = stored := List.map_id stored
    rw [List.isEmpty_iff.mp isEmpty]
    exact ⟨[], rfl, by rwa [unchanged]⟩
  case isFalse =>
    simp only [Outcome.bind_eq_ok, Outcome.pure_eq_ok] at succeeded
    rcases succeeded with ⟨creditsMap, converted, minEpoch, least, rfl⟩
    have lowest := (getMinEpoch_eq_ok least).2.2
    have keys : ∀ epoch value, creditsMap.lookup epoch = some value →
        minEpoch ≤ epoch ∧ epoch < epochDefault := by
      intro epoch value found
      rcases mem_of_lookup converted found with ⟨credits, member, rfl, _⟩
      exact ⟨lowest credits member, ((epochCreditsMap_eq_ok.mp converted).1 credits member).1⟩
    have written := holds.writeCredits keys
    generalize List.range maxItems = offsets at written ⊢
    exact ⟨creditsMap, converted, written⟩

/-- The epochs that get a blank entry: they have credits and no entry. -/
def missingEpochs (stored : List ValidatorHistoryEntry) (creditsMap : List (Nat × Nat))
    (startEpoch endEpoch : Nat) : List Nat :=
  (CircBuf.epochs startEpoch endEpoch).filter fun epoch =>
    !(stored.find? fun entry => decide (entry.epoch = epoch)).isSome &&
      (creditsMap.lookup epoch).isSome

/-- The loop over all epochs, seen from the entries. -/
theorem foldl_insertBlank {history : CircBuf} (holds : history.Holds stored)
    {epochs : List Nat} (valid : ∀ epoch ∈ epochs, epoch < epochDefault) (chosen : Nat → Bool) :
    (epochs.foldl (fun history epoch => if chosen epoch then history.insertBlank epoch else history)
      history).Holds
      ((epochs.filter chosen).foldl (fun stored epoch => backfill epoch stored) stored) := by
  induction epochs generalizing history stored with
  | nil => exact holds
  | cons epoch epochs induction =>
      rw [List.foldl_cons]
      have rest : ∀ later ∈ epochs, later < epochDefault :=
        fun later member => valid later (List.mem_cons_of_mem _ member)
      by_cases taken : chosen epoch = true
      · rw [if_pos taken, List.filter_cons_of_pos taken, List.foldl_cons]
        exact induction (holds.insertBlank (valid epoch List.mem_cons_self)) rest
      · rw [if_neg taken, List.filter_cons_of_neg taken]
        exact induction holds rest

theorem insertMissingEntries_holds (holds : account.history.Holds stored)
    {epochCredits : List EpochCredits}
    (succeeded : account.insertMissingEntries epochCredits = .ok next) :
    ∃ startEpoch endEpoch creditsMap, getMinEpoch epochCredits = .ok startEpoch ∧
      getMaxEpoch epochCredits = .ok endEpoch ∧
      epochCreditsMap epochCredits = .ok creditsMap ∧
      next.history.Holds ((missingEpochs stored creditsMap startEpoch endEpoch).foldl
        (fun stored epoch => backfill epoch stored) stored) := by
  simp only [insertMissingEntries, Outcome.bind_eq_ok, Outcome.pure_eq_ok] at succeeded
  rcases succeeded with ⟨startEpoch, least, endEpoch, greatest, creditsMap, converted, rfl⟩
  refine ⟨startEpoch, endEpoch, creditsMap, least, greatest, converted, ?_⟩
  have valid := (getMaxEpoch_eq_ok greatest).1
  have inEpochs : ∀ epoch ∈ CircBuf.epochs startEpoch endEpoch, epoch < epochDefault := by
    intro epoch member
    have bounds := List.mem_range'_1.mp member
    omega
  rw [holds.epochRange valid, List.map_map, ← List.map_prod_right_eq_zip, List.foldl_map]
  exact foldl_insertBlank holds inEpochs _

end ValidatorHistory

/-! ## Runs -/

namespace Setter

variable {account next : ValidatorHistory} {stored : List ValidatorHistoryEntry}

/-- Every setter writes one entry, or it copies a list of credits. -/
theorem call_eq_ok {setter : Setter} (succeeded : setter.call account = .ok next) :
    (∃ dated late epoch change, dated.history = account.history ∧ epoch ∈ setter.epochs ∧
      (∀ entry : ValidatorHistoryEntry, (change entry).epoch = entry.epoch) ∧
      ValidatorHistory.setEntry dated late epoch change = .ok next) ∨
    (∃ epochCredits, account.insertMissingEntries epochCredits = .ok next) ∨
    ∃ epochCredits, account.setEpochCredits epochCredits = .ok next := by
  cases setter with
  | insertMissingEntries epochCredits => exact .inr (.inl ⟨epochCredits, succeeded⟩)
  | setEpochCredits epochCredits => exact .inr (.inr ⟨epochCredits, succeeded⟩)
  | setContactInfo epoch contactInfo contactInfoTs
  | setLegacyContactInfo epoch contactInfo contactInfoTs =>
      simp only [call, ValidatorHistory.setContactInfo, ValidatorHistory.setLegacyContactInfo,
        Outcome.bind_eq_ok] at succeeded
      rcases succeeded with ⟨ip, _, succeeded⟩
      split at succeeded
      case isTrue => simp at succeeded
      case isFalse =>
        refine .inl ⟨_, _, epoch, _, ?_, List.mem_singleton_self _, ?_, succeeded⟩
        · rfl
        · exact fun _ => rfl
  | setVersion epoch version versionTs
  | setLegacyVersion epoch version versionTs =>
      simp only [call, ValidatorHistory.setVersion, ValidatorHistory.setLegacyVersion,
        ValidatorHistory.setClientVersion] at succeeded
      split at succeeded
      case isTrue => simp at succeeded
      case isFalse =>
        refine .inl ⟨_, _, epoch, _, ?_, List.mem_singleton_self _, ?_, succeeded⟩
        · rfl
        · exact fun _ => rfl
  | setMevCommission epoch | setPriorityFeesTransferredAndCommission epoch | setStake epoch
  | setTotalPriorityFeesAndBlockMetadata epoch | setCommissionAndSlot epoch
  | setIsBamConnected epoch =>
      refine .inl ⟨account, _, epoch, _, rfl, List.mem_singleton_self _, ?_, succeeded⟩
      exact fun _ => rfl

theorem execute_holds (holds : ∃ stored, account.history.Holds stored) {setter : Setter}
    (valid : ∀ epoch ∈ setter.epochs, epoch < epochDefault) :
    ∃ later, (setter.execute account).history.Holds later := by
  rcases holds with ⟨stored, holds⟩
  cases outcome : setter.call account with
  | error failure =>
      refine ⟨stored, ?_⟩
      rw [execute, outcome]
      exact holds
  | ok next =>
      rw [execute, outcome]
      rcases call_eq_ok outcome with
        ⟨dated, late, epoch, change, sameHistory, named, keepsEpoch, written⟩ |
          ⟨epochCredits, inserted⟩ | ⟨epochCredits, credited⟩
      · rw [← sameHistory] at holds
        exact ⟨_, ValidatorHistory.setEntry_holds holds keepsEpoch (valid epoch named) written⟩
      · rcases ValidatorHistory.insertMissingEntries_holds holds inserted with
          ⟨startEpoch, endEpoch, creditsMap, _, _, _, holds⟩
        exact ⟨_, holds⟩
      · rcases ValidatorHistory.setEpochCredits_holds holds credited with ⟨creditsMap, _, holds⟩
        exact ⟨_, holds⟩

end Setter

namespace CircBuf

/-- The filled slots, from the oldest to the newest. -/
def entries (history : CircBuf) : List ValidatorHistoryEntry :=
  history.rows.filter fun entry => decide (entry.epoch ≠ epochDefault)

def entryOf (history : CircBuf) (epoch : Nat) : Option ValidatorHistoryEntry :=
  history.entries.find? fun entry => decide (entry.epoch = epoch)

/-- Strictly increasing epochs from the oldest to the newest entry, and unfilled
slots only from the one after `idx` to the end of the array. -/
structure Ordered (history : CircBuf) : Prop where
  increasing : history.entries.Pairwise fun older newer => older.epoch < newer.epoch
  newest : history.isEmpty = false → (history.arr history.idx).epoch ≠ epochDefault
  unfilled : ∀ position < maxItems, (history.arr position).epoch = epochDefault →
    (history.idx + 1) % maxItems ≤ position ∧
      ∀ other, (history.idx + 1) % maxItems ≤ other → other < maxItems →
        (history.arr other).epoch = epochDefault

namespace Holds

variable {history : CircBuf} {stored : List ValidatorHistoryEntry}

theorem entries_eq (holds : history.Holds stored) : history.entries = stored := by
  rcases holds.rows with ⟨blanks, split, blank⟩
  have none : blanks.filter (fun entry => decide (entry.epoch ≠ epochDefault)) = [] := by
    rw [List.filter_eq_nil_iff]
    intro entry member
    simp [blank entry member]
  have all : stored.filter (fun entry => decide (entry.epoch ≠ epochDefault)) = stored := by
    rw [List.filter_eq_self]
    intro entry member
    have valid := holds.sorted.valid entry member
    simp only [decide_eq_true_eq]
    omega
  rw [entries, split, List.filter_append, none, all, List.nil_append]

/-- Slots are filled from the first one on, until all of them are. -/
theorem unfilled_iff (holds : history.Holds stored) {position : Nat}
    (inside : position < maxItems) :
    (history.arr position).epoch = epochDefault ↔ stored.length ≤ position := by
  have fits := holds.length_le
  rcases Ring.exists_rank history.inBounds inside with ⟨rank, rankInside, rfl⟩
  by_cases unfilled : rank < maxItems - stored.length
  · have place : Ring.position maxItems history.idx rank = stored.length + rank := by
      rw [Ring.position, ← Nat.mod_add_mod, holds.aligned (by omega), Nat.mod_eq_of_lt (by omega)]
    have blank := holds.blank_position unfilled
    rw [place] at blank ⊢
    exact ⟨fun _ => Nat.le_add_right _ _, fun _ => blank⟩
  · have isEntry : rank - (maxItems - stored.length) < stored.length := by omega
    have here := holds.arr_position isEntry
    rw [show maxItems - stored.length + (rank - (maxItems - stored.length)) = rank by omega]
      at here
    have valid := holds.sorted.valid _ (List.mem_of_getElem? here)
    constructor
    · intro blank
      omega
    · intro behind
      have room : stored.length < maxItems := by omega
      have place := holds.position_of_room room (show rank - (maxItems - stored.length) < maxItems
        by omega)
      rw [show maxItems - stored.length + (rank - (maxItems - stored.length)) = rank by omega]
        at place
      omega

theorem ordered (holds : history.Holds stored) : history.Ordered where
  increasing := by
    rw [holds.entries_eq]
    exact holds.sorted.increasing
  newest := by
    intro filled
    rw [holds.empty, List.isEmpty_eq_false_iff] at filled
    have valid := holds.sorted.valid _ (List.mem_of_getLast? (holds.arr_idx filled))
    omega
  unfilled := by
    intro position inside blank
    have behind := (holds.unfilled_iff inside).mp blank
    rw [holds.aligned (by omega)]
    exact ⟨behind, fun other after otherInside => (holds.unfilled_iff otherInside).mpr after⟩

theorem epochRange_eq_entryOf (holds : history.Holds stored) {startEpoch endEpoch : Nat}
    (valid : endEpoch < epochDefault) :
    history.epochRange startEpoch endEpoch =
      (CircBuf.epochs startEpoch endEpoch).map history.entryOf := by
  rw [holds.epochRange valid]
  apply List.map_congr_left
  intro epoch _
  rw [entryOf, holds.entries_eq]

end Holds

end CircBuf

theorem Setter.run_holds {account : ValidatorHistory} {setters : List Setter}
    (holds : ∃ stored, account.history.Holds stored)
    (valid : ∀ setter ∈ setters, ∀ epoch ∈ setter.epochs, epoch < epochDefault) :
    ∃ stored, (Execution.run Setter.execute account setters).history.Holds stored := by
  induction setters generalizing account with
  | nil => exact holds
  | cons setter setters induction =>
      rw [List.forall_mem_cons] at valid
      exact induction (Setter.execute_holds holds valid.1) valid.2

/-- Whatever setters are called, in any order and with any epochs, the ring stays
in order and a range of epochs is looked up in it correctly. -/
theorem Setter.run_ordered (account : ValidatorHistory) (arr : Nat → ValidatorHistoryEntry)
    (fresh : account.history = CircBuf.initial arr) (setters : List Setter)
    (valid : ∀ setter ∈ setters, ∀ epoch ∈ setter.epochs, epoch < epochDefault) :
    let history := (Execution.run Setter.execute account setters).history
    history.Ordered ∧
      ∀ startEpoch endEpoch, startEpoch ≤ endEpoch → endEpoch < epochDefault →
        history.epochRange startEpoch endEpoch =
          (CircBuf.epochs startEpoch endEpoch).map history.entryOf := by
  have start : ∃ stored, account.history.Holds stored := by
    rw [fresh]
    exact ⟨[], CircBuf.holds_initial arr⟩
  rcases Setter.run_holds start valid with ⟨stored, holds⟩
  exact ⟨holds.ordered, fun _ _ _ inRange => holds.epochRange_eq_entryOf inRange⟩

/-- A new account. -/
def ValidatorHistory.blank : ValidatorHistory where
  lastIpTimestamp := 0
  lastVersionTimestamp := 0
  validatorAge := 0
  validatorAgeLastUpdatedEpoch := 0
  history := CircBuf.initial fun _ => .unset

/-- A stake recorded late, after a gap of epochs that the credits fill. -/
def lateSetters : List Setter :=
  [.setCommissionAndSlot 10 5 4000, .setStake 14 700 3 false, .setMevCommission 10 8 60 .tipRouter,
    .setStake 12 650 4 false, .insertMissingEntries [⟨11, 900, 600⟩, ⟨13, 1500, 900⟩],
    .setEpochCredits [⟨11, 900, 600⟩, ⟨13, 1500, 900⟩]]

theorem Setter.run_ordered_lateSetters :
    let history := (Execution.run Setter.execute ValidatorHistory.blank lateSetters).history
    history.Ordered ∧
      ∀ startEpoch endEpoch, startEpoch ≤ endEpoch → endEpoch < epochDefault →
        history.epochRange startEpoch endEpoch =
          (CircBuf.epochs startEpoch endEpoch).map history.entryOf :=
  Setter.run_ordered ValidatorHistory.blank (fun _ => .unset) rfl lateSetters (by decide)

end Stakenet.History

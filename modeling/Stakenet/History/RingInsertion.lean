import Stakenet.History.RingOrder

/-! Sorted insertion into the ring: what it refuses, what it leaves, and that its searches
stay within the array. -/

namespace Stakenet.History

/-! ## The search with checked accesses -/

/-- `arr[position]` of a slice. -/
def readEntry (arr : Nat → ValidatorHistoryEntry) (len position : Nat) :
    Result ValidatorHistoryEntry :=
  if position < len then .ok (arr position) else .error .panicked

theorem readEntry_of_lt (arr : Nat → ValidatorHistoryEntry) {len position : Nat}
    (inside : position < len) : readEntry arr len position = .ok (arr position) :=
  if_pos inside

namespace CircBuf

section Checked

variable (arr : Nat → ValidatorHistoryEntry) (len idx epoch : Nat)

/-- Whether the ring still has default values in it. -/
def hasDefaultsChecked : Result Bool :=
  if idx ≠ len - 1 then do
    return decide ((← readEntry arr len (idx + 1)).epoch = epochDefault)
  else
    return false

/-- The loop over the positions that `place` names. -/
def searchChecked (place : Nat → Nat) (count : Nat) : Result (Option Nat) :=
  Ring.bisectChecked
    (fun mid => do return compare (← readEntry arr len (place mid)).epoch epoch) 0 count

/-- Both binary searches, with the position in the array. -/
def insertPosChecked : Result (Option Nat) := do
  if ← hasDefaultsChecked arr len idx then
    return (← searchChecked arr len epoch (fun mid => mid) (idx + 1)).map fun left => left % len
  else
    return (← searchChecked arr len epoch (fun mid => ((idx + 1) + mid) % len) len).map
      fun left => ((idx + 1) + left) % len

/-- `findInsertPosition` with the bounds check of every access. -/
def findInsertPositionChecked : Result (Option Nat) :=
  if len = 0 then
    .ok none
  else do
    match ← insertPosChecked arr len idx epoch with
    | none => return none
    | some insertPos =>
        if (← readEntry arr len insertPos).epoch = epoch then return none
        else return some insertPos

variable {len idx}

/-- A position taken modulo the length is inside. -/
theorem mod_of_map_some (positive : 0 < len) {found : Option Nat} {place : Nat → Nat}
    {position : Nat} (located : (found.map fun left => place left % len) = some position) :
    position < len := by
  rcases Option.map_eq_some_iff.mp located with ⟨left, _, rfl⟩
  exact Nat.mod_lt _ positive

theorem hasDefaultsChecked_eq (bounded : idx < len) :
    hasDefaultsChecked arr len idx =
      .ok (decide (idx ≠ len - 1 ∧ (arr (idx + 1)).epoch = epochDefault)) := by
  by_cases last : idx = len - 1
  · simp [hasDefaultsChecked, last, pure, Except.pure]
  · rw [hasDefaultsChecked, if_pos last, readEntry_of_lt arr (by omega)]
    simp [last, pure, Except.pure]

theorem searchChecked_eq {place : Nat → Nat} {count : Nat}
    (within : ∀ mid < count, place mid < len) :
    searchChecked arr len epoch place count =
      .ok (Ring.bisect (fun mid => compare (arr (place mid)).epoch epoch) 0 count) := by
  apply Ring.bisectChecked_eq
  intro mid _ inside
  rw [readEntry_of_lt arr (within mid inside)]
  rfl

/-- No access is out of bounds, whatever the array holds. -/
theorem findInsertPositionChecked_eq (bounded : idx < len) :
    findInsertPositionChecked arr len idx epoch =
      .ok (findInsertPosition arr len idx epoch) := by
  have positive : 0 < len := Nat.zero_lt_of_lt bounded
  have places : ∃ insertPos : Option Nat,
      insertPosChecked arr len idx epoch = .ok insertPos ∧
      (∀ position, insertPos = some position → position < len) ∧
      findInsertPosition arr len idx epoch = insertPos.bind fun insertPos =>
        if (arr insertPos).epoch = epoch then none else some insertPos := by
    rw [findInsertPosition, if_neg positive.ne', insertPosChecked,
      hasDefaultsChecked_eq arr bounded, Outcome.ok_bind]
    by_cases unfilled : idx ≠ len - 1 ∧ (arr (idx + 1)).epoch = epochDefault
    · have straight : ∀ mid < idx + 1, mid < len := fun mid inside => by omega
      rw [if_pos unfilled, if_pos (decide_eq_true unfilled), searchChecked_eq arr epoch straight,
        Outcome.ok_bind]
      exact ⟨_, rfl, fun position => mod_of_map_some positive, rfl⟩
    · have wrapped : ∀ mid < len, ((idx + 1) + mid) % len < len :=
        fun mid _ => Nat.mod_lt _ positive
      rw [if_neg unfilled, if_neg (by simpa using unfilled), searchChecked_eq arr epoch wrapped,
        Outcome.ok_bind]
      exact ⟨_, rfl, fun position => mod_of_map_some positive, rfl⟩
  rcases places with ⟨insertPos, located, inside, searched⟩
  rw [findInsertPositionChecked, if_neg positive.ne', located, Outcome.ok_bind, searched]
  cases insertPos with
  | none => rfl
  | some position =>
      dsimp only
      rw [readEntry_of_lt arr (inside position rfl), Outcome.ok_bind, Option.bind_some]
      split <;> rfl

end Checked

/-! ## Insertion in place -/

theorem next_inBounds (history : CircBuf) : (history.idx + 1) % maxItems < maxItems :=
  Nat.mod_lt _ maxItems_pos

/-- `CircBuf::insert` with the ring that the call leaves behind. -/
def insertInPlace (history : CircBuf) (entry : ValidatorHistoryEntry) (epoch : Nat) :
    CircBuf × Result Unit :=
  if history.isEmpty then
    (history, fail .epochOutOfRange)
  else if epoch < history.minEpoch ∨ (history.arr history.idx).epoch < epoch then
    (history, fail .epochOutOfRange)
  else
    match findInsertPositionChecked history.arr maxItems history.idx epoch with
    | .error failure => (history, .error failure)
    | .ok none => (history, fail .duplicateEpoch)
    | .ok (some insertPos) =>
        let endIndex :=
          if history.idx < insertPos then history.idx + maxItems else history.idx
        let shifted := Ring.shiftUp maxItems insertPos (endIndex + 1 - insertPos) history.arr
        ({ history with
          arr := Function.update shifted insertPos entry
          idx := (history.idx + 1) % maxItems
          inBounds := history.next_inBounds }, .ok ())

theorem insertInPlace_eq (history : CircBuf) (entry : ValidatorHistoryEntry) (epoch : Nat) :
    history.insertInPlace entry epoch =
      (Outcome.commit history (history.insert entry epoch),
        (history.insert entry epoch).map fun _ => ()) := by
  rw [insertInPlace, insert, findInsertPositionChecked_eq history.arr epoch history.inBounds]
  by_cases isEmpty : history.isEmpty
  · rw [if_pos isEmpty, if_pos isEmpty]
    rfl
  · rw [if_neg isEmpty, if_neg isEmpty]
    split
    · rfl
    · cases findInsertPosition history.arr maxItems history.idx epoch <;> rfl

/-- The entries of a ring in which some slot may be unfilled. The epochs increase from the
oldest to the newest entry. An empty ring may have its index anywhere. -/
def Contains (history : CircBuf) (stored : List ValidatorHistoryEntry) : Prop :=
  (stored = [] ∧ history.isEmpty = true) ∨ history.Holds stored

/-- The epoch lies between those of the first and the last entry. -/
def Spans (stored : List ValidatorHistoryEntry) (epoch : Nat) : Prop :=
  ∃ oldest newest, stored.head? = some oldest ∧ stored.getLast? = some newest ∧
    oldest.epoch ≤ epoch ∧ epoch ≤ newest.epoch

/-- Sorted insertion with eviction of the oldest entry. -/
structure InsertsSorted (history : CircBuf) (stored : List ValidatorHistoryEntry)
    (entry : ValidatorHistoryEntry) (next : CircBuf) (outcome : Result Unit) : Prop where
  outOfRange : outcome = fail .epochOutOfRange ↔ ¬Spans stored entry.epoch
  duplicate : outcome = fail .duplicateEpoch ↔
    Spans stored entry.epoch ∧ ∃ other ∈ stored, other.epoch = entry.epoch
  unchanged : outcome ≠ .ok () → next = history
  inserted : (Spans stored entry.epoch ∧ ∀ other ∈ stored, other.epoch ≠ entry.epoch) →
    outcome = .ok () ∧
    ∃ older newer, stored = older ++ newer ∧
      (∀ other ∈ older, other.epoch < entry.epoch) ∧
      (∀ other ∈ newer, entry.epoch < other.epoch) ∧
      next.Holds (if stored.length = maxItems then (older ++ entry :: newer).tail
        else older ++ entry :: newer) ∧
      next.arr next.idx = history.arr history.idx
  inBounds : ∃ insertPos,
    findInsertPositionChecked history.arr maxItems history.idx entry.epoch = .ok insertPos

theorem Holds.spans_iff {history : CircBuf} {stored : List ValidatorHistoryEntry}
    (holds : history.Holds stored) {epoch : Nat} : Spans stored epoch ↔ InRange stored epoch := by
  constructor
  · intro spans
    rcases spans with ⟨oldest, newest, first, final, lower, upper⟩
    exact ⟨⟨oldest, List.mem_of_head? first, lower⟩, newest, List.mem_of_getLast? final, upper⟩
  · intro inRange
    rcases inRange with ⟨⟨low, lowMember, lower⟩, high, highMember, upper⟩
    cases stored with
    | nil => cases lowMember
    | cons oldest rest =>
        have final := holds.arr_idx (List.cons_ne_nil oldest rest)
        refine ⟨oldest, _, rfl, final, ?_, upper.trans (holds.le_newest highMember)⟩
        rcases List.mem_cons.mp lowMember with rfl | later
        · exact lower
        · have increasing := (List.pairwise_cons.mp holds.sorted.increasing).1 low later
          omega

section Insertion

variable {history : CircBuf} {stored : List ValidatorHistoryEntry} {entry : ValidatorHistoryEntry}

/-- A refused insertion, with what it is refused for. -/
theorem insertsSorted_of_refused {error : ValidatorHistoryError}
    (refused : history.insert entry entry.epoch = fail error)
    (outOfRange : error = .epochOutOfRange ↔ ¬Spans stored entry.epoch)
    (duplicate : error = .duplicateEpoch ↔
      Spans stored entry.epoch ∧ ∃ other ∈ stored, other.epoch = entry.epoch)
    (known : error = .epochOutOfRange ∨ error = .duplicateEpoch) :
    InsertsSorted history stored entry (history.insertInPlace entry entry.epoch).1
      (history.insertInPlace entry entry.epoch).2 := by
  rw [insertInPlace_eq, refused]
  have outcome : ∀ other, (fail error : Result CircBuf).map (fun _ => ()) = fail other ↔
      error = other := by
    intro other
    simp [fail, Except.map]
  refine ⟨(outcome _).trans outOfRange, (outcome _).trans duplicate, fun _ => rfl, ?_, _,
    findInsertPositionChecked_eq history.arr entry.epoch history.inBounds⟩
  intro missing
  rcases known with unspanned | duplicated
  · exact absurd missing.1 (outOfRange.mp unspanned)
  · rcases (duplicate.mp duplicated).2 with ⟨other, member, same⟩
    exact absurd same (missing.2 other member)

/-- The newest entry of the ring stays the newest one. -/
theorem Holds.newest_kept {next : CircBuf} {older newer : List ValidatorHistoryEntry}
    (holds : history.Holds (older ++ newer)) (beyond : newer ≠ [])
    (held : next.Holds (newest (older ++ entry :: newer))) :
    next.arr next.idx = history.arr history.idx := by
  have before := holds.arr_idx (List.append_ne_nil_of_right_ne_nil _ beyond)
  rw [List.getLast?_append_of_ne_nil _ beyond] at before
  have fits := holds.length_le
  have split : newest (older ++ entry :: newer) =
      (older ++ [entry]).drop ((older ++ entry :: newer).length - maxItems) ++ newer := by
    rw [newest, Window.last, List.append_cons, List.drop_append_of_le_length]
    simp only [List.length_append, List.length_cons, List.length_nil] at fits ⊢
    omega
  rw [split] at held
  have after := held.arr_idx (List.append_ne_nil_of_right_ne_nil _ beyond)
  rw [List.getLast?_append_of_ne_nil _ beyond, before, Option.some.injEq] at after
  exact after.symm

theorem Holds.insertsSorted (holds : history.Holds stored) (valid : entry.epoch < epochDefault) :
    InsertsSorted history stored entry (history.insertInPlace entry entry.epoch).1
      (history.insertInPlace entry entry.epoch).2 := by
  by_cases spans : Spans stored entry.epoch
  · by_cases duplicate : ∃ other ∈ stored, other.epoch = entry.epoch
    · apply insertsSorted_of_refused (holds.insert_duplicate duplicate entry)
      · simp [spans]
      · simp [spans, duplicate]
      · exact .inr rfl
    · have fresh : ∀ other ∈ stored, other.epoch ≠ entry.epoch := by
        intro other member same
        exact duplicate ⟨other, member, same⟩
      have inRange := holds.spans_iff.mp spans
      rcases holds.insert_missing valid inRange fresh with ⟨next, inserted, held⟩
      rcases Window.insert_eq_append holds.sorted.increasing fresh with
        ⟨older, newer, split, placed, below, above⟩
      have placedAt : insertByEpoch entry stored = older ++ entry :: newer := placed
      have beyond : newer ≠ [] := by
        rintro rfl
        rcases inRange.2 with ⟨high, highMember, upper⟩
        rw [split, List.append_nil] at highMember
        exact absurd (below high highMember) (Nat.not_lt.mpr upper)
      have oneMore : (older ++ entry :: newer).length = stored.length + 1 := by
        rw [← placedAt]
        exact Window.length_insert stored
      rw [insertInPlace_eq, inserted]
      refine ⟨?_, ?_, fun failed => absurd rfl failed, fun _ => ⟨rfl, older, newer, split, below,
        above, ?_, ?_⟩, _,
        findInsertPositionChecked_eq history.arr entry.epoch history.inBounds⟩
      · simp [spans, fail, Except.map]
      · simp [duplicate, fail, Except.map]
      · rw [placedAt] at held
        have fits := holds.length_le
        by_cases full : stored.length = maxItems
        · rw [if_pos full]
          rwa [holds.newest_of_full (by omega) oneMore] at held
        · rw [if_neg full]
          rwa [newest_of_room (by omega) oneMore] at held
      · rw [placedAt] at held
        rw [split] at holds
        exact holds.newest_kept beyond held
  · apply insertsSorted_of_refused
      (holds.insert_outOfRange (mt holds.spans_iff.mpr spans) entry)
    · simp [spans]
    · simp [spans]
    · exact .inl rfl

/-- Insertion into a ring of any rotation, partly filled or full. -/
theorem insert_sorted (contains : Contains history stored) (valid : entry.epoch < epochDefault) :
    InsertsSorted history stored entry (history.insertInPlace entry entry.epoch).1
      (history.insertInPlace entry entry.epoch).2 := by
  rcases contains with ⟨rfl, isEmpty⟩ | holds
  · have unspanned : ¬Spans [] entry.epoch := by
      rintro ⟨_, _, first, _⟩
      cases first
    have refused : history.insert entry entry.epoch = fail .epochOutOfRange := by
      rw [insert, if_pos isEmpty]
    apply insertsSorted_of_refused refused
    · simp [unspanned]
    · simp
    · exact .inl rfl
  · exact holds.insertsSorted valid

/-- Entries of the epochs 10 and 20. -/
def tenAndTwenty : CircBuf :=
  ((initial fun _ => .unset).push (.ofEpoch 10)).push (.ofEpoch 20)

theorem tenAndTwenty_holds : tenAndTwenty.Holds [.ofEpoch 10, .ofEpoch 20] := by
  have first : ((initial fun _ => .unset).push (.ofEpoch 10)).Holds [.ofEpoch 10] :=
    (holds_initial fun _ => .unset).push (by simp) (by decide)
  exact first.push (by simp [ValidatorHistoryEntry.ofEpoch]) (by decide)

theorem insert_sorted_between :
    InsertsSorted tenAndTwenty [.ofEpoch 10, .ofEpoch 20] (.ofEpoch 15)
      (tenAndTwenty.insertInPlace (.ofEpoch 15) 15).1
      (tenAndTwenty.insertInPlace (.ofEpoch 15) 15).2 :=
  insert_sorted (.inr tenAndTwenty_holds) (by decide)

end Insertion

end CircBuf

end Stakenet.History

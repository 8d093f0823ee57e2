import Stakenet.Foundation.Standings
import Stakenet.Steward.Scoring

/-! Insertion into a ranking, for slices of any length: it is stable, and it leaves what lies
behind the ranked entries. -/

namespace Stakenet.Steward

/-! ## Slices -/

/-- `items[position]` -/
def readAt (items : List α) (position : Nat) : Result α :=
  match items[position]? with
  | some value => .ok value
  | none => .error .panicked

def writeAt (items : List α) (position : Nat) (value : α) : Result (List α) :=
  if position < items.length then .ok (items.set position value) else .error .panicked

/-- `insert_sorted_index`. The successor of an index of a slice does not overflow. -/
def insertSortedIndexSlice (sortedIndices scores : List Nat) (index score currentLen : Nat) :
    Result (List Nat) := do
  -- assert!(current_len <= sorted_indices.len())
  if sortedIndices.length < currentLen then .error .panicked
  let position ← findPosition
    (fun position => do
      return decide ((← readAt scores (← readAt sortedIndices position)) < score)) 0 currentLen
  let insertAt := position.getD currentLen
  let shifted ← forRangeRev insertAt currentLen
    (fun i indices => do writeAt indices (i + 1) (← readAt indices i)) sortedIndices
  writeAt shifted insertAt index

section Slices

variable {items : List α} {position : Nat}

theorem readAt_of_lt (bounded : position < items.length) :
    readAt items position = .ok (items.get ⟨position, bounded⟩) := by
  rw [readAt, List.getElem?_eq_getElem bounded]
  rfl

theorem writeAt_of_lt (bounded : position < items.length) (value : α) :
    writeAt items position value = .ok (items.set position value) :=
  if_pos bounded

/-- Writing the last item of a prefix. -/
theorem set_take_succ (bounded : position < items.length) (value : α) (rest : List α) :
    (items.take (position + 1) ++ rest).set position value =
      items.take position ++ value :: rest := by
  have length : (items.take position).length = position :=
    List.length_take_of_le bounded.le
  rw [List.take_succ_eq_append_getElem bounded, List.append_assoc,
    List.set_append_right _ _ length.le, length, Nat.sub_self]
  rfl

end Slices

/-! ## The insertion -/

section Insertion

variable {sortedIndices scores : List Nat} {score currentLen : Nat}

/-- The search ends at the first ranked entry of a smaller score, or behind all of them. -/
theorem findPosition_smaller (room : currentLen ≤ sortedIndices.length)
    (ranked : ∀ entry ∈ sortedIndices.take currentLen, entry < scores.length)
    (ordered : (sortedIndices.take currentLen).Pairwise fun first second =>
      scores.getD second 0 ≤ scores.getD first 0) :
    ∃ found, findPosition (fun position => do
        return decide ((← readAt scores (← readAt sortedIndices position)) < score)) 0
          currentLen = .ok found ∧
      found.getD currentLen ≤ currentLen ∧
      (∀ entry ∈ (sortedIndices.take currentLen).take (found.getD currentLen),
        score ≤ scores.getD entry 0) ∧
      ∀ entry ∈ (sortedIndices.take currentLen).drop (found.getD currentLen),
        scores.getD entry 0 < score := by
  have length : (sortedIndices.take currentLen).length = currentLen :=
    List.length_take_of_le room
  have tested : ∀ position (bounded : position < currentLen), (do
      return decide ((← readAt scores (← readAt sortedIndices position)) < score) :
        Result Bool) = .ok (decide (scores.getD
          ((sortedIndices.take currentLen).get ⟨position, by omega⟩) 0 < score)) := by
    intro position bounded
    have valid := ranked _ (List.get_mem (sortedIndices.take currentLen) ⟨position, by omega⟩)
    rw [List.get_eq_getElem, List.getElem_take] at valid ⊢
    rw [readAt_of_lt (show position < sortedIndices.length by omega), Outcome.ok_bind,
      List.get_eq_getElem, readAt_of_lt valid, Outcome.ok_bind, List.getD_eq_getElem?_getD,
      List.getElem?_eq_getElem valid]
    rfl
  have total : ∀ position, 0 ≤ position → position < 0 + currentLen →
      ∃ outcome, (do
        return decide ((← readAt scores (← readAt sortedIndices position)) < score) :
          Result Bool) = .ok outcome :=
    fun position _ upper => ⟨_, tested position (by omega)⟩
  rcases findPosition.succeeds total with ⟨found, searched⟩
  refine ⟨found, searched, ?_⟩
  cases found with
  | none =>
      refine ⟨Nat.le_refl _, fun entry member => ?_, fun entry member => ?_⟩
      · rw [Option.getD_none, List.take_of_length_le length.le] at member
        rcases List.mem_iff_get.mp member with ⟨⟨position, bounded⟩, rfl⟩
        have failed := findPosition.eq_none searched position (Nat.zero_le _) (by omega)
        rw [tested position (by omega), Except.ok.injEq, decide_eq_false_iff_not] at failed
        exact Nat.le_of_not_lt failed
      · rw [Option.getD_none, List.drop_of_length_le length.le] at member
        exact absurd member List.not_mem_nil
  | some position =>
      rcases findPosition.eq_some searched with ⟨_, upper, passed, earlier⟩
      have bounded : position < currentLen := by omega
      rw [tested position bounded, Except.ok.injEq, decide_eq_true_iff] at passed
      refine ⟨bounded.le, fun entry member => ?_, fun entry member => ?_⟩
      · rcases List.mem_take_iff_getElem.mp member with ⟨before, below, rfl⟩
        have failed := earlier before (Nat.zero_le _) (by
          rw [Option.getD_some] at below
          omega)
        rw [tested before (by omega), Except.ok.injEq, decide_eq_false_iff_not] at failed
        exact Nat.le_of_not_lt failed
      · rcases List.mem_drop_iff_getElem.mp member with ⟨offset, inside, rfl⟩
        have within : position + offset < (sortedIndices.take currentLen).length := by
          rw [Option.getD_some] at inside
          omega
        cases offset with
        | zero => exact passed
        | succ offset =>
            have smaller := List.pairwise_iff_getElem.mp ordered position
              (position + (offset + 1)) (by omega) within (by omega)
            exact Nat.lt_of_le_of_lt smaller passed

/-- The shift makes room behind the entries that stay. -/
theorem forRangeRev_makeRoom {insertAt : Nat} (bounded : insertAt ≤ currentLen)
    (room : currentLen < sortedIndices.length) :
    forRangeRev insertAt currentLen
        (fun i indices => do writeAt indices (i + 1) (← readAt indices i)) sortedIndices =
      .ok (sortedIndices.take (insertAt + 1) ++ ((sortedIndices.take currentLen).drop insertAt ++
        sortedIndices.drop (currentLen + 1))) := by
  have length : (sortedIndices.take currentLen).length = currentLen :=
    List.length_take_of_le room.le
  have started : sortedIndices = sortedIndices.take (currentLen + 1) ++
      ((sortedIndices.take currentLen).drop currentLen ++
        sortedIndices.drop (currentLen + 1)) := by
    rw [List.drop_of_length_le length.le, List.nil_append, List.take_append_drop]
  have step : ∀ i current, insertAt ≤ i → i < currentLen →
      current = sortedIndices.take (i + 1 + 1) ++
        ((sortedIndices.take currentLen).drop (i + 1) ++ sortedIndices.drop (currentLen + 1)) →
      ∃ next, (readAt current i >>= fun moved => writeAt current (i + 1) moved) = .ok next ∧
        next = sortedIndices.take (i + 1) ++
          ((sortedIndices.take currentLen).drop i ++ sortedIndices.drop (currentLen + 1)) := by
    intro i current _ upper reached
    have kept : i < (sortedIndices.take (i + 1 + 1)).length := by
      rw [List.length_take]
      omega
    have within : i + 1 < current.length := by
      rw [reached, List.length_append, List.length_take]
      omega
    have read : readAt current i =
        .ok (sortedIndices.get ⟨i, show i < sortedIndices.length by omega⟩) := by
      rw [readAt, reached, List.getElem?_append_left kept, List.getElem?_take,
        if_pos (by omega), List.getElem?_eq_getElem]
      rfl
    refine ⟨_, ?_, rfl⟩
    rw [read, Outcome.ok_bind, writeAt_of_lt within, reached, set_take_succ (by omega),
      List.drop_eq_getElem_cons (show i < (sortedIndices.take currentLen).length by omega),
      List.getElem_take]
    rfl
  rcases forRangeRev.succeeds (fun reached indices => indices =
      sortedIndices.take (reached + 1) ++ ((sortedIndices.take currentLen).drop reached ++
        sortedIndices.drop (currentLen + 1))) bounded started step with
    ⟨final, finished, shape⟩
  rw [finished, shape]

/-- The ranked entries of at least the score come first, then the index, then the others, all
in their order; what lies behind them stays. -/
theorem insertSortedIndexSlice_eq (index : Nat) (room : currentLen < sortedIndices.length)
    (ranked : ∀ entry ∈ sortedIndices.take currentLen, entry < scores.length)
    (ordered : (sortedIndices.take currentLen).Pairwise fun first second =>
      scores.getD second 0 ≤ scores.getD first 0) :
    insertSortedIndexSlice sortedIndices scores index score currentLen =
      .ok ((sortedIndices.take currentLen).filter (fun entry => score ≤ scores.getD entry 0) ++
        index :: (sortedIndices.take currentLen).filter
            (fun entry => scores.getD entry 0 < score) ++
          sortedIndices.drop (currentLen + 1)) := by
  rcases findPosition_smaller room.le ranked ordered with
    ⟨found, searched, bounded, before, behind⟩
  generalize insertAt : found.getD currentLen = position at bounded before behind
  have split : (sortedIndices.take currentLen).take position =
        (sortedIndices.take currentLen).filter (fun entry => score ≤ scores.getD entry 0) ∧
      (sortedIndices.take currentLen).drop position =
        (sortedIndices.take currentLen).filter
          fun entry => !decide (score ≤ scores.getD entry 0) :=
    Standings.take_eq_filter (fun entry member => decide_eq_true (before entry member))
      (fun entry member => decide_eq_false (Nat.not_le.mpr (behind entry member)))
  have smaller : (sortedIndices.take currentLen).filter
      (fun entry => !decide (score ≤ scores.getD entry 0)) =
      (sortedIndices.take currentLen).filter fun entry => decide (scores.getD entry 0 < score) := by
    apply List.filter_congr
    intro entry _
    rw [← decide_not, decide_eq_decide]
    exact Nat.not_le
  have inside : position < (sortedIndices.take (position + 1) ++
      ((sortedIndices.take currentLen).drop position ++
        sortedIndices.drop (currentLen + 1))).length := by
    rw [List.length_append, List.length_take]
    omega
  rw [insertSortedIndexSlice, if_neg (by omega)]
  simp only [searched, insertAt, Outcome.ok_bind, forRangeRev_makeRoom bounded room]
  rw [writeAt_of_lt inside, set_take_succ (by omega), ← smaller, ← split.1, ← split.2,
    List.take_take, Nat.min_eq_left bounded, List.append_assoc, List.cons_append]

/-- Behind an equal score, before a smaller one; a stale entry is overwritten and another one
stays. -/
theorem insertSortedIndexSlice_eq_tied :
    insertSortedIndexSlice [2, 0, 9, 9] [5, 7, 7] 1 7 2 = .ok [2, 1, 0, 9] :=
  insertSortedIndexSlice_eq 1 (by decide) (by decide) (by decide)

end Insertion

/-! ## The rankings of the state account -/

/-- The array of a state account as a slice. -/
def slice (rows : Nat → Nat) : List Nat := (List.range maxValidators).map rows

theorem readAt_slice (rows : Nat → Nat) (row : Nat) :
    readAt (slice rows) row = readRow rows row := by
  rw [readAt, slice, readRow, List.getElem?_map]
  by_cases bounded : row < maxValidators
  · rw [List.getElem?_range bounded, if_pos bounded]
    rfl
  · rw [List.getElem?_eq_none (by simpa using bounded), if_neg bounded]
    rfl

theorem writeAt_slice (rows : Nat → Nat) (row value : Nat) :
    writeAt (slice rows) row value = (writeRow rows row value).map slice := by
  have length : (slice rows).length = maxValidators := by simp [slice]
  rw [writeAt, writeRow, length]
  by_cases bounded : row < maxValidators
  · rw [if_pos bounded, if_pos bounded]
    apply congrArg Except.ok
    apply List.ext_getElem
    · simp [slice]
    · intro position _ _
      simp only [slice, List.getElem_set, List.getElem_map, List.getElem_range,
        Function.update_apply, eq_comm (a := row)]
  · rw [if_neg bounded, if_neg bounded]
    rfl

/-- Insertion into a ranking of the state account is that into its slice. -/
theorem insertSortedIndexSlice_slice (ranking scores : Nat → Nat) (index score currentLen : Nat) :
    insertSortedIndexSlice (slice ranking) (slice scores) index score currentLen =
      (insertSortedIndex ranking scores index score currentLen).map slice := by
  have length : (slice ranking).length = maxValidators := by simp [slice]
  rw [insertSortedIndexSlice, insertSortedIndex, length]
  by_cases beyond : maxValidators < currentLen
  · rw [if_pos beyond, if_pos beyond]
    rfl
  · rw [if_neg beyond, if_neg beyond]
    have searches : findPosition (fun position => do
        return decide ((← readAt (slice scores) (← readAt (slice ranking) position)) < score)) 0
          currentLen = findPosition (fun position => do
            return decide ((← readRow scores (ranking position)) < score)) 0 currentLen := by
      apply findPosition.congr
      intro position _ upper
      rw [readAt_slice, readRow_of_lt ranking (by omega), Outcome.ok_bind, readAt_slice]
    simp only [searches]
    cases findPosition (fun position => do
        return decide ((← readRow scores (ranking position)) < score)) 0 currentLen with
    | error failure => simp only [Except.map, Outcome.error_bind]
    | ok found =>
        have shifts : forRangeRev (found.getD currentLen) currentLen
            (fun i indices => do writeAt indices (i + 1) (← readAt indices i)) (slice ranking) =
              (forRangeRev (found.getD currentLen) currentLen (fun position indices => do
                writeRow indices (position + 1) (← readRow indices position)) ranking).map
                  slice := by
          apply forRangeRev.map_eq
          intro position rows _ _
          rw [readAt_slice]
          cases readRow rows position with
          | error failure => rfl
          | ok value =>
              rw [Outcome.ok_bind, Outcome.ok_bind]
              exact writeAt_slice rows (position + 1) value
        simp only [Outcome.ok_bind, shifts]
        cases forRangeRev (found.getD currentLen) currentLen (fun position indices => do
            writeRow indices (position + 1) (← readRow indices position)) ranking with
        | error failure => simp only [Except.map, Outcome.error_bind]
        | ok shifted =>
            rw [show (Except.ok shifted : Result (Nat → Nat)).map slice = .ok (slice shifted) from
              rfl, Outcome.ok_bind, Outcome.ok_bind]
            exact writeAt_slice shifted (found.getD currentLen) index

end Stakenet.Steward

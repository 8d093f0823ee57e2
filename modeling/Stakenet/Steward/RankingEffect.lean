import Stakenet.Foundation.Ranking
import Stakenet.Steward.RemovalEffect
import Stakenet.Steward.Scoring

/-! What insertions and removals do to a ranking of validators. -/

namespace Stakenet.Steward

variable {ranking next : Nat → Nat} {scores : Nat → Nat} {rows : Finset Nat}

/-! ## Insertion -/

/-- The entries after an insertion at `position`. -/
structure RankInserted (ranking : Nat → Nat) (index position count : Nat) (next : Nat → Nat) :
    Prop where
  before : ∀ earlier < position, next earlier = ranking earlier
  entry : next position = index
  after : ∀ later < count, position ≤ later → next (later + 1) = ranking later

theorem forRangeRev_shiftUp {first count : Nat} (bounded : first ≤ count)
    (shifted : forRangeRev first count (fun position indices => do
      writeRow indices (position + 1) (← readRow indices position)) ranking = .ok next) :
    (∀ earlier ≤ first, next earlier = ranking earlier) ∧
      ∀ later < count, first ≤ later → next (later + 1) = ranking later := by
  have invariant := forRangeRev.invariant
    (fun reached indices => (∀ earlier ≤ reached, indices earlier = ranking earlier) ∧
      ∀ later < count, reached ≤ later → indices (later + 1) = ranking later) bounded
    ⟨fun _ _ => rfl, fun later below atLeast => by omega⟩ ?_ shifted
  · exact invariant
  · rintro reached current following _ _ ⟨kept, moved⟩ written
    simp only [Outcome.bind_eq_ok, readRow_eq_ok, writeRow_eq_ok] at written
    rcases written with ⟨_, ⟨_, rfl⟩, _, rfl⟩
    constructor
    · intro earlier atMost
      rw [Function.update_of_ne (by omega)]
      exact kept earlier (by omega)
    · intro later below atLeast
      by_cases same : later = reached
      · subst later
        rw [Function.update_self]
        exact kept reached (by omega)
      · rw [Function.update_of_ne (by omega)]
        exact moved later below (by omega)

/-- An insertion goes before the first smaller score, or to the end. -/
theorem insertSortedIndex_eq_ok {index score count : Nat}
    (inserted : insertSortedIndex ranking scores index score count = .ok next) :
    ∃ position ≤ count,
      (∀ earlier < position, score ≤ scores (ranking earlier)) ∧
      (position < count → scores (ranking position) < score) ∧
      RankInserted ranking index position count next := by
  simp only [insertSortedIndex] at inserted
  split at inserted
  case isTrue => simp at inserted
  case isFalse =>
      simp only [Outcome.bind_eq_ok, writeRow_eq_ok] at inserted
      rcases inserted with ⟨found, searched, shifted, shifting, _, rfl⟩
      have writes : ∀ position ≤ count, found.getD count = position →
          RankInserted ranking index position count
            (Function.update shifted (found.getD count) index) := by
        rintro _ bounded rfl
        rcases forRangeRev_shiftUp bounded shifting with ⟨kept, moved⟩
        refine ⟨fun earlier below => ?_, Function.update_self .., fun later below atLeast => ?_⟩
        · rw [Function.update_of_ne (by omega)]
          exact kept earlier (by omega)
        · rw [Function.update_of_ne (by omega)]
          exact moved later below atLeast
      cases found with
      | none =>
          refine ⟨count, Nat.le_refl _, fun earlier below => ?_, by omega,
            writes count (by omega) rfl⟩
          have tested := findPosition.eq_none searched earlier (Nat.zero_le _) (by omega)
          simp at tested
          exact tested.2
      | some position =>
          rcases findPosition.eq_some searched with ⟨_, bounded, tested, larger⟩
          refine ⟨position, by omega, fun earlier below => ?_, fun _ => ?_,
            writes position (by omega) rfl⟩
          · have tested := larger earlier (Nat.zero_le _) below
            simp at tested
            exact tested.2
          · simp at tested
            exact tested.2

/-- Inserting a validator with its score extends the ranking by it. -/
theorem ranks_insertSortedIndex {index score count : Nat}
    (ranks : Ranks scores rows ranking count) (fresh : index ∉ rows)
    (inserted : insertSortedIndex ranking (Function.update scores index score) index score
      count = .ok next) :
    Ranks (Function.update scores index score) (insert index rows) next (count + 1) := by
  rcases insertSortedIndex_eq_ok inserted with ⟨position, bounded, before, smaller, entries⟩
  have unchanged : ∀ row ∈ rows, Function.update scores index score row = scores row := by
    intro row member
    apply Function.update_of_ne
    rintro rfl
    exact fresh member
  have kept : Ranks (Function.update scores index score) rows ranking count :=
    ranks.congr unchanged fun _ _ => rfl
  apply kept.insert fresh bounded _ _ entries.before entries.entry entries.after
  · intro earlier below
    rw [Function.update_self]
    exact before earlier below
  · intro later below atLeast
    rw [Function.update_self]
    have first := (smaller (by omega)).le
    rcases Nat.eq_or_lt_of_le atLeast with same | after
    · exact same ▸ first
    · exact (kept.sorted position later after below).trans first

/-! ## Removal -/

/-- The name of a row after the removal of `index`. -/
def lowered (index row : Nat) : Nat := if index < row then row - 1 else row

theorem lowered_injOn (index : Nat) (rows : Finset Nat) :
    Set.InjOn (lowered index) (rows.erase index) := by
  intro first firstMember second secondMember same
  simp only [Finset.coe_erase, Set.mem_sdiff, Set.mem_singleton_iff] at firstMember secondMember
  simp only [lowered] at same
  split at same <;> split at same <;> omega

/-- A removal within the pool shrinks it, one of an added validator does not.
Both bounds are those of the pool, before and after. -/
structure PoolShrunk (index pool bound : Nat) : Prop where
  within : index < pool → pool = bound + 1
  beyond : pool ≤ index → pool = bound

namespace PoolShrunk

variable {index pool bound : Nat}

theorem lowered_lt (shrunk : PoolShrunk index pool bound) {row : Nat} (bounded : row < pool)
    (other : row ≠ index) : lowered index row < bound := by
  have within := shrunk.within
  have beyond := shrunk.beyond
  unfold lowered
  split <;> omega

/-- Every other row of the pool is found under its new name. -/
theorem deleteRow_lowered (shrunk : PoolShrunk index pool bound) {values : Nat → α} {filler : α}
    {row : Nat} (bounded : row < pool) (other : row ≠ index) :
    deleteRow values index bound filler (lowered index row) = values row := by
  have within := shrunk.within
  have beyond := shrunk.beyond
  unfold lowered
  split
  case isTrue above =>
      have moved : deleteRow values index bound filler (row - 1) = values (row - 1 + 1) :=
        deleteRow_of_le values filler (by omega) (by omega)
      rwa [Nat.sub_add_cancel (by omega)] at moved
  case isFalse below => exact deleteRow_of_lt values filler (by omega) (by omega)

/-- An array that marks rows of the pool marks them under their new names. -/
theorem deleteRow_ite (shrunk : PoolShrunk index pool bound)
    (inPool : ∀ row ∈ rows, row < pool) (value filler : α) :
    deleteRow (fun row => if row ∈ rows then value else filler) index bound filler =
      fun row => if row ∈ (rows.erase index).image (lowered index) then value else filler := by
  have within := shrunk.within
  have beyond := shrunk.beyond
  funext row
  by_cases named : row ∈ (rows.erase index).image (lowered index)
  · rw [if_pos named]
    rcases Finset.mem_image.mp named with ⟨original, member, rfl⟩
    rcases Finset.mem_erase.mp member with ⟨other, member⟩
    rw [shrunk.deleteRow_lowered (inPool original member) other, if_pos member]
  · rw [if_neg named]
    have unnamed : ∀ original ∈ rows, original ≠ index → lowered index original ≠ row := by
      intro original member other renamed
      exact named (Finset.mem_image.mpr
        ⟨original, Finset.mem_erase.mpr ⟨other, member⟩, renamed⟩)
    by_cases last : row = bound
    · rw [last, deleteRow_bound]
    by_cases shifted : index ≤ row ∧ row < bound
    · rw [deleteRow_of_le _ _ shifted.1 shifted.2]
      apply if_neg
      intro member
      exact unnamed (row + 1) member (by omega) (if_pos (by omega))
    · simp only [deleteRow, if_neg last, shiftDown, if_neg shifted]
      apply if_neg
      intro member
      have bounded := inPool row member
      exact unnamed row member (by omega) (if_neg (by omega))

theorem image_range (shrunk : PoolShrunk index pool bound) :
    ((Finset.range pool).erase index).image (lowered index) = Finset.range bound := by
  have within := shrunk.within
  have beyond := shrunk.beyond
  ext row
  simp only [Finset.mem_image, Finset.mem_erase, Finset.mem_range, lowered]
  constructor
  · rintro ⟨original, ⟨other, bounded⟩, rfl⟩
    split <;> omega
  · intro bounded
    rcases Nat.lt_or_ge row index with below | above
    · exact ⟨row, ⟨by omega, by omega⟩, if_neg (by omega)⟩
    · exact ⟨row + 1, ⟨by omega, by omega⟩, if_pos (by omega)⟩

theorem card_erase_le (shrunk : PoolShrunk index pool bound)
    (inPool : ∀ row ∈ rows, row < pool) : (rows.erase index).card ≤ bound := by
  have subset : rows.erase index ⊆ (Finset.range pool).erase index := by
    intro row member
    rcases Finset.mem_erase.mp member with ⟨other, member⟩
    exact Finset.mem_erase.mpr ⟨other, Finset.mem_range.mpr (inPool row member)⟩
  calc (rows.erase index).card
      ≤ ((Finset.range pool).erase index).card := Finset.card_le_card subset
    _ = (((Finset.range pool).erase index).image (lowered index)).card :=
        (Finset.card_image_of_injOn (lowered_injOn index _)).symm
    _ = bound := by rw [shrunk.image_range, Finset.card_range]

end PoolShrunk

theorem poolShrunk_of_removed {accounts following : Accounts} {index : Nat}
    (removed : Removed accounts index following) :
    PoolShrunk index accounts.state.numPoolValidators following.state.numPoolValidators where
  within := fun inPool => by
    rw [removed.numPoolValidators, if_neg (by omega)]
    omega
  beyond := fun added => by rw [removed.numPoolValidators, if_pos added]

/-- The live entries of a ranking after the removed row was deleted from it. -/
theorem ranks_rankDeleted {index bound count : Nat} {deleted : Nat → Nat}
    (ranks : Ranks scores rows ranking count) (valid : index < maxValidators)
    (capacity : count ≤ maxValidators) (room : (rows.erase index).card ≤ bound)
    (deletion : RankDeleted ranking index bound deleted) :
    Ranks scores (rows.erase index) deleted (rows.erase index).card := by
  have counted := ranks.card_eq
  have name : castU16 index = index := castU16_of_lt valid
  by_cases member : index ∈ rows
  · rcases (ranks.covers index).mp member with ⟨position, bounded, entry⟩
    have erased : (rows.erase index).card + 1 = count :=
      (Finset.card_erase_add_one member).trans counted
    cases deletion with
    | absent missing => exact absurd (entry.trans name.symm) (missing position (by omega))
    | found first _ firstEntry earlier =>
        -- The search stops at the one live occurrence.
        have same : first = position := by
          rcases Nat.lt_trichotomy first position with before | same | after
          · exact ranks.injective first position (by omega) bounded
              ((firstEntry.trans name).trans entry.symm)
          · exact same
          · exact absurd (entry.trans name.symm) (earlier position after)
        subst first
        rw [← erased] at ranks
        have kept : Ranks scores (rows.erase (ranking position))
            (shiftDown ranking position bound) (rows.erase index).card :=
          ranks.delete (by omega) (fun before below => if_neg (by omega))
            (fun later below atLeast => if_pos ⟨atLeast, by omega⟩)
        rwa [entry] at kept
  · rw [Finset.erase_eq_of_notMem member, counted] at *
    apply ranks.congr (fun _ _ => rfl)
    intro position bounded
    cases deletion with
    | absent => rfl
    | found first _ firstEntry _ =>
        have outside : count ≤ first := by
          by_contra live
          have ranked := ranks.mem (Nat.lt_of_not_le live)
          rw [firstEntry, name] at ranked
          exact member ranked
        exact if_neg (by omega)

/-- A removal leaves a ranking of the other rows, under their new names. -/
theorem ranks_removed {index pool bound count : Nat} (shrunk : PoolShrunk index pool bound)
    (inPool : ∀ row ∈ rows, row < pool) (valid : index < maxValidators)
    (capacity : count ≤ maxValidators) (ranks : Ranks scores rows ranking count)
    (removed : RankRemoved ranking index bound next) :
    Ranks (deleteRow scores index bound 0) ((rows.erase index).image (lowered index)) next
      (rows.erase index).card := by
  rcases removed with ⟨deleted, deletion, rfl⟩
  have room := shrunk.card_erase_le inPool
  have kept := ranks_rankDeleted ranks valid capacity room deletion
  apply kept.rename (lowered_injOn index rows)
  · intro row member
    rcases Finset.mem_erase.mp member with ⟨other, member⟩
    exact shrunk.deleteRow_lowered (inPool row member) other
  · intro position bounded
    have below : position < bound := by omega
    rw [Function.update_of_ne (by omega)]
    simp [relabelDown, lowered, below]

end Stakenet.Steward

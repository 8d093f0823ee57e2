import Mathlib.Data.Finset.Card
import Mathlib.Data.Finset.Image
import Mathlib.Data.List.Perm.Basic
import Mathlib.Order.Lattice

/-! Rankings kept in an array of which only a prefix is in use: inserting, deleting
and renaming a ranked item. -/

namespace Stakenet

variable {ρ : Type u} {ρ' : Type v} {κ : Type w} [Preorder κ]

/-- The first `count` entries name every item once, by non-increasing key. -/
structure Ranks (key : ρ → κ) (items : Finset ρ) (ranking : Nat → ρ) (count : Nat) : Prop where
  injective : ∀ first second, first < count → second < count →
    ranking first = ranking second → first = second
  covers : ∀ item, item ∈ items ↔ ∃ position < count, ranking position = item
  sorted : ∀ first second, first < second → second < count →
    key (ranking second) ≤ key (ranking first)

namespace Ranks

variable {key : ρ → κ} {items : Finset ρ} {ranking next : Nat → ρ} {count : Nat} {item : ρ}

theorem empty (key : ρ → κ) (ranking : Nat → ρ) : Ranks key ∅ ranking 0 where
  injective := by simp
  covers := by simp
  sorted := by simp

theorem card_eq [DecidableEq ρ] (ranks : Ranks key items ranking count) : items.card = count := by
  have image : items = (Finset.range count).image ranking := by
    ext item
    simp [ranks.covers item]
  rw [image, Finset.card_image_of_injOn, Finset.card_range]
  intro first firstBound second secondBound same
  exact ranks.injective first second (by simpa using firstBound) (by simpa using secondBound) same

theorem mem (ranks : Ranks key items ranking count) {position : Nat} (bounded : position < count) :
    ranking position ∈ items :=
  (ranks.covers _).mpr ⟨position, bounded, rfl⟩

/-- Renaming the items one to one keeps a ranking. -/
theorem rename [DecidableEq ρ'] {rename : ρ → ρ'} {otherKey : ρ' → κ} {next : Nat → ρ'}
    (ranks : Ranks key items ranking count) (injective : Set.InjOn rename items)
    (keys : ∀ item ∈ items, otherKey (rename item) = key item)
    (entries : ∀ position < count, next position = rename (ranking position)) :
    Ranks otherKey (items.image rename) next count where
  injective := by
    intro first second firstBound secondBound same
    rw [entries first firstBound, entries second secondBound] at same
    exact ranks.injective first second firstBound secondBound
      (injective (ranks.mem firstBound) (ranks.mem secondBound) same)
  covers := by
    intro item
    rw [Finset.mem_image]
    constructor
    · rintro ⟨original, member, rfl⟩
      rcases (ranks.covers original).mp member with ⟨position, bounded, rfl⟩
      exact ⟨position, bounded, entries position bounded⟩
    · rintro ⟨position, bounded, rfl⟩
      exact ⟨ranking position, ranks.mem bounded, (entries position bounded).symm⟩
  sorted := by
    intro first second ordered bounded
    have firstBound : first < count := ordered.trans bounded
    rw [entries first firstBound, entries second bounded, keys _ (ranks.mem firstBound),
      keys _ (ranks.mem bounded)]
    exact ranks.sorted first second ordered bounded

/-- Only the keys of ranked items and the entries in use matter. -/
theorem congr [DecidableEq ρ] {otherKey : ρ → κ} (ranks : Ranks key items ranking count)
    (keys : ∀ item ∈ items, otherKey item = key item)
    (entries : ∀ position < count, next position = ranking position) :
    Ranks otherKey items next count := by
  have renamed : Ranks otherKey (items.image id) next count :=
    ranks.rename (Set.injOn_id _) keys entries
  rwa [Finset.image_id] at renamed

section Insert

variable {position : Nat}

/-- The entries once an item was inserted at a position. -/
theorem entry_cases (entriesBefore : ∀ earlier < position, next earlier = ranking earlier)
    (entry : next position = item)
    (entriesAfter : ∀ later < count, position ≤ later → next (later + 1) = ranking later)
    {place : Nat} (bounded : place < count + 1) :
    (place < position ∧ next place = ranking place) ∨
      (place = position ∧ next place = item) ∨
      (position < place ∧ next place = ranking (place - 1)) := by
  rcases Nat.lt_trichotomy place position with before | same | after
  · exact .inl ⟨before, entriesBefore place before⟩
  · subst place
    exact .inr (.inl ⟨rfl, entry⟩)
  · refine .inr (.inr ⟨after, ?_⟩)
    have moved := entriesAfter (place - 1) (by omega) (by omega)
    rwa [Nat.sub_add_cancel (by omega)] at moved

/-- Inserting an item where its key belongs. -/
theorem insert [DecidableEq ρ] (ranks : Ranks key items ranking count) (fresh : item ∉ items)
    (bounded : position ≤ count)
    (before : ∀ earlier < position, key item ≤ key (ranking earlier))
    (after : ∀ later < count, position ≤ later → key (ranking later) ≤ key item)
    (entriesBefore : ∀ earlier < position, next earlier = ranking earlier)
    (entry : next position = item)
    (entriesAfter : ∀ later < count, position ≤ later → next (later + 1) = ranking later) :
    Ranks key (insert item items) next (count + 1) := by
  have cases := fun place (placeBound : place < count + 1) =>
    entry_cases entriesBefore entry entriesAfter placeBound
  have new : ∀ place < count, ranking place ≠ item := by
    intro place placeBound same
    exact fresh (same ▸ ranks.mem placeBound)
  constructor
  · intro first second firstBound secondBound same
    rcases cases first firstBound with ⟨firstPlace, firstEntry⟩ | ⟨firstPlace, firstEntry⟩ |
        ⟨firstPlace, firstEntry⟩ <;>
      rcases cases second secondBound with ⟨secondPlace, secondEntry⟩ |
        ⟨secondPlace, secondEntry⟩ | ⟨secondPlace, secondEntry⟩ <;>
      rw [firstEntry, secondEntry] at same
    · exact ranks.injective first second (by omega) (by omega) same
    · exact absurd same (new first (by omega))
    · have equal := ranks.injective first (second - 1) (by omega) (by omega) same
      omega
    · exact absurd same.symm (new second (by omega))
    · omega
    · exact absurd same.symm (new (second - 1) (by omega))
    · have equal := ranks.injective (first - 1) second (by omega) (by omega) same
      omega
    · exact absurd same (new (first - 1) (by omega))
    · have equal := ranks.injective (first - 1) (second - 1) (by omega) (by omega) same
      omega
  · intro other
    rw [Finset.mem_insert, ranks.covers]
    constructor
    · rintro (rfl | ⟨place, placeBound, rfl⟩)
      · exact ⟨position, by omega, entry⟩
      · rcases Nat.lt_or_ge place position with earlier | later
        · exact ⟨place, by omega, entriesBefore place earlier⟩
        · exact ⟨place + 1, by omega, entriesAfter place placeBound later⟩
    · rintro ⟨place, placeBound, rfl⟩
      rcases cases place placeBound with ⟨earlier, same⟩ | ⟨_, same⟩ | ⟨later, same⟩
      · exact .inr ⟨place, by omega, same.symm⟩
      · exact .inl same
      · exact .inr ⟨place - 1, by omega, same.symm⟩
  · intro first second ordered secondBound
    rcases cases first (by omega) with ⟨firstPlace, firstEntry⟩ | ⟨firstPlace, firstEntry⟩ |
        ⟨firstPlace, firstEntry⟩ <;>
      rcases cases second secondBound with ⟨secondPlace, secondEntry⟩ |
        ⟨secondPlace, secondEntry⟩ | ⟨secondPlace, secondEntry⟩ <;>
      rw [firstEntry, secondEntry]
    · exact ranks.sorted first second ordered (by omega)
    · exact before first firstPlace
    · exact ranks.sorted first (second - 1) (by omega) (by omega)
    · omega
    · exact after (second - 1) (by omega) (by omega)
    · omega
    · omega
    · exact ranks.sorted (first - 1) (second - 1) (by omega) (by omega)

end Insert

/-- Deleting the item at a position. -/
theorem delete [DecidableEq ρ] {position : Nat} (ranks : Ranks key items ranking (count + 1))
    (bounded : position ≤ count)
    (entriesBefore : ∀ earlier < position, next earlier = ranking earlier)
    (entriesAfter : ∀ later < count, position ≤ later → next later = ranking (later + 1)) :
    Ranks key (items.erase (ranking position)) next count := by
  -- The place an entry came from.
  have origin : ∀ place < count, ∃ source < count + 1, source ≠ position ∧
      (source = place ∨ source = place + 1) ∧ (place < position ↔ source = place) ∧
      next place = ranking source := by
    intro place placeBound
    rcases Nat.lt_or_ge place position with earlier | later
    · exact ⟨place, by omega, by omega, .inl rfl, by omega, entriesBefore place earlier⟩
    · exact ⟨place + 1, by omega, by omega, .inr rfl, by omega,
        entriesAfter place placeBound later⟩
  constructor
  · intro first second firstBound secondBound same
    rcases origin first firstBound with ⟨firstSource, _, _, _, _, firstEntry⟩
    rcases origin second secondBound with ⟨secondSource, _, _, _, _, secondEntry⟩
    rw [firstEntry, secondEntry] at same
    have equal := ranks.injective firstSource secondSource (by omega) (by omega) same
    omega
  · intro item
    rw [Finset.mem_erase, ranks.covers]
    constructor
    · rintro ⟨different, place, placeBound, rfl⟩
      rcases Nat.lt_trichotomy place position with earlier | same | later
      · exact ⟨place, by omega, entriesBefore place earlier⟩
      · subst place
        exact absurd rfl different
      · refine ⟨place - 1, by omega, ?_⟩
        rw [entriesAfter (place - 1) (by omega) (by omega), Nat.sub_add_cancel (by omega)]
    · rintro ⟨place, placeBound, rfl⟩
      rcases origin place placeBound with ⟨source, sourceBound, apart, _, _, entry⟩
      rw [entry]
      refine ⟨fun same => apart ?_, source, sourceBound, rfl⟩
      exact ranks.injective source position sourceBound (by omega) same
  · intro first second ordered secondBound
    rcases origin first (by omega) with ⟨firstSource, _, _, _, _, firstEntry⟩
    rcases origin second secondBound with ⟨secondSource, _, _, _, _, secondEntry⟩
    rw [firstEntry, secondEntry]
    exact ranks.sorted firstSource secondSource (by omega) (by omega)

/-- A ranking of the first numbers is a permutation of them, sorted by key. -/
theorem perm_range {key : Nat → κ} {ranking : Nat → Nat}
    (ranks : Ranks key (Finset.range count) ranking count) :
    ((List.range count).map ranking).Perm (List.range count) ∧
      ((List.range count).map ranking).Pairwise fun first second => key second ≤ key first := by
  constructor
  · have distinct : ((List.range count).map ranking).Nodup := by
      apply List.Nodup.map_on _ List.nodup_range
      intro first firstBound second secondBound same
      exact ranks.injective first second (List.mem_range.mp firstBound)
        (List.mem_range.mp secondBound) same
    rw [List.perm_ext_iff_of_nodup distinct List.nodup_range]
    intro item
    rw [List.mem_map, List.mem_range, ← Finset.mem_range, ranks.covers]
    simp
  · rw [List.pairwise_map, List.pairwise_iff_getElem]
    intro first second firstBound secondBound ordered
    simp only [List.length_range] at firstBound secondBound
    simpa using ranks.sorted first second ordered secondBound

end Ranks

end Stakenet

import Mathlib.Data.List.Perm.Basic
import Mathlib.Data.List.Perm.Subperm
import Mathlib.Data.List.Dedup

/-! Lists cut into batches of a size, and lists sorted into groups by a key. Both only rearrange
their items. -/

namespace Stakenet

/-! ## Batches of a size -/

section Chunks

variable {α : Type u} {size : Nat} {items chunk : List α}

def chunksFrom (size : Nat) : (fuel : Nat) → List α → List (List α)
  | 0, _ => []
  | _ + 1, [] => []
  | fuel + 1, item :: items =>
      (item :: items).take size :: chunksFrom size fuel ((item :: items).drop size)

/-- Consecutive batches of `size` items, the last of which may be shorter. A positive size is up
to the caller. -/
def chunks (size : Nat) (items : List α) : List (List α) :=
  chunksFrom size items.length items

theorem flatten_chunksFrom (positive : 0 < size) {fuel : Nat} (bounded : items.length ≤ fuel) :
    (chunksFrom size fuel items).flatten = items := by
  induction fuel generalizing items with
  | zero =>
      rw [List.length_eq_zero_iff.mp (Nat.le_zero.mp bounded)]
      rfl
  | succ fuel induction =>
      cases items with
      | nil => rfl
      | cons item items =>
          have shorter : ((item :: items).drop size).length ≤ fuel := by
            rw [List.length_drop]
            omega
          rw [chunksFrom, List.flatten_cons, induction shorter, List.take_append_drop]

@[simp] theorem flatten_chunks (positive : 0 < size) (items : List α) :
    (chunks size items).flatten = items :=
  flatten_chunksFrom positive (Nat.le_refl _)

theorem mem_chunksFrom (positive : 0 < size) {fuel : Nat}
    (member : chunk ∈ chunksFrom size fuel items) : chunk ≠ [] ∧ chunk.length ≤ size := by
  induction fuel generalizing items with
  | zero => cases member
  | succ fuel induction =>
      cases items with
      | nil => cases member
      | cons item items =>
          rw [chunksFrom, List.mem_cons] at member
          rcases member with rfl | later
          · refine ⟨?_, List.length_take_le _ _⟩
            rw [ne_eq, List.take_eq_nil_iff, not_or]
            exact ⟨Nat.ne_of_gt positive, List.cons_ne_nil _ _⟩
          · exact induction later

theorem length_le_of_mem_chunks (positive : 0 < size) (member : chunk ∈ chunks size items) :
    chunk.length ≤ size :=
  (mem_chunksFrom positive member).2

theorem ne_nil_of_mem_chunks (positive : 0 < size) (member : chunk ∈ chunks size items) :
    chunk ≠ [] :=
  (mem_chunksFrom positive member).1

theorem mem_of_mem_chunks (positive : 0 < size) (member : chunk ∈ chunks size items) {item : α}
    (inChunk : item ∈ chunk) : item ∈ items := by
  rw [← flatten_chunks positive items]
  exact List.mem_flatten_of_mem member inChunk

end Chunks

/-! ## Groups of a key -/

section Groups

variable {α : Type u} {κ : Type v} [DecidableEq κ] {key : α → κ} {items : List α} {keys : List κ}

/-- The groups of the listed keys are together the items that have such a key. -/
theorem flatMap_filter_perm (distinct : keys.Nodup) (covered : ∀ item ∈ items, key item ∈ keys) :
    (keys.flatMap fun k => items.filter (key · = k)).Perm items := by
  induction keys generalizing items with
  | nil =>
      have none : items = [] := List.eq_nil_iff_forall_not_mem.mpr
        fun item member => List.not_mem_nil (covered item member)
      subst items
      exact .nil
  | cons first rest induction =>
      rw [List.nodup_cons] at distinct
      rw [List.flatMap_cons]
      have coveredRest : ∀ item ∈ items.filter fun item => !decide (key item = first),
          key item ∈ rest := by
        intro item member
        rw [List.mem_filter] at member
        have different : key item ≠ first := by simpa using member.2
        exact (List.mem_cons.mp (covered item member.1)).resolve_left different
      have others := induction distinct.2 coveredRest
      have same : (rest.flatMap fun k =>
            (items.filter fun item => !decide (key item = first)).filter (key · = k)) =
          rest.flatMap fun k => items.filter (key · = k) := by
        refine List.flatMap_congr fun k member => ?_
        rw [List.filter_filter]
        refine List.filter_congr fun item _ => ?_
        have different : k ≠ first := fun equal => distinct.1 (equal ▸ member)
        by_cases atKey : key item = k
        · simp [atKey, different]
        · simp [atKey]
      rw [same] at others
      exact (others.append_left _).trans (List.filter_append_perm _ items)

end Groups

end Stakenet

import Mathlib.Data.Finset.Basic
import Mathlib.Data.Finset.Dedup
import Stakenet.Foundation.Outcome

/-! Machines that have a set of rows to handle. Each successful step handles one row, and the
machine goes on when none is left: which rows are left after some steps, in any order, and when
the machine has gone on. -/

namespace Stakenet.Rounds

variable {σ ι ε : Type*} {step : σ → ι → Except ε σ} {row : ι → Nat} {Allowed : ι → Prop}
variable {Active : Finset Nat → σ → Prop} {Done : ι → σ → Prop}

/-- A step takes its row out of the pending ones, and the last row ends the stage. -/
def Handles (step : σ → ι → Except ε σ) (row : ι → Nat) (Allowed : ι → Prop)
    (Active : Finset Nat → σ → Prop) (Done : ι → σ → Prop) : Prop :=
  ∀ pending state input next, Active pending state → Allowed input → row input ∈ pending →
    step state input = .ok next →
    (pending.erase (row input) = ∅ → Done input next) ∧
      (pending.erase (row input) ≠ ∅ → Active (pending.erase (row input)) next)

/-- Steps for different pending rows end the stage with the last of them if they are for all the
pending rows, and otherwise leave the others pending. -/
theorem Handles.foldlM (handles : Handles step row Allowed Active Done) {inputs : List ι}
    (allowed : ∀ input ∈ inputs, Allowed input) (distinct : (inputs.map row).Nodup)
    {pending : Finset Nat} (among : ∀ input ∈ inputs, row input ∈ pending) {state final : σ}
    (active : Active pending state) (remains : pending ≠ ∅)
    (executed : inputs.foldlM step state = .ok final) :
    (pending ⊆ (inputs.map row).toFinset →
      ∃ last, inputs.getLast? = some last ∧ Done last final) ∧
    (¬pending ⊆ (inputs.map row).toFinset →
      Active (pending \ (inputs.map row).toFinset) final) := by
  induction inputs generalizing pending state with
  | nil =>
      rw [List.foldlM_nil, Outcome.pure_eq_ok] at executed
      subst final
      rw [List.map_nil, List.toFinset_nil, Finset.subset_empty, Finset.sdiff_empty]
      exact ⟨fun none => absurd none remains, fun _ => active⟩
  | cons first rest induction =>
      rw [List.foldlM_cons, Outcome.bind_eq_ok] at executed
      rcases executed with ⟨next, stepped, executed⟩
      rw [List.forall_mem_cons] at allowed among
      rw [List.map_cons, List.nodup_cons] at distinct
      have handled := handles pending state first next active allowed.1 among.1 stepped
      rw [List.map_cons, List.toFinset_cons]
      by_cases isLast : pending.erase (row first) = ∅
      · have onlyRow : pending = {row first} :=
          (Finset.erase_eq_empty_iff _ _).mp isLast |>.resolve_left remains
        have none : rest = [] := by
          refine List.eq_nil_iff_forall_not_mem.mpr fun other member => ?_
          have same : row other = row first :=
            Finset.mem_singleton.mp (onlyRow ▸ among.2 other member)
          exact distinct.1 (same ▸ List.mem_map_of_mem member)
        subst rest
        rw [List.foldlM_nil, Outcome.pure_eq_ok] at executed
        subst final
        refine ⟨fun _ => ⟨first, rfl, handled.1 isLast⟩, fun uncovered => ?_⟩
        refine absurd (fun position member => ?_) uncovered
        rw [onlyRow] at member
        exact Finset.mem_insert.mpr (.inl (Finset.mem_singleton.mp member))
      · have amongRest : ∀ input ∈ rest, row input ∈ pending.erase (row first) := by
          intro other member
          refine Finset.mem_erase.mpr ⟨fun same => ?_, among.2 other member⟩
          exact distinct.1 (same ▸ List.mem_map_of_mem member)
        have later := induction allowed.2 distinct.2 amongRest (handled.2 isLast) isLast executed
        rw [← Finset.subset_insert_iff, Finset.erase_sdiff_comm, ← Finset.sdiff_insert] at later
        refine ⟨fun covered => ?_, later.2⟩
        rcases later.1 covered with ⟨last, isLastOne, done⟩
        refine ⟨last, ?_, done⟩
        rw [List.getLast?_cons, isLastOne]
        rfl

end Stakenet.Rounds

import Mathlib.Algebra.BigOperators.Group.Finset.Basic
import Mathlib.Algebra.Order.Ring.Nat
import Mathlib.Algebra.Order.BigOperators.Group.List
import Mathlib.Data.Finmap

/-! Amounts summed up by key. Sums are cut at a cap, as saturating additions do it. -/

namespace Stakenet.Tally

variable {κ : Type u} [DecidableEq κ]

abbrev Totals (κ : Type u) := Finmap fun _ : κ => Nat

/-- A new key starts with its amount, another one adds it. -/
def add (cap : Nat) (totals : Totals κ) (item : κ × Nat) : Totals κ :=
  match totals.lookup item.1 with
  | some total => totals.insert item.1 (min (total + item.2) cap)
  | none => totals.insert item.1 item.2

def collect (cap : Nat) (items : List (κ × Nat)) : Totals κ :=
  items.foldl (add cap) ∅

/-- All that a key gets. -/
def received (key : κ) (items : List (κ × Nat)) : Nat :=
  ((items.filter fun item => decide (item.1 = key)).map Prod.snd).sum

def sum (totals : Totals κ) : Nat :=
  (totals.entries.map fun entry => entry.2).sum

theorem collect_append (cap : Nat) (items : List (κ × Nat)) (item : κ × Nat) :
    collect cap (items ++ [item]) = add cap (collect cap items) item := by
  rw [collect, List.foldl_append]
  rfl

theorem received_append (key : κ) (items others : List (κ × Nat)) :
    received key (items ++ others) = received key items + received key others := by
  rw [received, List.filter_append, List.map_append, List.sum_append]
  rfl

theorem received_singleton (key : κ) (item : κ × Nat) :
    received key [item] = if item.1 = key then item.2 else 0 := by
  by_cases same : item.1 = key
  · simp [received, same]
  · simp [received, same]

theorem received_le (key : κ) (items : List (κ × Nat)) :
    received key items ≤ (items.map Prod.snd).sum :=
  (List.filter_sublist.map _).sum_le_sum fun _ _ => Nat.zero_le _

theorem received_perm {items others : List (κ × Nat)} (perm : items.Perm others) (key : κ) :
    received key items = received key others :=
  ((perm.filter _).map _).sum_eq

theorem received_eq_zero {key : κ} {items : List (κ × Nat)} (absent : key ∉ items.map Prod.fst) :
    received key items = 0 := by
  have none : items.filter (fun item => decide (item.1 = key)) = [] := by
    rw [List.filter_eq_nil_iff]
    intro item member same
    exact absent (List.mem_map.mpr ⟨item, member, of_decide_eq_true same⟩)
  rw [received, none]
  rfl

/-! ## One key -/

theorem lookup_add (cap : Nat) (totals : Totals κ) (item : κ × Nat) (key : κ) :
    (add cap totals item).lookup key =
      if item.1 = key then
        some (match totals.lookup key with
          | some total => min (total + item.2) cap
          | none => item.2)
      else
        totals.lookup key := by
  by_cases same : item.1 = key
  · subst same
    rw [if_pos rfl, add]
    cases totals.lookup item.1 with
    | none | some total => exact Finmap.lookup_insert _
  · rw [if_neg same, add]
    cases totals.lookup item.1 with
    | none | some total => exact Finmap.lookup_insert_of_ne _ (Ne.symm same)

/-- A key has a total if it occurs, and this is the sum of its amounts up to the cap. -/
theorem lookup_collect {cap : Nat} {items : List (κ × Nat)}
    (bounded : ∀ item ∈ items, item.2 ≤ cap) (key : κ) :
    (collect cap items).lookup key =
      if key ∈ items.map Prod.fst then some (min (received key items) cap) else none := by
  induction items using List.reverseRecOn with
  | nil => exact Finmap.lookup_empty key
  | append_singleton items item induction =>
      have earlier : ∀ other ∈ items, other.2 ≤ cap :=
        fun other member => bounded other (List.mem_append_left _ member)
      have small : item.2 ≤ cap :=
        bounded item (List.mem_append_right _ (List.mem_singleton_self _))
      have keys : key ∈ (items ++ [item]).map Prod.fst ↔
          key ∈ items.map Prod.fst ∨ key = item.1 := by
        rw [List.map_append, List.mem_append, List.map_singleton, List.mem_singleton]
      simp only [keys]
      rw [collect_append, lookup_add, induction earlier, received_append, received_singleton]
      by_cases same : item.1 = key
      · subst same
        rw [if_pos rfl, if_pos (Or.inr rfl), if_pos rfl]
        congr 1
        by_cases present : item.1 ∈ items.map Prod.fst
        · have saturated : ∀ amount,
              min (min amount cap + item.2) cap = min (amount + item.2) cap := by
            omega
          rw [if_pos present]
          exact saturated _
        · rw [if_neg present, received_eq_zero present, Nat.zero_add]
          exact (Nat.min_eq_left small).symm
      · rw [if_neg same, if_neg same, Nat.add_zero]
        simp only [Ne.symm same, or_false]

/-- The order does not matter. -/
theorem collect_perm {cap : Nat} {items others : List (κ × Nat)} (perm : items.Perm others)
    (bounded : ∀ item ∈ items, item.2 ≤ cap) : collect cap items = collect cap others := by
  apply Finmap.ext_lookup
  intro key
  have otherBounded : ∀ item ∈ others, item.2 ≤ cap :=
    fun item member => bounded item (perm.mem_iff.mpr member)
  have sameKeys : key ∈ items.map Prod.fst ↔ key ∈ others.map Prod.fst := (perm.map _).mem_iff
  rw [lookup_collect bounded, lookup_collect otherBounded, received_perm perm]
  simp only [sameKeys]

/-- More items leave the total of a key as it is if they have nothing for it, or if it is at
the cap already. A key that has no total yet gets one. -/
theorem lookup_collect_append_eq_iff {cap : Nat} {items more : List (κ × Nat)}
    (bounded : ∀ item ∈ items ++ more, item.2 ≤ cap) (key : κ) :
    (collect cap (items ++ more)).lookup key = (collect cap items).lookup key ↔
      (key ∈ more.map Prod.fst → key ∈ items.map Prod.fst ∧
        (received key more = 0 ∨ cap ≤ received key items)) := by
  rw [lookup_collect bounded,
    lookup_collect fun item member => bounded item (List.mem_append_left _ member),
    received_append, List.map_append]
  by_cases late : key ∈ more.map Prod.fst
  · by_cases early : key ∈ items.map Prod.fst
    · have total : min (received key items + received key more) cap = min (received key items) cap ↔
          received key more = 0 ∨ cap ≤ received key items := by
        omega
      simp only [List.mem_append, early, late, or_self, if_true, Option.some.injEq, total,
        forall_const, true_and]
    · simp only [List.mem_append, early, late, or_true, if_true, if_false, reduceCtorEq,
        forall_const, false_and]
  · have none : received key more = 0 := received_eq_zero late
    simp only [List.mem_append, late, or_false, none, Nat.add_zero, false_implies]

/-! ## All keys -/

theorem mem_entries_iff {totals : Totals κ} {key : κ} {total : Nat} :
    (⟨key, total⟩ : Sigma fun _ : κ => Nat) ∈ totals.entries ↔
      totals.lookup key = some total := by
  induction totals using Finmap.induction_on with
  | H totals => exact (List.mem_dlookup_iff totals.nodupKeys).symm

theorem sum_insert {totals : Totals κ} {key : κ} (fresh : key ∉ totals) (amount : Nat) :
    sum (totals.insert key amount) = amount + sum totals := by
  rw [sum, Finmap.entries_insert_of_notMem fresh, Multiset.map_cons, Multiset.sum_cons]
  rfl

theorem sum_replace {totals : Totals κ} {key : κ} {total : Nat}
    (present : totals.lookup key = some total) (amount : Nat) :
    sum (totals.insert key amount) + total = amount + sum totals := by
  have absent : key ∉ totals.erase key := Finmap.notMem_erase_self
  have without : totals = (totals.erase key).insert key total := by
    apply Finmap.ext_lookup
    intro other
    by_cases same : other = key
    · rw [same, Finmap.lookup_insert, present]
    · rw [Finmap.lookup_insert_of_ne _ same, Finmap.lookup_erase_ne same]
  have replaced : totals.insert key amount = (totals.erase key).insert key amount := by
    rw [without, Finmap.insert_insert]
    congr 1
    rw [← without]
  rw [replaced, sum_insert absent]
  conv_rhs => rw [without, sum_insert absent]
  omega

/-- The totals are no more than the amounts. -/
theorem sum_collect_le (cap : Nat) (items : List (κ × Nat)) :
    sum (collect cap items) ≤ (items.map Prod.snd).sum := by
  induction items using List.reverseRecOn with
  | nil => exact Nat.le_refl 0
  | append_singleton items item induction =>
      rw [collect_append, List.map_append, List.sum_append, List.map_singleton,
        List.sum_singleton, add]
      cases present : (collect cap items).lookup item.1 with
      | none =>
          have fresh : item.1 ∉ collect cap items := Finmap.lookup_eq_none.mp present
          dsimp only
          rw [sum_insert fresh]
          omega
      | some total =>
          have replaced := sum_replace present (min (total + item.2) cap)
          dsimp only
          omega

end Stakenet.Tally

import Mathlib.Algebra.Order.Ring.Nat
import Mathlib.Data.Nat.Count
import Mathlib.Logic.Function.Basic

/-! # Sets of naturals stored as 64-bit words

Bit `index % 64` of word `index / 64` says whether `index` belongs to the set.
The operations are the usual shifts and masks; the theorems say which set each
of them yields. -/

namespace Stakenet.WordSet

/-- The words of a set. Only the first few are used by a set of bounded size. -/
abbrev Words := Nat → BitVec 64

def test (words : Words) (index : Nat) : Bool :=
  (words (index / 64) >>> (index % 64)) &&& 1#64 == 1#64

def assign (words : Words) (index : Nat) (value : Bool) : Words :=
  let mask : BitVec 64 := 1#64 <<< (index % 64)
  let word := words (index / 64)
  Function.update words (index / 64) (if value then word ||| mask else word &&& ~~~mask)

/-- Number of set bits of one word. Most words of a mask are zero, and these are
not looked at bit by bit. -/
def countOnes (word : BitVec 64) : Nat :=
  if word = 0#64 then 0 else Nat.count (fun bit => word.getLsbD bit = true) 64

theorem countOnes_eq (word : BitVec 64) :
    countOnes word = Nat.count (fun bit => word.getLsbD bit = true) 64 := by
  unfold countOnes
  split
  case isTrue zero => simp [zero, Nat.count_eq_card_filter_range]
  case isFalse => rfl

/-- Number of set bits of the first `size` words. -/
def count (size : Nat) (words : Words) : Nat :=
  ((List.range size).map fun index => countOnes (words index)).sum

def isEmpty (size : Nat) (words : Words) : Bool :=
  (List.range size).all fun index => words index == 0#64

/-- Whether every index below `bound` is in the set: the words that lie wholly
below it are compared with the all-ones word, the last one under a mask. -/
def isComplete (words : Words) (bound : Nat) : Bool :=
  let fullWords := bound / 64
  let remainder := bound % 64
  let mask : BitVec 64 := (1#64 <<< remainder) - 1#64
  if (List.range fullWords).all fun index => words index == BitVec.allOnes 64 then
    if 0 < remainder then words fullWords &&& mask == mask else true
  else
    false

/-! ## Membership -/

theorem test_eq_getLsbD (words : Words) (index : Nat) :
    test words index = (words (index / 64)).getLsbD (index % 64) := by
  unfold test
  cases bit : (words (index / 64)).getLsbD (index % 64) with
  | true =>
      rw [beq_iff_eq]
      apply BitVec.eq_of_getLsbD_eq
      intro position bounded
      by_cases first : position = 0 <;> simp [first, bit]
  | false =>
      rw [beq_eq_false_iff_ne]
      intro equal
      have differs := congrArg (fun word : BitVec 64 => word.getLsbD 0) equal
      simp [bit] at differs

theorem test_at (words : Words) {word bit : Nat} (bounded : bit < 64) :
    test words (word * 64 + bit) = (words word).getLsbD bit := by
  rw [test_eq_getLsbD]
  congr 1 <;> [congr 1; skip] <;> omega

/-- Assigning one index changes the membership of that index only. -/
theorem test_assign (words : Words) (index other : Nat) (value : Bool) :
    test (assign words index value) other =
      if other = index then value else test words other := by
  simp only [test_eq_getLsbD, assign]
  have bitBound : other % 64 < 64 := Nat.mod_lt _ (by decide)
  have indexBound : index % 64 < 64 := Nat.mod_lt _ (by decide)
  by_cases sameWord : other / 64 = index / 64
  · have same : other = index ↔ other % 64 = index % 64 := by omega
    rw [sameWord, Function.update_self]
    by_cases sameBit : other % 64 = index % 64
    · cases value <;> simp [same, sameBit, indexBound]
    · have apart : ¬(other % 64 - index % 64 = 0 ∧ index % 64 ≤ other % 64) := by omega
      cases value <;> simp [same, sameBit, bitBound] <;> omega
  · have different : other ≠ index := fun equal => sameWord (by rw [equal])
    rw [Function.update_of_ne sameWord, if_neg different]

/-! ## Cardinality -/

/-- The stored set, as a finite set of naturals. -/
def rows (size : Nat) (words : Words) : Finset Nat :=
  (Finset.range (size * 64)).filter fun index => test words index = true

@[simp] theorem mem_rows {size : Nat} {words : Words} {index : Nat} :
    index ∈ rows size words ↔ index < size * 64 ∧ test words index = true := by
  simp [rows]

/-- Assigning an index within the words adds it to the set or takes it out. -/
theorem rows_assign {size index : Nat} (words : Words) (bounded : index < size * 64)
    (value : Bool) :
    rows size (assign words index value) =
      if value then insert index (rows size words) else (rows size words).erase index := by
  ext other
  rw [mem_rows, test_assign]
  by_cases same : other = index
  · subst same
    cases value <;> simp [bounded]
  · cases value <;> simp [same]

theorem count_eq_card (size : Nat) (words : Words) :
    count size words = (rows size words).card := by
  unfold rows count
  rw [← Nat.count_eq_card_filter_range]
  induction size with
  | zero => simp
  | succ size induction =>
      rw [List.range_succ, List.map_append, List.sum_append, induction,
        show (size + 1) * 64 = size * 64 + 64 by omega, Nat.count_add]
      simp only [List.map_cons, List.map_nil, List.sum_singleton, countOnes_eq,
        Nat.add_left_cancel_iff]
      simp only [Nat.count]
      apply List.countP_congr
      intro bit member
      simp only [test_at words (List.mem_range.mp member)]

theorem isEmpty_iff {size : Nat} {words : Words} :
    isEmpty size words = true ↔ rows size words = ∅ := by
  simp only [isEmpty, List.all_eq_true, List.mem_range, beq_iff_eq,
    Finset.eq_empty_iff_forall_notMem, mem_rows, not_and, Bool.not_eq_true]
  constructor
  · intro zero index bounded
    rw [test_eq_getLsbD, zero (index / 64) (by omega)]
    simp
  · intro clear word bounded
    apply BitVec.eq_of_getLsbD_eq
    intro bit bitBound
    have cleared := clear (word * 64 + bit) (by omega)
    rw [test_at words bitBound] at cleared
    simp [cleared]

theorem count_eq_zero_iff {size : Nat} {words : Words} :
    count size words = 0 ↔ rows size words = ∅ := by
  rw [count_eq_card, Finset.card_eq_zero]

/-! ## Completeness -/

private theorem getLsbD_lowMask {remainder bit : Nat} (bounded : remainder < 64) :
    ((1#64 <<< remainder) - 1#64).getLsbD bit = decide (bit < remainder) := by
  have value : ((1#64 <<< remainder) - 1#64).toNat = 2 ^ remainder - 1 := by
    have power : 2 ^ remainder < 2 ^ 64 := Nat.pow_lt_pow_right (by decide) bounded
    have positive := Nat.two_pow_pos remainder
    rw [BitVec.toNat_sub, BitVec.toNat_shiftLeft, Nat.shiftLeft_eq]
    simp only [BitVec.toNat_ofNat]
    rw [show 1 % 2 ^ 64 = 1 by decide, Nat.one_mul, Nat.mod_eq_of_lt power]
    omega
  rw [← BitVec.testBit_toNat, value, Nat.testBit_two_pow_sub_one]

theorem isComplete_iff {words : Words} {bound : Nat} :
    isComplete words bound = true ↔ ∀ index < bound, test words index = true := by
  have remainderBound : bound % 64 < 64 := Nat.mod_lt _ (by decide)
  have fullIff : (List.range (bound / 64)).all
      (fun index => words index == BitVec.allOnes 64) = true ↔
      ∀ index < bound / 64 * 64, test words index = true := by
    simp only [List.all_eq_true, List.mem_range, beq_iff_eq]
    constructor
    · intro full index bounded
      rw [test_eq_getLsbD, full (index / 64) (by omega), BitVec.getLsbD_allOnes]
      exact decide_eq_true (Nat.mod_lt _ (by decide))
    · intro present word bounded
      apply BitVec.eq_of_getLsbD_eq
      intro bit bitBound
      rw [← test_at words bitBound, present _ (by omega), BitVec.getLsbD_allOnes]
      exact (decide_eq_true bitBound).symm
  have partialIff : (words (bound / 64) &&& ((1#64 <<< (bound % 64)) - 1#64) ==
      (1#64 <<< (bound % 64)) - 1#64) = true ↔
      ∀ bit < bound % 64, test words (bound / 64 * 64 + bit) = true := by
    rw [beq_iff_eq]
    constructor
    · intro equal bit bounded
      have atBit := congrArg (fun word : BitVec 64 => word.getLsbD bit) equal
      rw [test_at words (by omega)]
      simpa [getLsbD_lowMask remainderBound, bounded] using atBit
    · intro present
      apply BitVec.eq_of_getLsbD_eq
      intro bit bitBound
      rw [BitVec.getLsbD_and, getLsbD_lowMask remainderBound]
      by_cases low : bit < bound % 64
      · simp [low, ← test_at words bitBound, present bit low]
      · simp [low]
  -- An index below the bound lies in a full word or in the masked last one.
  have split : (∀ index < bound, test words index = true) ↔
      (∀ index < bound / 64 * 64, test words index = true) ∧
        ∀ bit < bound % 64, test words (bound / 64 * 64 + bit) = true := by
    constructor
    · intro present
      exact ⟨fun index _ => present index (by omega), fun bit _ => present _ (by omega)⟩
    · rintro ⟨full, last⟩ index bounded
      by_cases inFull : index < bound / 64 * 64
      · exact full index inFull
      · have found := last (index - bound / 64 * 64) (by omega)
        rwa [Nat.add_sub_cancel' (by omega)] at found
  rw [split, ← fullIff]
  unfold isComplete
  by_cases full : (List.range (bound / 64)).all
      (fun index => words index == BitVec.allOnes 64) = true
  · by_cases partialWord : 0 < bound % 64
    · simp only [full, partialWord, if_true, true_and]
      exact partialIff
    · have none : bound % 64 = 0 := by omega
      simp only [full, none, if_true, Nat.lt_irrefl, if_false, true_and]
      simp
  · simp only [full, Bool.false_eq_true, if_false, false_and]

end Stakenet.WordSet

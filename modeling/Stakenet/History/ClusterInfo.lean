import Mathlib.Order.Interval.Finset.Nat
import Stakenet.Foundation.WordSet
import Stakenet.History.CircBuf

/-! Counting the blocks of an epoch in the slot history: whole words of it at once, the
slots before and after them one by one. -/

namespace Stakenet.History

open WordSet (Words)

/-! ## The slot history -/

/-- `MAX_ENTRIES`: the slot history contains the last 1,048,576 slots. -/
def maxEntries : Nat := 1024 * 1024

def bitvecBlockSize : Nat := 64

inductive Check
  | future
  | tooOld
  | found
  | notFound
  deriving DecidableEq, Repr

structure SlotHistory where
  bits : Words
  nextSlot : Nat

/-- Whether the bit of a slot is set. Slots a whole ring apart share it. -/
def SlotHistory.bit (slotHistory : SlotHistory) (slot : Nat) : Bool :=
  WordSet.test slotHistory.bits (slot % maxEntries)

/-- What `SlotHistory::check` tells about a slot. -/
structure ChecksSlots (check : SlotHistory → Nat → Check) : Prop where
  future : ∀ slotHistory slot, check slotHistory slot = .future ↔ slotHistory.nextSlot ≤ slot
  tooOld : ∀ slotHistory slot,
    check slotHistory slot = .tooOld ↔ slot + maxEntries < slotHistory.nextSlot
  found : ∀ slotHistory slot, check slotHistory slot = .found ↔
    slot < slotHistory.nextSlot ∧ slotHistory.nextSlot ≤ slot + maxEntries ∧
      slotHistory.bit slot = true

/-! ## Counting -/

/-- `u64::checked_add`. -/
def checkedAddU64 (left right : Nat) : Result Nat :=
  if left + right < 2 ^ 64 then .ok (left + right) else fail .arithmeticError

def checkedSubU64 (left right : Nat) : Result Nat :=
  if right ≤ left then .ok (left - right) else fail .arithmeticError

def firstFullBlockSlot (startSlot endSlot : Nat) : Result Nat :=
  if startSlot % bitvecBlockSize = 0 then
    .ok startSlot
  else do
    let remaining ← checkedSubU64 bitvecBlockSize (startSlot % bitvecBlockSize)
    return min (← checkedAddU64 startSlot remaining) endSlot

def lastFullBlockSlot (firstFullBlockSlot endSlot : Nat) : Result Nat := do
  return max (← checkedSubU64 endSlot (endSlot % bitvecBlockSize)) firstFullBlockSlot

/-- First and last slots, in partial blocks. -/
def countSlot (check : SlotHistory → Nat → Check) (slotHistory : SlotHistory)
    (blocksInEpoch slot : Nat) : Result Nat :=
  match check slotHistory slot with
  | .found => if blocksInEpoch + 1 < 2 ^ 32 then .ok (blocksInEpoch + 1) else .error .panicked
  | .notFound => .ok blocksInEpoch
  | .tooOld => fail .slotHistoryOutOfDate
  | .future => .ok blocksInEpoch

/-- The bits of a whole word. -/
def countBlock (innerBitvec : Words) (blocksInEpoch slot : Nat) : Result Nat :=
  let blockIndex := (slot % maxEntries) / bitvecBlockSize
  let blocks := blocksInEpoch + WordSet.countOnes (innerBitvec blockIndex)
  if blocks < 2 ^ 32 then .ok blocks else fail .arithmeticError

/-- The count, and the bits to be used again. -/
def confirmedBlocksInEpoch (check : SlotHistory → Nat → Check) (startSlot endSlot : Nat)
    (slotHistory : SlotHistory) : Result (Nat × Words) := do
  let firstFull ← firstFullBlockSlot startSlot endSlot
  let lastFull ← lastFullBlockSlot firstFull endSlot
  let partialSlots := List.range' startSlot (firstFull - startSlot) ++
    List.range' lastFull (endSlot + 1 - lastFull)
  let blocksInEpoch ← partialSlots.foldlM (countSlot check slotHistory) 0
  let fullBlocks := List.range' firstFull
    ((lastFull - firstFull + (bitvecBlockSize - 1)) / bitvecBlockSize) bitvecBlockSize
  let blocksInEpoch ← fullBlocks.foldlM (countBlock slotHistory.bits) blocksInEpoch
  return (blocksInEpoch, slotHistory.bits)

/-! ## Where the whole words begin and end -/

/-- The whole words are those that begin at or after the first slot and come before the word
of the last slot. -/
structure FullBlocks (startSlot endSlot firstFull lastFull : Nat) : Prop where
  starts : startSlot ≤ firstFull
  ordered : firstFull ≤ lastFull
  ends : lastFull ≤ endSlot
  aligned : firstFull < lastFull → firstFull % 64 = 0 ∧ lastFull % 64 = 0
  few : (firstFull - startSlot) + (endSlot + 1 - lastFull) ≤ 128
  inside : ∀ slot, (firstFull ≤ slot ∧ slot < lastFull) ↔
    (startSlot ≤ slot / 64 * 64 ∧ slot / 64 < endSlot / 64)

theorem firstFullBlockSlot_fits {startSlot endSlot : Nat} (ordered : startSlot ≤ endSlot)
    (fits : startSlot % 64 = 0 ∨ startSlot < 2 ^ 64 - 64) :
    ∃ firstFull lastFull, firstFullBlockSlot startSlot endSlot = .ok firstFull ∧
      lastFullBlockSlot firstFull endSlot = .ok lastFull ∧
      FullBlocks startSlot endSlot firstFull lastFull := by
  have last : ∀ firstFull, lastFullBlockSlot firstFull endSlot =
      .ok (max (endSlot - endSlot % 64) firstFull) := by
    intro firstFull
    have below : endSlot % 64 ≤ endSlot := Nat.mod_le _ _
    rw [lastFullBlockSlot, checkedSubU64, bitvecBlockSize, if_pos below]
    rfl
  by_cases aligned : startSlot % 64 = 0
  · refine ⟨startSlot, _, if_pos aligned, last startSlot, ?_⟩
    constructor <;> omega
  · have below : startSlot % 64 ≤ 64 := (Nat.mod_lt _ (by decide)).le
    have first : firstFullBlockSlot startSlot endSlot =
        .ok (min (startSlot + (64 - startSlot % 64)) endSlot) := by
      rw [firstFullBlockSlot, bitvecBlockSize, if_neg aligned, checkedSubU64, if_pos below,
        Outcome.ok_bind, checkedAddU64, if_pos (by omega)]
      rfl
    refine ⟨_, _, first, last _, ?_⟩
    constructor <;> omega

theorem firstFullBlockSlot_overflows {startSlot : Nat} (bounded : startSlot < 2 ^ 64)
    (unaligned : startSlot % 64 ≠ 0) (high : 2 ^ 64 - 64 ≤ startSlot) (endSlot : Nat) :
    firstFullBlockSlot startSlot endSlot = fail .arithmeticError := by
  have below : startSlot % 64 ≤ 64 := (Nat.mod_lt _ (by decide)).le
  rw [firstFullBlockSlot, bitvecBlockSize, if_neg unaligned, checkedSubU64, if_pos below,
    Outcome.ok_bind, checkedAddU64, if_neg (by omega)]
  rfl

/-! ## What the loops count -/

section Counting

variable {check : SlotHistory → Nat → Check} {slotHistory : SlotHistory}

/-- Slots one by one. -/
theorem foldlM_countSlot {slots : List Nat} {blocks : Nat}
    (notOld : ∀ slot ∈ slots, check slotHistory slot ≠ .tooOld)
    (fits : blocks + slots.length < 2 ^ 32) :
    slots.foldlM (countSlot check slotHistory) blocks =
      .ok (blocks + slots.countP fun slot => decide (check slotHistory slot = .found)) := by
  induction slots generalizing blocks with
  | nil => rfl
  | cons slot slots induction =>
      rw [List.forall_mem_cons] at notOld
      rw [List.length_cons] at fits
      rw [List.foldlM_cons, List.countP_cons]
      cases checked : check slotHistory slot with
      | found =>
          have counted : countSlot check slotHistory blocks slot = .ok (blocks + 1) := by
            rw [countSlot, checked]
            exact if_pos (by omega)
          rw [counted, Outcome.ok_bind, induction notOld.2 (by omega), if_pos (by simp)]
          congr 1
          omega
      | tooOld => exact absurd checked notOld.1
      | future | notFound =>
          have skipped : countSlot check slotHistory blocks slot = .ok blocks := by
            rw [countSlot, checked]
          rw [skipped, Outcome.ok_bind, induction notOld.2 (by omega), if_neg (by simp),
            Nat.add_zero]

/-- The bits of a word are those of its 64 slots. -/
theorem countOnes_block {slot : Nat} (aligned : slot % 64 = 0) :
    WordSet.countOnes (slotHistory.bits ((slot % maxEntries) / bitvecBlockSize)) =
      (List.range' slot 64).countP slotHistory.bit := by
  have ring : maxEntries = 64 * 16384 := rfl
  have bits : ∀ bit < 64, (slotHistory.bits ((slot % maxEntries) / bitvecBlockSize)).getLsbD bit =
      slotHistory.bit (slot + bit) := by
    intro bit inside
    rw [SlotHistory.bit, ring, bitvecBlockSize, ← WordSet.test_at _ inside]
    congr 1
    omega
  rw [WordSet.countOnes_eq, Nat.count, List.range'_eq_map_range, List.countP_map]
  apply List.countP_congr
  intro bit member
  rw [decide_eq_true_eq, bits bit (List.mem_range.mp member)]
  rfl

/-- Whole words, as long as their number fits. -/
theorem foldlM_countBlock {slot blocks : Nat} (count : Nat) (aligned : slot % 64 = 0)
    (fits : blocks < 2 ^ 32) :
    (List.range' slot count 64).foldlM (countBlock slotHistory.bits) blocks =
      if blocks + (List.range' slot (64 * count)).countP slotHistory.bit < 2 ^ 32 then
        .ok (blocks + (List.range' slot (64 * count)).countP slotHistory.bit)
      else
        fail .arithmeticError := by
  induction count generalizing slot blocks with
  | zero => exact (if_pos fits).symm
  | succ count induction =>
      have whole : List.range' slot (64 * (count + 1)) =
          List.range' slot 64 ++ List.range' (slot + 64) (64 * count) := by
        rw [List.range'_append_1]
        congr 1
        omega
      rw [List.range'_succ, List.foldlM_cons, whole, List.countP_append, countBlock,
        countOnes_block aligned, ← Nat.add_assoc]
      by_cases room : blocks + (List.range' slot 64).countP slotHistory.bit < 2 ^ 32
      · rw [if_pos room, Outcome.ok_bind, induction (by omega) room]
      · rw [if_neg room, if_neg (by omega)]
        rfl

/-- The count over all slots, from both loops together. -/
theorem confirmedBlocksInEpoch_eq {startSlot endSlot firstFull lastFull : Nat}
    (first : firstFullBlockSlot startSlot endSlot = .ok firstFull)
    (last : lastFullBlockSlot firstFull endSlot = .ok lastFull)
    (full : FullBlocks startSlot endSlot firstFull lastFull)
    (notOld : ∀ slot, startSlot ≤ slot → slot ≤ endSlot → check slotHistory slot ≠ .tooOld) :
    confirmedBlocksInEpoch check startSlot endSlot slotHistory =
      let blocks := (List.range' startSlot (firstFull - startSlot) ++
          List.range' lastFull (endSlot + 1 - lastFull)).countP
            (fun slot => decide (check slotHistory slot = .found)) +
        (List.range' firstFull (lastFull - firstFull)).countP slotHistory.bit
      if blocks < 2 ^ 32 then .ok (blocks, slotHistory.bits) else fail .arithmeticError := by
  have starts := full.starts
  have ends := full.ends
  have ordered := full.ordered
  have few := full.few
  have partialLength : (List.range' startSlot (firstFull - startSlot) ++
      List.range' lastFull (endSlot + 1 - lastFull)).length ≤ 128 := by
    rw [List.length_append, List.length_range', List.length_range']
    exact few
  have partialNotOld : ∀ slot ∈ List.range' startSlot (firstFull - startSlot) ++
      List.range' lastFull (endSlot + 1 - lastFull), check slotHistory slot ≠ .tooOld := by
    intro slot member
    rw [List.mem_append, List.mem_range'_1, List.mem_range'_1] at member
    exact notOld slot (by omega) (by omega)
  have counted := foldlM_countSlot partialNotOld (show 0 + _ < 2 ^ 32 by omega)
  rw [Nat.zero_add] at counted
  have fits := (List.countP_le_length (p := fun slot =>
    decide (check slotHistory slot = .found))).trans partialLength
  rw [confirmedBlocksInEpoch, first, Outcome.ok_bind, last, Outcome.ok_bind]
  dsimp only
  rw [counted, Outcome.ok_bind]
  by_cases whole : firstFull < lastFull
  · have aligned := full.aligned whole
    have count : 64 * ((lastFull - firstFull + (bitvecBlockSize - 1)) / bitvecBlockSize) =
        lastFull - firstFull := by
      rw [bitvecBlockSize]
      omega
    rw [show bitvecBlockSize = 64 from rfl] at count ⊢
    rw [foldlM_countBlock _ aligned.1 (by omega), count]
    split <;> rfl
  · have none : lastFull - firstFull = 0 := by omega
    rw [none, if_pos]
    · rfl
    · rw [List.range'_zero, List.countP_nil]
      omega

end Counting

/-! ## Against the slots one by one -/

/-- The count is the number of slots that are found, and the bits come back as they were. -/
def CountsFound (check : SlotHistory → Nat → Check) (slotHistory : SlotHistory)
    (startSlot endSlot : Nat) : Prop :=
  confirmedBlocksInEpoch check startSlot endSlot slotHistory =
    .ok (((Finset.Icc startSlot endSlot).filter
      fun slot => check slotHistory slot = .found).card, slotHistory.bits)

/-- A weaker condition holds as often only if it is the same. -/
theorem countP_eq_iff {α : Type u} {weak strong : α → Bool} {items : List α}
    (implied : ∀ item ∈ items, strong item = true → weak item = true) :
    items.countP weak = items.countP strong ↔
      ∀ item ∈ items, weak item = true → strong item = true := by
  constructor
  · intro same
    induction items with
    | nil => simp
    | cons item items induction =>
        rw [List.forall_mem_cons] at implied ⊢
        have fewer : items.countP strong ≤ items.countP weak := List.countP_mono_left implied.2
        rw [List.countP_cons, List.countP_cons] at same
        have here : weak item = true → strong item = true := by
          intro holds
          by_contra fails
          rw [if_pos holds, if_neg fails] at same
          omega
        refine ⟨here, induction implied.2 ?_⟩
        by_cases holds : weak item = true
        · rw [if_pos holds, if_pos (here holds)] at same
          omega
        · rw [if_neg holds, if_neg (mt implied.1 holds)] at same
          omega
  · intro stronger
    exact List.countP_congr fun item member => ⟨stronger item member, implied item member⟩

section Slots

variable {check : SlotHistory → Nat → Check} {slotHistory : SlotHistory} {startSlot endSlot : Nat}

theorem card_found (check : SlotHistory → Nat → Check) (slotHistory : SlotHistory)
    (startSlot endSlot : Nat) :
    ((Finset.Icc startSlot endSlot).filter fun slot => check slotHistory slot = .found).card =
      (List.range' startSlot (endSlot + 1 - startSlot)).countP
        fun slot => decide (check slotHistory slot = .found) := by
  have sameSlots : ((Finset.Icc startSlot endSlot).filter
      fun slot => check slotHistory slot = .found) =
      ((List.range' startSlot (endSlot + 1 - startSlot)).filter
        fun slot => decide (check slotHistory slot = .found)).toFinset := by
    ext slot
    rw [Finset.mem_filter, Finset.mem_Icc, List.mem_toFinset, List.mem_filter,
      List.mem_range'_1, decide_eq_true_eq]
    exact and_congr_left fun _ => by omega
  have distinct : ((List.range' startSlot (endSlot + 1 - startSlot)).filter
      fun slot => decide (check slotHistory slot = .found)).Nodup :=
    List.Nodup.filter _ List.nodup_range'
  rw [sameSlots, List.toFinset_card_of_nodup distinct, List.countP_eq_length_filter]

/-- The ring has no more slots than it has bits. -/
theorem card_found_le (checks : ChecksSlots check) (slotHistory : SlotHistory)
    (startSlot endSlot : Nat) :
    ((Finset.Icc startSlot endSlot).filter fun slot => check slotHistory slot = .found).card ≤
      maxEntries := by
  have inside : ((Finset.Icc startSlot endSlot).filter
      fun slot => check slotHistory slot = .found) ⊆
      Finset.Ico (slotHistory.nextSlot - maxEntries) slotHistory.nextSlot := by
    intro slot member
    have found := (checks.found slotHistory slot).mp (Finset.mem_filter.mp member).2
    rw [Finset.mem_Ico]
    omega
  have few := Finset.card_le_card inside
  rw [Nat.card_Ico] at few
  omega

/-- The words count the slots that have not been reached as well. -/
theorem countsFound_iff_of_full (checks : ChecksSlots check)
    (notOld : ∀ slot, startSlot ≤ slot → slot ≤ endSlot → check slotHistory slot ≠ .tooOld)
    {firstFull lastFull : Nat} (first : firstFullBlockSlot startSlot endSlot = .ok firstFull)
    (last : lastFullBlockSlot firstFull endSlot = .ok lastFull)
    (full : FullBlocks startSlot endSlot firstFull lastFull) :
    CountsFound check slotHistory startSlot endSlot ↔
      ∀ slot, firstFull ≤ slot → slot < lastFull → slotHistory.nextSlot ≤ slot →
        slotHistory.bit slot = false := by
  have starts := full.starts
  have ends := full.ends
  have ordered := full.ordered
  have whole : List.range' startSlot (endSlot + 1 - startSlot) =
      List.range' startSlot (firstFull - startSlot) ++
        (List.range' firstFull (lastFull - firstFull) ++
          List.range' lastFull (endSlot + 1 - lastFull)) := by
    have inner := List.range'_append_1 (s := firstFull) (m := lastFull - firstFull)
      (n := endSlot + 1 - lastFull)
    have outer := List.range'_append_1 (s := startSlot) (m := firstFull - startSlot)
      (n := endSlot + 1 - firstFull)
    rw [show firstFull + (lastFull - firstFull) = lastFull by omega,
      show lastFull - firstFull + (endSlot + 1 - lastFull) = endSlot + 1 - firstFull by omega]
      at inner
    rw [show startSlot + (firstFull - startSlot) = firstFull by omega,
      show firstFull - startSlot + (endSlot + 1 - firstFull) = endSlot + 1 - startSlot by omega]
      at outer
    rw [inner, outer]
  have few := card_found_le checks slotHistory startSlot endSlot
  have small : maxEntries < 2 ^ 32 := by decide
  have implied : ∀ slot ∈ List.range' firstFull (lastFull - firstFull),
      decide (check slotHistory slot = .found) = true → slotHistory.bit slot = true := by
    intro slot _ found
    exact ((checks.found slotHistory slot).mp (of_decide_eq_true found)).2.2
  have sameCount := countP_eq_iff implied
  have unreached : (∀ slot ∈ List.range' firstFull (lastFull - firstFull),
      slotHistory.bit slot = true → decide (check slotHistory slot = .found) = true) ↔
      ∀ slot, firstFull ≤ slot → slot < lastFull → slotHistory.nextSlot ≤ slot →
        slotHistory.bit slot = false := by
    constructor
    · intro onlyFound slot atLeast below future
      by_contra set
      have member : slot ∈ List.range' firstFull (lastFull - firstFull) :=
        List.mem_range'_1.mpr (by omega)
      have found := of_decide_eq_true (onlyFound slot member (Bool.eq_true_of_not_eq_false set))
      exact absurd ((checks.found slotHistory slot).mp found).1 (Nat.not_lt.mpr future)
    · intro clear slot member set
      rw [List.mem_range'_1] at member
      have recent := mt (checks.tooOld slotHistory slot).mpr (notOld slot (by omega) (by omega))
      apply decide_eq_true
      apply (checks.found slotHistory slot).mpr
      refine ⟨?_, by omega, set⟩
      by_contra future
      rw [clear slot (by omega) (by omega) (by omega)] at set
      exact Bool.false_ne_true set
  rw [CountsFound, confirmedBlocksInEpoch_eq first last full notOld, ← unreached, ← sameCount]
  rw [card_found, whole, List.countP_append, List.countP_append] at few ⊢
  rw [List.countP_append]
  dsimp only
  constructor
  · intro counted
    split at counted
    case isTrue =>
      rw [Except.ok.injEq, Prod.mk.injEq] at counted
      omega
    case isFalse => cases counted
  · intro same
    rw [if_pos (by omega), same]
    congr 2
    omega

/-- Exactly when the words hold no stale bits of slots that have not been reached. -/
theorem confirmedBlocksInEpoch_countsFound_iff (checks : ChecksSlots check)
    (slotHistory : SlotHistory) (ordered : startSlot ≤ endSlot) (bounded : endSlot < 2 ^ 64)
    (notOld : ∀ slot, startSlot ≤ slot → slot ≤ endSlot → check slotHistory slot ≠ .tooOld) :
    CountsFound check slotHistory startSlot endSlot ↔
      (startSlot % 64 = 0 ∨ startSlot < 2 ^ 64 - 64) ∧
      ∀ slot, slotHistory.nextSlot ≤ slot → startSlot ≤ slot / 64 * 64 →
        slot / 64 < endSlot / 64 → slotHistory.bit slot = false := by
  by_cases fits : startSlot % 64 = 0 ∨ startSlot < 2 ^ 64 - 64
  · rcases firstFullBlockSlot_fits ordered fits with ⟨firstFull, lastFull, first, last, full⟩
    rw [countsFound_iff_of_full checks notOld first last full]
    constructor
    · intro clear
      refine ⟨fits, fun slot future atLeast below => ?_⟩
      have inside := (full.inside slot).mpr ⟨atLeast, below⟩
      exact clear slot inside.1 inside.2 future
    · intro condition slot atLeast below future
      have inside := (full.inside slot).mp ⟨atLeast, below⟩
      exact condition.2 slot future inside.1 inside.2
  · have overflows : firstFullBlockSlot startSlot endSlot = fail .arithmeticError :=
      firstFullBlockSlot_overflows (by omega) (by omega) (by omega) endSlot
    rw [CountsFound, confirmedBlocksInEpoch, overflows]
    constructor
    · intro counted
      cases counted
    · intro condition
      exact absurd condition.1 fits

end Slots

/-! ### The first word of the second round -/

/-- `SlotHistory::check`, as it is described. -/
def slotCheck (slotHistory : SlotHistory) (slot : Nat) : Check :=
  if slotHistory.nextSlot ≤ slot then .future
  else if slot + maxEntries < slotHistory.nextSlot then .tooOld
  else if slotHistory.bit slot then .found
  else .notFound

theorem slotCheck_checks : ChecksSlots slotCheck where
  future slotHistory slot := by
    rw [slotCheck]
    repeat' split
    all_goals simp_all
  tooOld slotHistory slot := by
    rw [slotCheck]
    repeat' split
    all_goals simp_all
    all_goals omega
  found slotHistory slot := by
    rw [slotCheck]
    repeat' split
    all_goals simp_all

/-- Ten slots of the second round have been reached, and no bits of the first are left. -/
def clearedHistory : SlotHistory where
  bits := fun word => if word = 0 then 0x3ff#64 else 0#64
  nextSlot := 1048586

theorem clearedHistory_bit {slot : Nat} (future : 1048586 ≤ slot) (below : slot < 1048640) :
    clearedHistory.bit slot = false := by
  have position : slot % maxEntries = 0 * 64 + (slot - 1048576) := by
    rw [maxEntries]
    omega
  have outside : ∀ bit < 64, 10 ≤ bit → (0x3ff#64).getLsbD bit = false := by decide
  rw [SlotHistory.bit, position, WordSet.test_at _ (by omega)]
  exact outside _ (by omega) (by omega)

/-- All ten are counted. -/
theorem confirmedBlocksInEpoch_countsFound_clearedHistory :
    CountsFound slotCheck clearedHistory 1048576 1048703 ∧
      confirmedBlocksInEpoch slotCheck 1048576 1048703 clearedHistory =
        .ok (10, clearedHistory.bits) := by
  have notOld : ∀ slot, 1048576 ≤ slot → slot ≤ 1048703 →
      slotCheck clearedHistory slot ≠ .tooOld := by
    intro slot atLeast _
    apply mt (slotCheck_checks.tooOld _ _).mp
    change ¬slot + 1048576 < 1048586
    omega
  have counted : CountsFound slotCheck clearedHistory 1048576 1048703 := by
    apply (confirmedBlocksInEpoch_countsFound_iff slotCheck_checks clearedHistory
      (by decide) (by decide) notOld).mpr
    refine ⟨.inl (by decide), fun slot future _ below => ?_⟩
    exact clearedHistory_bit future (by omega)
  have found : ((Finset.Icc 1048576 1048703).filter
      fun slot => slotCheck clearedHistory slot = .found).card = 10 := by decide +kernel
  refine ⟨counted, ?_⟩
  rw [counted, found]

/-- All bits are set, and ten slots of the second round have been reached. -/
def wrappedHistory : SlotHistory where
  bits := fun _ => BitVec.allOnes 64
  nextSlot := 1048586

theorem wrappedHistory_notOld (slot : Nat) (atLeast : 1048576 ≤ slot) :
    slotCheck wrappedHistory slot ≠ .tooOld := by
  have recent : ¬slot + maxEntries < wrappedHistory.nextSlot := by
    have ring : maxEntries = 1048576 := rfl
    have next : wrappedHistory.nextSlot = 1048586 := rfl
    omega
  exact mt (slotCheck_checks.tooOld _ _).mp recent

/-- Ten slots of the first word have been reached, and 64 are counted. -/
theorem not_confirmedBlocksInEpoch_countsFound :
    (∀ slot, 1048576 ≤ slot → slot ≤ 1048703 → slotCheck wrappedHistory slot ≠ .tooOld) ∧
      ¬CountsFound slotCheck wrappedHistory 1048576 1048703 := by
  refine ⟨fun slot atLeast _ => wrappedHistory_notOld slot atLeast, fun counted => ?_⟩
  have blocks : (confirmedBlocksInEpoch slotCheck 1048576 1048703 wrappedHistory).map Prod.fst =
      .ok 64 := by decide +kernel
  have found : ((Finset.Icc 1048576 1048703).filter
      fun slot => slotCheck wrappedHistory slot = .found).card = 10 := by decide +kernel
  rw [CountsFound, found] at counted
  rw [counted] at blocks
  exact absurd blocks (by decide)

end Stakenet.History

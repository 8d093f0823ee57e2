import Stakenet.Foundation.Alignment
import Stakenet.Foundation.Bytes
import Stakenet.Foundation.Outcome

/-! The allocator of the programs. The position up to which the heap is used is kept in the first
bytes of the heap, so that it shares the memory with what the program stores. -/

namespace Stakenet.Runtime.Allocator

open Bytes

/-! ## The heap -/

def heapStartAddress : Nat := 0x300000000
def heapEndAddress : Nat := 0x400000000

/-- The position is the number at `pos_ptr`. -/
def posSpan : Span := ⟨heapStartAddress, 8⟩

/-- A layout whose size is not zero. The alignment is a power of two, and the size rounded up to it
is at most `isize::MAX`. -/
structure Layout where
  size : Nat
  alignBits : Nat
  positive : 0 < size
  bounded : size + 2 ^ alignBits ≤ 2 ^ 63

namespace Layout

def align (layout : Layout) : Nat := 2 ^ layout.alignBits

theorem alignBits_lt (layout : Layout) : layout.alignBits < 63 := by
  have bounded := layout.bounded
  have positive := layout.positive
  exact (Nat.pow_lt_pow_iff_right (by decide)).mp (Nat.lt_of_lt_of_le (by omega) bounded)

end Layout

/-- What ends the transaction. -/
inductive Failure
  | panicked
  | accessViolation
  deriving DecidableEq, Repr

abbrev Result (α : Type) := Except Failure α

section Heap

/- The number of bytes that the runtime maps for the heap. -/
variable (heapSize : Nat)

def Mapped (span : Span) : Prop :=
  heapStartAddress ≤ span.start ∧ span.start + span.width ≤ heapStartAddress + heapSize

instance (span : Span) : Decidable (Mapped heapSize span) := inferInstanceAs (Decidable (_ ∧ _))

def load (memory : Memory) (span : Span) : Result Nat :=
  if Mapped heapSize span then .ok (read memory span) else .error .accessViolation

def store (memory : Memory) (span : Span) (value : Nat) : Result Memory :=
  if Mapped heapSize span then .ok (write memory span value) else .error .accessViolation

/-- `checked_add` of 64 bits, unwrapped. -/
def checkedAdd (left right : Nat) : Result Nat :=
  if left + right < 2 ^ 64 then .ok (left + right) else .error .panicked

/-- `alloc`: the memory and the address that it leaves. -/
def alloc (memory : Memory) (layout : Layout) : Result (Memory × Nat) := do
  let stored ← load heapSize memory posSpan
  let pos := if stored = 0 then heapStartAddress + 8 else stored
  let begins := (Alignment.alignWord (BitVec.ofNat 64 pos) layout.alignBits).toNat
  let ends ← checkedAdd begins layout.size
  let moved ← store heapSize memory posSpan ends
  if ends < heapEndAddress then
    -- The byte behind the block is written so that an exhausted heap is noticed.
    let probed ← store heapSize moved ⟨ends, 1⟩ 0
    return (probed, begins)
  else
    .error .panicked

/-- `dealloc` does nothing. -/
def dealloc (memory : Memory) (_block : Span) : Memory := memory

def used (memory : Memory) : Result Nat := do
  let pos ← load heapSize memory posSpan
  if pos = 0 then
    return 0
  else if heapStartAddress ≤ pos then
    return pos - heapStartAddress
  else
    .error .panicked

end Heap

/-! ## A program -/

/-- A block that was handed out. -/
structure Block where
  layout : Layout
  start : Nat

def Block.span (block : Block) : Span := ⟨block.start, block.layout.size⟩

def Block.finish (block : Block) : Nat := block.start + block.layout.size

/-- The memory, and the blocks in the order in which they were handed out. -/
structure State where
  memory : Memory
  blocks : List Block

/-- The heap is zero when a transaction starts. -/
def State.initial : State where
  memory _ := 0
  blocks := []

inductive Event
  | alloc (layout : Layout)
  | dealloc (block : Span)
  | write (address : Nat) (byte : Byte)

/-- Safe code writes to blocks that it was handed, so that other writes are no events. -/
def step (heapSize : Nat) (state : State) : Event → Result State
  | .alloc layout => do
      let (memory, start) ← alloc heapSize state.memory layout
      return ⟨memory, state.blocks ++ [⟨layout, start⟩]⟩
  | .dealloc block => .ok { state with memory := dealloc state.memory block }
  | .write address byte =>
      if ∃ block ∈ state.blocks, block.span.Contains address then
        .ok { state with memory := write state.memory ⟨address, 1⟩ byte.toNat }
      else
        .error .accessViolation

/-- The events go through. -/
def run (heapSize : Nat) (state : State) (events : List Event) : Result State :=
  events.foldlM (step heapSize) state

/-- The last byte that the program writes to an address. -/
def lastWrite (address : Nat) : List Event → Option Byte
  | [] => none
  | .write written byte :: rest =>
      (lastWrite address rest).or (if written = address then some byte else none)
  | _ :: rest => lastWrite address rest

/-! ## Invariant -/

/-- The end of the last block. -/
def top (blocks : List Block) : Nat :=
  (blocks.getLast?.map Block.finish).getD (heapStartAddress + 8)

@[simp] theorem top_nil : top [] = heapStartAddress + 8 := rfl

@[simp] theorem top_append_singleton (blocks : List Block) (block : Block) :
    top (blocks ++ [block]) = block.finish := by
  simp [top]

def totalSize (blocks : List Block) : Nat := (blocks.map (·.layout.size)).sum

/-- The sizes with the bytes that may be skipped before each block. -/
def totalPadded (blocks : List Block) : Nat :=
  (blocks.map fun block => block.layout.size + (block.layout.align - 1)).sum

/-- The blocks lie in the order in which they were handed out, and the stored position is the end
of the last one. -/
structure Sound (heapSize : Nat) (state : State) : Prop where
  stored : read state.memory posSpan = if state.blocks = [] then 0 else top state.blocks
  ordered : state.blocks.Pairwise fun earlier later => earlier.finish ≤ later.start
  aligned : ∀ block ∈ state.blocks, block.layout.align ∣ block.start
  above : ∀ block ∈ state.blocks, heapStartAddress + 8 ≤ block.start
  below : ∀ block ∈ state.blocks, block.finish ≤ top state.blocks
  inHeap : state.blocks ≠ [] →
    top state.blocks < heapEndAddress ∧ top state.blocks < heapStartAddress + heapSize
  atLeast : heapStartAddress + 8 + totalSize state.blocks ≤ top state.blocks
  atMost : top state.blocks ≤ heapStartAddress + 8 + totalPadded state.blocks

section Invariant

variable {heapSize : Nat} {state next : State}

theorem sound_initial : Sound heapSize .initial where
  stored := by decide
  ordered := .nil
  aligned _ member := absurd member List.not_mem_nil
  above _ member := absurd member List.not_mem_nil
  below _ member := absurd member List.not_mem_nil
  inHeap nonempty := absurd rfl nonempty
  atLeast := Nat.le_refl _
  atMost := Nat.le_refl _

theorem Sound.top_lt (sound : Sound heapSize state) : top state.blocks < heapEndAddress := by
  by_cases empty : state.blocks = []
  · rw [empty]
    decide
  · exact (sound.inHeap empty).1

theorem Sound.start_le_top (sound : Sound heapSize state) :
    heapStartAddress + 8 ≤ top state.blocks :=
  Nat.le_trans (Nat.le_add_right _ _) sound.atLeast

/-- The position from which the next block is sought. -/
theorem Sound.position (sound : Sound heapSize state) :
    (if read state.memory posSpan = 0 then heapStartAddress + 8
      else read state.memory posSpan) = top state.blocks := by
  have reached := sound.start_le_top
  rw [sound.stored]
  by_cases empty : state.blocks = []
  · simp [empty]
  · rw [if_neg empty, if_neg (by omega)]

/-- A block is handed out exactly if there is room for it, and it starts at the first aligned
address. -/
theorem Sound.alloc_eq_ok (sound : Sound heapSize state) {layout : Layout} {memory : Memory}
    {start : Nat} :
    alloc heapSize state.memory layout = .ok (memory, start) ↔
      start = Alignment.roundUp (top state.blocks) layout.alignBits ∧
      start + layout.size < heapEndAddress ∧
      start + layout.size < heapStartAddress + heapSize ∧
      memory = write (write state.memory posSpan (start + layout.size))
        ⟨start + layout.size, 1⟩ 0 := by
  have topBelow := sound.top_lt
  have topAbove := sound.start_le_top
  have layoutBound := layout.bounded
  have endAddress : heapEndAddress = 2 ^ 34 := by decide
  have isStart : (Alignment.alignWord (BitVec.ofNat 64 (top state.blocks))
      layout.alignBits).toNat = Alignment.roundUp (top state.blocks) layout.alignBits :=
    Alignment.toNat_alignWord (Nat.lt_succ_of_lt layout.alignBits_lt) (by omega)
  have reached := Alignment.le_roundUp (top state.blocks) layout.alignBits
  have near := Alignment.roundUp_lt (top state.blocks) layout.alignBits
  rw [alloc]
  by_cases mapped : Mapped heapSize posSpan
  · simp only [load, store, mapped, if_true, Outcome.ok_bind, sound.position, isStart]
    rw [checkedAdd, if_pos (by omega), Outcome.ok_bind]
    generalize Alignment.roundUp (top state.blocks) layout.alignBits = begins at *
    by_cases inAddresses : begins + layout.size < heapEndAddress
    · rw [if_pos inAddresses]
      by_cases inHeap : begins + layout.size < heapStartAddress + heapSize
      · have probed : Mapped heapSize ⟨begins + layout.size, 1⟩ := by
          simp only [Mapped]
          omega
        simp only [probed, if_true, Outcome.ok_bind, Outcome.pure_eq_ok, Prod.mk.injEq]
        constructor
        · rintro ⟨rfl, rfl⟩
          exact ⟨rfl, inAddresses, inHeap, rfl⟩
        · rintro ⟨rfl, _, _, rfl⟩
          exact ⟨rfl, rfl⟩
      · have unmapped : ¬Mapped heapSize ⟨begins + layout.size, 1⟩ := by
          simp only [Mapped]
          omega
        simp only [unmapped, if_false, Outcome.error_bind, reduceCtorEq, false_iff]
        rintro ⟨rfl, _, fits, _⟩
        exact inHeap fits
    · rw [if_neg inAddresses]
      simp only [reduceCtorEq, false_iff]
      rintro ⟨rfl, fits, _⟩
      exact inAddresses fits
  · simp only [load, mapped, if_false, Outcome.error_bind, reduceCtorEq, false_iff]
    rintro ⟨rfl, _, fits, _⟩
    simp only [Mapped, posSpan] at mapped
    omega

theorem Sound.after_alloc (sound : Sound heapSize state) {layout : Layout} {memory : Memory}
    {start : Nat} (allocated : alloc heapSize state.memory layout = .ok (memory, start)) :
    Sound heapSize ⟨memory, state.blocks ++ [⟨layout, start⟩]⟩ := by
  rcases sound.alloc_eq_ok.mp allocated with ⟨isStart, inAddresses, inHeap, rfl⟩
  have reached := Alignment.le_roundUp (top state.blocks) layout.alignBits
  have near := Alignment.roundUp_lt (top state.blocks) layout.alignBits
  have topAbove := sound.start_le_top
  have endAddress : heapEndAddress = 2 ^ 34 := by decide
  rw [← isStart] at reached near
  constructor
  · have probe : Span.Disjoint ⟨start + layout.size, 1⟩ posSpan := .inr (by
      simp only [posSpan]
      omega)
    rw [read_write_of_disjoint probe, read_write, if_neg (by simp), top_append_singleton]
    exact Nat.mod_eq_of_lt (Nat.lt_trans inAddresses (by decide))
  · refine List.pairwise_append.mpr ⟨sound.ordered, List.pairwise_singleton _ _, ?_⟩
    intro earlier isEarlier later isLater
    rw [List.mem_singleton.mp isLater]
    exact Nat.le_trans (sound.below earlier isEarlier) reached
  · intro block member
    rcases List.mem_append.mp member with isEarlier | isNew
    · exact sound.aligned block isEarlier
    · rw [List.mem_singleton.mp isNew, isStart]
      exact Alignment.dvd_roundUp _ _
  · intro block member
    rcases List.mem_append.mp member with isEarlier | isNew
    · exact sound.above block isEarlier
    · rw [List.mem_singleton.mp isNew]
      exact Nat.le_trans topAbove reached
  · intro block member
    rw [top_append_singleton]
    rcases List.mem_append.mp member with isEarlier | isNew
    · have before := sound.below block isEarlier
      simp only [Block.finish] at before ⊢
      omega
    · rw [List.mem_singleton.mp isNew]
  · intro _
    rw [top_append_singleton]
    exact ⟨inAddresses, inHeap⟩
  · have before := sound.atLeast
    simp only [totalSize, List.map_append, List.sum_append, List.map_cons, List.map_nil,
      List.sum_singleton, top_append_singleton, Block.finish] at before ⊢
    omega
  · have before := sound.atMost
    simp only [totalPadded, List.map_append, List.sum_append, List.map_cons, List.map_nil,
      List.sum_singleton, top_append_singleton, Block.finish, Layout.align] at before ⊢
    omega

theorem Sound.after_step (sound : Sound heapSize state) {event : Event}
    (stepped : step heapSize state event = .ok next) : Sound heapSize next := by
  cases event with
  | alloc layout =>
      simp only [step, Outcome.bind_eq_ok, Outcome.pure_eq_ok] at stepped
      rcases stepped with ⟨⟨memory, start⟩, allocated, rfl⟩
      exact sound.after_alloc allocated
  | dealloc block =>
      cases stepped
      exact sound
  | write address byte =>
      simp only [step] at stepped
      split at stepped
      case isFalse => cases stepped
      case isTrue inBlock =>
        cases stepped
        rcases inBlock with ⟨block, member, inside⟩
        have above := sound.above block member
        have apart : Span.Disjoint ⟨address, 1⟩ posSpan := .inr (by
          simp only [Span.Contains, Block.span] at inside
          simp only [posSpan]
          omega)
        exact { sound with stored := (read_write_of_disjoint apart).trans sound.stored }

/-- A byte of a block is only written by the program. -/
theorem Sound.byte_step (sound : Sound heapSize state) {event : Event}
    (stepped : step heapSize state event = .ok next) {block : Block}
    (member : block ∈ state.blocks) {address : Nat} (inside : block.span.Contains address) :
    block ∈ next.blocks ∧
      next.memory address = (lastWrite address [event]).getD (state.memory address) := by
  have above := sound.above block member
  have below := sound.below block member
  simp only [Span.Contains, Block.span, Block.finish] at inside below
  cases event with
  | alloc layout =>
      simp only [step, Outcome.bind_eq_ok, Outcome.pure_eq_ok] at stepped
      rcases stepped with ⟨⟨memory, start⟩, allocated, rfl⟩
      rcases sound.alloc_eq_ok.mp allocated with ⟨isStart, _, _, rfl⟩
      have reached := Alignment.le_roundUp (top state.blocks) layout.alignBits
      refine ⟨List.mem_append_left _ member, ?_⟩
      have notProbe : ¬Span.Contains ⟨start + layout.size, 1⟩ address := by
        simp only [Span.Contains]
        omega
      have notPosition : ¬Span.Contains posSpan address := by
        simp only [Span.Contains, posSpan]
        omega
      exact (write_of_not_contains notProbe).trans (write_of_not_contains notPosition)
  | dealloc block =>
      cases stepped
      exact ⟨member, rfl⟩
  | write written byte =>
      simp only [step] at stepped
      split at stepped
      case isFalse => cases stepped
      case isTrue =>
        cases stepped
        refine ⟨member, ?_⟩
        by_cases same : written = address
        · subst same
          simp [lastWrite, write, Span.Contains]
        · have outside : ¬Span.Contains ⟨written, 1⟩ address := by
            simp only [Span.Contains]
            omega
          simp only [lastWrite, if_neg same, Option.or_none, Option.getD_none]
          exact write_of_not_contains outside

end Invariant

/-! ## Runs -/

section Runs

variable {heapSize : Nat} {state final : State} {events : List Event}

theorem run_cons {event : Event} {rest : List Event} :
    run heapSize state (event :: rest) = .ok final ↔
      ∃ next, step heapSize state event = .ok next ∧ run heapSize next rest = .ok final := by
  rw [run, List.foldlM_cons, Outcome.bind_eq_ok]
  rfl

theorem Sound.after_run (sound : Sound heapSize state)
    (ran : run heapSize state events = .ok final) : Sound heapSize final := by
  induction events generalizing state with
  | nil =>
      cases ran
      exact sound
  | cons event rest induction =>
      rcases run_cons.mp ran with ⟨next, stepped, ran⟩
      exact induction (sound.after_step stepped) ran

theorem lastWrite_cons (address : Nat) (event : Event) (rest : List Event) :
    lastWrite address (event :: rest) =
      (lastWrite address rest).or (lastWrite address [event]) := by
  cases event with
  | write written byte => simp [lastWrite]
  | _ => simp [lastWrite]

theorem Sound.byte_run (sound : Sound heapSize state)
    (ran : run heapSize state events = .ok final) {block : Block}
    (member : block ∈ state.blocks) {address : Nat} (inside : block.span.Contains address) :
    block ∈ final.blocks ∧
      final.memory address = (lastWrite address events).getD (state.memory address) := by
  induction events generalizing state with
  | nil =>
      cases ran
      exact ⟨member, rfl⟩
  | cons event rest induction =>
      rcases run_cons.mp ran with ⟨next, stepped, ran⟩
      rcases sound.byte_step stepped member inside with ⟨stays, byte⟩
      rcases induction (sound.after_step stepped) ran stays with ⟨kept, lastByte⟩
      refine ⟨kept, ?_⟩
      rw [lastByte, byte, lastWrite_cons address event rest]
      cases lastWrite address rest with
      | none => rfl
      | some written => rfl

end Runs

/-- Whatever a program requests and stores, the blocks it is handed are aligned, lie within the
heap behind the stored position, and do not overlap. Each byte of a block keeps the value that the
program stored last, or the one at first if it stored none. -/
theorem run_blocks_separate (heapSize : Nat) (before after : List Event) (middle final : State)
    (reached : run heapSize .initial before = .ok middle)
    (continued : run heapSize middle after = .ok final) :
    (final.blocks.Pairwise fun earlier later => earlier.span.Disjoint later.span) ∧
    (∀ block ∈ final.blocks, block.layout.align ∣ block.start ∧
      heapStartAddress + 8 ≤ block.start ∧ block.finish < heapEndAddress ∧
      block.finish < heapStartAddress + heapSize) ∧
    ∀ block ∈ middle.blocks, block ∈ final.blocks ∧
      ∀ address, block.span.Contains address →
        final.memory address = (lastWrite address after).getD (middle.memory address) := by
  have sound : Sound heapSize middle := sound_initial.after_run reached
  have soundLater : Sound heapSize final := sound.after_run continued
  refine ⟨soundLater.ordered.imp .inl, fun block member => ?_, fun block member => ?_⟩
  · have inHeap := soundLater.inHeap (List.ne_nil_of_mem member)
    have below := soundLater.below block member
    exact ⟨soundLater.aligned block member, soundLater.above block member,
      Nat.lt_of_le_of_lt below inHeap.1, Nat.lt_of_le_of_lt below inHeap.2⟩
  · have start : block.span.Contains block.start :=
      ⟨Nat.le_refl _, Nat.lt_add_of_pos_right block.layout.positive⟩
    exact ⟨(sound.byte_run continued member start).1,
      fun address inside => (sound.byte_run continued member inside).2⟩

def sampleLayout : Layout := ⟨24, 3, by decide, by decide⟩

def byteLayout : Layout := ⟨3, 0, by decide, by decide⟩

theorem run_blocks_separate_sample :
    ∃ middle final, run 32768 .initial [.alloc byteLayout] = .ok middle ∧
      run 32768 middle [.alloc sampleLayout, .write (heapStartAddress + 9) 7] = .ok final ∧
      final.blocks.Pairwise fun earlier later => earlier.span.Disjoint later.span := by
  have succeeds : (run 32768 .initial [.alloc byteLayout] >>= fun middle =>
      run 32768 middle [.alloc sampleLayout, .write (heapStartAddress + 9) 7]).isOk = true := by
    decide +kernel
  rcases Outcome.exists_eq_ok succeeds with ⟨final, ran⟩
  rcases Outcome.bind_eq_ok.mp ran with ⟨middle, reached, continued⟩
  exact ⟨middle, final, reached, continued,
    (run_blocks_separate 32768 _ _ middle final reached continued).1⟩

/-- The bytes used are those of the blocks, and at most the ones skipped for their alignment. A
further request is served exactly if it fits at the first aligned address from there on. -/
theorem run_room (heapSize : Nat) (events : List Event) (state : State)
    (reached : run heapSize .initial events = .ok state) (count : Nat)
    (isUsed : used heapSize state.memory = .ok count) (layout : Layout) :
    (state.blocks = [] → count = 0) ∧
    (state.blocks ≠ [] →
      8 + totalSize state.blocks ≤ count ∧ count ≤ 8 + totalPadded state.blocks) ∧
    ∃ start, IsLeast
        {address | layout.align ∣ address ∧ heapStartAddress + max 8 count ≤ address} start ∧
      ((alloc heapSize state.memory layout).isOk = true ↔
        start + layout.size < min heapEndAddress (heapStartAddress + heapSize)) := by
  have sound : Sound heapSize state := sound_initial.after_run reached
  have topAbove := sound.start_le_top
  have atLeast := sound.atLeast
  have atMost := sound.atMost
  rw [used, Outcome.bind_eq_ok] at isUsed
  rcases isUsed with ⟨pos, loaded, isUsed⟩
  have isPos : read state.memory posSpan = pos := by
    rw [load] at loaded
    split at loaded
    · exact Except.ok.inj loaded
    · cases loaded
  rw [sound.stored] at isPos
  have counted : (state.blocks = [] ∧ count = 0) ∨
      (state.blocks ≠ [] ∧ count = top state.blocks - heapStartAddress) := by
    by_cases empty : state.blocks = []
    · rw [if_pos empty] at isPos
      subst pos
      exact .inl ⟨empty, (Except.ok.inj isUsed).symm⟩
    · rw [if_neg empty] at isPos
      subst pos
      rw [if_neg (by omega), if_pos (by omega)] at isUsed
      exact .inr ⟨empty, (Except.ok.inj isUsed).symm⟩
  have position : heapStartAddress + max 8 count = top state.blocks := by
    rcases counted with ⟨empty, isCount⟩ | ⟨_, isCount⟩
    · rw [empty, isCount]
      rfl
    · omega
  refine ⟨fun empty => ?_, fun nonempty => ?_,
    Alignment.roundUp (top state.blocks) layout.alignBits, ?_, ?_⟩
  · rcases counted with ⟨_, none⟩ | ⟨nonempty, _⟩
    · exact none
    · exact absurd empty nonempty
  · rcases counted with ⟨empty, _⟩ | ⟨_, isCount⟩
    · exact absurd empty nonempty
    · omega
  · rw [position]
    exact Alignment.isLeast_roundUp _ _
  · rw [lt_min_iff]
    constructor
    · intro served
      rcases Outcome.exists_eq_ok served with ⟨⟨memory, start⟩, allocated⟩
      rcases sound.alloc_eq_ok.mp allocated with ⟨rfl, inAddresses, inHeap, _⟩
      exact ⟨inAddresses, inHeap⟩
    · rintro ⟨inAddresses, inHeap⟩
      rw [sound.alloc_eq_ok.mpr ⟨rfl, inAddresses, inHeap, rfl⟩]
      rfl

theorem run_room_sample :
    ∃ state, run 32768 .initial [.alloc byteLayout, .alloc sampleLayout] = .ok state ∧
      used 32768 state.memory = .ok 40 ∧ 40 ≤ 8 + totalPadded state.blocks := by
  have counted : (run 32768 .initial [.alloc byteLayout, .alloc sampleLayout] >>= fun state =>
      used 32768 state.memory) = .ok 40 := by decide +kernel
  rcases Outcome.bind_eq_ok.mp counted with ⟨state, reached, isUsed⟩
  have nonempty : state.blocks ≠ [] := by
    intro empty
    have none := (run_room 32768 _ state reached 40 isUsed byteLayout).1 empty
    cases none
  exact ⟨state, reached, isUsed,
    ((run_room 32768 _ state reached 40 isUsed byteLayout).2.1 nonempty).2⟩

end Stakenet.Runtime.Allocator

import Mathlib.Algebra.Order.Ring.Nat
import Mathlib.Data.List.Basic
import Mathlib.Logic.Function.Basic

/-! Byte-addressed memory: little-endian numbers stored in spans of bytes, loops
that move the rows of one array into another over the same memory, and the
placement of the fields of a `repr(C)` struct. -/

namespace Stakenet.Bytes

abbrev Byte := BitVec 8

/-- The contents at every address. -/
abbrev Memory := Nat → Byte

/-- The data of an account: its length, and the bytes below it. -/
structure AccountData where
  size : Nat
  bytes : Memory

/-- The addresses from `start` to below `start + width`. -/
structure Span where
  start : Nat
  width : Nat
  deriving DecidableEq, Repr

namespace Span

def Contains (span : Span) (address : Nat) : Prop :=
  span.start ≤ address ∧ address < span.start + span.width

instance (span : Span) (address : Nat) : Decidable (span.Contains address) :=
  inferInstanceAs (Decidable (_ ∧ _))

/-- One of the spans ends where the other starts, or before. -/
def Disjoint (left right : Span) : Prop :=
  left.start + left.width ≤ right.start ∨ right.start + right.width ≤ left.start

instance (left right : Span) : Decidable (left.Disjoint right) :=
  inferInstanceAs (Decidable (_ ∨ _))

theorem Disjoint.symm {left right : Span} (disjoint : left.Disjoint right) :
    right.Disjoint left :=
  Or.symm disjoint

theorem Disjoint.not_contains {left right : Span} (disjoint : left.Disjoint right)
    {address : Nat} (inside : right.Contains address) : ¬left.Contains address := by
  simp only [Disjoint, Contains] at *
  omega

end Span

/-! ## Little-endian numbers -/

/-- The number stored in `width` bytes, the least significant byte first. -/
def readFrom (data : Memory) (start : Nat) : (width : Nat) → Nat
  | 0 => 0
  | width + 1 => (data start).toNat + 256 * readFrom data (start + 1) width

def read (data : Memory) (span : Span) : Nat := readFrom data span.start span.width

/-- Only as much of the value is stored as the span can hold. -/
def write (data : Memory) (span : Span) (value : Nat) : Memory :=
  fun address =>
    if span.Contains address then BitVec.ofNat 8 (value / 256 ^ (address - span.start))
    else data address

theorem readFrom_lt (data : Memory) (start width : Nat) :
    readFrom data start width < 256 ^ width := by
  induction width generalizing start with
  | zero => simp [readFrom]
  | succ width induction =>
      have low := (data start).isLt
      have high := induction (start + 1)
      rw [readFrom, Nat.pow_succ]
      omega

theorem read_lt (data : Memory) (span : Span) : read data span < 256 ^ span.width :=
  readFrom_lt data span.start span.width

theorem readFrom_congr {data other : Memory} {start width : Nat}
    (same : ∀ address, start ≤ address → address < start + width →
      data address = other address) :
    readFrom data start width = readFrom other start width := by
  induction width generalizing start with
  | zero => rfl
  | succ width induction =>
      rw [readFrom, readFrom, same start (Nat.le_refl _) (by omega)]
      rw [induction fun address lower upper => same address (by omega) (by omega)]

theorem read_congr {data other : Memory} {span : Span}
    (same : ∀ address, span.Contains address → data address = other address) :
    read data span = read other span :=
  readFrom_congr fun address lower upper => same address ⟨lower, upper⟩

theorem readFrom_digits (start width value : Nat) :
    readFrom (fun address => BitVec.ofNat 8 (value / 256 ^ (address - start))) start width =
      value % 256 ^ width := by
  induction width generalizing start value with
  | zero => simp [readFrom, Nat.mod_one]
  | succ width induction =>
      have shifted : readFrom (fun address => BitVec.ofNat 8 (value / 256 ^ (address - start)))
          (start + 1) width = value / 256 % 256 ^ width := by
        rw [← induction (start + 1) (value / 256)]
        apply readFrom_congr
        intro address lower _
        have exponent : address - start = (address - (start + 1)) + 1 := by omega
        rw [exponent, Nat.pow_succ', Nat.div_div_eq_div_mul]
      rw [readFrom, shifted, Nat.pow_succ', Nat.mod_mul]
      simp

/-- What is written is read back, up to the width of the span. -/
theorem read_write (data : Memory) (span : Span) (value : Nat) :
    read (write data span value) span = value % 256 ^ span.width := by
  rw [read, ← readFrom_digits span.start span.width value]
  apply readFrom_congr
  intro address lower upper
  exact if_pos ⟨lower, upper⟩

theorem write_of_not_contains {data : Memory} {span : Span} {value address : Nat}
    (outside : ¬span.Contains address) : write data span value address = data address :=
  if_neg outside

theorem read_write_of_disjoint {data : Memory} {written span : Span} {value : Nat}
    (disjoint : written.Disjoint span) :
    read (write data written value) span = read data span :=
  read_congr fun _ inside => write_of_not_contains (disjoint.not_contains inside)

/-- Stores one byte at every address of the span. -/
def fill (data : Memory) (span : Span) (byte : Byte) : Memory :=
  fun address => if span.Contains address then byte else data address

theorem fill_of_contains {data : Memory} {span : Span} {byte : Byte} {address : Nat}
    (inside : span.Contains address) : fill data span byte address = byte :=
  if_pos inside

theorem fill_of_not_contains {data : Memory} {span : Span} {byte : Byte} {address : Nat}
    (outside : ¬span.Contains address) : fill data span byte address = data address :=
  if_neg outside

/-! ## Arrays -/

/-- Elements of one width, one after the other. -/
structure Rows where
  start : Nat
  width : Nat
  deriving DecidableEq

def Rows.at (rows : Rows) (index : Nat) : Span where
  start := rows.start + index * rows.width
  width := rows.width

/-- The bytes of the first `count` elements. -/
def Rows.region (rows : Rows) (count : Nat) : Span where
  start := rows.start
  width := count * rows.width

/-- What is disjoint from the array is disjoint from each element. -/
theorem Rows.at_disjoint {rows : Rows} {count index : Nat} (inside : index < count) {span : Span}
    (disjoint : (rows.region count).Disjoint span) : (rows.at index).Disjoint span := by
  have bounded : index * rows.width + rows.width ≤ count * rows.width := by
    rw [← Nat.succ_mul]
    exact Nat.mul_le_mul_right _ inside
  simp only [Span.Disjoint, Rows.at, Rows.region] at *
  omega

theorem Rows.disjoint_at {rows : Rows} {first second : Nat} (different : first ≠ second) :
    (rows.at first).Disjoint (rows.at second) := by
  have ordered : ∀ low high : Nat, low < high →
      low * rows.width + rows.width ≤ high * rows.width := by
    intro low high below
    rw [← Nat.succ_mul]
    exact Nat.mul_le_mul_right _ below
  simp only [Span.Disjoint, Rows.at]
  rcases Nat.lt_or_gt_of_ne different with below | above
  · have := ordered first second below
    omega
  · have := ordered second first above
    omega

/-- Reads an element of one array and stores it in the other. -/
def moveRow (source target : Rows) (data : Memory) (index : Nat) : Memory :=
  write data (target.at index) (read data (source.at index))

/-- Moves the listed elements, one after the other. -/
def moveRows (source target : Rows) (order : List Nat) (data : Memory) : Memory :=
  order.foldl (moveRow source target) data

namespace moveRows

variable {source target : Rows} {order : List Nat}

@[simp] theorem nil (data : Memory) : moveRows source target [] data = data := rfl

@[simp] theorem cons (index : Nat) (order : List Nat) (data : Memory) :
    moveRows source target (index :: order) data =
      moveRows source target order (moveRow source target data index) := rfl

theorem of_not_contains {data : Memory} {address : Nat}
    (outside : ∀ index ∈ order, ¬(target.at index).Contains address) :
    moveRows source target order data address = data address := by
  induction order generalizing data with
  | nil => rfl
  | cons index order induction =>
      rw [cons, induction fun later member => outside later (List.mem_cons_of_mem _ member)]
      exact write_of_not_contains (outside index List.mem_cons_self)

theorem read_of_disjoint {data : Memory} {span : Span}
    (disjoint : ∀ index ∈ order, (target.at index).Disjoint span) :
    read (moveRows source target order data) span = read data span :=
  read_congr fun _ inside =>
    of_not_contains fun index member => (disjoint index member).not_contains inside

/-- If no element is overwritten before its turn to be read, every element of
the order arrives. -/
theorem read_target (fits : source.width ≤ target.width)
    (ordered : order.Pairwise fun earlier later =>
      earlier ≠ later ∧ (target.at earlier).Disjoint (source.at later))
    {data : Memory} {index : Nat} (member : index ∈ order) :
    read (moveRows source target order data) (target.at index) =
      read data (source.at index) := by
  induction order generalizing data with
  | nil => cases member
  | cons first order induction =>
      rcases List.pairwise_cons.mp ordered with ⟨before, ordered⟩
      rcases List.mem_cons.mp member with rfl | later
      · rw [cons, read_of_disjoint fun other inOrder =>
          Rows.disjoint_at (before other inOrder).1.symm]
        rw [moveRow, read_write]
        apply Nat.mod_eq_of_lt
        exact Nat.lt_of_lt_of_le (read_lt _ _) (Nat.pow_le_pow_right (by decide) fits)
      · rw [cons, induction ordered later, moveRow,
          read_write_of_disjoint (before index later).2]

/-- Two arrays that do not overlap are copied in any order. -/
theorem read_range {count : Nat} (fits : source.width ≤ target.width)
    (disjoint : (target.region count).Disjoint (source.region count)) {data : Memory}
    {index : Nat} (inside : index < count) :
    read (moveRows source target (List.range count) data) (target.at index) =
      read data (source.at index) := by
  apply read_target fits _ (List.mem_range.mpr inside)
  apply (List.nodup_range (n := count)).imp_of_mem
  intro earlier later isEarlier isLater different
  have separate := Rows.at_disjoint (List.mem_range.mp isEarlier) disjoint
  exact ⟨different, (Rows.at_disjoint (List.mem_range.mp isLater) separate.symm).symm⟩

/-- An array can be widened where it stands, from the last element down. -/
theorem read_range_reverse {count : Nat} (fits : source.width ≤ target.width)
    (aligned : source.start = target.start) {data : Memory} {index : Nat}
    (inside : index < count) :
    read (moveRows source target (List.range count).reverse data) (target.at index) =
      read data (source.at index) := by
  apply read_target fits _ (List.mem_reverse.mpr (List.mem_range.mpr inside))
  rw [List.pairwise_reverse]
  apply (List.pairwise_lt_range (n := count)).imp
  intro later earlier below
  refine ⟨Nat.ne_of_gt below, .inr ?_⟩
  have grows : (later + 1) * source.width ≤ earlier * target.width :=
    Nat.mul_le_mul below fits
  rw [Nat.succ_mul] at grows
  simp only [Rows.at, aligned]
  omega

end moveRows

/-! ## Struct layout -/

/-- Size and alignment of a type. -/
structure TypeLayout where
  size : Nat
  align : Nat

namespace TypeLayout

/-- An integer of the given number of bytes. -/
def scalar (width : Nat) : TypeLayout := ⟨width, width⟩

def array (element : TypeLayout) (count : Nat) : TypeLayout :=
  ⟨element.size * count, element.align⟩

end TypeLayout

/-- The first multiple of `align` from `offset` on. -/
def roundUp (offset align : Nat) : Nat := (offset + align - 1) / align * align

/-- A `repr(C)` struct: the fields in the order of their declaration. -/
structure Struct (φ : Type) where
  fields : List φ
  layoutOf : φ → TypeLayout

namespace Struct

variable {φ : Type} (struct : Struct φ)

/-- Where the bytes after the listed fields start, if these start at `start`. -/
def endFrom (start : Nat) (fields : List φ) : Nat :=
  fields.foldl (fun offset field =>
    roundUp offset (struct.layoutOf field).align + (struct.layoutOf field).size) start

def align : Nat := struct.fields.foldl (fun align field =>
  max align (struct.layoutOf field).align) 1

def layout : TypeLayout where
  size := roundUp (struct.endFrom 0 struct.fields) struct.align
  align := struct.align

/-- Offset of a field: after the fields before it, at its own alignment. -/
def offset [DecidableEq φ] (field : φ) : Nat :=
  roundUp (struct.endFrom 0 (struct.fields.takeWhile (· ≠ field)))
    (struct.layoutOf field).align

end Struct

end Stakenet.Bytes

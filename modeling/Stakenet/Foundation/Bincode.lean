import Stakenet.Foundation.Bytes

/-! Byte strings in the bincode format with integers of fixed size: readers that
take a value from the front of a string, and what they leave behind. -/

namespace Stakenet.Bincode

open Bytes (Byte)

/-! ## Little-endian numbers -/

/-- The `width` lowest digits of a number in base 256. -/
def digits : (width : Nat) → Nat → List Byte
  | 0, _ => []
  | width + 1, number => BitVec.ofNat 8 number :: digits width (number / 256)

/-- The number with the given digits, the lowest first. -/
def number : List Byte → Nat
  | [] => 0
  | digit :: rest => digit.toNat + 256 * number rest

@[simp] theorem length_digits (width value : Nat) : (digits width value).length = width := by
  induction width generalizing value with
  | zero => rfl
  | succ width induction => rw [digits, List.length_cons, induction]

theorem number_digits (width value : Nat) :
    number (digits width value) = value % 256 ^ width := by
  induction width generalizing value with
  | zero => rw [Nat.pow_zero, Nat.mod_one]; rfl
  | succ width induction =>
      rw [digits, number, induction, Nat.pow_succ', Nat.mod_mul, BitVec.toNat_ofNat]

/-! ## Readers -/

/-- A function that takes a value from the front of a string and returns the rest. -/
abbrev Reading (α : Type) := List Byte → Option (α × List Byte)

/-- The result depends only on the bytes that are taken. -/
def Exact (run : Reading α) : Prop :=
  ∀ {bytes value rest}, run bytes = some (value, rest) →
    ∃ used, bytes = used ++ rest ∧ ∀ more, run (used ++ more) = some (value, more)

structure Reader (α : Type) where
  run : Reading α
  exact : Exact run

namespace Reader

theorem exact_pure (value : α) : Exact fun bytes => some (value, bytes) := by
  intro bytes result rest read
  cases read
  exact ⟨[], rfl, fun _ => rfl⟩

theorem exact_bind {first : Reading α} {next : α → Reading β} (firstExact : Exact first)
    (nextExact : ∀ value, Exact (next value)) :
    Exact fun bytes => (first bytes).bind fun taken => next taken.1 taken.2 := by
  intro bytes result rest read
  rcases Option.bind_eq_some_iff.mp read with ⟨⟨value, middle⟩, firstRead, nextRead⟩
  rcases firstExact firstRead with ⟨front, rfl, firstStable⟩
  rcases nextExact value nextRead with ⟨back, rfl, nextStable⟩
  refine ⟨front ++ back, (List.append_assoc _ _ _).symm, fun more => ?_⟩
  simp only [List.append_assoc, firstStable, Option.bind_some, nextStable]

instance : Monad Reader where
  pure value := ⟨fun bytes => some (value, bytes), exact_pure value⟩
  bind reader next := ⟨_, exact_bind reader.exact fun value => (next value).exact⟩

/-- Whatever stands there is refused. -/
def fail : Reader α where
  run _ := none
  exact := by
    intro bytes value rest read
    cases read

/-- A fixed number of bytes. -/
def take (count : Nat) : Reader (List Byte) where
  run bytes := if count ≤ bytes.length then some (bytes.take count, bytes.drop count) else none
  exact := by
    intro bytes value rest read
    dsimp only at read
    split at read
    case isFalse => cases read
    case isTrue enough =>
      cases read
      refine ⟨bytes.take count, (List.take_append_drop count bytes).symm, fun more => ?_⟩
      have length : (bytes.take count).length = count := List.length_take_of_le enough
      simp [length, List.take_left' length, List.drop_left' length]

/-- `bincode::deserialize`, which does not look at what follows the value. -/
def deserialize (reader : Reader α) (bytes : List Byte) : Option α :=
  (reader.run bytes).map Prod.fst

/-! ## Formats -/

/-- An unsigned integer of so many bytes. -/
def word (width : Nat) : Reader Nat := return number (← take width)

def u8 : Reader Nat := word 1
def u16 : Reader Nat := word 2
def u32 : Reader Nat := word 4
def u64 : Reader Nat := word 8

/-- `Option<T>` is a byte that is zero or one, and the value if it is one. -/
def option (reader : Reader α) : Reader (Option α) := do
  match ← u8 with
  | 0 => return none
  | 1 => return some (← reader)
  | _ => fail

/-- So many values one after the other. -/
def times (reader : Reader α) : Nat → Reader (List α)
  | 0 => return []
  | count + 1 => return (← reader) :: (← times reader count)

/-- `Vec<T>` is its length and its elements. -/
def vec (reader : Reader α) : Reader (List α) := do times reader (← u64)

/-! ## Prefixes -/

variable {reader : Reader α} {bytes rest : List Byte} {value : α}

theorem deserialize_eq_some :
    reader.deserialize bytes = some value ↔ ∃ rest, reader.run bytes = some (value, rest) := by
  rw [deserialize, Option.map_eq_some_iff]
  constructor
  · intro found
    rcases found with ⟨⟨found, rest⟩, read, rfl⟩
    exact ⟨rest, read⟩
  · intro found
    rcases found with ⟨rest, read⟩
    exact ⟨_, read, rfl⟩

/-- Nothing changes if more bytes follow. -/
theorem deserialize_of_take {count : Nat}
    (found : reader.deserialize (bytes.take count) = some value) :
    reader.deserialize bytes = some value := by
  rcases deserialize_eq_some.mp found with ⟨rest, read⟩
  rcases reader.exact read with ⟨used, front, stable⟩
  rw [← List.take_append_drop count bytes, front, List.append_assoc]
  exact deserialize_eq_some.mpr ⟨_, stable _⟩

/-- The value of a string is that of every prefix that is long enough. -/
theorem deserialize_take (read : reader.run bytes = some (value, rest)) {count : Nat}
    (covers : bytes.length - rest.length ≤ count) :
    reader.deserialize (bytes.take count) = some value := by
  rcases reader.exact read with ⟨used, rfl, stable⟩
  rw [List.length_append, Nat.add_sub_cancel] at covers
  rw [List.take_append, List.take_of_length_le covers]
  exact deserialize_eq_some.mpr ⟨_, stable _⟩

/-! ## Reading what was written -/

@[simp] theorem run_pure (value : α) (bytes : List Byte) :
    (pure value : Reader α).run bytes = some (value, bytes) := rfl

theorem run_bind (reader : Reader α) (next : α → Reader β) (bytes : List Byte) :
    (reader >>= next).run bytes =
      (reader.run bytes).bind fun taken => (next taken.1).run taken.2 := rfl

/-- A sequence of readers, once what the first one takes is known. -/
theorem run_bind_of {next : α → Reader β} (read : reader.run bytes = some (value, rest)) :
    (reader >>= next).run bytes = (next value).run rest := by
  rw [run_bind, read, Option.bind_some]

theorem take_append {front : List Byte} {count : Nat} (length : front.length = count)
    (rest : List Byte) : (take count).run (front ++ rest) = some (front, rest) := by
  have enough : count ≤ (front ++ rest).length := by
    rw [List.length_append]
    omega
  simp only [take]
  rw [if_pos enough, List.take_left' length, List.drop_left' length]

theorem word_digits (width value : Nat) (rest : List Byte) :
    (word width).run (digits width value ++ rest) = some (value % 256 ^ width, rest) := by
  rw [word, run_bind_of (take_append (length_digits width value) rest), run_pure, number_digits]

theorem times_flatMap {γ : Type u} {write : γ → List Byte} {transform : γ → α}
    (readItem : ∀ item rest, reader.run (write item ++ rest) = some (transform item, rest))
    (items : List γ) (rest : List Byte) :
    (times reader items.length).run (items.flatMap write ++ rest) =
      some (items.map transform, rest) := by
  induction items with
  | nil => rfl
  | cons item items induction =>
      rw [List.flatMap_cons, List.append_assoc, List.length_cons, times,
        run_bind_of (readItem item _), run_bind_of induction]
      rfl

end Reader

/-! ## Writers -/

/-- A boolean is a byte that is zero or one. -/
def writeBool (value : Bool) : List Byte := [if value then 1 else 0]

def writeOption (write : α → List Byte) : Option α → List Byte
  | none => [0]
  | some value => 1 :: write value

/-- A fixed number of values one after the other. -/
def writeArray (write : α → List Byte) (items : Fin count → α) : List Byte :=
  (List.ofFn items).flatMap write

/-- The length and the elements. -/
def writeVec (write : α → List Byte) (items : List α) : List Byte :=
  digits 8 items.length ++ items.flatMap write

theorem length_flatMap {write : α → List Byte} {size : Nat}
    (sizes : ∀ item, (write item).length = size) (items : List α) :
    (items.flatMap write).length = items.length * size := by
  induction items with
  | nil => exact (Nat.zero_mul size).symm
  | cons item items induction =>
      rw [List.flatMap_cons, List.length_append, sizes, induction, List.length_cons,
        Nat.succ_mul, Nat.add_comm]

theorem length_writeArray {write : α → List Byte} {size : Nat}
    (sizes : ∀ item, (write item).length = size) (items : Fin count → α) :
    (writeArray write items).length = count * size := by
  rw [writeArray, length_flatMap sizes, List.length_ofFn]

theorem Reader.vec_writeVec {reader : Reader β} {write : α → List Byte} {transform : α → β}
    (readItem : ∀ item rest, reader.run (write item ++ rest) = some (transform item, rest))
    {items : List α} (bounded : items.length < 2 ^ 64) (rest : List Byte) :
    (vec reader).run (writeVec write items ++ rest) = some (items.map transform, rest) := by
  have length : items.length % 256 ^ 8 = items.length := Nat.mod_eq_of_lt bounded
  rw [vec, writeVec, List.append_assoc, u64, run_bind_of (word_digits 8 _ _), length,
    times_flatMap readItem]

end Stakenet.Bincode

import Stakenet.Foundation.Bincode

/-! Formats without redundancy: a reader accepts exactly what a writer writes. -/

namespace Stakenet.Bincode

open Bytes (Byte)

/-- Of the values in range the reader accepts the one string that is written for them, and
nothing else. -/
def Canonical (reader : Reader α) (write : α → List Byte) (InRange : α → Prop) : Prop :=
  ∀ bytes value rest,
    reader.run bytes = some (value, rest) ↔ InRange value ∧ bytes = write value ++ rest

namespace Reader

variable {reader : Reader α} {value : α} {bytes rest : List Byte}

theorem run_pure_eq_some {result : α} :
    (pure value : Reader α).run bytes = some (result, rest) ↔ value = result ∧ bytes = rest := by
  rw [run_pure, Option.some.injEq, Prod.mk.injEq]

theorem run_fail_eq_some :
    (fail : Reader α).run bytes = some (value, rest) ↔ False := by
  simp [fail]

theorem run_bind_eq_some {next : α → Reader β} {result : β} :
    (reader >>= next).run bytes = some (result, rest) ↔
      ∃ value middle, reader.run bytes = some (value, middle) ∧
        (next value).run middle = some (result, rest) := by
  rw [run_bind, Option.bind_eq_some_iff]
  exact Prod.exists

end Reader

namespace Canonical

variable {reader : Reader α} {write : α → List Byte} {InRange : α → Prop}

/-- A sequence of readers whose first one is known. -/
theorem run_bind (canonical : Canonical reader write InRange) {next : α → Reader β} {result : β}
    {bytes rest : List Byte} :
    (reader >>= next).run bytes = some (result, rest) ↔
      ∃ value middle, InRange value ∧ bytes = write value ++ middle ∧
        (next value).run middle = some (result, rest) := by
  rw [Reader.run_bind_eq_some]
  simp only [canonical _ _ _, and_assoc]

theorem deserialize (canonical : Canonical reader write InRange) {value : α} {bytes : List Byte} :
    reader.deserialize bytes = some value ↔ InRange value ∧ write value <+: bytes := by
  rw [Reader.deserialize_eq_some]
  simp only [canonical _ _ _, exists_and_left]
  constructor
  · intro accepted
    rcases accepted with ⟨inRange, rest, rfl⟩
    exact ⟨inRange, List.prefix_append _ _⟩
  · intro accepted
    rcases accepted with ⟨inRange, rest, rfl⟩
    exact ⟨inRange, rest, rfl⟩

/-- One kind of values among those of a larger type. -/
theorem variant (canonical : Canonical reader write InRange) {make : α → β}
    {writeAll : β → List Byte} {Allowed : β → Prop}
    (body : ∀ value, InRange value → writeAll (make value) = write value)
    (allowed : ∀ result, Allowed result ↔ ∃ value, InRange value ∧ make value = result) :
    Canonical (do return make (← reader)) writeAll Allowed := by
  intro bytes result rest
  rw [canonical.run_bind, allowed]
  simp only [Reader.run_pure_eq_some]
  constructor
  · intro read
    rcases read with ⟨value, _, inRange, rfl, rfl, rfl⟩
    exact ⟨⟨value, inRange, rfl⟩, by rw [body value inRange]⟩
  · intro written
    rcases written with ⟨⟨value, inRange, rfl⟩, rfl⟩
    exact ⟨value, rest, inRange, by rw [body value inRange], rfl, rfl⟩

/-- A single value, for which nothing is written. -/
theorem single {result : β} {writeAll : β → List Byte} {Allowed : β → Prop}
    (body : writeAll result = []) (allowed : ∀ other, Allowed other ↔ other = result) :
    Canonical (pure result) writeAll Allowed := by
  intro bytes other rest
  rw [Reader.run_pure_eq_some, allowed]
  constructor
  · intro read
    rcases read with ⟨rfl, rfl⟩
    exact ⟨rfl, by rw [body, List.nil_append]⟩
  · intro written
    rcases written with ⟨rfl, rfl⟩
    exact ⟨rfl, by rw [body, List.nil_append]⟩

/-- No value at all. -/
theorem refused {writeAll : β → List Byte} {Allowed : β → Prop}
    (forbidden : ∀ result, ¬Allowed result) : Canonical Reader.fail writeAll Allowed := by
  intro bytes result rest
  rw [Reader.run_fail_eq_some, iff_false_intro (forbidden result), false_and]

/-! ### Records -/

section Fields

variable {Known OthersInRange : β → Prop} {next : α → Reader β}
  {writeOthers : β → List Byte}

/-- A field of a record in front of the other ones, with what is known of the record from the
fields that were read before. -/
theorem field (canonical : Canonical reader write InRange) (view : β → α)
    (others : ∀ value, Canonical (next value) writeOthers fun record =>
      (Known record ∧ view record = value) ∧ OthersInRange record) :
    Canonical (reader >>= next) (fun record => write (view record) ++ writeOthers record)
      fun record => Known record ∧ InRange (view record) ∧ OthersInRange record := by
  intro bytes record rest
  rw [canonical.run_bind]
  simp only [others _ _ _ _, List.append_assoc]
  constructor
  · intro read
    rcases read with ⟨_, _, inRange, rfl, ⟨⟨known, rfl⟩, others⟩, rfl⟩
    exact ⟨⟨known, inRange, others⟩, rfl⟩
  · intro written
    rcases written with ⟨⟨known, inRange, others⟩, rfl⟩
    exact ⟨view record, writeOthers record ++ rest, inRange, rfl, ⟨⟨known, rfl⟩, others⟩, rfl⟩

/-- After the last field the record is known. -/
theorem finish {record : β} (determined : ∀ other, Known other ↔ other = record) :
    Canonical (pure record) (fun _ => []) fun other => Known other ∧ True :=
  single rfl fun other => by rw [and_true, determined]

end Fields

/-- A format all of whose fields are known, in other words. -/
theorem record {InRange Allowed : α → Prop} {other : α → List Byte}
    (canonical : Canonical reader write fun value => True ∧ InRange value)
    (sameWrite : ∀ value, write value = other value)
    (sameRange : ∀ value, InRange value ↔ Allowed value) : Canonical reader other Allowed := by
  intro bytes value rest
  rw [canonical, sameWrite]
  dsimp only
  rw [true_and, sameRange]

/-- A value of the format in front of another one is never taken for a part of it. -/
theorem write_inj (canonical : Canonical reader write InRange) {first second : α}
    {firstRest secondRest : List Byte} (firstInRange : InRange first)
    (secondInRange : InRange second)
    (same : write first ++ firstRest = write second ++ secondRest) :
    first = second ∧ firstRest = secondRest := by
  have firstRead := (canonical (write first ++ firstRest) first firstRest).mpr ⟨firstInRange, rfl⟩
  have secondRead := (canonical (write first ++ firstRest) second secondRest).mpr
    ⟨secondInRange, same⟩
  rw [firstRead] at secondRead
  cases secondRead
  exact ⟨rfl, rfl⟩

end Canonical

/-! ## Basic formats -/

theorem number_lt (bytes : List Byte) : number bytes < 256 ^ bytes.length := by
  induction bytes with
  | nil => exact Nat.one_pos
  | cons byte bytes induction =>
      have low := byte.isLt
      rw [number, List.length_cons, Nat.pow_succ]
      omega

theorem digits_number (bytes : List Byte) : digits bytes.length (number bytes) = bytes := by
  induction bytes with
  | nil => rfl
  | cons byte bytes induction =>
      have low := byte.isLt
      rw [number, List.length_cons, digits]
      congr 1
      · apply BitVec.eq_of_toNat_eq
        rw [BitVec.toNat_ofNat]
        omega
      · rw [show (byte.toNat + 256 * number bytes) / 256 = number bytes by omega, induction]

theorem canonical_word (width : Nat) :
    Canonical (Reader.word width) (digits width) (· < 256 ^ width) := by
  intro bytes value rest
  constructor
  · intro read
    rw [Reader.word, Reader.run_bind_eq_some] at read
    rcases read with ⟨front, middle, taken, returned⟩
    rcases Reader.run_pure_eq_some.mp returned with ⟨rfl, rfl⟩
    dsimp only [Reader.take] at taken
    split at taken
    case isFalse => cases taken
    case isTrue enough =>
      cases taken
      have length : (bytes.take width).length = width := List.length_take_of_le enough
      have written := digits_number (bytes.take width)
      have bounded := number_lt (bytes.take width)
      rw [length] at written bounded
      rw [written, List.take_append_drop]
      exact ⟨bounded, rfl⟩
  · intro written
    rcases written with ⟨bounded, rfl⟩
    rw [Reader.word_digits, Nat.mod_eq_of_lt bounded]

/-- The bits of a whole number of bytes. -/
theorem canonical_bits {width bits : Nat} (whole : bits = 8 * width) :
    Canonical (do return BitVec.ofNat bits (← Reader.word width))
      (fun value => digits width value.toNat) fun _ => True := by
  have range : 256 ^ width = 2 ^ bits := by
    rw [whole, Nat.pow_mul]
  apply (canonical_word width).variant
  · intro word inRange
    rw [BitVec.toNat_ofNat, Nat.mod_eq_of_lt (range ▸ inRange)]
  · intro value
    refine iff_of_true trivial ⟨value.toNat, range ▸ value.isLt, ?_⟩
    rw [BitVec.ofNat_toNat, BitVec.setWidth_eq]

theorem canonical_option {reader : Reader α} {write : α → List Byte} {InRange : α → Prop}
    (canonical : Canonical reader write InRange) :
    Canonical (Reader.option reader) (writeOption write) fun value =>
      ∀ content ∈ value, InRange content := by
  have tagged : Canonical (Reader.option reader)
      (fun value => digits 1 (if value.isSome then 1 else 0) ++ value.elim [] write)
      fun value => True ∧ (if value.isSome then 1 else 0) < 256 ^ 1 ∧
        ∀ content ∈ value, InRange content := by
    refine (canonical_word 1).field (fun value : Option α => if value.isSome then 1 else 0)
      fun tag => ?_
    split
    case h_1 => exact .single rfl fun value => by cases value <;> simp
    case h_2 => exact canonical.variant (fun _ _ => rfl) fun value => by cases value <;> simp
    case h_3 nonzero notOne =>
      refine .refused fun value allowed => ?_
      rcases allowed with ⟨⟨_, rfl⟩, _⟩
      cases value with
      | none => exact nonzero rfl
      | some content => exact notOne rfl
  refine tagged.record (fun value => ?_) fun value => ?_
  · cases value <;> rfl
  · cases value <;> simp

theorem canonical_times {reader : Reader α} {write : α → List Byte} {InRange : α → Prop}
    (canonical : Canonical reader write InRange) (count : Nat) :
    Canonical (Reader.times reader count) (List.flatMap write) fun items =>
      items.length = count ∧ ∀ item ∈ items, InRange item := by
  induction count with
  | zero =>
      intro bytes items rest
      rw [Reader.times, Reader.run_pure_eq_some]
      constructor
      · intro read
        rcases read with ⟨rfl, rfl⟩
        exact ⟨⟨rfl, fun _ member => absurd member List.not_mem_nil⟩, rfl⟩
      · intro written
        rcases written with ⟨⟨empty, _⟩, rfl⟩
        rw [List.length_eq_zero_iff.mp empty]
        exact ⟨rfl, rfl⟩
  | succ count induction =>
      intro bytes items rest
      rw [Reader.times, canonical.run_bind]
      simp only [induction.run_bind, Reader.run_pure_eq_some]
      constructor
      · intro read
        rcases read with ⟨first, _, inRange, rfl, others, _, ⟨length, allInRange⟩, rfl, rfl, rfl⟩
        refine ⟨⟨congrArg Nat.succ length, ?_⟩, ?_⟩
        · intro item member
          rcases List.mem_cons.mp member with rfl | member
          · exact inRange
          · exact allInRange item member
        · rw [List.flatMap_cons, List.append_assoc]
      · intro written
        rcases written with ⟨⟨length, allInRange⟩, rfl⟩
        cases items with
        | nil => cases length
        | cons first others =>
            rw [List.forall_mem_cons] at allInRange
            refine ⟨first, others.flatMap write ++ rest, allInRange.1, ?_, others, rest,
              ⟨Nat.succ.inj length, allInRange.2⟩, rfl, rfl, rfl⟩
            rw [List.flatMap_cons, List.append_assoc]

end Stakenet.Bincode

import Mathlib

/-! Rounding addresses up to a power of two with the operations of machine words. -/

namespace Stakenet.Alignment

/-- The low bits of a word, below the alignment. -/
def maskOf (bits : Nat) : BitVec 64 := BitVec.ofNat 64 (2 ^ bits) - 1#64

/-- The word with the low bits cleared after the mask was added. -/
def alignWord (word : BitVec 64) (bits : Nat) : BitVec 64 :=
  (word + maskOf bits) &&& ~~~maskOf bits

/-- The first multiple of the alignment from an address on. -/
def roundUp (address bits : Nat) : Nat := (address + (2 ^ bits - 1)) / 2 ^ bits * 2 ^ bits

section Rounding

variable (address bits : Nat)

theorem dvd_roundUp : 2 ^ bits ∣ roundUp address bits := Nat.dvd_mul_left _ _

theorem le_roundUp : address ≤ roundUp address bits := by
  have positive : 0 < 2 ^ bits := Nat.two_pow_pos bits
  have divided := Nat.div_add_mod (address + (2 ^ bits - 1)) (2 ^ bits)
  have remainder := Nat.mod_lt (address + (2 ^ bits - 1)) positive
  rw [Nat.mul_comm] at divided
  rw [roundUp]
  omega

theorem roundUp_lt : roundUp address bits < address + 2 ^ bits := by
  have positive : 0 < 2 ^ bits := Nat.two_pow_pos bits
  have below : roundUp address bits ≤ address + (2 ^ bits - 1) := Nat.div_mul_le_self _ _
  omega

/-- No multiple of the alignment lies between. -/
theorem isLeast_roundUp :
    IsLeast {multiple | 2 ^ bits ∣ multiple ∧ address ≤ multiple} (roundUp address bits) := by
  refine ⟨⟨dvd_roundUp address bits, le_roundUp address bits⟩, ?_⟩
  rintro _ ⟨⟨count, rfl⟩, reached⟩
  have below := roundUp_lt address bits
  have quotient : (address + (2 ^ bits - 1)) / 2 ^ bits < count + 1 := by
    refine Nat.lt_of_mul_lt_mul_right (a := 2 ^ bits) ?_
    rw [roundUp] at below
    have expanded : (count + 1) * 2 ^ bits = 2 ^ bits * count + 2 ^ bits := by
      rw [Nat.add_mul, Nat.one_mul, Nat.mul_comm]
    omega
  rw [roundUp, Nat.mul_comm (2 ^ bits)]
  exact Nat.mul_le_mul_right _ (Nat.le_of_lt_succ quotient)

end Rounding

section Words

variable {bits : Nat}

theorem toNat_maskOf (fits : bits < 64) : (maskOf bits).toNat = 2 ^ bits - 1 := by
  have bounded : 2 ^ bits < 2 ^ 64 := Nat.pow_lt_pow_right (by decide) fits
  have positive : 0 < 2 ^ bits := Nat.two_pow_pos bits
  have value : (BitVec.ofNat 64 (2 ^ bits)).toNat = 2 ^ bits := by
    rw [BitVec.toNat_ofNat, Nat.mod_eq_of_lt bounded]
  have reached : 1#64 ≤ BitVec.ofNat 64 (2 ^ bits) := by
    rw [BitVec.le_def, value]
    exact positive
  rw [maskOf, BitVec.toNat_sub_of_le reached, value]
  rfl

theorem and_not_maskOf (word : BitVec 64) (fits : bits < 64) :
    word &&& ~~~maskOf bits = (word >>> bits) <<< bits := by
  apply BitVec.eq_of_getLsbD_eq
  intro index inWord
  have low : (maskOf bits).getLsbD index = decide (index < bits) := by
    rw [BitVec.getLsbD, toNat_maskOf fits, Nat.testBit_two_pow_sub_one]
  rw [BitVec.getLsbD_and, BitVec.getLsbD_not, low, BitVec.getLsbD_shiftLeft,
    BitVec.getLsbD_ushiftRight]
  by_cases below : index < bits
  · simp [below]
  · have shifted : bits + (index - bits) = index := by omega
    simp [below, inWord, shifted]

/-- The operations of the words round up when the sum does not wrap. -/
theorem toNat_alignWord {address : Nat} (fits : bits < 64)
    (noWrap : address + 2 ^ bits ≤ 2 ^ 64) :
    (alignWord (BitVec.ofNat 64 address) bits).toNat = roundUp address bits := by
  have positive : 0 < 2 ^ bits := Nat.two_pow_pos bits
  have sum : (BitVec.ofNat 64 address + maskOf bits).toNat = address + (2 ^ bits - 1) := by
    rw [BitVec.toNat_add, BitVec.toNat_ofNat, toNat_maskOf fits, Nat.mod_eq_of_lt (by omega),
      Nat.mod_eq_of_lt (by omega)]
  rw [alignWord, and_not_maskOf _ fits, BitVec.toNat_shiftLeft, BitVec.toNat_ushiftRight, sum,
    Nat.shiftRight_eq_div_pow, Nat.shiftLeft_eq]
  apply Nat.mod_eq_of_lt
  have below := roundUp_lt address bits
  rw [roundUp] at below
  omega

end Words

end Stakenet.Alignment

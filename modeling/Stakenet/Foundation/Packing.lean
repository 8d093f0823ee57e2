import Mathlib.Algebra.Order.Ring.Nat
import Mathlib.Data.Nat.Bitwise

/-! A number packed above another by a shift and an or. The packed numbers compare like
the pairs of their parts, the upper part first. -/

namespace Stakenet.Packing

/-- `low` takes the lowest `width` bits, and `high` the bits above them. -/
def pack (width high low : Nat) : Nat := high <<< width ||| low

variable {width high low otherHigh otherLow : Nat}

/-! ## Parts -/

/-- Parts that do not overlap are added without a carry. -/
theorem pack_eq (fits : low < 2 ^ width) : pack width high low = high * 2 ^ width + low := by
  rw [pack, ← Nat.shiftLeft_add_eq_or_of_lt fits, Nat.shiftLeft_eq]

theorem pack_shiftRight (fits : low < 2 ^ width) : pack width high low >>> width = high := by
  rw [pack_eq fits, Nat.shiftRight_eq_div_pow, Nat.mul_comm,
    Nat.mul_add_div (Nat.two_pow_pos width), Nat.div_eq_of_lt fits, Nat.add_zero]

theorem pack_mod (fits : low < 2 ^ width) : pack width high low % 2 ^ width = low := by
  rw [pack_eq fits, Nat.mul_add_mod_of_lt fits]

theorem pack_lt_pow {upper : Nat} (highFits : high < 2 ^ upper) (fits : low < 2 ^ width) :
    pack width high low < 2 ^ (upper + width) := by
  rw [pack_eq fits, Nat.pow_add]
  calc high * 2 ^ width + low
      < high * 2 ^ width + 2 ^ width := Nat.add_lt_add_left fits _
    _ = (high + 1) * 2 ^ width := (Nat.succ_mul high _).symm
    _ ≤ 2 ^ upper * 2 ^ width := Nat.mul_le_mul_right _ highFits

/-- Shifting and masking reads the bits from `shift` on. -/
theorem bits_eq {packed shift mask : Nat} (count : Nat) (ones : mask = 2 ^ count - 1) :
    packed >>> shift &&& mask = packed / 2 ^ shift % 2 ^ count := by
  rw [ones, Nat.and_two_pow_sub_one_eq_mod, Nat.shiftRight_eq_div_pow]

/-! ## Order -/

/-- The upper parts decide, and the lower ones where the upper are equal. -/
theorem pack_lt_iff (fits : low < 2 ^ width) (otherFits : otherLow < 2 ^ width) :
    pack width high low < pack width otherHigh otherLow ↔
      high < otherHigh ∨ high = otherHigh ∧ low < otherLow := by
  rw [pack_eq fits, pack_eq otherFits]
  rcases Nat.lt_trichotomy high otherHigh with below | rfl | above
  · have room : (high + 1) * 2 ^ width ≤ otherHigh * 2 ^ width := Nat.mul_le_mul_right _ below
    rw [Nat.add_mul, Nat.one_mul] at room
    constructor
    · exact fun _ => .inl below
    · intro _
      omega
  · simp
  · have room : (otherHigh + 1) * 2 ^ width ≤ high * 2 ^ width := Nat.mul_le_mul_right _ above
    rw [Nat.add_mul, Nat.one_mul] at room
    constructor
    · intro smaller
      omega
    · rintro (below | ⟨rfl, _⟩) <;> omega

theorem pack_inj (fits : low < 2 ^ width) (otherFits : otherLow < 2 ^ width) :
    pack width high low = pack width otherHigh otherLow ↔ high = otherHigh ∧ low = otherLow := by
  constructor
  · intro same
    have upper := congrArg (· >>> width) same
    have lower := congrArg (· % 2 ^ width) same
    simp only [pack_shiftRight fits, pack_shiftRight otherFits] at upper
    simp only [pack_mod fits, pack_mod otherFits] at lower
    exact ⟨upper, lower⟩
  · rintro ⟨rfl, rfl⟩
    rfl

end Stakenet.Packing

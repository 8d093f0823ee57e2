import Mathlib.Data.Rat.Floor

/-! Non-negative numbers of a 53-bit binary floating point format, with the quotients and
products of integers that a program forms in it.

The exponent is not bounded. Integers of at most 128 bits and their quotients stay within that
of an `f64`. -/

namespace Stakenet

/-- A number that is not negative, or what a division by zero leaves. -/
inductive Double
  | finite (value : ℚ)
  | infinity
  | nan
  deriving DecidableEq, Repr

namespace Double

def powerOfTwo (exponent : Int) : ℚ :=
  mkRat (2 ^ exponent.toNat) (2 ^ (-exponent).toNat)

/-- The weight of the last of 53 bits, for a positive number. -/
def lastPlace (value : ℚ) : ℚ :=
  let leading : Int := value.num.natAbs.log2 - value.den.log2
  if value < powerOfTwo leading then powerOfTwo (leading - 53) else powerOfTwo (leading - 52)

/-- To the nearest integer, and to the even one of two. -/
def roundHalfEven (value : ℚ) : Int :=
  let below := ⌊value⌋
  let rest := value - below
  if rest < 1 / 2 then below
  else if 1 / 2 < rest then below + 1
  else if below % 2 = 0 then below
  else below + 1

def round (value : ℚ) : ℚ :=
  if value = 0 then 0 else roundHalfEven (value / lastPlace value) * lastPlace value

/-- `integer as f64`. -/
def ofNat (integer : Nat) : Double := finite (round integer)

def div : Double → Double → Double
  | finite dividend, finite divisor =>
      if divisor = 0 then
        if dividend = 0 then nan else infinity
      else
        finite (round (dividend / divisor))
  | finite _, infinity => finite 0
  | infinity, finite _ => infinity
  | _, _ => nan

def mul : Double → Double → Double
  | finite left, finite right => finite (round (left * right))
  | finite factor, infinity | infinity, finite factor => if factor = 0 then nan else infinity
  | infinity, infinity => infinity
  | _, _ => nan

/-- Nothing is less or greater than what is not a number. -/
def isLess (number : Double) (bound : ℚ) : Bool :=
  match number with
  | finite value => decide (value < bound)
  | infinity | nan => false

def isPositive : Double → Bool
  | finite value => decide (0 < value)
  | infinity => true
  | nan => false

/-- `number as u64`: saturates, and what is not a number becomes zero. -/
def toU64 : Double → Nat
  | finite value => min ⌊value⌋.toNat (2 ^ 64 - 1)
  | infinity => 2 ^ 64 - 1
  | nan => 0

/-- One third has the significand `0x15555555555555`. -/
example : div (ofNat 1) (ofNat 3) = finite (0x15555555555555 * powerOfTwo (-54)) := by
  decide +kernel

end Double

end Stakenet

import Mathlib.Data.Prod.Lex
import Stakenet.Foundation.Packing
import Stakenet.Steward.Basic

/-! The score of a validator as one number of four tiers. -/

namespace Stakenet.Steward

open Stakenet.Packing

/-- Components of a validator score, from the highest to the lowest tier. -/
structure ValidatorScoreComponents where
  inflationCommission : Nat
  mevCommissionBps : Nat
  validatorAge : Nat
  voteCredits : Nat
  deriving DecidableEq, Repr

/-- `value << bits` of a `u64`. -/
def shiftLeftU64 (value bits : Nat) : Nat := (value <<< bits) % 2 ^ 64

/-- Commissions are inverted, so that a lower commission gives a higher score; age and
credits are capped at the width of their tier. -/
def encodeValidatorScore (inflationCommission mevCommissionBps validatorAge voteCredits : Nat) :
    Nat :=
  let inflationScore := 100 - min inflationCommission commissionMax
  let mevScore := basisPointsMax - min mevCommissionBps basisPointsMax
  let ageScore := min validatorAge ((1 <<< 17) - 1)
  let creditsScore := min voteCredits ((1 <<< 25) - 1)
  shiftLeftU64 inflationScore 56 ||| shiftLeftU64 mevScore 42 ||| shiftLeftU64 ageScore 25 |||
    creditsScore

namespace ValidatorScoreComponents

def encode (components : ValidatorScoreComponents) : Nat :=
  encodeValidatorScore components.inflationCommission components.mevCommissionBps
    components.validatorAge components.voteCredits

/-- `rawScore` is a `u64`. The casts narrow to `u8` and `u16`; those to `u32` lose nothing
of a masked value. -/
def decode (rawScore : Nat) : ValidatorScoreComponents where
  inflationCommission := 100 - ((rawScore >>> 56) &&& 0xFF) % 2 ^ 8
  mevCommissionBps := 10000 - ((rawScore >>> 42) &&& 0x3FFF) % 2 ^ 16
  validatorAge := (rawScore >>> 25) &&& 0x1FFFF
  voteCredits := rawScore &&& 0x1FFFFFF

/-- The values that the tiers can hold. -/
def clamp (components : ValidatorScoreComponents) : ValidatorScoreComponents where
  inflationCommission := min components.inflationCommission 100
  mevCommissionBps := min components.mevCommissionBps 10000
  validatorAge := min components.validatorAge (2 ^ 17 - 1)
  voteCredits := min components.voteCredits (2 ^ 25 - 1)

/-- What the score is to be compared by, the first component first. -/
def tiers (components : ValidatorScoreComponents) : ℕ ×ₗ ℕ ×ₗ ℕ ×ₗ ℕ :=
  toLex (100 - min components.inflationCommission 100,
    toLex (10000 - min components.mevCommissionBps 10000,
      toLex (min components.validatorAge (2 ^ 17 - 1), min components.voteCredits (2 ^ 25 - 1))))

/-! ## The encoding packs the tiers -/

variable (components : ValidatorScoreComponents)

def inflationScore : Nat := 100 - min components.inflationCommission 100
def mevScore : Nat := 10000 - min components.mevCommissionBps 10000
def ageScore : Nat := min components.validatorAge (2 ^ 17 - 1)
def creditsScore : Nat := min components.voteCredits (2 ^ 25 - 1)

/-- The two lower tiers. -/
def ageAndCredits : Nat := pack 25 components.ageScore components.creditsScore

/-- The three lower tiers. -/
def belowInflation : Nat := pack 42 components.mevScore components.ageAndCredits

theorem inflationScore_lt : components.inflationScore < 2 ^ 8 := by
  unfold inflationScore
  omega

theorem mevScore_lt : components.mevScore < 2 ^ 14 := by
  unfold mevScore
  omega

theorem ageScore_lt : components.ageScore < 2 ^ 17 := by
  unfold ageScore
  omega

theorem creditsScore_lt : components.creditsScore < 2 ^ 25 := by
  unfold creditsScore
  omega

theorem ageAndCredits_lt : components.ageAndCredits < 2 ^ 42 :=
  pack_lt_pow components.ageScore_lt components.creditsScore_lt

theorem belowInflation_lt : components.belowInflation < 2 ^ 56 :=
  pack_lt_pow components.mevScore_lt components.ageAndCredits_lt

/-- A tier shifted to its place is still a `u64`. -/
theorem shiftLeftU64_eq {value width bits : Nat} (fits : value < 2 ^ width)
    (room : width + bits ≤ 64) : shiftLeftU64 value bits = value <<< bits := by
  apply Nat.mod_eq_of_lt
  rw [Nat.shiftLeft_eq]
  calc value * 2 ^ bits
      < 2 ^ width * 2 ^ bits := Nat.mul_lt_mul_of_pos_right fits (Nat.two_pow_pos bits)
    _ = 2 ^ (width + bits) := (Nat.pow_add 2 width bits).symm
    _ ≤ 2 ^ 64 := Nat.pow_le_pow_right (by decide) room

/-- Each tier lies above all the lower ones. -/
theorem encode_eq_pack :
    components.encode = pack 56 components.inflationScore components.belowInflation := by
  have inflation : shiftLeftU64 components.inflationScore 56 = components.inflationScore <<< 56 :=
    shiftLeftU64_eq components.inflationScore_lt (by decide)
  have mev : shiftLeftU64 components.mevScore 42 = components.mevScore <<< 42 :=
    shiftLeftU64_eq components.mevScore_lt (by decide)
  have age : shiftLeftU64 components.ageScore 25 = components.ageScore <<< 25 :=
    shiftLeftU64_eq components.ageScore_lt (by decide)
  calc components.encode
      = shiftLeftU64 components.inflationScore 56 ||| shiftLeftU64 components.mevScore 42 |||
          shiftLeftU64 components.ageScore 25 ||| components.creditsScore := rfl
    _ = components.inflationScore <<< 56 ||| components.mevScore <<< 42 |||
          components.ageScore <<< 25 ||| components.creditsScore := by rw [inflation, mev, age]
    _ = pack 56 components.inflationScore components.belowInflation := by
        rw [belowInflation, ageAndCredits, pack, pack, pack, Nat.or_assoc, Nat.or_assoc]

theorem encode_lt : components.encode < 2 ^ 64 := by
  rw [encode_eq_pack]
  exact pack_lt_pow components.inflationScore_lt components.belowInflation_lt

/-! ## Order -/

variable (other : ValidatorScoreComponents)

theorem encode_lt_iff : components.encode < other.encode ↔ components.tiers < other.tiers := by
  rw [encode_eq_pack, encode_eq_pack,
    pack_lt_iff components.belowInflation_lt other.belowInflation_lt, belowInflation,
    belowInflation, pack_lt_iff components.ageAndCredits_lt other.ageAndCredits_lt,
    ageAndCredits, ageAndCredits, pack_lt_iff components.creditsScore_lt other.creditsScore_lt,
    tiers, tiers, Prod.Lex.toLex_lt_toLex, Prod.Lex.toLex_lt_toLex, Prod.Lex.toLex_lt_toLex]
  rfl

theorem encode_inj : components.encode = other.encode ↔ components.tiers = other.tiers := by
  have inflation := components.belowInflation_lt
  rw [encode_eq_pack, encode_eq_pack, pack_inj inflation other.belowInflation_lt,
    belowInflation, belowInflation, pack_inj components.ageAndCredits_lt other.ageAndCredits_lt,
    ageAndCredits, ageAndCredits, pack_inj components.creditsScore_lt other.creditsScore_lt,
    tiers, tiers, toLex_inj, Prod.mk.injEq, toLex_inj, Prod.mk.injEq, toLex_inj, Prod.mk.injEq]
  rfl

/-! ## Decoding -/

theorem encode_eq_sum : components.encode = components.inflationScore * 2 ^ 56 +
    components.mevScore * 2 ^ 42 + components.ageScore * 2 ^ 25 + components.creditsScore := by
  rw [encode_eq_pack, pack_eq components.belowInflation_lt, belowInflation,
    pack_eq components.ageAndCredits_lt, ageAndCredits, pack_eq components.creditsScore_lt]
  omega

theorem decode_encode : decode components.encode = components.clamp := by
  have mevBound := components.mevScore_lt
  have ageBound := components.ageScore_lt
  have creditsBound := components.creditsScore_lt
  have inflationMask : components.encode >>> 56 &&& 0xFF = components.inflationScore := by
    have inflationBound := components.inflationScore_lt
    rw [bits_eq 8 (show 0xFF = 2 ^ 8 - 1 from rfl), encode_eq_sum]
    omega
  have mevMask : components.encode >>> 42 &&& 0x3FFF = components.mevScore := by
    rw [bits_eq 14 (show 0x3FFF = 2 ^ 14 - 1 from rfl), encode_eq_sum]
    omega
  have ageMask : components.encode >>> 25 &&& 0x1FFFF = components.ageScore := by
    rw [bits_eq 17 (show 0x1FFFF = 2 ^ 17 - 1 from rfl), encode_eq_sum]
    omega
  have creditsMask : components.encode &&& 0x1FFFFFF = components.creditsScore := by
    have masked : components.encode >>> 0 &&& 0x1FFFFFF = components.creditsScore := by
      rw [bits_eq 25 (show 0x1FFFFFF = 2 ^ 25 - 1 from rfl), encode_eq_sum]
      omega
    exact masked
  rw [decode, inflationMask, mevMask, ageMask, creditsMask, clamp, inflationScore, mevScore,
    ageScore, creditsScore]
  congr 1 <;> omega

theorem encode_clamp : components.clamp.encode = components.encode := by
  rw [encode_inj, tiers, tiers, clamp]
  simp only [Nat.min_assoc, Nat.min_self]

/-- Scores compare like the tiers they are made of, a score tells what it was made of as
far as the tiers can hold it, and nothing is lost by decoding a score. -/
theorem encode_embeds_tiers (first second : ValidatorScoreComponents) :
    (first.encode < second.encode ↔ first.tiers < second.tiers) ∧
      (first.encode = second.encode ↔ first.tiers = second.tiers) ∧
      first.encode < 2 ^ 64 ∧
      decode first.encode = first.clamp ∧
      (decode first.encode).encode = first.encode := by
  refine ⟨first.encode_lt_iff second, first.encode_inj second, first.encode_lt,
    first.decode_encode, ?_⟩
  rw [first.decode_encode, first.encode_clamp]

end ValidatorScoreComponents

end Stakenet.Steward

import Typeahead.Proofs.Decimal.Exactness
import Typeahead.Proofs.Decimal.Order

/-!
# Integers in the range of doubles

Rounding does not take an integer of at most sixty-four bits out of the range of doubles: the
exponent that its length asks for is far below the largest one.
-/

namespace Typeahead.Decimal

open Float.Model (Format totalExponent UnpackedFloat)
open Float.Model.UnpackedFloat

/-- Zero, or a number whose exponent can be packed. -/
inductive Tame : UnpackedFloat → Prop where
  | zero (sign : Sign) : Tame (.zero sign)
  | finite (sign : Sign) {mantissa : Nat} {exponent : Int} (present : 0 < mantissa)
      (low : exponent ≤ 971) : Tame (.finite sign mantissa exponent present)

theorem Tame.isInf {value : UnpackedFloat} (tame : Tame value) : value.isInf = false := by
  cases tame <;> rfl

theorem Tame.neg {value : UnpackedFloat} (tame : Tame value) : Tame value.neg := by
  cases tame with
  | zero sign => exact .zero _
  | finite sign present low => exact .finite _ present low

/-! ## Packing -/

theorem tame_unpack_packComponents {sign : Sign} {exponent : BitVec 11} {mantissa : BitVec 52}
    (low : exponent.toNat < 2047) :
    Tame (unpack Format.binary64 (packComponents Format.binary64 sign exponent mantissa)) := by
  have bias : Format.binary64.exponentBias = 1023 := rfl
  have bits : Format.binary64.mantissaBitsWithoutImplicit = 52 := rfl
  simp only [unpack, unpackMantissa_packComponents, unpackExponent_packComponents,
    unpackSign_packComponents]
  split
  next full =>
    have all : exponent.toNat = 2047 := congrArg BitVec.toNat full
    omega
  · split
    next empty =>
      have zero : exponent.toNat = 0 := congrArg BitVec.toNat empty
      split
      · exact .zero _
      · exact .finite _ _ (by omega)
    next => exact .finite _ _ (by omega)

/-- A tame number is one again after it was packed. -/
theorem Tame.unpack_pack {value : UnpackedFloat} (tame : Tame value) :
    Tame (Float.Model.pack value).unpack := by
  change Tame (unpack Format.binary64 (pack Format.binary64 value))
  cases tame with
  | zero sign => cases sign <;> exact .zero _
  | @finite sign mantissa exponent present low =>
      have bias : Format.binary64.exponentBias = 1023 := rfl
      have bits : Format.binary64.mantissaBitsWithoutImplicit = 52 := rfl
      have length : 2 ^ Format.binary64.exponentBits = 2048 := rfl
      simp only [pack]
      split
      next far => omega
      next inRange =>
        split
        · apply tame_unpack_packComponents
          rw [BitVec.toNat_ofNat]
          exact Nat.lt_of_le_of_lt (Nat.mod_le _ _) (by omega)
        · exact tame_unpack_packComponents (by decide)

/-! ## Rounding -/

theorem mantissa_shiftRight_le (extended : ExtendedMantissa) (shift : Nat) :
    (extended >>> shift).mantissa ≤ extended.mantissa := by
  induction shift with
  | zero => exact Nat.le_refl _
  | succ shift inductionHypothesis =>
      exact (Nat.div_le_self _ 2).trans inductionHypothesis

theorem roundedMantissa_le (extended : ExtendedMantissa) :
    extended.roundedMantissa ≤ extended.mantissa + 1 := by
  unfold ExtendedMantissa.roundedMantissa Accuracy.roundToNearestEven
  split <;> omega

theorem exponent_shiftToTargetExponent_le {mantissa : Nat} {exponent bound : Int}
    {accuracy : Accuracy} (low : exponent ≤ bound) (room : mantissa.log2 + exponent ≤ bound + 52)
    (above : -1074 ≤ bound) :
    (shiftToTargetExponent Format.binary64 mantissa exponent accuracy).2 ≤ bound := by
  simp only [shiftToTargetExponent, shiftToExponent, Format.targetExponent, totalExponent,
    Format.mantissaBits, Format.minExponent]
  omega

/-- A mantissa of up to four hundred bits is rounded twice without leaving the range of doubles. -/
theorem tame_roundWithAccuracy (sign : Sign) {mantissa : Nat} {exponent : Int}
    (short : mantissa < 2 ^ 400) (low : exponent ≤ 0) :
    Tame (roundWithAccuracy Format.binary64 sign mantissa exponent .exact) := by
  have length {whole : Nat} (inside : whole ≤ 2 ^ 400) : whole.log2 ≤ 400 := by
    by_cases zero : whole = 0
    · simp [zero]
    · exact Nat.le_of_lt_succ ((Nat.log2_lt zero).mpr (by omega))
  -- Rounding may carry, so the mantissa is shifted a second time, by what is left of its length.
  have first : (shiftToTargetExponent Format.binary64 mantissa exponent .exact).2 ≤ 348 := by
    have := length short.le
    exact exponent_shiftToTargetExponent_le (by omega) (by omega) (by omega)
  have rounded :
      (shiftToTargetExponent Format.binary64 mantissa exponent .exact).1.roundedMantissa ≤
        2 ^ 400 :=
    (roundedMantissa_le _).trans ((mantissa_shiftRight_le _ _).trans_lt short)
  have again := length rounded
  simp only [roundWithAccuracy]
  split
  · exact .zero _
  · exact .finite _ _ (exponent_shiftToTargetExponent_le (by omega) (by omega) (by omega))

/-! ## Integers -/

theorem tame_ofNat {whole : Nat} (short : whole < 2 ^ 64) :
    Tame (Float.ofNat whole).toModel.unpack := by
  by_cases zero : whole = 0
  · subst zero
    exact .zero .positive
  by_cases small : whole < 2 ^ 53
  · have scalable : ∃ mantissa, Scaled (whole * 2 ^ 0) mantissa :=
      exists_scaled (Nat.pos_of_ne_zero zero) small
    rw [Nat.pow_zero, Nat.mul_one] at scalable
    obtain ⟨mantissa, scaled⟩ := scalable
    have length : whole.log2 < 53 := (Nat.log2_lt zero).mpr small
    rw [ofNat_of_scaled scaled (by omega), unpack_ofParts false scaled.full (by omega) (by omega)]
    exact .finite _ _ (by omega)
  · rw [ofNat_of_le (Nat.le_of_not_lt small)]
    refine (tame_roundWithAccuracy .positive ?_ (by decide)).unpack_pack
    rw [Nat.mul_one, Nat.shiftLeft_eq]
    omega

/-- No integer of at most sixty-four bits is beyond the range of doubles. -/
theorem isInf_ofInt {value : Int} (short : value.natAbs < 2 ^ 64) :
    (Float.ofInt value).isInf = false := by
  cases value with
  | ofNat whole => exact (tame_ofNat short).isInf
  | negSucc whole => exact (tame_ofNat short).neg.unpack_pack.isInf

end Typeahead.Decimal

namespace Typeahead.Document.Number

/-- Only integers of more than sixty-four bits have no doubles. -/
theorem exists_long_of_toDouble?_eq_none {number : Number} (far : number.toDouble? = none) :
    ∃ value : Int, number = .integer value ∧ 2 ^ 64 ≤ value.natAbs := by
  cases number with
  | double value => contradiction
  | integer value =>
      refine ⟨value, rfl, ?_⟩
      by_contra short
      simp [toDouble?, Decimal.isInf_ofInt (Nat.lt_of_not_le short)] at far

end Typeahead.Document.Number

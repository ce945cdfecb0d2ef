import Mathlib
import Typeahead.Document.Value
import Typeahead.Proofs.Decimal.Normal

/-!
# Integers that doubles denote exactly

The double nearest to an integer is the integer itself if some double denotes it. Rounding works on
unpacked doubles: a mantissa is shifted until it has fifty-three bits, and no bit that is not zero is
lost if the integer has an odd part of at most fifty-three bits.
-/

namespace Typeahead.Decimal

open Float.Model (Format totalExponent UnpackedFloat)
open Float.Model.UnpackedFloat

/-- The mantissa of a normal double. -/
structure Full (mantissa : Nat) : Prop where
  lower : 2 ^ 52 ≤ mantissa
  upper : mantissa < 2 ^ 53

namespace Full

variable {mantissa : Nat} {exponent : Int}

theorem pos (full : Full mantissa) : 0 < mantissa :=
  Nat.lt_of_lt_of_le (Nat.two_pow_pos 52) full.lower

theorem log2_mul_pow (full : Full mantissa) (shift : Nat) :
    (mantissa * 2 ^ shift).log2 = 52 + shift := by
  have present : mantissa * 2 ^ shift ≠ 0 :=
    Nat.ne_of_gt (Nat.mul_pos full.pos (Nat.two_pow_pos shift))
  apply (Nat.log2_eq_iff present).mpr
  constructor
  · rw [Nat.pow_add]
    exact Nat.mul_le_mul_right _ full.lower
  · rw [Nat.add_right_comm, Nat.pow_add]
    exact Nat.mul_lt_mul_of_pos_right full.upper (Nat.two_pow_pos shift)

theorem log2 (full : Full mantissa) : mantissa.log2 = 52 := by
  have shifted := full.log2_mul_pow 0
  rwa [Nat.pow_zero, Nat.mul_one] at shifted

theorem targetExponent_mul_pow (full : Full mantissa) (shift : Nat)
    (above : -1074 ≤ exponent + shift) :
    Format.binary64.targetExponent (totalExponent (mantissa * 2 ^ shift) exponent) =
      exponent + shift := by
  simp only [Format.targetExponent, totalExponent, full.log2_mul_pow, Format.mantissaBits,
    Format.minExponent]
  omega

end Full

/-! ## Rounding -/

/-- Zeros may be shifted out of a mantissa. -/
theorem shiftRight_mul_pow (mantissa shift : Nat) :
    (⟨mantissa * 2 ^ shift, false, false⟩ : ExtendedMantissa) >>> shift =
      ⟨mantissa, false, false⟩ := by
  induction shift generalizing mantissa with
  | zero =>
      rw [Nat.pow_zero, Nat.mul_one]
      rfl
  | succ shift inductionHypothesis =>
      have split : mantissa * 2 ^ (shift + 1) = mantissa * 2 * 2 ^ shift := by
        rw [Nat.pow_succ, Nat.mul_assoc, Nat.mul_comm 2]
      change ((⟨mantissa * 2 ^ (shift + 1), false, false⟩ : ExtendedMantissa) >>> shift).shiftRightOne
        = _
      rw [split, inductionHypothesis]
      simp [ExtendedMantissa.shiftRightOne]

theorem shiftToTargetExponent_mul_pow {mantissa : Nat} (full : Full mantissa) (shift : Nat)
    {exponent : Int} (above : -1074 ≤ exponent + shift) :
    shiftToTargetExponent Format.binary64 (mantissa * 2 ^ shift) exponent .exact =
      (⟨mantissa, false, false⟩, exponent + shift) := by
  have amount : (exponent + shift - exponent).toNat = shift := by omega
  simp only [shiftToTargetExponent, full.targetExponent_mul_pow shift above, shiftToExponent, amount,
    ExtendedMantissa.ofMantissaAndAccuracy, shiftRight_mul_pow]

/-- Rounding keeps a mantissa of fifty-three bits and drops the zeros behind it. -/
theorem roundWithAccuracy_mul_pow (sign : Sign) {mantissa : Nat} (full : Full mantissa) (shift : Nat)
    {exponent : Int} (above : -1074 ≤ exponent + shift) :
    roundWithAccuracy Format.binary64 sign (mantissa * 2 ^ shift) exponent .exact =
      .finite sign mantissa (exponent + shift) full.pos := by
  have again := shiftToTargetExponent_mul_pow full 0
    (show -1074 ≤ exponent + shift + (0 : Nat) by omega)
  rw [Nat.pow_zero, Nat.mul_one] at again
  simp only [roundWithAccuracy, shiftToTargetExponent_mul_pow full shift above,
    ExtendedMantissa.roundedMantissa, ExtendedMantissa.accuracy, Accuracy.roundToNearestEven, again,
    Nat.ne_of_gt full.pos, dite_false]
  congr 1
  omega

/-! ## Packing -/

/-- The sign of a number that may be negative. -/
def signOf (negative : Bool) : Sign :=
  if negative then .negative else .positive

theorem toNat_signOf (negative : Bool) :
    (signOf negative).toBitVec.toNat = if negative then 1 else 0 := by
  cases negative <;> rfl

/-- The double with the given parts. -/
def ofParts (negative : Bool) {mantissa : Nat} (full : Full mantissa) (exponent : Int) : Float :=
  ⟨Float.Model.pack (.finite (signOf negative) mantissa exponent full.pos)⟩

section Packing

variable (negative : Bool) {mantissa : Nat} (full : Full mantissa) {exponent : Int}
  (above : -1074 ≤ exponent) (below : exponent ≤ 971)

include above below in
theorem pack_finite :
    pack Format.binary64 (.finite (signOf negative) mantissa exponent full.pos) =
      packComponents Format.binary64 (signOf negative) (BitVec.ofNat 11 (exponent + 1075).toNat)
        (BitVec.ofNat 52 mantissa) := by
  have biased : (exponent + (Format.binary64.exponentBias : Int) +
      (Format.binary64.mantissaBitsWithoutImplicit : Int)).toNat = (exponent + 1075).toNat := by
    change (exponent + 1023 + 52).toNat = _
    omega
  have inRange : ¬2 ^ Format.binary64.exponentBits ≤ (exponent + 1075).toNat + 1 := by
    change ¬2048 ≤ _
    omega
  have bits : mantissa.log2 + 1 = Format.binary64.mantissaBits := by
    rw [full.log2]
    rfl
  rw [pack, biased, if_neg inRange, if_pos bits]

theorem toNat_packComponents (exponent : BitVec 11) (fraction : BitVec 52) :
    (packComponents Format.binary64 (signOf negative) exponent fraction).toNat =
      (if negative then 1 else 0) * 2 ^ 63 + exponent.toNat * 2 ^ 52 + fraction.toNat := by
  change ((signOf negative).toBitVec ++ exponent ++ fraction).toNat = _
  rw [BitVec.toNat_append, BitVec.toNat_append, ← Nat.shiftLeft_add_eq_or_of_lt exponent.isLt,
    ← Nat.shiftLeft_add_eq_or_of_lt fraction.isLt, Nat.shiftLeft_eq, Nat.shiftLeft_eq, toNat_signOf]
  omega

include above below in
theorem toNat_toBits_ofParts :
    (ofParts negative full exponent).toBits.toNat =
      (if negative then 1 else 0) * 2 ^ 63 + (exponent + 1075).toNat * 2 ^ 52 +
        (mantissa - 2 ^ 52) := by
  have fraction : mantissa % 2 ^ 52 = mantissa - 2 ^ 52 := by
    have := full.lower
    have := full.upper
    omega
  change (pack Format.binary64 (.finite (signOf negative) mantissa exponent full.pos)).toNat = _
  rw [pack_finite negative full above below, toNat_packComponents, BitVec.toNat_ofNat,
    BitVec.toNat_ofNat, fraction, Nat.mod_eq_of_lt (by omega)]

/-- The three fields of a word do not overlap. -/
theorem fields_of_word {sign exponent fraction : Nat} (exponentFits : exponent < 2 ^ 11)
    (fractionFits : fraction < 2 ^ 52) :
    (sign * 2 ^ 63 + exponent * 2 ^ 52 + fraction) / 2 ^ 63 = sign ∧
      (sign * 2 ^ 63 + exponent * 2 ^ 52 + fraction) / 2 ^ 52 % 2 ^ 11 = exponent ∧
        (sign * 2 ^ 63 + exponent * 2 ^ 52 + fraction) % 2 ^ 52 = fraction := by
  omega

include above below in
/-- The parts of a double are read off its bits. -/
theorem ofFloat_ofParts :
    Binary.ofFloat (ofParts negative full exponent) = .finite negative mantissa exponent := by
  have lower := full.lower
  have upper := full.upper
  have bits := toNat_toBits_ofParts negative full above below
  have exponentFits : (exponent + 1075).toNat < 2 ^ 11 := by omega
  have fractionFits : mantissa - 2 ^ 52 < 2 ^ 52 := by omega
  obtain ⟨signBit, exponentBits, fractionBits⟩ :=
    @fields_of_word (if negative then 1 else 0) _ _ exponentFits fractionFits
  rw [← bits] at signBit exponentBits fractionBits
  simp only [Binary.ofFloat, Nat.pow_eq, signBit, exponentBits, fractionBits, -Nat.reducePow]
  have whole : 2 ^ 52 + (mantissa - 2 ^ 52) = mantissa := by omega
  have back : ((exponent + 1075).toNat : Int) - 1075 = exponent := by omega
  rw [if_neg (by omega), if_neg (by omega), whole, back]
  cases negative <;> rfl

include above below in
/-- Unpacking undoes packing. -/
theorem unpack_ofParts :
    (ofParts negative full exponent).toModel.unpack =
      .finite (signOf negative) mantissa exponent full.pos := by
  have exponentBits : (BitVec.ofNat 11 (exponent + 1075).toNat).toNat = (exponent + 1075).toNat := by
    rw [BitVec.toNat_ofNat]
    omega
  have notSpecial : BitVec.ofNat 11 (exponent + 1075).toNat ≠ -1#11 := by
    intro same
    have numbers := congrArg BitVec.toNat same
    rw [exponentBits] at numbers
    change _ = 2047 at numbers
    omega
  have notSmall : BitVec.ofNat 11 (exponent + 1075).toNat ≠ 0#11 := by
    intro same
    have numbers := congrArg BitVec.toNat same
    rw [exponentBits] at numbers
    change _ = 0 at numbers
    omega
  have whole : (1#1 ++ BitVec.ofNat 52 mantissa).toNat = mantissa := by
    rw [BitVec.toNat_append, ← Nat.shiftLeft_add_eq_or_of_lt (BitVec.isLt _), BitVec.toNat_ofNat,
      Nat.shiftLeft_eq]
    have := full.lower
    have := full.upper
    change 1 * 2 ^ 52 + mantissa % 2 ^ 52 = mantissa
    omega
  have back : (((BitVec.ofNat 11 (exponent + 1075).toNat).toNat : Int) -
      ((Format.binary64.exponentBias : Int) + (Format.binary64.mantissaBitsWithoutImplicit : Int))) =
      exponent := by
    rw [exponentBits]
    change ((exponent + 1075).toNat : Int) - (1023 + 52) = exponent
    omega
  change unpack Format.binary64 (pack Format.binary64 _) = _
  rw [pack_finite negative full above below]
  simp only [unpack, unpackMantissa_packComponents, unpackExponent_packComponents,
    unpackSign_packComponents, Sign.ofBitVec_toBitVec]
  rw [if_neg notSpecial, if_neg notSmall]
  congr 1

end Packing

theorem neg_ofParts (negative : Bool) {mantissa : Nat} (full : Full mantissa) {exponent : Int}
    (above : -1074 ≤ exponent) (below : exponent ≤ 971) :
    (ofParts negative full exponent).neg = ofParts (!negative) full exponent := by
  change Float.ofModel (Float.Model.pack (ofParts negative full exponent).toModel.unpack.neg) = _
  rw [unpack_ofParts negative full above below]
  cases negative <;> rfl

theorem isInf_ofParts (negative : Bool) {mantissa : Nat} (full : Full mantissa) {exponent : Int}
    (above : -1074 ≤ exponent) (below : exponent ≤ 971) :
    (ofParts negative full exponent).isInf = false := by
  change (ofParts negative full exponent).toModel.unpack.isInf = false
  rw [unpack_ofParts negative full above below]
  rfl

/-! ## Integers -/

/-- Numbers of more than fifty-three bits are rounded. -/
theorem ofNat_of_le {whole : Nat} (long : 2 ^ 53 ≤ whole) :
    Float.ofNat whole = Float.ofModel (Float.Model.pack
      (roundWithAccuracy Format.binary64 .positive (whole <<< 53 * 1) (-53) .exact)) := by
  have notSmall : ¬whole < 2 ^ 53 := Nat.not_lt.mpr long
  have present : whole ≠ 0 := Nat.ne_of_gt (Nat.lt_of_lt_of_le (Nat.two_pow_pos 53) long)
  have notTiny : ¬(0 : Int) < -(2 ^ Format.binary64.exponentBits + whole.log2) := by
    change ¬(0 : Int) < -(2048 + whole.log2)
    omega
  change Float.ofScientific whole false 0 = _
  rw [Float.ofScientific, dif_neg (fun both => notSmall both.1)]
  change Float.ofModel (Float.Model.pack (ofScientific Format.binary64 whole 0)) = _
  rw [ofScientific, dif_neg present, if_neg (by decide), if_neg notTiny, if_pos (by decide)]
  rfl

/-- A mantissa of fifty-three bits for a natural number, at the exponent that its length asks for. -/
structure Scaled (whole mantissa : Nat) : Prop where
  full : Full mantissa
  same : whole * 2 ^ 52 = mantissa * 2 ^ whole.log2

section Scaled

variable {whole mantissa : Nat} (scaled : Scaled whole mantissa)

include scaled in
theorem Scaled.pos : 0 < whole := by
  apply Nat.pos_of_ne_zero
  rintro rfl
  have zero : mantissa * 2 ^ Nat.log2 0 = 0 := by rw [← scaled.same, Nat.zero_mul]
  have := scaled.full.pos
  have := Nat.mul_pos scaled.full.pos (Nat.two_pow_pos (Nat.log2 0))
  omega

/-- Numbers of at most fifty-three bits are read from a machine word. -/
theorem toFloat_toUInt64 (small : whole < 2 ^ 53) :
    whole.toUInt64.toFloat = ofParts false scaled.full (whole.log2 - 52) := by
  have short : whole.log2 ≤ 52 :=
    Nat.le_of_lt_succ ((Nat.log2_lt (Nat.ne_of_gt scaled.pos)).mpr small)
  have target : Format.binary64.targetExponent (totalExponent whole 0) = whole.log2 - 52 := by
    simp only [Format.targetExponent, totalExponent, Format.mantissaBits, Format.minExponent]
    omega
  have shifted : whole <<< (52 - whole.log2) = mantissa := by
    apply Nat.eq_of_mul_eq_mul_right (Nat.two_pow_pos whole.log2)
    rw [Nat.shiftLeft_eq, Nat.mul_assoc, ← Nat.pow_add, Nat.sub_add_cancel short, scaled.same]
  have word : whole.toUInt64.toNat = whole := by
    rw [Nat.toUInt64, UInt64.toNat_ofNat']
    omega
  have amount : (0 - ((whole.log2 : Int) - 52)).toNat = 52 - whole.log2 := by omega
  have exponent : (0 : Int) - ((52 - whole.log2 : Nat) : Int) = whole.log2 - 52 := by omega
  have positive : compare (whole : Int) 0 = .gt :=
    Int.compare_eq_gt.mpr (Int.natCast_pos.mpr scaled.pos)
  have rounded := roundWithAccuracy_mul_pow .positive scaled.full 0
    (show -1074 ≤ (whole.log2 : Int) - 52 + (0 : Nat) by omega)
  rw [Nat.pow_zero, Nat.mul_one] at rounded
  change Float.ofModel (Float.Model.pack (ofInt Format.binary64 (whole.toUInt64.toNat : Int))) = _
  rw [word, ofInt, UnpackedFloat.normalize, positive]
  simp only [Int.toNat_natCast, UnpackedFloat.round, target, decreaseExponent, amount, shifted, exponent, rounded]
  simp only [Int.add_zero, Int.natCast_zero]
  rfl

/-- The nearest double of a natural number whose mantissa has fifty-three bits. -/
theorem ofNat_of_scaled (inRange : whole.log2 ≤ 1023) :
    Float.ofNat whole = ofParts false scaled.full (whole.log2 - 52) := by
  by_cases small : whole < 2 ^ 53
  · change Float.ofScientific whole false 0 = _
    rw [Float.ofScientific, dif_pos ⟨small, by decide⟩]
    have one : (Float.ofBits 4607182418800017408).toModel.unpack =
        .finite .positive (2 ^ 52) (-52) (by decide) := by rfl
    change whole.toUInt64.toFloat.mul (Float.ofBits 4607182418800017408) = _
    rw [toFloat_toUInt64 scaled small]
    change Float.ofModel (Float.Model.pack (UnpackedFloat.mul Format.binary64 _ _)) = _
    rw [unpack_ofParts false scaled.full (by omega) (by omega), one]
    change Float.ofModel (Float.Model.pack (roundWithAccuracy Format.binary64 .positive
      (mantissa * 2 ^ 52) (whole.log2 - 52 + -52) .exact)) = _
    have back : (whole.log2 : Int) - 52 + -52 + (52 : Nat) = whole.log2 - 52 := by omega
    rw [roundWithAccuracy_mul_pow .positive scaled.full 52 (by omega), back]
    rfl
  · have doubled : whole <<< 53 * 1 = whole * 2 ^ 52 * 2 := by
      rw [Nat.shiftLeft_eq]
      omega
    have wide : whole <<< 53 * 1 = mantissa * 2 ^ (whole.log2 + 1) := by
      rw [doubled, scaled.same, Nat.pow_succ 2 whole.log2, Nat.mul_assoc]
    have back : (-53 : Int) + (whole.log2 + 1 : Nat) = whole.log2 - 52 := by omega
    rw [ofNat_of_le (Nat.le_of_not_lt small), wide,
      roundWithAccuracy_mul_pow .positive scaled.full (whole.log2 + 1) (by omega), back]
    rfl

include scaled in
/-- A mantissa of fifty-three bits has the value of the whole number. -/
theorem normal_of_scaled (negative : Bool) :
    (Binary.finite negative mantissa (whole.log2 - 52)).normal =
      (Binary.finite negative whole 0).normal := by
  have moved := Binary.normal_mul_pow negative mantissa whole.log2 (-52)
  have still := Binary.normal_mul_pow negative whole 52 (-52)
  rw [← scaled.same, still] at moved
  have exponent : (whole.log2 : Int) - 52 = -52 + whole.log2 := by omega
  rw [exponent, ← moved]
  rfl

end Scaled

/-- The nearest double of an integer whose mantissa has fifty-three bits. -/
theorem ofInt_of_scaled {value : Int} {mantissa : Nat} (scaled : Scaled value.natAbs mantissa)
    (inRange : value.natAbs.log2 ≤ 1023) :
    Float.ofInt value = ofParts (value < 0) scaled.full (value.natAbs.log2 - 52) := by
  cases value with
  | ofNat whole => exact ofNat_of_scaled scaled inRange
  | negSucc whole =>
      rw [decide_eq_true (Int.negSucc_lt_zero whole), ← Bool.not_false,
        ← neg_ofParts false scaled.full (by omega) (by omega), ← ofNat_of_scaled scaled inRange]
      rfl

/-- A whole number with an odd part of at most fifty-three bits can be scaled. -/
theorem exists_scaled {odd power : Nat} (present : 0 < odd) (short : odd < 2 ^ 53) :
    ∃ mantissa, Scaled (odd * 2 ^ power) mantissa := by
  have positive : odd * 2 ^ power ≠ 0 :=
    Nat.ne_of_gt (Nat.mul_pos present (Nat.two_pow_pos power))
  obtain ⟨lower, upper⟩ := (Nat.log2_eq_iff positive).mp rfl
  have enough : (odd * 2 ^ power).log2 ≤ power + 52 := by
    apply Nat.le_of_lt_succ
    apply (Nat.pow_lt_pow_iff_right (by decide : 1 < 2)).mp
    apply Nat.lt_of_le_of_lt lower
    rw [Nat.succ_eq_add_one, Nat.add_assoc, Nat.pow_add, Nat.mul_comm]
    exact Nat.mul_lt_mul_of_pos_left short (Nat.two_pow_pos power)
  have same : odd * 2 ^ power * 2 ^ 52 =
      odd * 2 ^ (power + 52 - (odd * 2 ^ power).log2) * 2 ^ (odd * 2 ^ power).log2 := by
    rw [Nat.mul_assoc, Nat.mul_assoc, ← Nat.pow_add, ← Nat.pow_add, Nat.sub_add_cancel enough]
  refine ⟨odd * 2 ^ (power + 52 - (odd * 2 ^ power).log2), ⟨?_, ?_⟩, same⟩
  · apply Nat.le_of_mul_le_mul_right _ (Nat.two_pow_pos (odd * 2 ^ power).log2)
    rw [← same, Nat.mul_comm]
    exact Nat.mul_le_mul_right _ lower
  · apply Nat.lt_of_mul_lt_mul_right (a := 2 ^ (odd * 2 ^ power).log2)
    have regrouped : 2 ^ 53 * 2 ^ (odd * 2 ^ power).log2 =
        2 ^ 52 * 2 ^ ((odd * 2 ^ power).log2 + 1) := by
      rw [← Nat.pow_add, ← Nat.pow_add]
      congr 1
      omega
    rw [← same, regrouped, Nat.mul_comm (odd * 2 ^ power)]
    exact Nat.mul_lt_mul_of_pos_left upper (Nat.two_pow_pos 52)

/-! ## Doubles and integers of one value -/

/-- A finite double has a mantissa of at most fifty-three bits and an exponent of at most 971. -/
theorem Binary.bounds_of_ofFloat {value : Float} {negative : Bool} {mantissa : Nat} {exponent : Int}
    (read : Binary.ofFloat value = .finite negative mantissa exponent) :
    mantissa < 2 ^ 53 ∧ exponent ≤ 971 := by
  simp only [Binary.ofFloat, Nat.pow_eq] at read
  split at read
  · split at read <;> cases read
  · split at read
    · cases read
      omega
    · cases read
      omega

/-- Exponents add up to the length of a product. -/
theorem mul_pow_lt {odd moved power length range : Nat} (short : odd * 2 ^ moved < 2 ^ length)
    (inRange : power ≤ moved + range) : odd * 2 ^ power < 2 ^ (length + range) :=
  calc odd * 2 ^ power
      ≤ odd * 2 ^ (moved + range) :=
        Nat.mul_le_mul_left odd (Nat.pow_le_pow_right (by decide) inRange)
    _ = odd * 2 ^ moved * 2 ^ range := by rw [Nat.mul_assoc, ← Nat.pow_add]
    _ < 2 ^ length * 2 ^ range := Nat.mul_lt_mul_of_pos_right short (Nat.two_pow_pos range)
    _ = 2 ^ (length + range) := (Nat.pow_add 2 length range).symm

/-- A natural number that a double denotes, up to the sign, has a mantissa of fifty-three bits and
lies in the range of doubles. -/
theorem exists_scaled_of_normal {whole : Nat} (positive : 0 < whole) {value : Float}
    {negative : Bool}
    (same : (Binary.ofFloat value).normal = (Binary.finite negative whole 0).normal) :
    (∃ mantissa, Scaled whole mantissa) ∧ whole.log2 ≤ 1023 := by
  obtain ⟨odd, power, form, isOdd, rfl⟩ := Binary.exists_normal negative (Nat.ne_of_gt positive) 0
  rw [form] at same
  cases read : Binary.ofFloat value with
  | nan => rw [read] at same; cases same
  | infinite sign => rw [read] at same; cases same
  | finite sign mantissa exponent =>
      rw [read] at same
      obtain ⟨short, inRange⟩ := Binary.bounds_of_ofFloat read
      have present : mantissa ≠ 0 := by
        rintro rfl
        injection same with _ zero _
        omega
      obtain ⟨other, moved, otherForm, -, split⟩ := Binary.exists_normal sign present exponent
      rw [otherForm] at same
      injection same with _ sameOdd samePower
      rw [sameOdd] at split
      have oddPositive : 0 < odd := by omega
      have oddShort : odd < 2 ^ 53 := by
        have := Nat.le_mul_of_pos_right odd (Nat.two_pow_pos moved)
        omega
      refine ⟨exists_scaled oddPositive oddShort, ?_⟩
      have bound := mul_pow_lt (split ▸ short) (show power ≤ moved + 971 by omega)
      have length := (Nat.log2_lt (Nat.ne_of_gt positive)).mpr bound
      omega

end Typeahead.Decimal

namespace Typeahead.Document.Number

open Decimal

theorem exact_integer (value : Int) :
    (integer value).exact = (Binary.finite (value < 0) value.natAbs 0).normal :=
  rfl

/-- An integer that some double denotes is denoted by its nearest double. -/
theorem exists_toDouble?_of_exact_eq {value : Int} {other : Float}
    (same : (double other).exact = (integer value).exact) :
    ∃ nearest, (integer value).toDouble? = some nearest ∧
      (double nearest).exact = (integer value).exact := by
  by_cases zero : value = 0
  · subst zero
    exact ⟨Float.ofInt 0, rfl, rfl⟩
  · have positive : 0 < value.natAbs := Int.natAbs_pos.mpr zero
    obtain ⟨⟨mantissa, scaled⟩, inRange⟩ := exists_scaled_of_normal positive same
    have above : (-1074 : Int) ≤ value.natAbs.log2 - 52 := by omega
    have below : (value.natAbs.log2 : Int) - 52 ≤ 971 := by omega
    have nearest := ofInt_of_scaled scaled inRange
    refine ⟨Float.ofInt value, ?_, ?_⟩
    · rw [toDouble?, nearest, isInf_ofParts _ _ above below]
      rfl
    · rw [nearest, exact_integer, ← normal_of_scaled scaled, ← ofFloat_ofParts _ _ above below]
      rfl

/-- Integers are determined by their exact values. -/
theorem eq_of_exact_integer_eq {first second : Int}
    (same : (integer first).exact = (integer second).exact) : first = second := by
  rw [exact_integer, exact_integer] at same
  by_cases firstZero : first = 0
  · by_cases secondZero : second = 0
    · rw [firstZero, secondZero]
    · obtain ⟨odd, moved, form, isOdd, -⟩ := Binary.exists_normal (second < 0)
        (Int.natAbs_ne_zero.mpr secondZero) 0
      rw [form, firstZero] at same
      injection same with _ zero _
      omega
  · obtain ⟨odd, moved, form, isOdd, whole⟩ := Binary.exists_normal (first < 0)
      (Int.natAbs_ne_zero.mpr firstZero) 0
    rw [form] at same
    by_cases secondZero : second = 0
    · rw [secondZero] at same
      injection same with _ zero _
      omega
    · obtain ⟨other, otherMoved, otherForm, -, otherWhole⟩ := Binary.exists_normal (second < 0)
        (Int.natAbs_ne_zero.mpr secondZero) 0
      rw [otherForm] at same
      injection same with sign sameOdd samePower
      have sameMoved : moved = otherMoved := by omega
      rw [sameOdd, sameMoved, ← otherWhole] at whole
      have sameSign : first < 0 ↔ second < 0 := by simpa using sign
      omega

/-- Numbers of one exact value have one nearest double, up to the sign of zero. -/
theorem toDouble?_congr {first second : Number} (same : first.exact = second.exact) :
    Option.Rel (fun one other => (double one).exact = (double other).exact) first.toDouble?
      second.toDouble? := by
  cases first with
  | integer value =>
      cases second with
      | integer other =>
          rw [eq_of_exact_integer_eq same]
          cases (integer other).toDouble? with
          | none => exact .none
          | some nearest => exact .some rfl
      | double other =>
          obtain ⟨nearest, found, exactly⟩ := exists_toDouble?_of_exact_eq same.symm
          rw [found]
          exact .some (exactly.trans same)
  | double value =>
      cases second with
      | integer other =>
          obtain ⟨nearest, found, exactly⟩ := exists_toDouble?_of_exact_eq same
          rw [found]
          exact .some (same.trans exactly.symm)
      | double other => exact .some same

end Typeahead.Document.Number

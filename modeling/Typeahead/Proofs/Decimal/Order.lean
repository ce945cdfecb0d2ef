import Mathlib
import Typeahead.Measure

/-!
# Doubles that count as amounts

An amount is a double that is neither negative nor undefined: a zero, a positive number, or the
positive infinity. The comparisons of doubles follow a total order on the amounts, and sums of
amounts and multiples of a positive number are amounts again. So whatever is reckoned by adding up
prices can be sorted.
-/

namespace Typeahead.Decimal

open Float.Model (Format UnpackedFloat)
open Float.Model.UnpackedFloat

/-! ## Unpacked amounts -/

/-- A zero, a positive number, or the positive infinity. -/
inductive Unsigned : UnpackedFloat → Prop
  | zero (sign : Sign) : Unsigned (.zero sign)
  | finite (mantissa : Nat) (exponent : Int) (present : 0 < mantissa) :
      Unsigned (.finite .positive mantissa exponent present)
  | infinity : Unsigned (.infinity .positive)

/-- A positive number. -/
inductive Positive : UnpackedFloat → Prop
  | finite (mantissa : Nat) (exponent : Int) (present : 0 < mantissa) :
      Positive (.finite .positive mantissa exponent present)

theorem Positive.unsigned {value : UnpackedFloat} (positive : Positive value) : Unsigned value := by
  cases positive
  exact .finite _ _ _

section Arithmetic

variable {first second : UnpackedFloat} {spec : Format}

/-- Rounding a mantissa without a sign gives none. -/
theorem unsigned_roundWithAccuracy (mantissa : Nat) (exponent : Int) (accuracy : Accuracy) :
    Unsigned (roundWithAccuracy spec .positive mantissa exponent accuracy) := by
  simp only [roundWithAccuracy]
  split
  · exact .zero _
  · exact .finite _ _ _

theorem unsigned_normalize (mantissa : Nat) (exponent : Int) :
    Unsigned (UnpackedFloat.normalize spec mantissa exponent .positive) := by
  have notBelow : compare (mantissa : Int) 0 ≠ .lt := by
    rw [Ne, compare_lt_iff_lt]
    omega
  unfold UnpackedFloat.normalize
  split
  · contradiction
  · exact .zero _
  · exact unsigned_roundWithAccuracy _ _ _

theorem Unsigned.add (firstUnsigned : Unsigned first) (secondUnsigned : Unsigned second) :
    Unsigned (first.add spec second) := by
  cases firstUnsigned with
  | zero sign =>
      cases secondUnsigned with
      | zero other =>
          rw [UnpackedFloat.add]
          split <;> exact .zero _
      | finite => exact .finite _ _ _
      | infinity => exact .infinity
  | finite mantissa exponent =>
      cases secondUnsigned with
      | zero => exact .finite _ _ _
      | finite => exact unsigned_normalize (_ + _) _
      | infinity => exact .infinity
  | infinity => cases secondUnsigned <;> exact .infinity

theorem Positive.mul (firstPositive : Positive first) (secondUnsigned : Unsigned second) :
    Unsigned (UnpackedFloat.mul spec first second) := by
  cases firstPositive
  cases secondUnsigned with
  | zero => exact .zero _
  | finite => exact unsigned_roundWithAccuracy _ _ _
  | infinity => exact .infinity

theorem Unsigned.mul (firstUnsigned : Unsigned first) (secondPositive : Positive second) :
    Unsigned (UnpackedFloat.mul spec first second) := by
  cases secondPositive
  cases firstUnsigned with
  | zero => exact .zero _
  | finite => exact unsigned_roundWithAccuracy _ _ _
  | infinity => exact .infinity

theorem unsigned_ofScientific (mantissa : Nat) (exponent : Int) :
    Unsigned (UnpackedFloat.ofScientific spec mantissa exponent) := by
  unfold UnpackedFloat.ofScientific
  split
  · exact .zero _
  · split
    · exact .infinity
    · split
      · exact .zero _
      · split
        · exact Positive.mul (.finite _ _ _) (.finite _ _ _)
        · exact unsigned_roundWithAccuracy _ _ _

end Arithmetic

/-! ## Packing -/

theorem unpackSign_packComponents {spec : Format} {sign : Sign}
    {exponent : BitVec spec.exponentBits} {mantissa : BitVec spec.mantissaBitsWithoutImplicit} :
    unpackSign (packComponents spec sign exponent mantissa) = sign.toBitVec := by
  ext position inside
  obtain rfl : position = 0 := Nat.lt_one_iff.mp inside
  simp [unpackSign, packComponents, BitVec.getLsbD_append, ← BitVec.getLsbD_eq_getElem]

/-- A word without a sign holds an amount, unless it holds what is not a number. -/
theorem unsigned_unpack_packComponents {exponent : BitVec 11} {mantissa : BitVec 52}
    (defined : exponent = -1#11 → mantissa = 0#52) :
    Unsigned (unpack Format.binary64
      (packComponents Format.binary64 .positive exponent mantissa)) := by
  have sign : Sign.ofBitVec Sign.positive.toBitVec = .positive := rfl
  simp only [unpack, unpackMantissa_packComponents, unpackExponent_packComponents,
    unpackSign_packComponents, sign]
  split
  next full =>
    rw [if_pos (defined full)]
    exact .infinity
  · split
    · split
      · exact .zero _
      · exact .finite _ _ _
    · exact .finite _ _ _

/-- An amount is one again after it was packed. -/
theorem Unsigned.unpack_pack {value : UnpackedFloat} (unsigned : Unsigned value) :
    Unsigned (Float.Model.pack value).unpack := by
  change Unsigned (unpack Format.binary64 (pack Format.binary64 value))
  cases unsigned with
  | zero sign => cases sign <;> exact .zero _
  | infinity => exact unsigned_unpack_packComponents fun _ => rfl
  | finite mantissa exponent present =>
      simp only [pack]
      split
      · exact unsigned_unpack_packComponents fun _ => rfl
      next inRange =>
        split
        · apply unsigned_unpack_packComponents
          intro full
          have biased : _ % 2 ^ 11 = 2047 := congrArg BitVec.toNat full
          omega
        · apply unsigned_unpack_packComponents
          intro full
          exact absurd full (by decide)

/-! ## Amounts -/

/-- A double that is neither negative nor undefined. -/
def Amount (value : Float) : Prop :=
  Unsigned value.toModel.unpack

section Amounts

variable {first second : Float}

theorem Amount.add (firstAmount : Amount first) (secondAmount : Amount second) :
    Amount (first + second) :=
  (Unsigned.add firstAmount secondAmount).unpack_pack

/-- A multiple of a positive number. -/
theorem amount_mul (positive : Positive first.toModel.unpack) (amount : Amount second) :
    Amount (first * second) :=
  (positive.mul amount).unpack_pack

/-- The double of a count. -/
theorem amount_natCast (count : Nat) : Amount (count : Float) := by
  change Amount (Float.ofScientific count false 0)
  unfold Float.ofScientific
  split
  · have one : (Float.ofBits 4607182418800017408).toModel.unpack =
        .finite .positive (2 ^ 52) (-52) (by decide) := by rfl
    have positive : Positive (Float.ofBits 4607182418800017408).toModel.unpack := by
      rw [one]
      exact .finite _ _ _
    exact (Unsigned.mul (unsigned_normalize _ _).unpack_pack positive).unpack_pack
  · exact (unsigned_ofScientific _ _).unpack_pack

end Amounts

/-! ## The order of amounts -/

/-- Where an unpacked amount stands: zeros come first and infinity last, numbers are in the order of
their exponents and, for one exponent, of their mantissas. -/
def place : UnpackedFloat → Lex (Nat × Lex (Int × Nat))
  | .zero _ | .notANumber => toLex (0, toLex (0, 0))
  | .finite _ mantissa exponent _ => toLex (1, toLex (exponent, mantissa))
  | .infinity _ => toLex (2, toLex (0, 0))

theorem compare_toLex {α β : Type} [LinearOrder α] [LinearOrder β] (first second : α × β) :
    compare (toLex first) (toLex second) =
      (compare first.1 second.1).then (compare first.2 second.2) := by
  simp [Prod.Lex.compare_def, compareLex, compareOn]

/-- The comparison of unpacked amounts follows their places. -/
theorem Unsigned.compare_eq {first second : UnpackedFloat} (firstUnsigned : Unsigned first)
    (secondUnsigned : Unsigned second) :
    first.compare second = some (compare (place first) (place second)) := by
  cases firstUnsigned <;> cases secondUnsigned <;> simp only [place, compare_toLex] <;> rfl

variable {first second : Float}

theorem lt_iff_compare : first < second ↔
    first.toModel.unpack.compare second.toModel.unpack = some .lt := by
  change decide (first.toModel < second.toModel) = true ↔ _
  rw [decide_eq_true_iff]
  exact beq_iff_eq

theorem beq_iff_compare : (first == second) = true ↔
    first.toModel.unpack.compare second.toModel.unpack = some .eq := by
  change (first.toModel.unpack.compare second.toModel.unpack == some .eq) = true ↔ _
  exact beq_iff_eq

/-- Amounts are smaller where their places are. -/
theorem Amount.lt_iff (firstAmount : Amount first) (secondAmount : Amount second) :
    first < second ↔ place first.toModel.unpack < place second.toModel.unpack := by
  rw [lt_iff_compare, Unsigned.compare_eq firstAmount secondAmount, Option.some_inj,
    compare_lt_iff_lt]

/-- Amounts are equal where their places are; the two zeros are. -/
theorem Amount.beq_iff (firstAmount : Amount first) (secondAmount : Amount second) :
    (first == second) = true ↔ place first.toModel.unpack = place second.toModel.unpack := by
  rw [beq_iff_compare, Unsigned.compare_eq firstAmount secondAmount, Option.some_inj,
    compare_eq_iff_eq]

end Typeahead.Decimal

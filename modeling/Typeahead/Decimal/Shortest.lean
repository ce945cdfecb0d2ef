import Typeahead.Decimal.Binary

/-!
# The shortest decimal that reads back

Each finite double is the nearest double to every real number of an interval around it. Of the
decimals in that interval the shortest is a multiple of the greatest power of ten that has a
multiple there, and of those multiples the one nearest to the double is taken. If a power of ten
has a multiple in the interval, then one of the two multiples next to the double lies there, so
it is enough to try these two.

All quantities are natural numbers: value and interval are brought to one unit, a power of ten.
-/

namespace Typeahead

/-- A natural number times a power of ten. -/
structure Decimal where
  digits : Nat
  exponent : Int
  deriving DecidableEq

namespace Decimal

/-- A value with the interval around it, all in one unit. -/
structure Interval where
  low : Nat
  value : Nat
  high : Nat
  /-- The ends belong to the interval. -/
  closed : Bool

namespace Interval

/-- A number lies in the interval. -/
def holds (interval : Interval) (n : Nat) : Bool :=
  if interval.closed then interval.low ≤ n && n ≤ interval.high
  else interval.low < n && n < interval.high

/-- The multiple of `10 ^ power` in the interval that is nearest to the value, as a factor of
that power; of two at one distance the even one. -/
def nearestMultiple? (interval : Interval) (power : Nat) : Option Nat :=
  let unit := Nat.pow 10 power
  let below := interval.value / unit
  let above := below + 1
  match interval.holds (below * unit), interval.holds (above * unit) with
  | false, false => none
  | true, false => some below
  | false, true => some above
  | true, true =>
      let lower := interval.value - below * unit
      let upper := above * unit - interval.value
      some (if lower < upper || lower = upper && below % 2 = 0 then below else above)

/-- The multiple for the greatest power up to a bound, with that power. -/
def shortest (interval : Interval) : Nat → Nat × Nat
  | 0 => (interval.value, 0)
  | power + 1 =>
      match interval.nearestMultiple? (power + 1) with
      | some factor => (factor, power + 1)
      | none => interval.shortest power

end Interval

/-- The interval of a double in the unit `10 ^ -scale`. Its ends lie half way to the neighbours:
two quarters of the last place away, or one quarter below a power of two. -/
def roundingInterval (mantissa : Nat) (exponent : Int) : Interval × Nat :=
  let quarter := exponent - 2
  let scale := (-quarter).toNat
  let unit := if 0 ≤ quarter then Nat.pow 2 quarter.toNat else Nat.pow 5 scale
  let narrow := mantissa = Nat.pow 2 52 ∧ -1074 < exponent
  ({ low := (4 * mantissa - if narrow then 1 else 2) * unit
     value := 4 * mantissa * unit
     high := (4 * mantissa + 2) * unit
     closed := mantissa % 2 = 0 }, scale)

/-- The shortest decimal that reads back as a positive double. -/
def shortest (mantissa : Nat) (exponent : Int) : Decimal :=
  let (interval, scale) := roundingInterval mantissa exponent
  let (factor, power) := interval.shortest (Nat.toDigits 10 interval.value).length
  { digits := factor, exponent := power - scale }

end Decimal

end Typeahead

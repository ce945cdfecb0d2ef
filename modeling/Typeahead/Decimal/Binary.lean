/-!
# The exact value of a double

A double is not a number, infinite, or a natural number times a power of two with a sign. The
exact value is read off the bits, so that doubles can be compared with integers and printed
without rounding.
-/

namespace Typeahead.Decimal

/-- What a double denotes. -/
inductive Binary where
  | nan
  | infinite (negative : Bool)
  /-- `mantissa * 2 ^ exponent`, with a sign that zero has as well. -/
  | finite (negative : Bool) (mantissa : Nat) (exponent : Int)
  deriving DecidableEq

/-- Read a double off its bits: a sign, eleven bits of exponent, fifty-two bits of fraction. -/
def Binary.ofFloat (value : Float) : Binary :=
  let bits : Nat := value.toBits.toNat
  let negative := bits / Nat.pow 2 63 == 1
  let exponent : Nat := bits / Nat.pow 2 52 % Nat.pow 2 11
  let fraction : Nat := bits % Nat.pow 2 52
  if exponent = 2047 then
    if fraction = 0 then .infinite negative else .nan
  else if exponent = 0 then
    .finite negative fraction (-1074)
  else
    .finite negative (Nat.pow 2 52 + fraction) ((exponent : Int) - 1075)

/-- The integer that a double denotes exactly, if it denotes one. -/
def Binary.integer? : Binary → Option Int
  | .nan | .infinite _ => none
  | .finite negative mantissa exponent =>
      let magnitude? : Option Nat :=
        if 0 ≤ exponent then
          some (mantissa * Nat.pow 2 exponent.toNat)
        else if mantissa % Nat.pow 2 (-exponent).toNat = 0 then
          some (mantissa / Nat.pow 2 (-exponent).toNat)
        else
          none
      magnitude?.map fun magnitude => if negative then -(magnitude : Int) else magnitude

/-- Move the factors of two of a mantissa into its exponent; `fuel` bounds their number. -/
def Binary.reduce : Nat → Nat → Int → Nat × Int
  | 0, mantissa, exponent => (mantissa, exponent)
  | fuel + 1, mantissa, exponent =>
      if mantissa % 2 = 0 then reduce fuel (mantissa / 2) (exponent + 1)
      else (mantissa, exponent)

/-- One form for each value: the mantissa is odd, and zero is `0 * 2 ^ 0` without a sign. -/
def Binary.normal : Binary → Binary
  | .nan => .nan
  | .infinite negative => .infinite negative
  | .finite negative mantissa exponent =>
      if mantissa = 0 then
        .finite false 0 0
      else
        let reduced := reduce mantissa.log2 mantissa exponent
        .finite negative reduced.1 reduced.2

/-- The value of an integer. -/
def Binary.ofInt (n : Int) : Binary :=
  .finite (n < 0) n.natAbs 0

end Typeahead.Decimal

import Typeahead.Decimal.Digit
import Typeahead.Decimal.Shortest

/-!
# Number texts

How a double is written: the shortest digits that read back, positional where the first digit
stands between ten thousandths and the sixteenth place, and with an exponent of at least two
digits beyond. A positional text always has a point.
-/

namespace Typeahead.Decimal

/-- The exponents that are written positionally. -/
def isPositional (exponent : Int) : Bool :=
  -4 ≤ exponent && exponent < 16

/-- Digits with the point after the first `whole` places. -/
def positional (digits : Text) (whole : Int) : Text :=
  if whole ≤ 0 then
    ['0', '.'] ++ List.replicate (-whole).toNat '0' ++ digits
  else if (digits.length : Int) ≤ whole then
    digits ++ List.replicate (whole - digits.length).toNat '0' ++ ['.', '0']
  else
    digits.take whole.toNat ++ ['.'] ++ digits.drop whole.toNat

/-- Digits with the point after the first one, and the exponent of that digit. -/
def scientific (digits : Text) (exponent : Int) : Text :=
  let fraction := if digits.length ≤ 1 then [] else '.' :: digits.drop 1
  let size := natDigits exponent.natAbs
  digits.take 1 ++ fraction ++ ['e', if exponent < 0 then '-' else '+'] ++
    List.replicate (2 - size.length) '0' ++ size

/-- The text of a positive decimal. -/
def text (decimal : Decimal) : Text :=
  let digits := natDigits decimal.digits
  let exponent := decimal.exponent + digits.length - 1
  if isPositional exponent then positional digits (exponent + 1)
  else scientific digits exponent

/-- The text of a double. -/
def doubleText (value : Float) : Text :=
  match Binary.ofFloat value with
  | .nan => "nan"
  | .infinite negative => if negative then "-inf" else "inf"
  | .finite negative mantissa exponent =>
      let magnitude : Text :=
        if mantissa = 0 then "0.0" else (shortest mantissa exponent).text
      if negative then '-' :: magnitude else magnitude

end Typeahead.Decimal

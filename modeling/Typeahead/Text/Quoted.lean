import Typeahead.Text.Printable

/-!
# Quoted forms of texts

Messages show a text between quotes so that its ends and its invisible characters can be seen.
Apostrophes enclose it, unless it holds an apostrophe and no quotation mark. Inside, the
backslash and the enclosing quote are preceded by a backslash, and what is not printable is
written as an escape.
-/

namespace Typeahead

/-- The last `width` hexadecimal digits of a number. -/
def hexDigits : Nat → Nat → Text
  | 0, _ => []
  | width + 1, n => hexDigits width (n / 16) ++ [Nat.digitChar (n % 16)]

namespace Text

/-- The quote that encloses a text. -/
def enclosingQuote (text : Text) : Char :=
  if text.contains '\'' && !text.contains '"' then '"' else '\''

/-- One character inside a quoted form. -/
def quotedCharacter (quote c : Char) : Text :=
  if c = quote || c = '\\' then ['\\', c]
  else if c = '\n' then ['\\', 'n']
  else if c = '\r' then ['\\', 'r']
  else if c = '\t' then ['\\', 't']
  else if isPrintable c then [c]
  else if c.toNat ≤ 0xFF then ['\\', 'x'] ++ hexDigits 2 c.toNat
  else if c.toNat ≤ 0xFFFF then ['\\', 'u'] ++ hexDigits 4 c.toNat
  else ['\\', 'U'] ++ hexDigits 8 c.toNat

/-- The quoted form of a text. -/
def quoted (text : Text) : Text :=
  let quote := enclosingQuote text
  [quote] ++ text.flatMap (quotedCharacter quote) ++ [quote]

end Text

end Typeahead

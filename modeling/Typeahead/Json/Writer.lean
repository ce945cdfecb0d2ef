import Typeahead.Json.Basic
import Typeahead.Text.Quoted
import Typeahead.Decimal.Layout

/-!
# Writing JSON

Two written forms of a value. `render` is JSON in ASCII characters without space between the
tokens. `display` is the form in which a value that is no text becomes one where a text is
wanted, as in a list of connections.
-/

namespace Typeahead.Json

/-! ## JSON text -/

/-- The escape for a unit of sixteen bits. -/
def unitEscape (unit : Nat) : Text :=
  '\\' :: 'u' :: hexDigits 4 unit

/-- A character between quotes. -/
def renderCharacter (c : Char) : Text :=
  if c = '"' || c = '\\' then ['\\', c]
  else if 0x20 ≤ c.toNat && c.toNat < 0x7F then [c]
  else if c.toNat < 0x10000 then unitEscape c.toNat
  else
    let code := c.toNat - 0x10000
    unitEscape (0xD800 + code / 0x400) ++ unitEscape (0xDC00 + code % 0x400)

/-- Write a text in front of what follows. -/
def renderText (value rest : Text) : Text :=
  '"' :: value.foldr (fun c rest => renderCharacter c ++ rest) ('"' :: rest)

/-- The number text of a double; the doubles that are not finite are words. -/
def renderDouble (value : Float) : Text :=
  match Decimal.Binary.ofFloat value with
  | .nan => "NaN"
  | .infinite negative => if negative then "-Infinity" else "Infinity"
  | .finite .. => Decimal.doubleText value

mutual

/-- Write a value in front of what follows. -/
def renderBefore (rest : Text) : Json → Text
  | .null => "null".toList ++ rest
  | .bool value => (if value then "true" else "false").toList ++ rest
  | .integer value => Decimal.integerText value ++ rest
  | .double value => renderDouble value ++ rest
  | .text value => renderText value rest
  | .array elements => '[' :: renderElements (']' :: rest) elements
  | .object members => '{' :: renderMembers ('}' :: rest) members

/-- Write elements with commas between them. -/
def renderElements (rest : Text) : List Json → Text
  | [] => rest
  | [element] => renderBefore rest element
  | element :: others => renderBefore (',' :: renderElements rest others) element

/-- Write members with commas between them. -/
def renderMembers (rest : Text) : List (Text × Json) → Text
  | [] => rest
  | [(key, value)] => renderText key (':' :: renderBefore rest value)
  | (key, value) :: others =>
      renderText key (':' :: renderBefore (',' :: renderMembers rest others) value)

end

/-- The JSON text of a value. -/
def render (value : Json) : Text :=
  renderBefore [] value

/-! ## Display text -/

mutual

/-- The display text of a value that stands inside another. -/
def displayInside : Json → Text
  | .null => "None"
  | .bool value => if value then "True" else "False"
  | .integer value => Decimal.integerText value
  | .double value => Decimal.doubleText value
  | .text value => value.quoted
  | .array elements => ['['] ++ displayElements elements ++ [']']
  | .object members => ['{'] ++ displayMembers members ++ ['}']

/-- The display texts of elements, with commas between them. -/
def displayElements : List Json → Text
  | [] => []
  | [element] => displayInside element
  | element :: others => displayInside element ++ [',', ' '] ++ displayElements others

/-- The display texts of members, with commas between them. -/
def displayMembers : List (Text × Json) → Text
  | [] => []
  | [(key, value)] => key.quoted ++ [':', ' '] ++ displayInside value
  | (key, value) :: others =>
      key.quoted ++ [':', ' '] ++ displayInside value ++ [',', ' '] ++ displayMembers others

end

/-- The display text of a value; a text is its own. -/
def display : Json → Text
  | .text value => value
  | value => displayInside value

end Typeahead.Json

import Typeahead.Text.Basic

/-!
# Escapes inside quoted names and values

A name or value that a selector text holds between quotes carries a backslash before each
backslash and before each quote of either kind. The escaped text can then stand between quotes
of either kind.
-/

namespace Typeahead

/-- The characters that carry a backslash between quotes. -/
def needsBackslash (c : Char) : Bool :=
  c == '\\' || isQuote c

namespace Text

/-- The spelling of a text between quotes. -/
def escape : Text → Text
  | [] => []
  | c :: rest => if needsBackslash c then '\\' :: c :: escape rest else c :: escape rest

end Text

end Typeahead

import Typeahead.Document.Value
import Typeahead.Json.Basic

/-!
# Fields of requests

How the members of a request are read. A text has to be a text. A number may also be given as a
text or a truth value, and an integer as a double that denotes an integer of less than sixty-four
bits.
-/

namespace Typeahead.Json

open Document (Number)

/-- A field that is a text. -/
def textField? : Json → Option Text
  | .text value => some value
  | _ => none

/-- The integer that a double stands for: one with a sign and at most sixty-three bits. -/
def integerOfDouble? (value : Float) : Option Int :=
  (Decimal.Binary.ofFloat value).integer?.filter fun whole => whole.natAbs < Nat.pow 2 63

/-- A field that is an integer. -/
def integerField? : Json → Option Int
  | .integer value => some value
  | .double value => integerOfDouble? value
  | .bool value => some (if value then 1 else 0)
  | .text value => Decimal.fieldInteger? value
  | _ => none

/-- A field that is a double. -/
def doubleField? : Json → Option Float
  | .integer value => (Number.integer value).toDouble?
  | .double value => some value
  | .bool value => some (if value then 1 else 0)
  | .text value => Decimal.fieldDouble? value
  | _ => none

/-- A field that is an object of texts. -/
def textsField? : Json → Option (Entries Text)
  | .object members =>
      members.mapM fun (member : Text × Json) =>
        (textField? member.2).map fun value => (member.1, value)
  | _ => none

/-- A member that may be missing; a missing one has a default. -/
def fieldOr {α : Type} (read : Json → Option α) (fallback : α) (key : Text) (document : Json) :
    Option α :=
  match document.get? key with
  | none => some fallback
  | some value => read value

/-- A member that has to be there. -/
def field? {α : Type} (read : Json → Option α) (key : Text) (document : Json) : Option α :=
  (document.get? key).bind read

end Typeahead.Json

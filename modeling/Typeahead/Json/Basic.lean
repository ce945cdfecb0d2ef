import Typeahead.Entries

/-!
# JSON values

The values that requests, responses and the list of connections are written in. Integers keep
their exact value and are told apart from doubles. The members of an object keep their order.
-/

namespace Typeahead

/-- A JSON value. -/
inductive Json where
  | null
  | bool (value : Bool)
  | integer (value : Int)
  | double (value : Float)
  | text (value : Text)
  | array (elements : List Json)
  | object (members : List (Text × Json))
  deriving Inhabited

namespace Json

/-- The member of an object. -/
def get? (key : Text) : Json → Option Json
  | .object members => Entries.find? members key
  | _ => none

end Json

end Typeahead

import Typeahead.Decimal.Layout
import Typeahead.Decimal.Literal

/-!
# Values of documents

The values that a document database holds. Numbers are compared by their exact value, whatever
their type: an integer equals a double only if the double denotes it exactly, and what is not a
number equals nothing. A text that is code never equals a plain text.

The fields of an object have textual names; a mapping in general may also name a field by an
integer.
-/

namespace Typeahead.Document

/-- An integer or a double. -/
inductive Number where
  | integer (value : Int)
  | double (value : Float)

namespace Number

/-- The exact value of a number. -/
def exact : Number → Decimal.Binary
  | integer value => (Decimal.Binary.ofInt value).normal
  | double value => (Decimal.Binary.ofFloat value).normal

/-- Two numbers have one exact value. -/
def same (first second : Number) : Bool :=
  first.exact ≠ .nan && first.exact = second.exact

/-- The nearest double, if there is one in the range of doubles. -/
def toDouble? : Number → Option Float
  | double value => some value
  | integer value =>
      let nearest := Float.ofInt value
      if nearest.isInf then none else some nearest

/-- A number is zero. -/
def isZero (number : Number) : Bool :=
  number.exact = .finite false 0 0

/-- The text of a number: of one that is an integer its digits. -/
def text : Number → Text
  | integer value => Decimal.integerText value
  | double value =>
      match (Decimal.Binary.ofFloat value).integer? with
      | some whole => Decimal.integerText whole
      | none => Decimal.doubleText value

end Number

/-- A text in a document, which may be code. -/
structure Words where
  text : Text
  isCode : Bool := false
  deriving DecidableEq

/-- The name of a field in a mapping. -/
inductive Name where
  | text (value : Text)
  | integer (value : Int)
  deriving DecidableEq

/-- The text under which a field is known. -/
def Name.spelled : Name → Text
  | text value => value
  | integer value => Decimal.integerText value

/-- A value in a document. -/
inductive Value where
  | null
  | bool (value : Bool)
  | number (value : Number)
  | long (value : Int)
  | text (value : Words)
  | date (instant : Text)
  | regex (pattern : Text)
  | objectId (digits : Text)
  /-- Bytes, by their hexadecimal digits. -/
  | binary (digits : Text)
  | timestamp (seconds increment : Int)
  | minKey
  | maxKey
  /-- A value of a type that is not looked at. -/
  | other (literal : Text)
  | array (elements : List Value)
  | object (fields : List (Name × Value))
  deriving Inhabited

/-- A value that counts as set: neither null, false nor zero, and not empty. -/
def Value.isSet : Value → Bool
  | null => false
  | bool value => value
  | number value => !value.isZero
  | long value => value != 0
  | text value => !value.text.isEmpty
  | binary digits => !digits.isEmpty
  | array elements => !elements.isEmpty
  | object fields => !fields.isEmpty
  | date _ | regex _ | objectId _ | timestamp .. | minKey | maxKey | other _ => true

end Typeahead.Document

import Typeahead.Document.Value

/-!
# Kinds of values and flags of a field

The flags of a field say which kinds of values a sample of documents showed there. For numbers
and texts they also list the values, as long as these are few.
-/

namespace Typeahead.Schema

/-- The kinds of values that are told apart. -/
inductive Kind where
  | double
  | string
  | object
  | array
  | binData
  | objectId
  | bool
  | date
  | null
  | regex
  | timestamp
  | long
  | minKey
  | maxKey
  deriving DecidableEq, Repr

namespace Kind

/-- All kinds, in the order in which completions name them. -/
def all : List Kind :=
  [double, string, object, array, binData, objectId, bool, date, null, regex, timestamp, long,
    minKey, maxKey]

/-- The name of a kind. -/
def name : Kind → Text
  | double => "double"
  | string => "string"
  | object => "object"
  | array => "array"
  | binData => "binData"
  | objectId => "objectId"
  | bool => "bool"
  | date => "date"
  | null => "null"
  | regex => "regex"
  | timestamp => "timestamp"
  | long => "long"
  | minKey => "minKey"
  | maxKey => "maxKey"

/-- The kind with a name. -/
def ofName? (name : Text) : Option Kind :=
  all.find? (·.name == name)

/-- The values of the kind may be listed. -/
def isListed : Kind → Bool
  | double | string => true
  | _ => false

/-- The kind of a value; none for a value of a type that is not looked at. -/
def ofValue? : Document.Value → Option Kind
  | .null => some null
  | .bool _ => some bool
  | .number _ => some double
  | .long _ => some long
  | .text _ => some string
  | .date _ => some date
  | .regex _ => some regex
  | .objectId _ => some objectId
  | .binary _ => some binData
  | .timestamp .. => some timestamp
  | .minKey => some minKey
  | .maxKey => some maxKey
  | .other _ => none
  | .array _ => some array
  | .object _ => some object

end Kind

/-- What is known of the values of one kind. -/
inductive Listing (α : Type) where
  /-- There is none. -/
  | absent
  /-- These are all. -/
  | listed (values : List α)
  /-- There are some, which are not listed. -/
  | unlisted
  deriving DecidableEq

namespace Listing

variable {α : Type}

/-- There is a value. -/
def isPresent : Listing α → Bool
  | absent => false
  | listed _ | unlisted => true

/-- The listed values. -/
def values? : Listing α → Option (List α)
  | listed values => some values
  | absent | unlisted => none

/-- Note a value, unless one that is the same is listed. Beyond `limit` values none is listed. -/
def add (limit : Nat) (same : α → α → Bool) (value : α) : Listing α → Listing α
  | absent => listed [value]
  | unlisted => unlisted
  | listed values =>
      if values.any (same value) then listed values
      else if limit ≤ values.length then unlisted
      else listed (values ++ [value])

end Listing

/-- The flags of a field, with numbers of a type `ν` and texts of a type `τ`. -/
structure Flags (ν τ : Type) where
  numbers : Listing ν := .absent
  texts : Listing τ := .absent
  /-- Which of the kinds there are whose values are never listed. -/
  others : Kind → Bool := fun _ => false

namespace Flags

variable {ν τ : Type}

/-- There is a value of a kind. -/
def has (flags : Flags ν τ) : Kind → Bool
  | .double => flags.numbers.isPresent
  | .string => flags.texts.isPresent
  | kind => flags.others kind

/-- A document may lack the field. -/
def nullable (flags : Flags ν τ) : Bool :=
  flags.has .null

/-- Note that there is a value of a kind, without listing it. -/
def mark (flags : Flags ν τ) : Kind → Flags ν τ
  | .double => { flags with numbers := .unlisted }
  | .string => { flags with texts := .unlisted }
  | kind => { flags with others := fun other => other = kind || flags.others other }

theorem has_mark (flags : Flags ν τ) (kind other : Kind) :
    (flags.mark kind).has other = (decide (other = kind) || flags.has other) := by
  cases kind <;> cases other <;> rfl

end Flags

end Typeahead.Schema

import Typeahead.Acceptance.Name

/-!
# Inserting into objects and arrays

A new element goes behind the last one, before the closer of its container. It is set off by a
comma, unless there is one already.
-/

namespace Typeahead.Acceptance

open Selector (Node Key Delimiter)

/-- The values in a container. -/
def elementsOf : Node → List Node
  | .span .. => []
  | .object _ _ _ properties => properties.map Prod.snd
  | .array _ _ _ values => values

/-- Where a new element is put, and whether a comma has to set it off. -/
structure Place where
  position : Nat
  needsComma : Bool
  deriving DecidableEq, Repr

/-- The place behind the last element of a container, before its closer. -/
def placeIn (base : Text) (container : Node) (delimiter : Delimiter) : Place :=
  let stop := container.stop
  let (after, needsComma) :=
    match (elementsOf container).getLast? with
    | none =>
        (container.start + ((container.raw.indexOf? delimiter.opener).getD 0) + 1, false)
    | some last => (min last.stop stop, last.raw.trimRight.getLast? ≠ some ',')
  let tail : Text := (base.take stop).drop after
  { position := after + (tail.indexOf? delimiter.closer).getD tail.trimRight.length
    needsComma }

/-- What sets a new element off from what stands before it. -/
def separator (base : Text) (place : Place) : Text :=
  if place.needsComma then [',', ' ']
  else if (base.take place.position).getLast? = some ',' then [' ']
  else []

/-- Insert an element into a container. -/
def insertElement (base : Text) (container : Node) (delimiter : Delimiter)
    (element : Expansion) : Edit :=
  let place := placeIn base container delimiter
  let set := separator base place
  { start := place.position
    removed := 0
    inserted := set ++ element.text
    caret := place.position + set.length + element.offset }

/-- The quote of the first quoted key, as a model for a further key. -/
def quoteStyle (properties : List (Option Key × Node)) : Char :=
  let quotes := properties.filterMap fun property =>
    property.1.bind fun key => key.raw.trim.head?.filter isQuote
  quotes.head?.getD '\''

/-- The spelling of the key of a new property. -/
def newKey (properties : List (Option Key × Node)) (name : Text) : Expansion :=
  if isBareName name then
    { text := name ++ [':', ' '], offset := name.length }
  else
    let quote := quoteStyle properties
    let spelled := name.escape
    { text := quote :: spelled ++ [quote, ':', ' '], offset := spelled.length + 1 }

end Typeahead.Acceptance

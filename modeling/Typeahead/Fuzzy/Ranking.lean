import Typeahead.Fuzzy.Alignment

/-!
# Ranking texts against a query

The distance of a text from a query is the price of their cheapest alignment, its quality tells
how small the distance is for their length, and its highlight shows the characters that the
alignment keeps.

Case does not count. A query that gets longer in lower case has no alignment.
-/

namespace Typeahead.Fuzzy

/-- Why a query cannot be aligned. -/
inductive QueryError where
  /-- The lower case of the query has more characters than the query. -/
  | growsInLowerCase
  deriving DecidableEq, Repr

/-- What is told about a query that cannot be aligned. -/
def QueryError.message : QueryError → Text
  | growsInLowerCase => "list index out of range"

/-- The lower case of a query. -/
def comparedQuery (query : Text) : Except QueryError Text :=
  let lowered := query.lower
  if query.length < lowered.length then .error .growsInLowerCase else .ok lowered

section

variable {κ : Type} [Add κ] [Mul κ] [NatCast κ] [LE κ] [DecidableLE κ] [BEq κ] [Inhabited κ]

/-- The price of turning a query into a text. -/
def distance (prices : Prices κ) (text query : Text) : Except QueryError κ := do
  let query ← comparedQuery query
  return (lastCell (columns prices query text)).cost

/-- A text in stretches, every second one of which is kept by the alignment with a query that is
in lower case. -/
def highlightLowered (prices : Prices κ) (text query : Text) : List Text :=
  let kept := (lastCell (columns prices query text)).kept
  stretches kept.contains 0 false text

/-- A text in stretches, every second one of which is kept by the alignment with a query. -/
def highlight (prices : Prices κ) (text query : Text) : Except QueryError (List Text) := do
  let query ← comparedQuery query
  return highlightLowered prices text query

/-! ## Many texts -/

/-- The number of characters at the start that two texts share. -/
def sharedLength : Text → Text → Nat
  | first :: others, second :: rest =>
      if first = second then sharedLength others rest + 1 else 0
  | _, _ => 0

/-- The distances of texts from a query in lower case. The columns of the characters that a text
shares with the one before it are not reckoned again. -/
def distances (prices : Prices κ) (query : Text) :
    Text → List (Column κ) → List Text → List (κ × Text)
  | _, _, [] => []
  | previous, known, text :: others =>
      let shared := sharedLength previous text
      let reused := known.dropWhile fun column => shared < column.width
      let filled := extend prices query reused ((comparedText text).drop shared)
      ((lastCell filled).cost, text) :: distances prices query text filled others

variable [Sub κ] [Div κ] [LT κ] [DecidableLT κ]

/-- One minus the distance for each character of the longer one of query and text. -/
def quality (distance : κ) (query text : Text) : κ :=
  let longer := max query.length text.length
  if longer = 0 then ((1 : Nat) : κ) else ((1 : Nat) : κ) - distance / (longer : κ)

/-- A text that was found. -/
structure Match (κ : Type) where
  text : Text
  distance : κ
  quality : κ
  highlight : List Text

/-- Nearer texts come first, and texts at one distance in the order of their code points. -/
def ranksBefore (first second : κ × Text) : Bool :=
  first.1 < second.1 || (first.1 == second.1 && first.2.notAfter second.2)

/-- The start of a list; a negative count tells how many are left out at the end. -/
def takeFirst {α : Type} (count : Int) (elements : List α) : List α :=
  if count < 0 then elements.take (elements.length - count.natAbs) else elements.take count.toNat

/-- The texts of at least a quality, the nearest first, and no more than a count of them. -/
def search (prices : Prices κ) (texts : List Text) (query : Text) (count : Int)
    (leastQuality : κ) : Except QueryError (List (Match κ)) :=
  if texts.isEmpty then
    .ok []
  else do
    let lowered ← comparedQuery query
    let ordered := texts.mergeSort Text.notAfter
    let measured := distances prices lowered [] [Column.first prices lowered] ordered
    let good := measured.filter fun found =>
      decide (leastQuality ≤ quality found.1 query found.2)
    return (takeFirst count (good.mergeSort ranksBefore)).map fun found =>
      { text := found.2
        distance := found.1
        quality := quality found.1 query found.2
        highlight := highlightLowered prices found.2 lowered }

end

end Typeahead.Fuzzy

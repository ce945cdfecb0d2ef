import Typeahead.Entries

/-!
# Counting the windows of terms

The grams of a term are its windows of a fixed width, from left to right. No window crosses from
one term to the next.
-/

namespace Typeahead.Trigram

/-- The stretch between two positions; a negative end counts from the end of the text. -/
def stretch (text : Text) (low : Nat) (high : Int) : Text :=
  let stop := if high < 0 then (high + text.length).toNat else high.toNat
  (text.take stop).drop low

/-- The windows of a term of a width. -/
def windows (width : Int) (term : Text) : List Text :=
  (List.range ((term.length : Int) - width + 1).toNat).map fun low =>
    stretch term low (low + width)

/-- The windows of terms with the number of times that each occurs, in the order in which they
first occur. -/
def count (width : Int) (terms : List Text) : Entries Nat :=
  (terms.flatMap (windows width)).foldl
    (fun counts window => counts.upsert window 1 (· + 1)) []

/-- The width of the windows by which names are searched. -/
def standardWidth : Int := 3

end Typeahead.Trigram

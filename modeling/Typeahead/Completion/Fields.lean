import Typeahead.Schema.Basic
import Typeahead.Selector.Focus
import Typeahead.Text.Lowercase
import Typeahead.Trigram.Index

/-!
# Completing the name of a field

Offered are the paths of the schema below the enclosing field and below the names that are typed
already, as far as their last point. Where nothing encloses the name and no point is typed, the
logical operators are offered as well. Names that the object has already are left out.

A short last part finds the paths with a name that begins with it, a longer one those that share
enough windows of three characters with it. Paths with fewer names come first.
-/

namespace Typeahead.Completion

open Selector (logicalOperators)
open Trigram (Index)

/-- The number of completions that are offered. -/
def offerLimit : Nat := 5

/-- The length up to which a typed part has to begin a name. -/
def shortLength : Nat := 3

/-- A text that may be offered, with the names by which it is found. -/
structure Candidate where
  text : Text
  terms : List Text
  deriving DecidableEq, Repr

/-- The candidate for a path: its names in lower case. -/
def Candidate.ofPath (path : Text) : Candidate :=
  { text := path, terms := path.lower.pieces '.' }

/-- A path that fields below it begin with; nothing for the document itself. -/
def enclosing (path : Text) : Text :=
  if path.isEmpty then [] else path ++ ['.']

/-- The candidates for the part of a name behind its last point. -/
def fieldCandidates (typed : Text) (schema : Schema) (path : Text) (others : List Text) :
    List Candidate :=
  let outer := enclosing path
  let known := outer ++ typed.throughLast '.'
  let operators := if known.isEmpty then logicalOperators.filter (!others.contains ·) else []
  let paths := schema.paths.filter fun field =>
    known.isPrefixOf field && field ≠ known && !others.contains (field.drop outer.length)
  (operators ++ paths.map (·.drop known.length)).map Candidate.ofPath

/-- A candidate has a name that begins with a part. -/
def Candidate.begins (candidate : Candidate) (part : Text) : Bool :=
  candidate.terms.any part.isPrefixOf

/-- Candidates with fewer names first, and those of as many in the order of their texts. -/
def shorterFirst (first second : Candidate) : Bool :=
  first.terms.length < second.terms.length ||
    (first.terms.length = second.terms.length && first.text.notAfter second.text)

section

variable {κ : Type} [Add κ] [Mul κ] [Div κ] [NatCast κ] [LE κ] [DecidableLE κ] [LT κ]
  [DecidableLT κ]

/-- Candidates with fewer names first, and those of as many with the best scores first. -/
def betterFirst (first second : Candidate × κ) : Bool :=
  first.1.terms.length < second.1.terms.length ||
    (first.1.terms.length = second.1.terms.length && decide (second.2 ≤ first.2))

/-- The candidates that share more than half of the windows of a part, by their weight. -/
def similarCandidates (log : κ → κ) (candidates : List Candidate) (part : Text) :
    List Candidate :=
  let index := Index.build (candidates.map Candidate.terms)
  let found := index.search log [part] (((1 : Nat) : κ) / ((2 : Nat) : κ))
  let scored := found.filterMap fun (position, score) =>
    candidates[position]?.map fun candidate => (candidate, score)
  (scored.mergeSort betterFirst).map Prod.fst

/-- The candidates that match a typed part, the best ones first. -/
def matchingCandidates (log : κ → κ) (candidates : List Candidate) (part : Text) :
    List Candidate :=
  if part.length ≤ shortLength then
    (candidates.filter (·.begins part.lower)).mergeSort shorterFirst
  else
    similarCandidates log candidates part.lower

/-- The completions of a field name of which a part is typed, under a path. -/
def fieldTexts (log : κ → κ) (typed : Text) (schema : Schema) (path : Text)
    (others : List Text) : List Text :=
  let matching :=
    matchingCandidates log (fieldCandidates typed schema path others) (typed.afterLast '.')
  (matching.take offerLimit).map Candidate.text

end

end Typeahead.Completion

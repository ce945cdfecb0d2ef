import Typeahead.Measure
import Typeahead.Trigram.Grams

/-!
# An index of windows

Candidates are found by the windows of three characters that they share with a query. The score
of a candidate is the sum over the windows of the query of

    occurrences in the query * occurrences in the candidate * weight of the window

where the weight of a window is the logarithm of `(1 + candidates) / (1 + those that have it)`.
A candidate is found if its score exceeds a fraction of the best possible score. There each
window of the query counts once for each occurrence, one that no candidate has with the greatest
weight.

The index lists for each window the candidates that have it, so that a search looks only at
candidates that share a window.
-/

namespace Typeahead.Trigram

/-- For each window the candidates that have it, with the number of its occurrences there. -/
structure Index where
  /-- The number of candidates. -/
  size : Nat
  postings : Entries (List (Nat × Nat))

namespace Index

/-- Note the windows of one candidate. -/
def note (postings : Entries (List (Nat × Nat))) (candidate : Nat) (terms : List Text) :
    Entries (List (Nat × Nat)) :=
  (count standardWidth terms).foldl
    (fun postings (window, occurrences) =>
      let posting := (candidate, occurrences)
      postings.upsert window [posting] (· ++ [posting])) postings

/-- The index of candidates, each given by its terms. -/
def build (candidates : List (List Text)) : Index where
  size := candidates.length
  postings := candidates.zipIdx.foldl
    (fun postings (terms, candidate) => note postings candidate terms) []

section

variable {κ : Type} [Add κ] [Mul κ] [Div κ] [NatCast κ] [LT κ] [DecidableLT κ]

/-- The weight of a window that some number of candidates have. -/
def weight (log : κ → κ) (index : Index) (candidates : Nat) : κ :=
  log (((1 + index.size : Nat) : κ) / ((1 + candidates : Nat) : κ))

/-- The weight of a window that no candidate has. -/
def greatestWeight (log : κ → κ) (index : Index) : κ :=
  log ((1 + index.size : Nat) : κ)

/-- The weight of a window of a query. -/
def windowWeight (log : κ → κ) (index : Index) (window : Text) : κ :=
  match index.postings.find? window with
  | some postings => index.weight log postings.length
  | none => index.greatestWeight log

/-- Add to the score of a candidate; a candidate without a score is put at the end. -/
def addScore (amount : κ) (candidate : Nat) : List (Nat × κ) → List (Nat × κ)
  | [] => [(candidate, ((0 : Nat) : κ) + amount)]
  | (known, score) :: rest =>
      if known = candidate then (known, score + amount) :: rest
      else (known, score) :: addScore amount candidate rest

/-- The candidates that share a window with the query, with their scores, in the order in which
the windows of the query lead to them. -/
def scores (log : κ → κ) (index : Index) (query : Entries Nat) : List (Nat × κ) :=
  query.foldl
    (fun scores (window, occurrences) =>
      let postings := (index.postings.find? window).getD []
      postings.foldl
        (fun scores (candidate, count) =>
          addScore (((occurrences * count : Nat) : κ) * index.windowWeight log window)
            candidate scores)
        scores)
    []

/-- The best possible score. -/
def bestScore (log : κ → κ) (index : Index) (query : Entries Nat) : κ :=
  query.foldl
    (fun best (window, occurrences) =>
      best + ((occurrences : Nat) : κ) * index.windowWeight log window)
    ((0 : Nat) : κ)

/-- The candidates whose score exceeds a fraction of the best possible score. -/
def search (log : κ → κ) (index : Index) (terms : List Text) (fraction : κ) : List (Nat × κ) :=
  let query := count standardWidth terms
  let least := fraction * index.bestScore log query
  (index.scores log query).filter fun found => decide (least < found.2)

end

end Index

end Typeahead.Trigram

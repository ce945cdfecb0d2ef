import Mathlib.Algebra.Field.Defs
import Typeahead.Fuzzy.Alignment

/-!
# Edits

A query becomes a text edit by edit: a character of the query is deleted, one of the text is added,
or one is changed into the other. What an added character costs depends on how much of the query is
used up before it, so the price of edits is reckoned from left to right. An alignment of a query
with a text is any list of edits that uses up the query and writes the text.
-/

namespace Typeahead.Fuzzy

/-- One edit on the way from a query to a text. -/
inductive Edit where
  /-- Leave out a character of the query. -/
  | delete (queried : Char)
  /-- Put in a character of the text. -/
  | add (written : Char)
  /-- Turn a character of the query into one of the text, or keep it if they agree. -/
  | change (queried written : Char)

namespace Edit

/-- The character of the query that an edit uses up. -/
def queried? : Edit → Option Char
  | delete queried => some queried
  | add _ => none
  | change queried _ => some queried

/-- The character of the text that an edit writes. -/
def written? : Edit → Option Char
  | delete _ => none
  | add written => some written
  | change _ written => some written

/-- An edit keeps a character that the query and the text share. -/
def keeps : Edit → Bool
  | delete _ => false
  | add _ => false
  | change queried written => queried == written

end Edit

/-- The query that edits use up. -/
def queryOf (edits : List Edit) : Text :=
  edits.filterMap Edit.queried?

/-- The text that edits write. -/
def textOf (edits : List Edit) : Text :=
  edits.filterMap Edit.written?

/-- The positions in the text of the characters that edits keep behind a position. -/
def keptFrom : Nat → List Edit → List Nat
  | _, [] => []
  | position, edit :: rest =>
      (if edit.keeps then [position] else []) ++ keptFrom (position + (textOf [edit]).length) rest

theorem queryOf_append (first second : List Edit) :
    queryOf (first ++ second) = queryOf first ++ queryOf second :=
  List.filterMap_append

theorem textOf_append (first second : List Edit) :
    textOf (first ++ second) = textOf first ++ textOf second :=
  List.filterMap_append

theorem length_queryOf_cons (edit : Edit) (rest : List Edit) :
    (queryOf (edit :: rest)).length = (queryOf [edit]).length + (queryOf rest).length := by
  rw [← List.length_append, ← queryOf_append, List.singleton_append]

theorem length_textOf_cons (edit : Edit) (rest : List Edit) :
    (textOf (edit :: rest)).length = (textOf [edit]).length + (textOf rest).length := by
  rw [← List.length_append, ← textOf_append, List.singleton_append]

theorem length_textOf_of_keeps {edit : Edit} (keeps : edit.keeps = true) :
    (textOf [edit]).length = 1 := by
  cases edit with
  | delete queried => contradiction
  | add written => contradiction
  | change queried written => rfl

theorem keptFrom_append (position : Nat) (first second : List Edit) :
    keptFrom position (first ++ second) =
      keptFrom position first ++ keptFrom (position + (textOf first).length) second := by
  induction first generalizing position with
  | nil => rfl
  | cons edit rest inductionHypothesis =>
      rw [List.cons_append, keptFrom, keptFrom, inductionHypothesis, List.append_assoc,
        length_textOf_cons edit rest, Nat.add_assoc]

/-- The kept characters are characters of the text. -/
theorem bounds_of_mem_keptFrom {position other : Nat} {edits : List Edit}
    (kept : other ∈ keptFrom position edits) :
    position ≤ other ∧ other < position + (textOf edits).length := by
  induction edits generalizing position with
  | nil => contradiction
  | cons edit rest inductionHypothesis =>
      rw [keptFrom, List.mem_append] at kept
      rw [length_textOf_cons]
      rcases kept with here | later
      · split at here
        · rename_i keeps
          rw [List.mem_singleton.mp here, length_textOf_of_keeps keeps]
          omega
        · contradiction
      · have bounds := inductionHypothesis later
        omega

/-- The kept characters are told from left to right. -/
theorem pairwise_keptFrom (position : Nat) (edits : List Edit) :
    (keptFrom position edits).Pairwise (· < ·) := by
  induction edits generalizing position with
  | nil => exact List.Pairwise.nil
  | cons edit rest inductionHypothesis =>
      rw [keptFrom]
      split
      · rename_i keeps
        rw [length_textOf_of_keeps keeps]
        apply List.Pairwise.cons
        · intro other later
          exact (bounds_of_mem_keptFrom later).1
        · exact inductionHypothesis (position + 1)
      · exact inductionHypothesis _

/-- The kept characters stand in the query in the same order. -/
theorem kept_sublist (front : Text) (edits : List Edit) :
    ((keptFrom front.length edits).filterMap ((front ++ textOf edits)[·]?)).Sublist
      (queryOf edits) := by
  induction edits generalizing front with
  | nil => exact List.Sublist.refl _
  | cons edit rest inductionHypothesis =>
      cases edit with
      | delete queried =>
          exact (inductionHypothesis front).cons queried
      | add written =>
          have later := inductionHypothesis (front ++ [written])
          rw [List.length_append, List.append_assoc] at later
          exact later
      | change queried written =>
          have later := inductionHypothesis (front ++ [written])
          rw [List.length_append, List.append_assoc] at later
          by_cases same : queried = written
          · have here : (front ++ textOf (.change queried written :: rest))[front.length]? =
                some queried := by
              simp [textOf, Edit.written?, same]
            have kept : keptFrom front.length (.change queried written :: rest) =
                front.length :: keptFrom (front.length + 1) rest := by
              simp [keptFrom, Edit.keeps, same, textOf, Edit.written?]
            rw [kept, List.filterMap_cons, here]
            exact later.cons_cons queried
          · have kept : keptFrom front.length (.change queried written :: rest) =
                keptFrom (front.length + 1) rest := by
              simp [keptFrom, Edit.keeps, same, textOf, Edit.written?]
            rw [kept]
            exact later.cons queried

/-! ## Prices -/

section Prices

variable {κ : Type} [Field κ]

/-- The price of an edit behind some of the characters of a query. -/
def Prices.edit (prices : Prices κ) (length used : Nat) : Edit → κ
  | .delete _ => prices.delete
  | .add _ =>
      if used = 0 then prices.addBefore
      else if used = length then prices.addAfter
      else prices.addBetween
  | .change queried written => if queried = written then 0 else prices.change

/-- The price of edits behind some of the characters of a query. -/
def Prices.total (prices : Prices κ) (length : Nat) : Nat → List Edit → κ
  | _, [] => 0
  | used, edit :: rest =>
      prices.edit length used edit + prices.total length (used + (queryOf [edit]).length) rest

theorem Prices.total_append (prices : Prices κ) (length used : Nat) (first second : List Edit) :
    prices.total length used (first ++ second) =
      prices.total length used first +
        prices.total length (used + (queryOf first).length) second := by
  induction first generalizing used with
  | nil => exact (zero_add _).symm
  | cons edit rest inductionHypothesis =>
      rw [List.cons_append, Prices.total, Prices.total, inductionHypothesis,
        length_queryOf_cons edit rest, ← Nat.add_assoc]
      exact (add_assoc _ _ _).symm

end Prices

/-! ## Alignments -/

/-- A way to turn a query into a text. -/
structure Alignment (query text : Text) where
  edits : List Edit
  queryOf_edits : queryOf edits = query
  textOf_edits : textOf edits = text

namespace Alignment

variable {query text : Text}

/-- The positions in the text of the characters that an alignment keeps. -/
def kept (alignment : Alignment query text) : List Nat :=
  keptFrom 0 alignment.edits

/-- What an alignment costs. -/
def price {κ : Type} [Field κ] (prices : Prices κ) (alignment : Alignment query text) : κ :=
  prices.total query.length 0 alignment.edits

/-- Read in the text, the kept characters stand in the query in the same order. -/
theorem spelled_sublist (alignment : Alignment query text) :
    (alignment.kept.filterMap (text[·]?)).Sublist query := by
  have spelled := kept_sublist [] alignment.edits
  rw [alignment.queryOf_edits, alignment.textOf_edits] at spelled
  exact spelled

end Alignment

end Typeahead.Fuzzy

import Typeahead.Text.Lowercase
import Typeahead.Measure

/-!
# Cheapest alignments of a query with a text

A query is turned into a text by deleting characters of the query, adding characters of the text
and changing one into the other; a character that both share is kept for free. Added characters
are cheap, and their price depends on where they stand: before the query, inside it or behind it.

The cheapest way is found column by column. A column belongs to a number of characters of the
text, and its cells to the numbers of characters of the query. Each cell holds the price of the
cheapest way to turn that much of the query into that much of the text, and the positions in the
text that the preferred one of the cheapest ways keeps. Preferred is the way that keeps the most
characters, and then, read from the end, the one that deletes before it adds and adds before it
changes.
-/

namespace Typeahead.Fuzzy

/-- The prices of the edits. -/
structure Prices (κ : Type) where
  delete : κ
  change : κ
  /-- Add a character before the first one of the query. -/
  addBefore : κ
  /-- Add a character between characters of the query. -/
  addBetween : κ
  /-- Add a character behind the whole query. -/
  addAfter : κ

/-- The prices by which completions are ranked: texts that begin with the query or contain it
are near, others are about one away for each character that is missing. -/
def Prices.standard {κ : Type} [NatCast κ] [Div κ] : Prices κ where
  delete := (1 : Nat)
  change := (1 : Nat)
  addBefore := (1 : Nat) / (100 : Nat)
  addBetween := (1 : Nat) / (10 : Nat)
  addAfter := (1 : Nat) / (10000 : Nat)

/-- The cheapest way to turn the start of a query into the start of a text. -/
structure Cell (κ : Type) where
  cost : κ
  /-- The positions in the text that the preferred way keeps, the last first. -/
  kept : List Nat
  deriving Inhabited

/-- The cells for one number of characters of the text. -/
structure Column (κ : Type) where
  /-- The number of characters of the text. -/
  width : Nat
  /-- The cells for ever longer starts of the query. -/
  cells : List (Cell κ)

section

variable {κ : Type} [Add κ] [Mul κ] [NatCast κ] [LE κ] [DecidableLE κ] [BEq κ]

/-- The smaller one of two prices, the first if they are equal. -/
def cheaper (first second : κ) : κ :=
  if first ≤ second then first else second

/-- The first of the longest lists. -/
def longest : List (List Nat) → List Nat
  | [] => []
  | [kept] => kept
  | kept :: others =>
      let best := longest others
      if best.length ≤ kept.length then kept else best

/-- The cell reached from the one for a shorter query, the one for a shorter text and the one for
both, where `same` tells whether the two last characters agree. -/
def Cell.next (prices : Prices κ) (add : κ) (same : Bool) (position : Nat)
    (shorterQuery shorterText shorterBoth : Cell κ) : Cell κ :=
  let deleted := shorterQuery.cost + prices.delete
  let added := shorterText.cost + add
  let changed := if same then shorterBoth.cost else shorterBoth.cost + prices.change
  let cost := cheaper (cheaper deleted added) changed
  let ways :=
    [(deleted, shorterQuery.kept), (added, shorterText.kept),
      (changed,
        if cost == shorterBoth.cost then position :: shorterBoth.kept else shorterBoth.kept)]
  { cost, kept := longest ((ways.filter fun way => way.1 == cost).map (·.2)) }

/-- The column of the empty text: everything is deleted. -/
def Column.first (prices : Prices κ) (query : Text) : Column κ where
  width := 0
  cells := (List.range (query.length + 1)).map fun (count : Nat) =>
    ⟨prices.delete * (count : κ), []⟩

/-- The cells behind the topmost one: `above` is the last cell that is known, the list holds the
cells of the column before from the same height on. -/
def nextCells (prices : Prices κ) (c : Char) (position : Nat) :
    Text → Cell κ → List (Cell κ) → List (Cell κ)
  | q :: query, above, before :: left :: others =>
      let add := if query.isEmpty then prices.addAfter else prices.addBetween
      let cell := Cell.next prices add (q == c) position above left before
      cell :: nextCells prices c position query cell (left :: others)
  | _, _, _ => []

/-- The column behind one more character of the text. -/
def Column.next (prices : Prices κ) (query : Text) (column : Column κ) (c : Char) : Column κ :=
  let top : Cell κ := ⟨prices.addBefore * ((column.width + 1 : Nat) : κ), []⟩
  { width := column.width + 1
    cells := top :: nextCells prices c column.width query top column.cells }

/-- Add the columns of further characters in front of those that are known, so that the widest
column comes first. -/
def extend (prices : Prices κ) (query : Text) : List (Column κ) → Text → List (Column κ)
  | columns, [] => columns
  | columns, c :: rest =>
      let column := columns.head?.getD (Column.first prices query)
      extend prices query (column.next prices query c :: columns) rest

/-- The characters of a text that are compared: its lower case, cut to its own length. -/
def comparedText (text : Text) : Text :=
  text.lower.take text.length

/-- The columns of a text for a query in lower case, the widest first. -/
def columns (prices : Prices κ) (query text : Text) : List (Column κ) :=
  extend prices query [Column.first prices query] (comparedText text)

/-- The last cell of a column: the whole query. -/
def Column.last [Inhabited κ] (column : Column κ) : Cell κ :=
  column.cells.getLast?.getD default

/-- The last cell of the widest column: the whole query and the whole text. -/
def lastCell [Inhabited κ] (columns : List (Column κ)) : Cell κ :=
  (columns.head?.map Column.last).getD default

end

/-- Cut a text into stretches of characters that are not marked and marked in turn. The first
stretch may be empty. -/
def stretches (marked : Nat → Bool) : Nat → Bool → Text → List Text
  | _, _, [] => [[]]
  | position, high, c :: rest =>
      let others := stretches marked (position + 1) (marked position) rest
      let grown :=
        match others with
        | [] => [[c]]
        | stretch :: later => (c :: stretch) :: later
      if marked position = high then grown else [] :: grown

end Typeahead.Fuzzy

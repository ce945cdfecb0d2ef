import Typeahead.Proofs.Fuzzy.Columns

/-!
# The table of a query and a text

The columns of a text hold a cell for each number of characters of the query and each number of
characters of the text. The cells at the two edges of the table are known from the prices alone, and
every other cell is reckoned from the three cells before it.
-/

namespace Typeahead.Fuzzy

section Columns

variable {κ : Type} [Add κ] [Mul κ] [NatCast κ] [LE κ] [DecidableLE κ] [BEq κ]

/-- The price of a character added behind some of the characters of a query. -/
def Prices.add (prices : Prices κ) (length used : Nat) : κ :=
  if used = length then prices.addAfter else prices.addBetween

/-- The column of a whole text. -/
def widest (prices : Prices κ) (query text : Text) : Column κ :=
  (reckoned prices query text).head (reckoned_ne_nil prices query text)

variable {prices : Prices κ} {query : Text}

theorem head?_reckoned (text : Text) :
    (reckoned prices query text).head? = some (widest prices query text) :=
  List.head?_eq_some_head _

theorem widest_nil : widest prices query [] = Column.first prices query :=
  rfl

theorem widest_concat (text : Text) (c : Char) :
    widest prices query (text ++ [c]) = (widest prices query text).next prices query c := by
  simp only [widest, reckoned_concat, List.head_cons]

theorem width_widest (text : Text) : (widest prices query text).width = text.length :=
  width_head_reckoned text

theorem length_cells_widest (text : Text) :
    (widest prices query text).cells.length = query.length + 1 :=
  length_cells_reckoned text (List.head_mem _)

/-- One more character puts its column in front of the others. -/
theorem reckoned_eq_cons (text : Text) (c : Char) :
    reckoned prices query (text ++ [c]) =
      widest prices query (text ++ [c]) :: reckoned prices query text := by
  rw [widest_concat, reckoned_concat]
  rfl

theorem widest_take_succ {text : Text} {column : Nat} (inside : column < text.length) :
    widest prices query (text.take (column + 1)) =
      (widest prices query (text.take column)).next prices query text[column] := by
  rw [List.take_succ_eq_append_getElem inside, widest_concat]

/-- A column of the start of a text is a column of the text. -/
theorem find?_reckoned {text : Text} {column : Nat} (inside : column ≤ text.length) :
    (reckoned prices query text).find? (·.width = column) =
      some (widest prices query (text.take column)) := by
  induction text using List.reverseRecOn with
  | nil =>
      obtain rfl : column = 0 := Nat.le_zero.mp inside
      rfl
  | append_singleton text c inductionHypothesis =>
      rw [reckoned_eq_cons, List.find?_cons, width_widest]
      rcases Nat.lt_or_ge text.length column with whole | earlier
      · have all : (text ++ [c]).length = column := by
          rw [List.length_append] at inside ⊢
          exact Nat.le_antisymm whole inside
        rw [← all, List.take_length]
        simp only [decide_true]
      · have narrower : (text ++ [c]).length ≠ column := by
          rw [List.length_append]
          exact Nat.ne_of_gt (Nat.lt_succ_of_le earlier)
        rw [List.take_append_of_le_length earlier, ← inductionHypothesis earlier]
        simp only [narrower, decide_false]

end Columns

section Cells

variable {κ : Type} [Add κ] [Mul κ] [NatCast κ] [LE κ] [DecidableLE κ] [BEq κ] [Inhabited κ]

omit [Add κ] [Mul κ] [NatCast κ] [LE κ] [DecidableLE κ] [BEq κ] in
/-- The cell for a number of characters of the query and one of the text. -/
def cellAt (columns : List (Column κ)) (row column : Nat) : Cell κ :=
  ((columns.find? (·.width = column)).bind (·.cells[row]?)).getD default

omit [Mul κ] [NatCast κ] in
/-- Each cell of a column is reckoned from the one above it and two of the column before. -/
theorem getElem?_nextCells {prices : Prices κ} {c : Char} {position : Nat} {query : Text}
    (above : Cell κ) {before : List (Cell κ)} (full : before.length = query.length + 1) {row : Nat}
    (inside : row < query.length) :
    (nextCells prices c position query above before)[row]? =
      some (Cell.next prices (prices.add query.length (row + 1)) (query[row] == c) position
        ((above :: nextCells prices c position query above before)[row]?.getD default)
        (before[row + 1]?.getD default) (before[row]?.getD default)) := by
  induction query generalizing above before row with
  | nil => exact absurd inside (Nat.not_lt_zero row)
  | cons q query inductionHypothesis =>
      match before, full with
      | first :: left :: others, full =>
          cases row with
          | zero =>
              cases query with
              | nil => rfl
              | cons _ _ => rfl
          | succ row =>
              have rest : (left :: others).length = query.length + 1 := Nat.succ.inj full
              have later := inductionHypothesis (Cell.next prices
                (if query.isEmpty then prices.addAfter else prices.addBetween) (q == c) position
                  above left first) rest (Nat.lt_of_succ_lt_succ inside)
              have price : prices.add (q :: query).length (row + 1 + 1) =
                  prices.add query.length (row + 1) := by
                simp [Prices.add]
              rw [price]
              exact later

variable {prices : Prices κ} {query text : Text}

theorem cellAt_reckoned {row column : Nat} (inside : column ≤ text.length) :
    cellAt (reckoned prices query text) row column =
      (widest prices query (text.take column)).cells[row]?.getD default := by
  rw [cellAt, find?_reckoned inside]
  rfl

variable (prices text) in
/-- Nothing of the text: the query is deleted. -/
theorem cellAt_zero_right {row : Nat} (inside : row ≤ query.length) :
    cellAt (reckoned prices query text) row 0 = ⟨prices.delete * (row : κ), []⟩ := by
  rw [cellAt_reckoned (Nat.zero_le _), List.take_zero, widest_nil]
  simp [Column.first, Nat.lt_succ_of_le inside]

variable (prices query) in
/-- Nothing of the query: the text is added. -/
theorem cellAt_zero_left {column : Nat} (inside : column < text.length) :
    cellAt (reckoned prices query text) 0 (column + 1) =
      ⟨prices.addBefore * ((column + 1 : Nat) : κ), []⟩ := by
  rw [cellAt_reckoned inside, widest_take_succ inside, Column.next, width_widest,
    List.length_take_of_le (Nat.le_of_lt inside)]
  rfl

variable (prices) in
/-- A cell inside the table is reckoned from the three cells before it. -/
theorem cellAt_succ {row column : Nat} (rowInside : row < query.length)
    (columnInside : column < text.length) :
    cellAt (reckoned prices query text) (row + 1) (column + 1) =
      Cell.next prices (prices.add query.length (row + 1)) (query[row] == text[column]) column
        (cellAt (reckoned prices query text) row (column + 1))
        (cellAt (reckoned prices query text) (row + 1) column)
        (cellAt (reckoned prices query text) row column) := by
  have width : (widest prices query (text.take column)).width = column := by
    rw [width_widest, List.length_take_of_le (Nat.le_of_lt columnInside)]
  simp only [cellAt_reckoned columnInside, cellAt_reckoned (Nat.le_of_lt columnInside)]
  rw [widest_take_succ columnInside, Column.next, width, List.getElem?_cons_succ,
    getElem?_nextCells _ (length_cells_widest _) rowInside]
  rfl

/-- The result stands at the far corner of the table. -/
theorem lastCell_reckoned :
    lastCell (reckoned prices query text) =
      cellAt (reckoned prices query text) query.length text.length := by
  rw [cellAt_reckoned (Nat.le_refl _), List.take_length, lastCell, head?_reckoned, Option.map_some,
    Option.getD_some, Column.last, List.getLast?_eq_getElem?, length_cells_widest,
    Nat.add_sub_cancel]

end Cells

end Typeahead.Fuzzy

import Mathlib.Data.List.Find
import Typeahead.Proofs.Fuzzy.Table

/-!
# Walking back through the table

The kept positions of a cell are those that a walk from the cell back to the empty query and the
empty text finds. Each step of the walk goes to one of the cells that the cost of a cell can come
from, to the first of those from which the most characters are kept on the way. The walk never gets
stuck: inside the table each cell but the first one has such a cell before it.
-/

namespace Typeahead.Fuzzy

/-! ## The first of the longest lists -/

theorem length_longest (lists : List (List Nat)) :
    (longest lists).length = (lists.map List.length).max?.getD 0 := by
  induction lists with
  | nil => rfl
  | cons kept others inductionHypothesis =>
      rw [List.map_cons, List.max?_cons, Option.getD_some]
      cases others with
      | nil => rfl
      | cons next later =>
          rw [List.map_cons, List.max?_cons, Option.getD_some] at inductionHypothesis
          rw [List.map_cons, List.max?_cons, longest, Option.elim_some, ← inductionHypothesis]
          split
          · exact (Nat.max_eq_left ‹_›).symm
          · exact (Nat.max_eq_right (Nat.le_of_not_le ‹_›)).symm
          · simp

/-- The first list that is as long as the longest ones is the one that is chosen. -/
theorem find?_longest {lists : List (List Nat)} (some : lists ≠ []) :
    lists.find? (·.length = (longest lists).length) = .some (longest lists) := by
  fun_induction longest with
  | case1 => contradiction
  | case2 kept => simp
  | case3 kept others present best longer inductionHypothesis => simp
  | case4 kept others present best shorter inductionHypothesis =>
      rw [List.find?_cons_of_neg (by simpa using fun same => shorter (Nat.le_of_eq same.symm))]
      exact inductionHypothesis present

section Walk

variable {κ : Type} [Add κ] [Mul κ] [NatCast κ] [BEq κ] [Inhabited κ]

/-- A step back to a cell. -/
structure Step where
  row : Nat
  column : Nat
  /-- The step keeps the character of the text that it goes back over. -/
  keeps : Bool

/-- The ways back from a cell inside the table, which lies behind a row and a column, with what each
of them costs: over a deleted character, over an added one, over a changed or kept one. -/
def waysBack (prices : Prices κ) (query text : Text) (columns : List (Column κ))
    (row column : Nat) : List (κ × Step) :=
  let cost := (cellAt columns (row + 1) (column + 1)).cost
  let before := (cellAt columns row column).cost
  [((cellAt columns row (column + 1)).cost + prices.delete, ⟨row, column + 1, false⟩),
    ((cellAt columns (row + 1) column).cost + prices.add query.length (row + 1),
      ⟨row + 1, column, false⟩),
    (if query[row]? == text[column]? then before else before + prices.change,
      ⟨row, column, cost == before⟩)]

/-- The steps back that the cost of a cell can come from. -/
def stepsBack (prices : Prices κ) (query text : Text) (columns : List (Column κ)) :
    Nat → Nat → List Step
  | 0, 0 => []
  | row + 1, 0 =>
      if (cellAt columns (row + 1) 0).cost == prices.delete * ((row + 1 : Nat) : κ) then
        [⟨row, 0, false⟩]
      else []
  | 0, column + 1 =>
      if (cellAt columns 0 (column + 1)).cost == prices.addBefore * ((column + 1 : Nat) : κ) then
        [⟨0, column, false⟩]
      else []
  | row + 1, column + 1 =>
      ((waysBack prices query text columns row column).filter fun way =>
        way.1 == (cellAt columns (row + 1) (column + 1)).cost).map (·.2)

/-- The number of characters that a step keeps. -/
def Step.gain (step : Step) : Nat :=
  if step.keeps then 1 else 0

variable {prices : Prices κ} {query text : Text} {columns : List (Column κ)} {row column : Nat}

/-- A step leads back in the table. -/
theorem back_of_mem_stepsBack {step : Step}
    (member : step ∈ stepsBack prices query text columns row column) :
    step.row ≤ row ∧ step.column ≤ column ∧ step.row + step.column < row + column := by
  cases row with
  | zero =>
      cases column with
      | zero => contradiction
      | succ column =>
          obtain rfl : step = ⟨0, column, false⟩ := by
            rw [stepsBack] at member
            split at member
            · exact List.mem_singleton.mp member
            · contradiction
          simp
  | succ row =>
      cases column with
      | zero =>
          obtain rfl : step = ⟨row, 0, false⟩ := by
            rw [stepsBack] at member
            split at member
            · exact List.mem_singleton.mp member
            · contradiction
          simp
      | succ column =>
          obtain ⟨way, chosen, rfl⟩ := List.mem_map.mp member
          have listed := (List.mem_filter.mp chosen).1
          simp only [waysBack, List.mem_cons, List.not_mem_nil, or_false] at listed
          rcases listed with rfl | rfl | rfl
          · simp
          · simp
          · simp only [true_and, Nat.le_add_right]
            omega

variable (prices query text columns) in
/-- The most characters that can be kept on the way back from a cell. -/
def mostKept (row column : Nat) : Nat :=
  ((stepsBack prices query text columns row column).attach.map fun step =>
    step.1.gain + mostKept step.1.row step.1.column).max?.getD 0
termination_by row + column
decreasing_by exact (back_of_mem_stepsBack step.2).2.2

variable (prices query text columns) in
/-- The positions that are kept on the walk back from a cell to the first one; nothing if the walk
gets stuck. -/
def walkBack (row column : Nat) : Option (List Nat) :=
  if row = 0 ∧ column = 0 then some []
  else
    match _found : (stepsBack prices query text columns row column).find? fun step =>
        step.gain + mostKept prices query text columns step.row step.column =
          mostKept prices query text columns row column with
    | none => none
    | some step =>
        (walkBack step.row step.column).map fun kept =>
          if step.keeps then kept ++ [column - 1] else kept
termination_by row + column
decreasing_by exact (back_of_mem_stepsBack (List.mem_of_find?_eq_some _found)).2.2

/-- What is kept on the way over a step. -/
def Step.kept (columns : List (Column κ)) (column : Nat) (step : Step) : List Nat :=
  let kept := (cellAt columns step.row step.column).kept
  if step.keeps then (column - 1) :: kept else kept

variable [LE κ] [DecidableLE κ]

omit [Add κ] [Mul κ] [NatCast κ] [BEq κ] [Inhabited κ] in
/-- The smallest one of three prices is one of them. -/
theorem eq_cheaper (first second third : κ) :
    first = cheaper (cheaper first second) third ∨
      second = cheaper (cheaper first second) third ∨
        third = cheaper (cheaper first second) third := by
  unfold cheaper
  split <;> split <;> simp

theorem stepsBack_zero_left [ReflBEq κ] (inside : column < text.length) :
    stepsBack prices query text (reckoned prices query text) 0 (column + 1) =
      [⟨0, column, false⟩] := by
  rw [stepsBack, cellAt_zero_left _ _ inside, if_pos BEq.rfl]

theorem stepsBack_zero_right [ReflBEq κ] (inside : row < query.length) :
    stepsBack prices query text (reckoned prices query text) (row + 1) 0 =
      [⟨row, 0, false⟩] := by
  rw [stepsBack, cellAt_zero_right _ _ inside, if_pos BEq.rfl]

theorem kept_cellAt_zero_left (inside : column ≤ text.length) :
    (cellAt (reckoned prices query text) 0 column).kept = [] := by
  cases column with
  | zero => rw [cellAt_zero_right _ _ (Nat.zero_le _)]
  | succ column => rw [cellAt_zero_left _ _ inside]

theorem beq_getElem? (rowInside : row < query.length) (columnInside : column < text.length) :
    (query[row]? == text[column]?) = (query[row] == text[column]) := by
  rw [List.getElem?_eq_getElem rowInside, List.getElem?_eq_getElem columnInside]
  rfl

variable (prices) in
/-- Each cell but the first one has a step back. -/
theorem stepsBack_ne_nil [ReflBEq κ] (rowInside : row ≤ query.length)
    (columnInside : column ≤ text.length) (further : ¬(row = 0 ∧ column = 0)) :
    stepsBack prices query text (reckoned prices query text) row column ≠ [] := by
  match row, column with
  | 0, 0 => exact absurd ⟨rfl, rfl⟩ further
  | 0, column + 1 =>
      rw [stepsBack_zero_left columnInside]
      exact List.cons_ne_nil _ _
  | row + 1, 0 =>
      rw [stepsBack_zero_right rowInside]
      exact List.cons_ne_nil _ _
  | row + 1, column + 1 =>
      -- The cost of the cell is that of one of the three ways.
      have tied : ∃ way ∈ waysBack prices query text (reckoned prices query text) row column,
          way.1 = (cellAt (reckoned prices query text) (row + 1) (column + 1)).cost := by
        rw [waysBack, beq_getElem? rowInside columnInside,
          cellAt_succ prices rowInside columnInside, Cell.next]
        simp only [List.mem_cons, List.not_mem_nil, or_false, exists_eq_or_imp, exists_eq_left]
        exact eq_cheaper _ _ _
      obtain ⟨way, member, same⟩ := tied
      apply List.ne_nil_of_mem (a := way.2)
      exact List.mem_map_of_mem (List.mem_filter.mpr ⟨member, by rw [same, BEq.rfl]⟩)

variable (prices) in
/-- A cell keeps what the first of the steps back that keep the most characters keeps. -/
theorem kept_eq_longest [ReflBEq κ] (rowInside : row ≤ query.length)
    (columnInside : column ≤ text.length) :
    (cellAt (reckoned prices query text) row column).kept =
      longest ((stepsBack prices query text (reckoned prices query text) row column).map
        (Step.kept (reckoned prices query text) column)) := by
  match row, column with
  | 0, 0 =>
      rw [kept_cellAt_zero_left columnInside]
      rfl
  | 0, column + 1 =>
      rw [stepsBack_zero_left columnInside, kept_cellAt_zero_left columnInside]
      exact (kept_cellAt_zero_left (Nat.le_of_lt columnInside)).symm
  | row + 1, 0 =>
      rw [stepsBack_zero_right rowInside, cellAt_zero_right _ _ rowInside]
      have before : (cellAt (reckoned prices query text) row 0).kept = [] := by
        rw [cellAt_zero_right _ _ (Nat.le_of_lt rowInside)]
      exact before.symm
  | row + 1, column + 1 =>
      have ways : (cellAt (reckoned prices query text) (row + 1) (column + 1)).kept =
          longest ((((waysBack prices query text (reckoned prices query text) row column).map
            fun way => (way.1, way.2.kept (reckoned prices query text) (column + 1))).filter
              fun way => way.1 == (cellAt (reckoned prices query text) (row + 1)
                (column + 1)).cost).map (·.2)) := by
        rw [waysBack, beq_getElem? rowInside columnInside,
          cellAt_succ prices rowInside columnInside]
        rfl
      rw [ways, List.filter_map, List.map_map, stepsBack, List.map_map]
      rfl

omit [Add κ] [Mul κ] [NatCast κ] [BEq κ] [LE κ] [DecidableLE κ] in
theorem Step.length_kept (columns : List (Column κ)) (column : Nat) (step : Step) :
    (step.kept columns column).length =
      step.gain + (cellAt columns step.row step.column).kept.length := by
  unfold Step.kept Step.gain
  split
  · exact Nat.add_comm _ _
  · exact (Nat.zero_add _).symm

/-- As many characters as a cell keeps can be kept on the way back from it. -/
theorem mostKept_eq_length [ReflBEq κ] (rowInside : row ≤ query.length)
    (columnInside : column ≤ text.length) :
    mostKept prices query text (reckoned prices query text) row column =
      (cellAt (reckoned prices query text) row column).kept.length := by
  induction size : row + column using Nat.strong_induction_on generalizing row column with
  | _ size inductionHypothesis =>
      have each : ∀ step ∈ stepsBack prices query text (reckoned prices query text) row column,
          step.gain + mostKept prices query text (reckoned prices query text) step.row
            step.column = (step.kept (reckoned prices query text) column).length := by
        intro step member
        obtain ⟨rowBack, columnBack, smaller⟩ := back_of_mem_stepsBack member
        rw [inductionHypothesis _ (size ▸ smaller) (rowBack.trans rowInside)
          (columnBack.trans columnInside) rfl, Step.length_kept]
      rw [mostKept, kept_eq_longest prices rowInside columnInside, length_longest, List.map_map]
      congr 2
      refine Eq.trans ?_ (List.attach_map_val (f := List.length ∘ Step.kept _ column))
      apply List.map_congr_left
      rintro ⟨step, member⟩ _
      exact each step member

/-- The walk back from a cell to the first one succeeds, and finds the positions that the cell
keeps. -/
theorem walkBack_eq_some [ReflBEq κ] (rowInside : row ≤ query.length)
    (columnInside : column ≤ text.length) :
    walkBack prices query text (reckoned prices query text) row column =
      some (cellAt (reckoned prices query text) row column).kept.reverse := by
  induction size : row + column using Nat.strong_induction_on generalizing row column with
  | _ size inductionHypothesis =>
      rw [walkBack]
      split
      case isTrue first =>
        obtain ⟨rfl, rfl⟩ := first
        rw [kept_cellAt_zero_left (Nat.zero_le _)]
        rfl
      case isFalse further =>
        have kept := kept_eq_longest prices rowInside columnInside
        -- The step that the walk takes is the one from which the cell takes what it keeps.
        have chosen : ((stepsBack prices query text (reckoned prices query text) row column).find?
            fun step => step.gain + mostKept prices query text (reckoned prices query text) step.row
              step.column = mostKept prices query text (reckoned prices query text) row column).map
                (Step.kept (reckoned prices query text) column) =
            some (cellAt (reckoned prices query text) row column).kept := by
          have steps := stepsBack_ne_nil prices rowInside columnInside further
          rw [mostKept_eq_length rowInside columnInside, kept,
            ← find?_longest (List.map_eq_nil_iff.not.mpr steps), List.find?_map]
          congr 1
          apply List.find?_congr
          intro step member
          obtain ⟨rowBack, columnBack, -⟩ := back_of_mem_stepsBack member
          rw [mostKept_eq_length (rowBack.trans rowInside) (columnBack.trans columnInside),
            Function.comp_apply, Step.length_kept]
        split
        case h_1 stuck =>
          rw [stuck] at chosen
          contradiction
        case h_2 step found =>
          rw [found] at chosen
          obtain ⟨rowBack, columnBack, smaller⟩ :=
            back_of_mem_stepsBack (List.mem_of_find?_eq_some found)
          rw [inductionHypothesis _ (size ▸ smaller) (rowBack.trans rowInside)
            (columnBack.trans columnInside) rfl, ← Option.some.inj chosen, Step.kept]
          split <;> simp

variable (prices query text) in
/-- The walk back from the far corner of the table finds what the result keeps. -/
theorem walkBack_corner [ReflBEq κ] :
    walkBack prices query text (reckoned prices query text) query.length text.length =
      some (lastCell (reckoned prices query text)).kept.reverse := by
  rw [lastCell_reckoned]
  exact walkBack_eq_some (Nat.le_refl _) (Nat.le_refl _)

end Walk

end Typeahead.Fuzzy

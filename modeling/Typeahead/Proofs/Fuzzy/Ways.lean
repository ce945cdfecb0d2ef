import Mathlib.Algebra.Order.Ring.Defs
import Typeahead.Proofs.Fuzzy.Edits
import Typeahead.Proofs.Fuzzy.Table

/-!
# The best of three ways

A cell is reached by a deletion from the cell above it, by an addition from the one of the column
before, or by a change from the one before both. Over exact numbers it is the best of these three
ways: none is cheaper, and none that is as cheap keeps more characters. Of several such ways it
keeps what the first of them keeps.
-/

namespace Typeahead.Fuzzy

variable {κ : Type} [Field κ] [LinearOrder κ]

/-! ## Longest lists -/

theorem longest_mem {lists : List (List Nat)} (some : lists ≠ []) : longest lists ∈ lists := by
  fun_induction longest with
  | case1 => contradiction
  | case2 kept => exact List.mem_singleton_self _
  | case3 kept others present best longer inductionHypothesis => exact List.mem_cons_self
  | case4 kept others present best shorter inductionHypothesis =>
      exact List.mem_cons_of_mem _ (inductionHypothesis present)

theorem length_le_length_longest {lists : List (List Nat)} {kept : List Nat}
    (member : kept ∈ lists) : kept.length ≤ (longest lists).length := by
  fun_induction longest with
  | case1 => contradiction
  | case2 only =>
      rw [List.mem_singleton.mp member]
  | case3 first others present best longer inductionHypothesis =>
      rcases List.mem_cons.mp member with rfl | later
      · exact Nat.le_refl _
      · exact Nat.le_trans (inductionHypothesis later) longer
  | case4 first others present best shorter inductionHypothesis =>
      rcases List.mem_cons.mp member with rfl | later
      · exact Nat.le_of_not_le shorter
      · exact inductionHypothesis later

/-! ## The best of some ways -/

/-- What comes of a cell by one more edit behind some characters of the query and of the text. -/
def Cell.after (prices : Prices κ) (length used position : Nat) (cell : Cell κ) (edit : Edit) :
    Cell κ where
  cost := cell.cost + prices.edit length used edit
  kept := if edit.keeps then position :: cell.kept else cell.kept

/-- The three ways to a cell: by a deletion from the cell for a shorter query, by an addition from
the one for a shorter text, by a change from the one for both. -/
def waysTo (prices : Prices κ) (length used : Nat) (q c : Char) (position : Nat)
    (shorterQuery shorterText shorterBoth : Cell κ) : List (Cell κ) :=
  [shorterQuery.after prices length used (position + 1) (.delete q),
    shorterText.after prices length (used + 1) position (.add c),
    shorterBoth.after prices length used position (.change q c)]

/-- A cell is one of the cheapest ways, and of these one that keeps the most characters. -/
structure Cell.BestOf (cell : Cell κ) (ways : List (Cell κ)) : Prop where
  among : cell ∈ ways
  least : ∀ way ∈ ways, cell.cost ≤ way.cost
  most : ∀ way ∈ ways, way.cost = cell.cost → way.kept.length ≤ cell.kept.length

omit [Field κ] in
/-- The best of some ways keeps the longest of what the cheapest ones keep. -/
theorem Cell.BestOf.of_longest {cell : Cell κ} {ways : List (Cell κ)}
    (attained : ∃ way ∈ ways, way.cost = cell.cost) (least : ∀ way ∈ ways, cell.cost ≤ way.cost)
    (kept : cell.kept =
      longest ((ways.filter fun way => way.cost == cell.cost).map Cell.kept)) :
    cell.BestOf ways := by
  have tied : ∀ way ∈ ways, way.cost = cell.cost →
      way.kept ∈ (ways.filter fun way => way.cost == cell.cost).map Cell.kept := by
    intro way member same
    exact List.mem_map_of_mem (List.mem_filter.mpr ⟨member, beq_iff_eq.mpr same⟩)
  constructor
  case least => exact least
  case most =>
    intro way member same
    rw [kept]
    exact length_le_length_longest (tied way member same)
  case among =>
    obtain ⟨way, member, same⟩ := attained
    have chosen := longest_mem (List.ne_nil_of_mem (tied way member same))
    rw [← kept] at chosen
    obtain ⟨best, listed, sameKept⟩ := List.mem_map.mp chosen
    obtain ⟨bestMember, sameCost⟩ := List.mem_filter.mp listed
    have equal : best = cell := by
      cases best
      cases cell
      cases sameKept
      cases beq_iff_eq.mp sameCost
      rfl
    exact equal ▸ bestMember

section Ways

omit [LinearOrder κ] in
theorem Prices.edit_add (prices : Prices κ) (length used : Nat) (c : Char) :
    prices.edit length (used + 1) (.add c) = prices.add length (used + 1) := by
  rw [Prices.edit, if_neg (Nat.succ_ne_zero used)]
  rfl

omit [LinearOrder κ] in
theorem cost_after_change (prices : Prices κ) (length used position : Nat) (q c : Char)
    (before : Cell κ) :
    (before.after prices length used position (.change q c)).cost =
      if q == c then before.cost else before.cost + prices.change := by
  by_cases same : q = c <;> simp [Cell.after, Prices.edit, same]

variable (prices : Prices κ) (length used position : Nat) (q c : Char)
  (shorterQuery shorterText shorterBoth : Cell κ)

/-- The cost of a cell is the least of the three ways. -/
theorem cost_next :
    (Cell.next prices (prices.add length (used + 1)) (q == c) position shorterQuery shorterText
      shorterBoth).cost =
      min (min (shorterQuery.after prices length used (position + 1) (.delete q)).cost
        (shorterText.after prices length (used + 1) position (.add c)).cost)
          (shorterBoth.after prices length used position (.change q c)).cost := by
  rw [cost_after_change, Cell.after, Cell.after, Prices.edit_add, min_def, min_def]
  rfl

variable {prices}

/-- A cell keeps what the first of the cheapest ways that keep the most characters keeps. Changes
have to cost something, for otherwise a changed character counts as kept. -/
theorem kept_next (charged : prices.change ≠ 0) :
    (Cell.next prices (prices.add length (used + 1)) (q == c) position shorterQuery shorterText
      shorterBoth).kept =
      longest (((waysTo prices length used q c position shorterQuery shorterText
        shorterBoth).filter fun way => way.cost == (Cell.next prices (prices.add length (used + 1))
          (q == c) position shorterQuery shorterText shorterBoth).cost).map Cell.kept) := by
  generalize atLeast : (Cell.next prices (prices.add length (used + 1)) (q == c) position
    shorterQuery shorterText shorterBoth).cost = cost
  -- A tied change costs nothing exactly if the characters agree.
  have third : (shorterBoth.after prices length used position (.change q c)).cost = cost →
      (if cost == shorterBoth.cost then position :: shorterBoth.kept else shorterBoth.kept) =
        (shorterBoth.after prices length used position (.change q c)).kept := by
    rintro rfl
    rw [cost_after_change]
    by_cases same : q = c
    · simp [Cell.after, Edit.keeps, same]
    · simp [Cell.after, Edit.keeps, same, charged]
  unfold Cell.next at atLeast ⊢
  simp only at atLeast ⊢
  rw [atLeast, ← cost_after_change prices length used position, ← prices.edit_add _ _ c]
  have paired : ((waysTo prices length used q c position shorterQuery shorterText
      shorterBoth).filter fun way => way.cost == cost).map Cell.kept =
      (((waysTo prices length used q c position shorterQuery shorterText shorterBoth).map
        fun way => (way.cost, way.kept)).filter (·.1 == cost)).map Prod.snd := by
    rw [List.filter_map, List.map_map]
    rfl
  rw [paired]
  congr 2
  by_cases tied : (shorterBoth.after prices length used position (.change q c)).cost = cost
  · rw [third tied]
    rfl
  · simp only [waysTo, List.map_cons, List.map_nil, List.filter_cons, List.filter_nil,
      beq_iff_eq, tied, if_false]
    rfl

/-- Where changes cost something, a cell is the best of the three ways. -/
theorem bestOf_next (charged : prices.change ≠ 0) :
    (Cell.next prices (prices.add length (used + 1)) (q == c) position shorterQuery shorterText
      shorterBoth).BestOf
        (waysTo prices length used q c position shorterQuery shorterText shorterBoth) := by
  have cost := cost_next prices length used position q c shorterQuery shorterText shorterBoth
  apply Cell.BestOf.of_longest
  case attained =>
    rw [cost]
    rcases min_choice (min (shorterQuery.after prices length used (position + 1) (.delete q)).cost
        (shorterText.after prices length (used + 1) position (.add c)).cost)
          (shorterBoth.after prices length used position (.change q c)).cost with either | third
    · rw [either]
      rcases min_choice (shorterQuery.after prices length used (position + 1) (.delete q)).cost
        (shorterText.after prices length (used + 1) position (.add c)).cost with first | second
      · rw [first]
        simp [waysTo]
      · rw [second]
        simp [waysTo]
    · rw [third]
      simp [waysTo]
  case least =>
    rw [cost]
    simp [waysTo]
  case kept => exact kept_next _ _ _ _ _ _ _ _ charged

end Ways

end Typeahead.Fuzzy

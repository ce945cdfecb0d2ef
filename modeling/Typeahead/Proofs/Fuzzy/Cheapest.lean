import Mathlib.Algebra.Field.Rat
import Mathlib.Algebra.Order.Ring.Rat
import Mathlib.Data.List.Basic
import Mathlib.Order.Bounds.Defs
import Typeahead.Proofs.Fuzzy.Ways

/-!
# The cheapest alignments are found

Edits that turn a start of the query into a start of the text end in a deletion, an addition or a
change, and what is left without the last edit belongs to one of the three cells before. So a cell
that is the best of the three ways to it is the best of all edits: none are cheaper, and none that
are as cheap keep more characters. This holds of every cell of the table, hence the distance of a
text from a query is the least price of their alignments.
-/

namespace Typeahead.Fuzzy

variable {κ : Type} [Field κ] [LinearOrder κ]

/-! ## The best of all edits -/

/-- Edits turn a query into a text. -/
def Aligns (query text : Text) (edits : List Edit) : Prop :=
  queryOf edits = query ∧ textOf edits = text

/-- Of the edits that are admitted, a cell tells the least price and what one of the cheapest ones
keeps that keeps the most characters. -/
structure Cell.Cheapest (prices : Prices κ) (length : Nat) (admitted : List Edit → Prop)
    (cell : Cell κ) : Prop where
  reached : ∃ edits, admitted edits ∧ prices.total length 0 edits = cell.cost ∧
    keptFrom 0 edits = cell.kept.reverse
  least : ∀ edits, admitted edits → cell.cost ≤ prices.total length 0 edits
  most : ∀ edits, admitted edits → prices.total length 0 edits = cell.cost →
    (keptFrom 0 edits).length ≤ cell.kept.length

theorem aligns_concat_iff {query text : Text} {q c : Char} {edits : List Edit} :
    Aligns (query ++ [q]) (text ++ [c]) edits ↔
      (∃ front, Aligns query (text ++ [c]) front ∧ edits = front ++ [.delete q]) ∨
        (∃ front, Aligns (query ++ [q]) text front ∧ edits = front ++ [.add c]) ∨
          ∃ front, Aligns query text front ∧ edits = front ++ [.change q c] := by
  constructor
  · rintro ⟨ofQuery, ofText⟩
    rcases List.eq_nil_or_concat' edits with rfl | ⟨front, edit, rfl⟩
    · exact absurd ofQuery (by simp [queryOf])
    · rw [queryOf_append] at ofQuery
      rw [textOf_append] at ofText
      cases edit with
      | delete queried =>
          obtain ⟨frontQuery, single⟩ := List.append_inj' ofQuery rfl
          obtain rfl : queried = q := List.singleton_inj.mp single
          rw [show textOf [Edit.delete queried] = [] from rfl, List.append_nil] at ofText
          exact .inl ⟨front, ⟨frontQuery, ofText⟩, rfl⟩
      | add written =>
          obtain ⟨frontText, single⟩ := List.append_inj' ofText rfl
          obtain rfl : written = c := List.singleton_inj.mp single
          rw [show queryOf [Edit.add written] = [] from rfl, List.append_nil] at ofQuery
          exact .inr (.inl ⟨front, ⟨ofQuery, frontText⟩, rfl⟩)
      | change queried written =>
          obtain ⟨frontQuery, singleQuery⟩ := List.append_inj' ofQuery rfl
          obtain ⟨frontText, singleText⟩ := List.append_inj' ofText rfl
          obtain rfl : queried = q := List.singleton_inj.mp singleQuery
          obtain rfl : written = c := List.singleton_inj.mp singleText
          exact .inr (.inr ⟨front, ⟨frontQuery, frontText⟩, rfl⟩)
  · rintro (⟨front, ⟨rfl, ofText⟩, rfl⟩ | ⟨front, ⟨ofQuery, rfl⟩, rfl⟩ | ⟨front, ⟨rfl, rfl⟩, rfl⟩)
    · exact ⟨queryOf_append _ _, by rw [textOf_append, ofText]; exact List.append_nil _⟩
    · exact ⟨by rw [queryOf_append, ofQuery]; exact List.append_nil _, textOf_append _ _⟩
    · exact ⟨queryOf_append _ _, textOf_append _ _⟩

section Edits

variable {prices : Prices κ} {length : Nat}

omit [LinearOrder κ] in
theorem total_concat (query text : Text) {front : List Edit} (aligns : Aligns query text front)
    (edit : Edit) :
    prices.total length 0 (front ++ [edit]) =
      prices.total length 0 front + prices.edit length query.length edit := by
  rw [Prices.total_append, aligns.1, Nat.zero_add]
  exact congrArg _ (add_zero _)

theorem keptFrom_concat (query text : Text) {front : List Edit} (aligns : Aligns query text front)
    (edit : Edit) :
    keptFrom 0 (front ++ [edit]) =
      keptFrom 0 front ++ if edit.keeps then [text.length] else [] := by
  rw [keptFrom_append, aligns.2, Nat.zero_add]
  exact congrArg _ (List.append_nil _)

variable [IsStrictOrderedRing κ]

/-- One more edit behind the cheapest ones gives the cheapest ones that end with it. -/
theorem Cell.Cheapest.after {cell : Cell κ} {query text : Text}
    (cheapest : cell.Cheapest prices length (Aligns query text)) (edit : Edit) :
    (cell.after prices length query.length text.length edit).Cheapest prices length fun edits =>
      ∃ front, Aligns query text front ∧ edits = front ++ [edit] := by
  constructor
  case reached =>
    obtain ⟨front, aligns, price, kept⟩ := cheapest.reached
    refine ⟨front ++ [edit], ⟨front, aligns, rfl⟩, ?_, ?_⟩
    · rw [total_concat query text aligns, price]
      rfl
    · rw [keptFrom_concat query text aligns, kept, Cell.after]
      split <;> simp
  case least =>
    rintro _ ⟨front, aligns, rfl⟩
    rw [total_concat query text aligns]
    exact add_le_add_left (cheapest.least front aligns) _
  case most =>
    rintro _ ⟨front, aligns, rfl⟩ same
    rw [total_concat query text aligns] at same
    have fewer := cheapest.most front aligns (add_right_cancel same)
    rw [keptFrom_concat query text aligns, Cell.after]
    split
    · simpa using fewer
    · simpa using fewer

omit [IsStrictOrderedRing κ] in
/-- The best of some cells is the best of all edits that one of them is the best of. -/
theorem Cell.Cheapest.of_bestOf {cell : Cell κ} (parts : List (Cell κ × (List Edit → Prop)))
    (best : cell.BestOf (parts.map Prod.fst))
    (cheapest : ∀ part ∈ parts, part.1.Cheapest prices length part.2) :
    cell.Cheapest prices length fun edits => ∃ part ∈ parts, part.2 edits := by
  constructor
  case reached =>
    obtain ⟨part, member, rfl⟩ := List.mem_map.mp best.among
    obtain ⟨edits, admitted, told⟩ := (cheapest part member).reached
    exact ⟨edits, ⟨part, member, admitted⟩, told⟩
  case least =>
    rintro edits ⟨part, member, admitted⟩
    calc
      cell.cost ≤ part.1.cost := best.least _ (List.mem_map_of_mem member)
      _ ≤ prices.total length 0 edits := (cheapest part member).least edits admitted
  case most =>
    rintro edits ⟨part, member, admitted⟩ price
    have way : part.1 ∈ parts.map Prod.fst := List.mem_map_of_mem member
    have tied : part.1.cost = cell.cost := by
      apply le_antisymm
      · exact price ▸ (cheapest part member).least edits admitted
      · exact best.least _ way
    calc
      (keptFrom 0 edits).length ≤ part.1.kept.length :=
        (cheapest part member).most edits admitted (price.trans tied.symm)
      _ ≤ cell.kept.length := best.most _ way tied

/-- A cell reckoned from three cells that tell the best for less is the best for more. -/
theorem Cell.Cheapest.next (charged : prices.change ≠ 0) {query text : Text} {q c : Char}
    {shorterQuery shorterText shorterBoth : Cell κ}
    (ofQuery : shorterQuery.Cheapest prices length (Aligns query (text ++ [c])))
    (ofText : shorterText.Cheapest prices length (Aligns (query ++ [q]) text))
    (ofBoth : shorterBoth.Cheapest prices length (Aligns query text)) :
    (Cell.next prices (prices.add length (query.length + 1)) (q == c) text.length shorterQuery
      shorterText shorterBoth).Cheapest prices length (Aligns (query ++ [q]) (text ++ [c])) := by
  have deleted := ofQuery.after (.delete q)
  have added := ofText.after (.add c)
  have changed := ofBoth.after (.change q c)
  rw [List.length_append] at deleted added
  have best := Cell.Cheapest.of_bestOf [(_, _), (_, _), (_, _)]
    (bestOf_next length query.length text.length q c shorterQuery shorterText shorterBoth charged)
    (List.forall_mem_cons.mpr ⟨deleted, List.forall_mem_cons.mpr ⟨added,
      List.forall_mem_singleton.mpr changed⟩⟩)
  have admitted : Aligns (query ++ [q]) (text ++ [c]) = _ :=
    funext fun edits => propext aligns_concat_iff
  rw [admitted]
  simpa using best

end Edits

/-! ## The edges of the table -/

section Edges

variable {prices : Prices κ}

/-- Nothing is written only by deleting the query. -/
theorem aligns_nil_right_iff {query : Text} {edits : List Edit} :
    Aligns query [] edits ↔ edits = query.map .delete := by
  constructor
  · rintro ⟨rfl, ofText⟩
    induction edits with
    | nil => rfl
    | cons edit rest inductionHypothesis =>
        cases edit with
        | delete queried => exact congrArg (Edit.delete queried :: ·) (inductionHypothesis ofText)
        | add written => exact absurd ofText (List.cons_ne_nil _ _)
        | change queried written => exact absurd ofText (List.cons_ne_nil _ _)
  · rintro rfl
    constructor
    · simp [queryOf, Function.comp_def, Edit.queried?]
    · simp [textOf, Function.comp_def, Edit.written?]

/-- Of nothing a text comes only by adding it. -/
theorem aligns_nil_left_iff {text : Text} {edits : List Edit} :
    Aligns [] text edits ↔ edits = text.map .add := by
  constructor
  · rintro ⟨ofQuery, rfl⟩
    induction edits with
    | nil => rfl
    | cons edit rest inductionHypothesis =>
        cases edit with
        | delete queried => exact absurd ofQuery (List.cons_ne_nil _ _)
        | add written => exact congrArg (Edit.add written :: ·) (inductionHypothesis ofQuery)
        | change queried written => exact absurd ofQuery (List.cons_ne_nil _ _)
  · rintro rfl
    constructor
    · simp [queryOf, Function.comp_def, Edit.queried?]
    · simp [textOf, Function.comp_def, Edit.written?]

omit [LinearOrder κ] in
theorem total_delete (length used : Nat) (query : Text) :
    prices.total length used (query.map .delete) = prices.delete * (query.length : κ) := by
  induction query generalizing used with
  | nil => simp [Prices.total]
  | cons q query inductionHypothesis =>
      rw [List.map_cons, Prices.total, inductionHypothesis, List.length_cons, Nat.cast_succ,
        mul_add, mul_one, add_comm]
      rfl

omit [LinearOrder κ] in
/-- Characters that are added at one place of the query cost the same. -/
theorem total_add {length used : Nat} {price : κ}
    (same : ∀ c, prices.edit length used (.add c) = price) (text : Text) :
    prices.total length used (text.map .add) = price * (text.length : κ) := by
  induction text with
  | nil => simp [Prices.total]
  | cons c text inductionHypothesis =>
      rw [List.map_cons, Prices.total, same, List.length_cons, Nat.cast_succ, mul_add, mul_one,
        add_comm]
      exact congrArg (· + price) inductionHypothesis

theorem keptFrom_map_of_not_keeps {edit : Char → Edit} (plain : ∀ c, (edit c).keeps = false)
    (position : Nat) (text : Text) : keptFrom position (text.map edit) = [] := by
  induction text generalizing position with
  | nil => rfl
  | cons c text inductionHypothesis => simp [keptFrom, plain, inductionHypothesis]

/-- Where only one list of edits is admitted, it is the cheapest. -/
theorem Cell.Cheapest.of_eq {length : Nat} {edits : List Edit} {cost : κ}
    (price : prices.total length 0 edits = cost) (kept : keptFrom 0 edits = []) :
    Cell.Cheapest prices length (· = edits) ⟨cost, []⟩ := by
  constructor
  case reached => exact ⟨edits, rfl, price, kept⟩
  case least =>
    rintro _ rfl
    exact price.ge
  case most =>
    rintro _ rfl _
    rw [kept]

theorem cheapest_zero_right (prices : Prices κ) (length : Nat) (query : Text) :
    Cell.Cheapest prices length (Aligns query []) ⟨prices.delete * (query.length : κ), []⟩ := by
  have admitted : Aligns query [] = (· = query.map .delete) :=
    funext fun edits => propext aligns_nil_right_iff
  rw [admitted]
  apply Cell.Cheapest.of_eq (total_delete _ _ _)
  exact keptFrom_map_of_not_keeps (fun _ => rfl) _ _

theorem cheapest_zero_left (prices : Prices κ) (length : Nat) (text : Text) :
    Cell.Cheapest prices length (Aligns [] text) ⟨prices.addBefore * (text.length : κ), []⟩ := by
  have admitted : Aligns [] text = (· = text.map .add) :=
    funext fun edits => propext aligns_nil_left_iff
  rw [admitted]
  apply Cell.Cheapest.of_eq (total_add (fun _ => rfl) _)
  exact keptFrom_map_of_not_keeps (fun _ => rfl) _ _

end Edges

/-! ## The whole table -/

section Table

variable [IsStrictOrderedRing κ] [Inhabited κ] {prices : Prices κ}

/-- Each cell of the table tells the best for the starts of query and text that it belongs to. -/
theorem cheapest_cellAt (charged : prices.change ≠ 0) (query text : Text) {row column : Nat}
    (rowInside : row ≤ query.length) (columnInside : column ≤ text.length) :
    (cellAt (reckoned prices query text) row column).Cheapest prices query.length
      (Aligns (query.take row) (text.take column)) := by
  have leftEdge : ∀ row ≤ query.length, (cellAt (reckoned prices query text) row 0).Cheapest
      prices query.length (Aligns (query.take row) (text.take 0)) := by
    intro row inside
    have edge := cheapest_zero_right prices query.length (query.take row)
    rwa [List.length_take_of_le inside, ← cellAt_zero_right prices text inside] at edge
  induction row generalizing column with
  | zero =>
      cases column with
      | zero => exact leftEdge 0 rowInside
      | succ column =>
          have edge := cheapest_zero_left prices query.length (text.take (column + 1))
          rwa [List.length_take_of_le columnInside,
            ← cellAt_zero_left prices query columnInside] at edge
  | succ row above =>
      have queryTaken := List.take_succ_eq_append_getElem rowInside
      induction column with
      | zero => exact leftEdge (row + 1) rowInside
      | succ column left =>
          have textTaken := List.take_succ_eq_append_getElem columnInside
          have aboveCell := above (Nat.le_of_lt rowInside) columnInside
          have leftCell := left (Nat.le_of_lt columnInside)
          have bothCell := above (Nat.le_of_lt rowInside) (Nat.le_of_lt columnInside)
          rw [textTaken] at aboveCell
          rw [queryTaken] at leftCell
          have next := Cell.Cheapest.next charged aboveCell leftCell bothCell
          rw [List.length_take_of_le (Nat.le_of_lt rowInside),
            List.length_take_of_le (Nat.le_of_lt columnInside)] at next
          rw [cellAt_succ prices rowInside columnInside, queryTaken, textTaken]
          exact next

/-- The result tells the best of all edits that turn the query into the text. -/
theorem cheapest_lastCell (charged : prices.change ≠ 0) (query text : Text) :
    (lastCell (reckoned prices query text)).Cheapest prices query.length (Aligns query text) := by
  have corner := cheapest_cellAt charged query text (Nat.le_refl _) (Nat.le_refl _)
  rwa [← lastCell_reckoned, List.take_length, List.take_length] at corner

end Table

/-! ## Distances -/

theorem Alignment.aligns {query text : Text} (alignment : Alignment query text) :
    Aligns query text alignment.edits :=
  ⟨alignment.queryOf_edits, alignment.textOf_edits⟩

/-- Of all alignments, the result tells the least price. -/
theorem isLeast_cost_lastCell [IsStrictOrderedRing κ] [Inhabited κ] {prices : Prices κ}
    (charged : prices.change ≠ 0) (query text : Text) :
    IsLeast (Set.range fun alignment : Alignment query text => alignment.price prices)
      (lastCell (reckoned prices query text)).cost := by
  have cheapest := cheapest_lastCell charged query text
  constructor
  · obtain ⟨edits, ⟨ofQuery, ofText⟩, price, _⟩ := cheapest.reached
    exact ⟨⟨edits, ofQuery, ofText⟩, price⟩
  · rintro _ ⟨alignment, rfl⟩
    exact cheapest.least alignment.edits alignment.aligns

/-- A query that does not get longer in lower case is compared. -/
theorem comparedQuery_of_length_le {query : Text} (fits : query.lower.length ≤ query.length) :
    comparedQuery query = .ok query.lower := by
  rw [comparedQuery, if_neg (Nat.not_lt.mpr fits)]

theorem charged_standard : (Prices.standard (κ := ℚ)).change ≠ 0 :=
  Nat.cast_ne_zero.mpr Nat.one_ne_zero

/-- The distance of a text from a query is the least price of the alignments of what is compared:
the query in lower case and the lower case of the text, cut to the length of the text. -/
theorem isLeast_distance (text : Text) {query : Text}
    (fits : query.lower.length ≤ query.length) :
    ∃ least : ℚ, distance Prices.standard text query = .ok least ∧
      IsLeast (Set.range fun alignment : Alignment query.lower (text.lower.take text.length) =>
        alignment.price Prices.standard) least := by
  refine ⟨_, ?_, isLeast_cost_lastCell charged_standard query.lower _⟩
  rw [distance, comparedQuery_of_length_le fits]
  rfl

/-- A character stands ahead of the query, one inside it and one behind it. -/
theorem isLeast_distance_gap :
    (Text.lower "Cty").length ≤ ("Cty" : Text).length ∧
      distance (Prices.standard (κ := ℚ)) "xCiTyz" "Cty" = .ok (1101 / 10000) ∧
      IsLeast (Set.range fun alignment :
          Alignment (Text.lower "Cty") ((Text.lower "xCiTyz").take ("xCiTyz" : Text).length) =>
        alignment.price (Prices.standard (κ := ℚ))) (1101 / 10000) := by
  have fits : (Text.lower "Cty").length ≤ ("Cty" : Text).length := by
    decide
  have near : distance (Prices.standard (κ := ℚ)) "xCiTyz" "Cty" = .ok (1101 / 10000) := by
    decide +kernel
  obtain ⟨least, told, isLeast⟩ := isLeast_distance "xCiTyz" fits
  obtain rfl : least = 1101 / 10000 := Except.ok.inj (told.symm.trans near)
  exact ⟨fits, near, isLeast⟩

end Typeahead.Fuzzy

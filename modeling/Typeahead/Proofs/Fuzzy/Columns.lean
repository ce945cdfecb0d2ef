import Mathlib.Data.List.Induction
import Typeahead.Fuzzy.Ranking

/-!
# The columns of an alignment

The columns of a text are reckoned one by one, each from the one before it and one more character.
So the columns of a text are the newest ones in front of those of its start. They fill the table of
a query and a text exactly if the query keeps its length in lower case: no cell that the next column
or the result is reckoned from is missing, and no position outside the text is kept.
-/

namespace Typeahead.Fuzzy

variable {κ : Type} [Add κ] [Mul κ] [NatCast κ] [LE κ] [DecidableLE κ] [BEq κ]

/-! ## What is compared -/

theorem comparedQuery_of_not_mem {query : Text} (absent : 'İ' ∉ query) :
    comparedQuery query = .ok query.lower := by
  simp [comparedQuery, (Text.length_lower_eq_iff query).mpr absent]

theorem comparedQuery_of_mem {query : Text} (present : 'İ' ∈ query) :
    comparedQuery query = .error .growsInLowerCase := by
  have longer := List.count_pos_iff.mpr present
  simp [comparedQuery, Text.length_lower, longer]

/-- As many characters of a text are compared as it has. -/
theorem length_comparedText (text : Text) : (comparedText text).length = text.length := by
  rw [comparedText, List.length_take]
  exact Nat.min_eq_left (Text.length_le_length_lower text)

/-! ## Columns one by one -/

/-- The columns of characters for a query in lower case, the widest first. -/
def reckoned (prices : Prices κ) (query text : Text) : List (Column κ) :=
  extend prices query [Column.first prices query] text

section Extending

variable {prices : Prices κ} {query : Text}

/-- Columns are added for one stretch of characters after the other. -/
theorem extend_append (known : List (Column κ)) (first second : Text) :
    extend prices query known (first ++ second) =
      extend prices query (extend prices query known first) second := by
  induction first generalizing known with
  | nil => rfl
  | cons c rest inductionHypothesis => exact inductionHypothesis _

theorem reckoned_append (first second : Text) :
    reckoned prices query (first ++ second) =
      extend prices query (reckoned prices query first) second :=
  extend_append _ first second

variable (prices query) in
theorem reckoned_ne_nil (text : Text) : reckoned prices query text ≠ [] := by
  induction text using List.reverseRecOn with
  | nil => exact List.cons_ne_nil _ _
  | append_singleton text c _ =>
      rw [reckoned_append]
      exact List.cons_ne_nil _ _

/-- One more character adds one column, which is reckoned from the widest one before. -/
theorem reckoned_concat (text : Text) (c : Char) :
    reckoned prices query (text ++ [c]) =
      ((reckoned prices query text).head (reckoned_ne_nil prices query text)).next prices query c ::
        reckoned prices query text := by
  rw [reckoned_append, extend, List.head?_eq_some_head (reckoned_ne_nil prices query text)]
  rfl

/-! ## Widths -/

/-- The widest column belongs to the whole text. -/
theorem width_head_reckoned (text : Text) :
    ((reckoned prices query text).head (reckoned_ne_nil prices query text)).width =
      text.length := by
  induction text using List.reverseRecOn with
  | nil => rfl
  | append_singleton text c inductionHypothesis =>
      simp [reckoned_concat, Column.next, inductionHypothesis]

/-- There is a column for each number of characters of the text. -/
theorem length_reckoned (text : Text) :
    (reckoned prices query text).length = text.length + 1 := by
  induction text using List.reverseRecOn with
  | nil => rfl
  | append_singleton text c inductionHypothesis => simp [reckoned_concat, inductionHypothesis]

/-- Without the columns that are too wide, those of the start of the text are left. -/
theorem dropWhile_reckoned (text : Text) (width : Nat) :
    (reckoned prices query text).dropWhile (width < ·.width) =
      reckoned prices query (text.take width) := by
  induction text using List.reverseRecOn with
  | nil => simp [reckoned, extend, Column.first]
  | append_singleton text c inductionHypothesis =>
      have widest : (((reckoned prices query text).head
          (reckoned_ne_nil prices query text)).next prices query c).width = text.length + 1 :=
        congrArg (· + 1) (width_head_reckoned text)
      rw [reckoned_concat, List.dropWhile_cons, widest]
      by_cases narrow : width < text.length + 1
      · rw [if_pos (decide_eq_true narrow), inductionHypothesis,
          List.take_append_of_le_length (Nat.le_of_lt_succ narrow)]
      · rw [if_neg (by simpa using narrow), List.take_of_length_le (by simpa using narrow),
          reckoned_concat]

end Extending

/-! ## Cells -/

section Cells

variable {prices : Prices κ} {query : Text}

omit [Mul κ] [NatCast κ] in
/-- A column has a cell for each number of characters of the query. -/
theorem length_nextCells (c : Char) (position : Nat) (above : Cell κ) {before : List (Cell κ)}
    (full : before.length = query.length + 1) :
    (nextCells prices c position query above before).length = query.length := by
  induction query generalizing above before with
  | nil => simp [nextCells]
  | cons q query inductionHypothesis =>
      match before, full with
      | first :: left :: others, full =>
          simp only [nextCells, List.length_cons]
          rw [inductionHypothesis _ (Nat.succ.inj full)]

theorem length_cells_reckoned (text : Text) {column : Column κ}
    (member : column ∈ reckoned prices query text) : column.cells.length = query.length + 1 := by
  induction text using List.reverseRecOn generalizing column with
  | nil =>
      obtain rfl := List.mem_singleton.mp member
      simp [Column.first]
  | append_singleton text c inductionHypothesis =>
      rw [reckoned_concat] at member
      rcases List.mem_cons.mp member with rfl | earlier
      · have full := inductionHypothesis (List.head_mem (reckoned_ne_nil prices query text))
        simp [Column.next, length_nextCells _ _ _ full]
      · exact inductionHypothesis earlier

variable (prices query) in
/-- The result is read off a cell of the widest column. -/
theorem exists_lastCell_mem [Inhabited κ] (text : Text) :
    ∃ column ∈ reckoned prices query text,
      lastCell (reckoned prices query text) ∈ column.cells := by
  let widest := (reckoned prices query text).head (reckoned_ne_nil prices query text)
  have member : widest ∈ reckoned prices query text := List.head_mem _
  have present : widest.cells ≠ [] := by
    apply List.ne_nil_of_length_pos
    rw [length_cells_reckoned text member]
    exact Nat.succ_pos _
  refine ⟨widest, member, ?_⟩
  rw [lastCell, List.head?_eq_some_head (reckoned_ne_nil prices query text)]
  simp only [Option.map_some, Option.getD_some, Column.last]
  rw [List.getLast?_eq_some_getLast present]
  exact List.getLast_mem present

end Cells

/-! ## What all cells share -/

/-- Something that holds of the cells of the first column and at the top of each later one, and that
a cell takes over from the three before it. It may depend on the number of characters. -/
structure Prices.Carry (prices : Prices κ) (holds : Nat → Cell κ → Prop) : Prop where
  first : ∀ count : Nat, holds 0 ⟨prices.delete * (count : κ), []⟩
  top : ∀ width : Nat, holds (width + 1) ⟨prices.addBefore * ((width + 1 : Nat) : κ), []⟩
  next : ∀ {width : Nat} {same : Bool} {add : κ} {shorterQuery shorterText shorterBoth : Cell κ},
    add = prices.addAfter ∨ add = prices.addBetween →
      holds (width + 1) shorterQuery → holds width shorterText → holds width shorterBoth →
        holds (width + 1)
          (Cell.next prices add same width shorterQuery shorterText shorterBoth)

section Carried

variable {prices : Prices κ} {query : Text} {holds : Nat → Cell κ → Prop}

theorem holds_nextCells (carry : prices.Carry holds) (c : Char) {width : Nat} {above : Cell κ}
    {before : List (Cell κ)} (ofAbove : holds (width + 1) above)
    (ofBefore : ∀ cell ∈ before, holds width cell) :
    ∀ cell ∈ nextCells prices c width query above before, holds (width + 1) cell := by
  induction query generalizing above before with
  | nil => simp [nextCells]
  | cons q query inductionHypothesis =>
      match before with
      | [] | [_] => simp [nextCells]
      | first :: left :: others =>
          obtain ⟨ofFirst, ofLeft, ofOthers⟩ : holds width first ∧ holds width left ∧
              ∀ cell ∈ others, holds width cell := by simpa using ofBefore
          have ofLater : ∀ cell ∈ left :: others, holds width cell := by
            simpa using ⟨ofLeft, ofOthers⟩
          have ofCell : holds (width + 1) (Cell.next prices
              (if query.isEmpty then prices.addAfter else prices.addBetween) (q == c) width above
                left first) :=
            carry.next (ite_eq_or_eq _ _ _) ofAbove ofLeft ofFirst
          simp only [nextCells, List.mem_cons]
          rintro cell (rfl | later)
          · exact ofCell
          · exact inductionHypothesis ofCell ofLater cell later

/-- What a cell takes over from those before it holds of all cells. -/
theorem holds_of_mem_reckoned (carry : prices.Carry holds) (text : Text) {column : Column κ}
    (member : column ∈ reckoned prices query text) :
    ∀ cell ∈ column.cells, holds column.width cell := by
  induction text using List.reverseRecOn generalizing column with
  | nil =>
      obtain rfl := List.mem_singleton.mp member
      simp only [Column.first, List.mem_map]
      rintro _ ⟨count, -, rfl⟩
      exact carry.first count
  | append_singleton text c inductionHypothesis =>
      rw [reckoned_concat] at member
      rcases List.mem_cons.mp member with rfl | earlier
      · have before := inductionHypothesis (List.head_mem (reckoned_ne_nil prices query text))
        simp only [Column.next, List.mem_cons]
        rintro cell (rfl | below)
        · exact carry.top _
        · exact holds_nextCells carry c (carry.top _) before cell below
      · exact inductionHypothesis earlier

end Carried

/-! ## Costs -/

/-- Whatever is reckoned with the prices is of a kind. -/
structure Prices.Yield (prices : Prices κ) (kind : κ → Prop) : Prop where
  deleted : ∀ count : Nat, kind (prices.delete * (count : κ))
  addedBefore : ∀ count : Nat, kind (prices.addBefore * (count : κ))
  add : ∀ cost, kind cost → kind (cost + prices.delete) ∧ kind (cost + prices.change) ∧
    kind (cost + prices.addBetween) ∧ kind (cost + prices.addAfter)

section Costs

variable {prices : Prices κ} {kind : κ → Prop} {query : Text}

omit [Add κ] [Mul κ] [NatCast κ] [BEq κ] in
theorem kind_cheaper {first second : κ} (ofFirst : kind first) (ofSecond : kind second) :
    kind (cheaper first second) := by
  unfold cheaper
  split
  · exact ofFirst
  · exact ofSecond

theorem Prices.Yield.carry (yield : prices.Yield kind) :
    prices.Carry fun _ cell => kind cell.cost where
  first := yield.deleted
  top _ := yield.addedBefore _
  next {_ same add _ shorterText shorterBoth} either ofQuery ofText ofBoth := by
    have ofAdded : kind (shorterText.cost + add) := by
      rcases either with rfl | rfl
      · exact (yield.add _ ofText).2.2.2
      · exact (yield.add _ ofText).2.2.1
    apply kind_cheaper (kind_cheaper (yield.add _ ofQuery).1 ofAdded)
    cases same with
    | true => exact ofBoth
    | false => exact (yield.add _ ofBoth).2.1

/-- The price of an alignment is of the kind that the prices yield. -/
theorem kind_lastCell [Inhabited κ] (yield : prices.Yield kind) (text : Text) :
    kind (lastCell (reckoned prices query text)).cost := by
  obtain ⟨column, member, last⟩ := exists_lastCell_mem prices query text
  exact holds_of_mem_reckoned yield.carry text member _ last

end Costs

/-! ## Kept positions -/

theorem longest_eq_nil_or_mem (lists : List (List Nat)) :
    longest lists = [] ∨ longest lists ∈ lists := by
  fun_induction longest with
  | case1 => exact .inl rfl
  | case2 kept => exact .inr (List.mem_singleton_self _)
  | case3 kept others present best longer inductionHypothesis =>
      exact .inr List.mem_cons_self
  | case4 kept others present best shorter inductionHypothesis =>
      exact inductionHypothesis.imp_right (List.mem_cons_of_mem _)

theorem eq_or_mem_of_mem_ite {matched : Prop} [Decidable matched] {position other : Nat}
    {kept : List Nat} (member : other ∈ if matched then position :: kept else kept) :
    other = position ∨ other ∈ kept := by
  split at member
  · exact List.mem_cons.mp member
  · exact .inr member

section Kept

variable {prices : Prices κ}

omit [Mul κ] [NatCast κ] in
/-- A cell keeps what one of the cells before it keeps, and besides at most the newest position. -/
theorem mem_kept_next {add : κ} {same : Bool} {position other : Nat}
    {shorterQuery shorterText shorterBoth : Cell κ}
    (kept : other ∈
      (Cell.next prices add same position shorterQuery shorterText shorterBoth).kept) :
    other = position ∨ other ∈ shorterQuery.kept ∨ other ∈ shorterText.kept ∨
      other ∈ shorterBoth.kept := by
  rcases longest_eq_nil_or_mem _ with nothing | among
  · rw [Cell.next, nothing] at kept
    contradiction
  · obtain ⟨way, chosen, same⟩ := List.mem_map.mp among
    have listed := (List.mem_filter.mp chosen).1
    rw [Cell.next, ← same] at kept
    simp only [List.mem_cons, List.not_mem_nil, or_false] at listed
    rcases listed with rfl | rfl | rfl
    · exact .inr (.inl kept)
    · exact .inr (.inr (.inl kept))
    · exact (eq_or_mem_of_mem_ite kept).imp_right fun earlier => .inr (.inr earlier)

/-- The kept positions lie in the text. -/
theorem carry_kept : prices.Carry fun width cell => ∀ position ∈ cell.kept, position < width where
  first _ := by simp
  top _ := by simp
  next _ ofQuery ofText ofBoth := by
    intro position kept
    rcases mem_kept_next kept with rfl | inQuery | inText | inBoth
    · exact Nat.lt_succ_self _
    · exact ofQuery position inQuery
    · exact Nat.lt_succ_of_lt (ofText position inText)
    · exact Nat.lt_succ_of_lt (ofBoth position inBoth)

end Kept

/-! ## Stretches -/

/-- The stretches of a text join to the text. -/
theorem flatten_stretches (marked : Nat → Bool) (position : Nat) (high : Bool) (text : Text) :
    (stretches marked position high text).flatten = text := by
  induction text generalizing position high with
  | nil => rfl
  | cons c rest inductionHypothesis =>
      have others := inductionHypothesis (position + 1) (marked position)
      rw [stretches]
      cases cut : stretches marked (position + 1) (marked position) rest with
      | nil =>
          rw [cut] at others
          rw [← others]
          split <;> rfl
      | cons stretch later =>
          rw [cut] at others
          rw [← others]
          split <;> rfl

/-! ## The table of a query and a text -/

/-- The columns fill a table with a row for each number of characters of a query and a column for
each number of characters of a text, and keep nothing outside it. -/
structure Fills (query text : Text) (columns : List (Column κ)) : Prop where
  width : columns.length = text.length + 1
  height : ∀ column ∈ columns, column.cells.length = query.length + 1
  kept : ∀ column ∈ columns, ∀ cell ∈ column.cells, ∀ position ∈ cell.kept, position < text.length

theorem width_le_of_mem_reckoned {prices : Prices κ} {query text : Text} {column : Column κ}
    (member : column ∈ reckoned prices query text) : column.width ≤ text.length := by
  induction text using List.reverseRecOn with
  | nil =>
      obtain rfl := List.mem_singleton.mp member
      exact Nat.le_refl 0
  | append_singleton text c inductionHypothesis =>
      rw [reckoned_concat] at member
      rw [List.length_append]
      rcases List.mem_cons.mp member with rfl | earlier
      · exact Nat.succ_le_succ (Nat.le_of_eq (width_head_reckoned text))
      · exact Nat.le_succ_of_le (inductionHypothesis earlier)

/-- The columns for the lower case of a query fill its table exactly if it has no dotted capital I,
whatever the text holds. -/
theorem fills_columns_iff (prices : Prices κ) (query text : Text) :
    Fills query text (columns prices query.lower text) ↔ 'İ' ∉ query := by
  have compared : columns prices query.lower text =
      reckoned prices query.lower (comparedText text) :=
    rfl
  rw [compared, ← Text.length_lower_eq_iff]
  constructor
  · intro fills
    have here := List.head_mem (reckoned_ne_nil prices query.lower (comparedText text))
    have height := fills.height _ here
    rw [length_cells_reckoned _ here] at height
    exact Nat.succ.inj height
  · intro same
    constructor
    case width => rw [length_reckoned, length_comparedText]
    case height =>
      intro column member
      rw [length_cells_reckoned _ member, same]
    case kept =>
      intro column member cell among position kept
      have inside := holds_of_mem_reckoned carry_kept _ member cell among position kept
      have narrow := width_le_of_mem_reckoned member
      rw [length_comparedText] at narrow
      omega

end Typeahead.Fuzzy

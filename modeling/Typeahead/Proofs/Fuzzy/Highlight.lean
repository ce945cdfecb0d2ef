import Mathlib.Data.List.Sort
import Typeahead.Proofs.Fuzzy.Cheapest
import Typeahead.Proofs.Fuzzy.WalkBack

/-!
# What a highlight shows

The stretches of a highlight are plain and highlighted in turn, and the highlighted characters are
those that one of the cheapest alignments keeps, one that keeps the most characters. The walk back
through the table finds it.
-/

namespace Typeahead.Fuzzy

/-! ## Highlighted positions -/

/-- The positions of the highlighted characters of stretches behind a position, which are
highlighted in turn. -/
def highlightedFrom : Nat → Bool → List Text → List Nat
  | _, _, [] => []
  | position, high, stretch :: others =>
      (if high then List.range' position stretch.length else []) ++
        highlightedFrom (position + stretch.length) (!high) others

/-- The positions of the highlighted characters of stretches, of which the first one is plain. -/
def highlighted (stretches : List Text) : List Nat :=
  highlightedFrom 0 false stretches

theorem highlightedFrom_cons_cons (position : Nat) (high : Bool) (c : Char) (stretch : Text)
    (later : List Text) :
    highlightedFrom position high ((c :: stretch) :: later) =
      (if high then [position] else []) ++
        highlightedFrom (position + 1) high (stretch :: later) := by
  have behind : position + (stretch.length + 1) = position + 1 + stretch.length := by
    omega
  cases high <;> simp [highlightedFrom, List.range'_succ, behind]

theorem filter_range'_succ (marked : Nat → Bool) (position length : Nat) :
    (List.range' position (length + 1)).filter marked =
      (if marked position then [position] else []) ++
        (List.range' (position + 1) length).filter marked := by
  rw [List.range'_succ, List.filter_cons]
  split <;> rfl

/-! ## Stretches -/

section Stretches

variable {marked : Nat → Bool} {position : Nat} {high : Bool}

theorem stretches_ne_nil (text : Text) : stretches marked position high text ≠ [] := by
  cases text with
  | nil => exact List.cons_ne_nil _ _
  | cons c rest =>
      rw [stretches]
      split
      · split <;> exact List.cons_ne_nil _ _
      · exact List.cons_ne_nil _ _

/-- A character that is marked like the first stretch belongs to it. -/
theorem exists_stretches_cons (c : Char) (rest : Text) :
    ∃ stretch later,
      stretches marked (position + 1) (marked position) rest = stretch :: later ∧
        stretches marked position (marked position) (c :: rest) = (c :: stretch) :: later := by
  have filled : stretches marked (position + 1) (marked position) rest ≠ [] :=
    stretches_ne_nil rest
  obtain ⟨stretch, later, cut⟩ := List.exists_cons_of_ne_nil filled
  refine ⟨stretch, later, cut, ?_⟩
  rw [stretches, cut, if_pos rfl]

/-- A character that is marked otherwise leaves the first stretch empty. -/
theorem stretches_cons_of_ne (turned : marked position ≠ high) (c : Char) (rest : Text) :
    stretches marked position high (c :: rest) =
      [] :: stretches marked position (marked position) (c :: rest) := by
  rw [stretches, stretches, if_neg turned, if_pos rfl]

/-- The highlighted characters are the marked ones. -/
theorem highlightedFrom_stretches (text : Text) :
    highlightedFrom position high (stretches marked position high text) =
      (List.range' position text.length).filter marked := by
  induction text generalizing position high with
  | nil => cases high <;> rfl
  | cons c rest inductionHypothesis =>
      have like : highlightedFrom position (marked position)
          (stretches marked position (marked position) (c :: rest)) =
            (List.range' position (c :: rest).length).filter marked := by
        obtain ⟨stretch, later, cut, grown⟩ := exists_stretches_cons c rest
        rw [grown, highlightedFrom_cons_cons, ← cut, inductionHypothesis, List.length_cons,
          filter_range'_succ]
      by_cases same : marked position = high
      · rw [← same]
        exact like
      · have other : (!high) = marked position := by
          cases high <;> simpa using same
        rw [stretches_cons_of_ne same, highlightedFrom, other]
        cases high <;> exact like

/-- Only the first stretch may be empty. -/
theorem ne_nil_of_mem_tail_stretches {text stretch : Text}
    (member : stretch ∈ (stretches marked position high text).tail) : stretch ≠ [] := by
  induction text generalizing position high with
  | nil => contradiction
  | cons c rest inductionHypothesis =>
      obtain ⟨first, later, cut, grown⟩ := exists_stretches_cons c rest
      have laterFilled : stretch ∈ later → stretch ≠ [] := by
        intro isLater
        apply inductionHypothesis
        rw [cut]
        exact isLater
      by_cases same : marked position = high
      · rw [← same, grown] at member
        exact laterFilled member
      · rw [stretches_cons_of_ne same, grown] at member
        rcases List.mem_cons.mp member with rfl | isLater
        · exact List.cons_ne_nil _ _
        · exact laterFilled isLater

end Stretches

/-! ## Best alignments -/

/-- Ascending positions are picked out of all positions. -/
theorem filter_contains_range' {positions : List Nat} (ascending : positions.Pairwise (· < ·))
    {length : Nat} (inside : ∀ position ∈ positions, position < length) :
    (List.range' 0 length).filter positions.contains = positions := by
  have pairwise : ((List.range' 0 length).filter positions.contains).Pairwise (· < ·) :=
    List.Pairwise.sublist List.filter_sublist List.pairwise_lt_range'
  apply List.Perm.eq_of_pairwise' (pairwise.imp Nat.le_of_lt) (ascending.imp Nat.le_of_lt)
  apply (List.perm_ext_iff_of_nodup (pairwise.imp Nat.ne_of_lt) (ascending.imp Nat.ne_of_lt)).mpr
  intro position
  simp only [List.mem_filter, List.contains_iff_mem, List.mem_range'_1, Nat.zero_le, Nat.zero_add,
    true_and]
  exact and_iff_right_of_imp (inside position)

namespace Alignment

variable {query text : Text}

/-- Of all alignments none is cheaper, and none that is as cheap keeps more characters. -/
structure KeepsMost {κ : Type} [Field κ] [LinearOrder κ] (prices : Prices κ)
    (alignment : Alignment query text) : Prop where
  cheapest : ∀ other : Alignment query text, alignment.price prices ≤ other.price prices
  most : ∀ other : Alignment query text, other.price prices = alignment.price prices →
    other.kept.length ≤ alignment.kept.length

theorem kept_inside (alignment : Alignment query text) :
    ∀ position ∈ alignment.kept, position < text.length := by
  intro position member
  have bounds := (bounds_of_mem_keptFrom member).2
  rwa [alignment.textOf_edits, Nat.zero_add] at bounds

end Alignment

/-- The result keeps what a best alignment keeps. -/
theorem exists_keepsMost {κ : Type} [Field κ] [LinearOrder κ] [IsStrictOrderedRing κ] [Inhabited κ]
    {prices : Prices κ} (charged : prices.change ≠ 0) (query text : Text) :
    ∃ alignment : Alignment query text, alignment.KeepsMost prices ∧
      alignment.kept = (lastCell (reckoned prices query text)).kept.reverse := by
  have cheapest := cheapest_lastCell charged query text
  obtain ⟨edits, ⟨ofQuery, ofText⟩, price, kept⟩ := cheapest.reached
  refine ⟨⟨edits, ofQuery, ofText⟩, ?_, kept⟩
  constructor
  · intro other
    exact price.trans_le (cheapest.least other.edits other.aligns)
  · intro other same
    calc
      other.kept.length ≤ (lastCell (reckoned prices query text)).kept.length :=
        cheapest.most other.edits other.aligns (same.trans price)
      _ = (keptFrom 0 edits).length := by rw [kept, List.length_reverse]

/-! ## Highlights -/

/-- The stretches of a text show what an alignment keeps: they join to the text, none but the first
is empty, the highlighted characters are the kept ones, and they stand in the query in the same
order. -/
structure Shows {query compared : Text} (text : Text) (segments : List Text)
    (alignment : Alignment query compared) : Prop where
  joined : segments.flatten = text
  filled : ∀ segment ∈ segments.tail, segment ≠ []
  marked : highlighted segments = alignment.kept
  spelled : ((highlighted segments).filterMap (compared[·]?)).Sublist query

/-- The highlight for a query in lower case shows what is kept, whichever way it was found. -/
theorem shows_highlightLowered {κ : Type} [Add κ] [Mul κ] [NatCast κ] [LE κ] [DecidableLE κ] [BEq κ]
    [Inhabited κ] {prices : Prices κ} {query text : Text}
    (alignment : Alignment query (comparedText text))
    (kept : alignment.kept = (lastCell (columns prices query text)).kept.reverse) :
    Shows text (highlightLowered prices text query) alignment := by
  have marked : highlighted (highlightLowered prices text query) = alignment.kept := by
    have contains : (lastCell (columns prices query text)).kept.contains =
        alignment.kept.contains := by
      funext position
      rw [kept, List.contains_reverse]
    rw [highlightLowered, contains, highlighted, highlightedFrom_stretches]
    apply filter_contains_range' (pairwise_keptFrom 0 alignment.edits)
    intro position member
    have inside := alignment.kept_inside position member
    rwa [length_comparedText] at inside
  constructor
  case joined => exact flatten_stretches _ _ _ _
  case filled => exact fun segment member => ne_nil_of_mem_tail_stretches member
  case marked => exact marked
  case spelled =>
    rw [marked]
    exact alignment.spelled_sublist

/-- The highlight of a text shows what one of the cheapest alignments keeps, of these one that keeps
the most characters. The walk back from the far corner of the table finds it: each cell but the
first one has a step back, and the walk ends at the first one. -/
theorem exists_shows_highlight (text : Text) {query : Text}
    (fits : query.lower.length ≤ query.length) :
    ∃ (segments : List Text) (alignment : Alignment query.lower (text.lower.take text.length)),
      highlight (Prices.standard (κ := ℚ)) text query = .ok segments ∧
        Shows text segments alignment ∧
        alignment.KeepsMost (Prices.standard (κ := ℚ)) ∧
        (∀ row ≤ query.lower.length, ∀ column ≤ text.length, ¬(row = 0 ∧ column = 0) →
          stepsBack Prices.standard query.lower (comparedText text)
            (columns (Prices.standard (κ := ℚ)) query.lower text) row column ≠ []) ∧
        walkBack Prices.standard query.lower (comparedText text)
          (columns (Prices.standard (κ := ℚ)) query.lower text) query.lower.length text.length =
            some (highlighted segments) := by
  obtain ⟨alignment, most, kept⟩ :=
    exists_keepsMost charged_standard query.lower (comparedText text)
  have segments := shows_highlightLowered alignment kept
  refine ⟨_, alignment, ?_, segments, most, ?_, ?_⟩
  · rw [highlight, comparedQuery_of_length_le fits]
    rfl
  · intro row rowInside column columnInside further
    rw [← length_comparedText text] at columnInside
    exact stepsBack_ne_nil _ rowInside columnInside further
  · rw [segments.marked, kept, ← length_comparedText text]
    exact walkBack_corner _ _ _

/-- A query whose characters stand apart in the text. -/
theorem exists_shows_highlight_apart :
    (Text.lower "Cy").length ≤ ("Cy" : Text).length ∧
      highlight (Prices.standard (κ := ℚ)) "address.City" "Cy" =
        .ok ["address.".toList, "C".toList, "it".toList, "y".toList] ∧
      ∃ alignment : Alignment (Text.lower "Cy")
          ((Text.lower "address.City").take ("address.City" : Text).length),
        Shows "address.City" ["address.".toList, "C".toList, "it".toList, "y".toList] alignment ∧
          alignment.KeepsMost (Prices.standard (κ := ℚ)) := by
  have fits : (Text.lower "Cy").length ≤ ("Cy" : Text).length := by
    decide
  have told : highlight (Prices.standard (κ := ℚ)) "address.City" "Cy" =
      .ok ["address.".toList, "C".toList, "it".toList, "y".toList] := by
    decide +kernel
  obtain ⟨segments, alignment, same, marks, most, -⟩ := exists_shows_highlight "address.City" fits
  obtain rfl : segments = ["address.".toList, "C".toList, "it".toList, "y".toList] :=
    Except.ok.inj (same.symm.trans told)
  exact ⟨fits, told, alignment, marks, most⟩

end Typeahead.Fuzzy

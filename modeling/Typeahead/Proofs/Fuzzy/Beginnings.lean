import Mathlib.Tactic.Linarith
import Mathlib.Tactic.Ring
import Typeahead.Proofs.Fuzzy.Cheapest
import Typeahead.Proofs.Fuzzy.Search

/-!
# Texts that begin with the query

A text cannot be written for less than the characters by which it is longer than the query would
cost behind the query, and it is written for that exactly if it begins with the query. So among
texts of one length those that begin with the query are nearer than all others, and a search puts
them first as long as it measures each text by its own lower case.
-/

namespace Typeahead.Fuzzy

section Prices

variable {κ : Type} [Field κ]

/-! ## What edits cost at least -/

/-- The price behind the query of the characters that edits write beyond those that they use up. -/
def Prices.excess (prices : Prices κ) (edits : List Edit) : κ :=
  prices.addAfter * ((textOf edits).length - (queryOf edits).length)

theorem Prices.excess_cons (prices : Prices κ) (edit : Edit) (rest : List Edit) :
    prices.excess (edit :: rest) = prices.excess [edit] + prices.excess rest := by
  simp only [excess, length_textOf_cons edit rest, length_queryOf_cons edit rest, Nat.cast_add]
  ring

variable [LinearOrder κ]

/-- Behind the query characters are the cheapest to add, and nothing is free but to keep one. -/
structure Prices.FavourEnd (prices : Prices κ) : Prop where
  after : 0 < prices.addAfter
  before : prices.addAfter < prices.addBefore
  between : prices.addAfter < prices.addBetween
  delete : 0 < prices.delete
  change : 0 < prices.change

/-- An edit behind some characters of a query that keeps one, or adds one behind all of them. -/
inductive Edit.Continues (length used : Nat) : Edit → Prop
  | keep (c : Char) : Continues length used (.change c c)
  | add (written : Char) : used = length → Continues length used (.add written)

variable [IsStrictOrderedRing κ] {prices : Prices κ} {length used : Nat}

/-- An edit costs more than its excess, unless it goes on with the query or behind it. -/
theorem Prices.FavourEnd.continues_or_excess_lt (favour : prices.FavourEnd) (length used : Nat)
    (edit : Edit) :
    edit.Continues length used ∧ prices.excess [edit] ≤ prices.edit length used edit ∨
      prices.excess [edit] < prices.edit length used edit := by
  have after := favour.after
  cases edit with
  | delete queried =>
      have excess : prices.excess [.delete queried] = -prices.addAfter := by
        simp [Prices.excess, textOf, queryOf, List.filterMap_cons, Edit.written?, Edit.queried?]
      have price := favour.delete
      refine .inr ?_
      rw [excess, Prices.edit]
      linarith
  | change queried written =>
      have excess : prices.excess [.change queried written] = 0 := by
        simp [Prices.excess, textOf, queryOf, Edit.written?, Edit.queried?]
      rw [excess, Prices.edit]
      by_cases same : queried = written
      · subst same
        exact .inl ⟨.keep queried, by rw [if_pos rfl]⟩
      · rw [if_neg same]
        exact .inr favour.change
  | add written =>
      have excess : prices.excess [.add written] = prices.addAfter := by
        simp [Prices.excess, textOf, queryOf, List.filterMap_cons, Edit.written?, Edit.queried?]
      rw [excess, Prices.edit]
      split
      · exact .inr favour.before
      · split
        · rename_i whole
          exact .inl ⟨.add written whole, le_refl _⟩
        · exact .inr favour.between

theorem Prices.FavourEnd.excess_le_edit (favour : prices.FavourEnd) (length used : Nat)
    (edit : Edit) :
    prices.excess [edit] ≤ prices.edit length used edit := by
  rcases favour.continues_or_excess_lt length used edit with same | more
  · exact same.2
  · exact more.le

/-- Edits cost at least their excess. -/
theorem Prices.FavourEnd.excess_le_total (favour : prices.FavourEnd) (length used : Nat)
    (edits : List Edit) :
    prices.excess edits ≤ prices.total length used edits := by
  induction edits generalizing used with
  | nil => simp [Prices.excess, Prices.total, textOf, queryOf]
  | cons edit rest inductionHypothesis =>
      rw [Prices.excess_cons, Prices.total]
      exact add_le_add (favour.excess_le_edit length used edit) (inductionHypothesis _)

/-- Edits that cost no more than their excess and use up the query write a text that begins with
what they use up. -/
theorem Prices.FavourEnd.prefix_of_total_le (favour : prices.FavourEnd) {edits : List Edit}
    (whole : used + (queryOf edits).length = length)
    (cheap : prices.total length used edits ≤ prices.excess edits) :
    queryOf edits <+: textOf edits := by
  induction edits generalizing used with
  | nil => exact List.prefix_refl []
  | cons edit rest inductionHypothesis =>
      have first := favour.excess_le_edit length used edit
      have others := favour.excess_le_total length (used + (queryOf [edit]).length) rest
      rw [Prices.excess_cons, Prices.total] at cheap
      rw [length_queryOf_cons, ← Nat.add_assoc] at whole
      have begins : queryOf rest <+: textOf rest := inductionHypothesis whole (by linarith)
      rcases favour.continues_or_excess_lt length used edit with
        ⟨continues, _⟩ | more
      · cases continues with
        | keep c => exact (List.prefix_cons_inj c).mpr begins
        | add written behind =>
            -- Behind the whole query nothing of it is left.
            have nothing : queryOf (.add written :: rest) = [] := by
              apply List.eq_nil_of_length_eq_zero
              rw [length_queryOf_cons]
              omega
            rw [nothing]
            exact List.nil_prefix
      · linarith

/-! ## Texts that begin with the query -/

omit [LinearOrder κ] [IsStrictOrderedRing κ] in
theorem total_keep (query : Text) :
    prices.total length used (query.map fun c => .change c c) = 0 := by
  induction query generalizing used with
  | nil => rfl
  | cons c rest inductionHypothesis =>
      rw [List.map_cons, Prices.total, inductionHypothesis, add_zero, Prices.edit, if_pos rfl]

/-- The alignment that keeps the query and adds what follows it. -/
def Alignment.continuing (query rest : Text) : Alignment query (query ++ rest) where
  edits := (query.map fun c => .change c c) ++ rest.map .add
  queryOf_edits := by
    simp [queryOf, List.filterMap_map, Function.comp_def, Edit.queried?]
  textOf_edits := by
    simp [textOf, List.filterMap_map, Function.comp_def, Edit.written?]

omit [LinearOrder κ] [IsStrictOrderedRing κ] in
theorem Alignment.price_continuing {query : Text} (present : query ≠ []) (rest : Text) :
    (Alignment.continuing query rest).price prices = prices.addAfter * (rest.length : κ) := by
  have positive : query.length ≠ 0 := List.length_eq_zero_iff.not.mpr present
  have used : (queryOf (query.map fun c => Edit.change c c)).length = query.length := by
    simp [queryOf, List.filterMap_map, Function.comp_def, Edit.queried?]
  rw [price, continuing, Prices.total_append, total_keep, used, zero_add, Nat.zero_add]
  apply total_add
  intro c
  rw [Prices.edit, if_neg positive, if_pos rfl]

end Prices

/-! ## Distances -/

section Distances

variable {κ : Type} [Field κ] [LinearOrder κ] [IsStrictOrderedRing κ] [Inhabited κ]
  {prices : Prices κ}

/-- The price of a text is at least that of the characters by which it is longer than the query,
added behind the query, and it is that price exactly if the text begins with the query. -/
theorem Prices.FavourEnd.cost_lastCell (favour : prices.FavourEnd) {query : Text}
    (present : query ≠ []) (text : Text) :
    prices.addAfter * (text.length - query.length) ≤ (lastCell (reckoned prices query text)).cost ∧
      ((lastCell (reckoned prices query text)).cost =
          prices.addAfter * (text.length - query.length) ↔ query <+: text) := by
  obtain ⟨⟨alignment, price⟩, least⟩ := isLeast_cost_lastCell favour.change.ne' query text
  have excess : prices.excess alignment.edits =
      prices.addAfter * (text.length - query.length) := by
    rw [Prices.excess, alignment.textOf_edits, alignment.queryOf_edits]
  have bound : prices.addAfter * (text.length - query.length) ≤
      (lastCell (reckoned prices query text)).cost := by
    rw [← excess, ← price]
    exact favour.excess_le_total _ _ alignment.edits
  refine ⟨bound, fun same => ?_, ?_⟩
  · have whole : 0 + (queryOf alignment.edits).length = query.length := by
      rw [alignment.queryOf_edits, Nat.zero_add]
    have begins := favour.prefix_of_total_le whole (price.trans (same.trans excess.symm)).le
    rwa [alignment.queryOf_edits, alignment.textOf_edits] at begins
  · rintro ⟨rest, rfl⟩
    apply le_antisymm _ bound
    rw [List.length_append, Nat.cast_add, add_sub_cancel_left,
      ← Alignment.price_continuing present rest]
    exact least ⟨Alignment.continuing query rest, rfl⟩

/-- Of two texts of one length, a text that begins with the query is at the smaller distance. -/
theorem Prices.FavourEnd.prefix_of_cost_le (favour : prices.FavourEnd) {query first second : Text}
    (present : query ≠ []) (lengths : first.length = second.length)
    (nearer : (lastCell (reckoned prices query first)).cost ≤
      (lastCell (reckoned prices query second)).cost) (begins : query <+: second) :
    query <+: first := by
  obtain ⟨bound, same⟩ := favour.cost_lastCell present first
  rw [(favour.cost_lastCell present second).2.mpr begins, ← lengths] at nearer
  exact same.mp (le_antisymm nearer bound)

end Distances

/-! ## Rankings -/

section Rankings

variable {κ : Type} [LinearOrder κ]

/-- Exact distances and texts are ranked by their lexicographic order. -/
theorem ranksBefore_iff_toLex_le (first second : κ × Text) :
    ranksBefore first second = true ↔ toLex first ≤ toLex second := by
  simp [ranksBefore, Prod.Lex.toLex_le_toLex, notAfter_iff_le]

theorem pairwise_mergeSort_exact (measured : List (κ × Text)) :
    (measured.mergeSort ranksBefore).Pairwise (·.1 ≤ ·.1) := by
  have ranked : (measured.mergeSort ranksBefore).Pairwise (ranksBefore · · = true) := by
    apply List.pairwise_mergeSort
    · intro first second third
      simp only [ranksBefore_iff_toLex_le]
      exact le_trans
    · intro first second
      simp only [Bool.or_eq_true, ranksBefore_iff_toLex_le]
      exact le_total _ _
  refine ranked.imp fun {first second} before => ?_
  rw [ranksBefore_iff_toLex_le, Prod.Lex.toLex_le_toLex] at before
  exact before.elim le_of_lt fun same => same.1.le

end Rankings

/-! ## Searching -/

theorem favourEnd_standard : (Prices.standard (κ := ℚ)).FavourEnd := by
  constructor <;> norm_num [Prices.standard]

/-- A text that keeps its length in lower case is compared as a whole. -/
theorem comparedText_eq_lower {text : Text} (same : text.lower.length = text.length) :
    comparedText text = text.lower := by
  rw [comparedText, ← same, List.take_length]

/-- A text that was found keeps its length in lower case, and the search tells its own distance. -/
structure Match.IsMeasured (query : Text) (found : Match ℚ) : Prop where
  whole : found.text.lower.length = found.text.length
  alone : Fuzzy.distance Prices.standard found.text query = .ok found.distance

section Searching

variable {query : Text}

theorem lower_ne_nil (present : query ≠ []) (sameQuery : query.lower.length = query.length) :
    query.lower ≠ [] := by
  rw [← List.length_pos_iff, sameQuery]
  exact List.length_pos_iff.mpr present

theorem distance_eq_ok (sameQuery : query.lower.length = query.length) {text : Text}
    (sameText : text.lower.length = text.length) :
    distance (Prices.standard (κ := ℚ)) text query =
      .ok (lastCell (reckoned Prices.standard query.lower text.lower)).cost := by
  have lowered := comparedQuery_of_not_mem ((Text.length_lower_eq_iff query).mp sameQuery)
  rw [distance, lowered, ← comparedText_eq_lower sameText]
  rfl

/-- Of two measured texts of one length, the one that begins with the query is nearer. -/
theorem Match.IsMeasured.prefix_of_le (present : query ≠ [])
    (sameQuery : query.lower.length = query.length) {first second : Match ℚ}
    (ofFirst : first.IsMeasured query) (ofSecond : second.IsMeasured query)
    (lengths : first.text.length = second.text.length) (nearer : first.distance ≤ second.distance)
    (begins : query.lower <+: second.text.lower) : query.lower <+: first.text.lower := by
  have firstAlone := ofFirst.alone
  have secondAlone := ofSecond.alone
  rw [distance_eq_ok sameQuery ofFirst.whole] at firstAlone
  rw [distance_eq_ok sameQuery ofSecond.whole] at secondAlone
  apply favourEnd_standard.prefix_of_cost_le (lower_ne_nil present sameQuery) _ _ begins
  · rw [ofFirst.whole, ofSecond.whole, lengths]
  · rw [Except.ok.inj firstAlone, Except.ok.inj secondAlone]
    exact nearer

/-- Where sorted neighbours lower in the same way what they share, a search tells each text its own
distance. -/
theorem distance_of_mem_ranking {lowered : Text} (same : comparedQuery query = .ok lowered)
    {texts : List Text} (leastQuality : ℚ)
    (shares : (texts.mergeSort Text.notAfter).IsChain SharesLowerCase) {found : ℚ × Text}
    (member : found ∈ ranking Prices.standard texts query lowered leastQuality) :
    distance Prices.standard found.2 query = .ok found.1 := by
  have sharesAll : ([] :: texts.mergeSort Text.notAfter).IsChain SharesLowerCase :=
    List.isChain_cons.mpr ⟨fun _ _ => rfl, shares⟩
  have measured := List.mem_of_mem_filter (List.mem_mergeSort.mp member)
  rw [distances_eq_map _ _ sharesAll] at measured
  obtain ⟨text, _, rfl⟩ := List.mem_map.mp measured
  rw [distance, same]
  rfl

/-- The distance of a text from a query is at least the price of the characters by which it is
longer, added behind the query, and it is this price exactly if the text begins with the query in
lower case. So of two texts of one length a search that tells both their own distances puts one that
begins with the query before one that does not. It tells all texts their own distances where sorted
neighbours that share a capital sigma lower it in the same way. -/
theorem distance_ge_and_prefix_first (present : query ≠ [])
    (sameQuery : query.lower.length = query.length) :
    (∀ text : Text, text.lower.length = text.length →
      ∃ least : ℚ, distance Prices.standard text query = .ok least ∧
        1 / 10000 * ((text.length : ℚ) - query.length) ≤ least ∧
          (least = 1 / 10000 * ((text.length : ℚ) - query.length) ↔
            query.lower <+: text.lower)) ∧
      ∀ (texts : List Text) (leastQuality : ℚ), ∃ ranked : List (Match ℚ),
        (∀ count : Nat,
          search Prices.standard texts query count leastQuality = .ok (ranked.take count)) ∧
        (ranked.Pairwise fun first second =>
          first.IsMeasured query → second.IsMeasured query →
            first.text.length = second.text.length →
              query.lower <+: second.text.lower → query.lower <+: first.text.lower) ∧
        ((texts.mergeSort Text.notAfter).IsChain (fun first second =>
            'Σ' ∈ first.take (sharedLength first second) → SharesLowerCase first second) →
          ∀ found ∈ ranked, distance Prices.standard found.text query = .ok found.distance) := by
  have lowered := comparedQuery_of_not_mem ((Text.length_lower_eq_iff query).mp sameQuery)
  constructor
  · intro text sameText
    have known := favourEnd_standard.cost_lastCell (lower_ne_nil present sameQuery) text.lower
    rw [sameText, sameQuery] at known
    refine ⟨_, distance_eq_ok sameQuery sameText, ?_⟩
    simpa [Prices.standard] using known
  · intro texts leastQuality
    refine ⟨_, fun count => search_eq_ranking _ texts lowered count leastQuality, ?_, ?_⟩
    · rw [List.pairwise_map]
      refine (pairwise_mergeSort_exact _).imp fun {first second} nearer => ?_
      intro ofFirst ofSecond lengths begins
      exact ofFirst.prefix_of_le present sameQuery ofSecond lengths nearer begins
    · intro sigmas found member
      obtain ⟨measured, ranked, rfl⟩ := List.mem_map.mp member
      exact distance_of_mem_ranking lowered leastQuality
        (sigmas.imp fun _ _ => sharesLowerCase_of_imp) ranked

/-- A text that begins with the query but for the case is at the distance of its last character, and
it is told this distance next to a text that holds the query elsewhere. -/
theorem distance_ge_and_prefix_first_mixedCase :
    ("oX" : Text) ≠ [] ∧ (Text.lower "oX").length = ("oX" : Text).length ∧
      distance (Prices.standard (κ := ℚ)) "Oxo" "oX" = .ok (1 / 10000) ∧
      ∃ ranked : List (Match ℚ),
        search Prices.standard ["Box", "Oxo"] "oX" (7 : Nat) (1 / 2) = .ok (ranked.take 7) ∧
        ∀ found ∈ ranked, distance Prices.standard found.text "oX" = .ok found.distance := by
  have present : ("oX" : Text) ≠ [] := by
    decide
  have sameQuery : (Text.lower "oX").length = ("oX" : Text).length := by
    decide
  have inOrder : (["Box", "Oxo"] : List Text).Pairwise (Text.notAfter · ·) := by
    decide
  have sigmas : (["Box", "Oxo"] : List Text).IsChain (fun first second =>
      'Σ' ∈ first.take (sharedLength first second) → SharesLowerCase first second) := by
    decide
  obtain ⟨distances, searches⟩ := distance_ge_and_prefix_first present sameQuery
  obtain ⟨least, told, _, begins⟩ := distances "Oxo" (by decide)
  obtain ⟨ranked, found, _, alone⟩ := searches ["Box", "Oxo"] (1 / 2)
  rw [List.mergeSort_of_pairwise inOrder] at alone
  refine ⟨present, sameQuery, ?_, ranked, found 7, alone sigmas⟩
  have lengths : ("Oxo" : Text).length = 3 ∧ ("oX" : Text).length = 2 := by
    decide
  rw [told, begins.mpr (by decide), lengths.1, lengths.2]
  norm_num

/-- A text that begins with the query is told behind one of its length that does not: it shares a
capital sigma with a text that ends there. -/
theorem search_sharedSigma_ahead :
    ∃ first second : Match ℚ,
      search Prices.standard ["axσb", "xΣ", "xΣbx"] "xσb" (7 : Nat) (1 / 2) =
          .ok [first, second] ∧
        first.text = "axσb".toList ∧ second.text = "xΣbx".toList ∧
          first.text.length = second.text.length ∧
          Text.lower "xσb" <+: second.text.lower ∧ ¬Text.lower "xσb" <+: first.text.lower := by
  have lowered : comparedQuery "xσb" = .ok "xσb" := by rfl
  have inOrder : (["axσb", "xΣ", "xΣbx"] : List Text).Pairwise (Text.notAfter · ·) := by
    decide
  have good : (distances Prices.standard "xσb" [] (columns Prices.standard "xσb" [])
      ["axσb", "xΣ", "xΣbx"]).filter
        (fun found => decide ((1 / 2 : ℚ) ≤ quality found.1 "xσb" found.2)) =
          [(1 / 100, ("axσb" : Text)), (10001 / 10000, ("xΣbx" : Text))] := by
    decide +kernel
  have ranked : [((1 / 100 : ℚ), ("axσb" : Text)), (10001 / 10000, ("xΣbx" : Text))].Pairwise
      (ranksBefore · · = true) := by
    decide +kernel
  refine ⟨matchOf Prices.standard "xσb" "xσb" (1 / 100, "axσb"),
    matchOf Prices.standard "xσb" "xσb" (10001 / 10000, "xΣbx"), ?_, rfl, rfl, ?_⟩
  · rw [search_eq_ranking _ _ lowered, ranking, List.mergeSort_of_pairwise inOrder, good,
      List.mergeSort_of_pairwise ranked]
    rfl
  · decide +kernel

end Searching

end Typeahead.Fuzzy

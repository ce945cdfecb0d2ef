import Typeahead.Proofs.Decimal.Order
import Typeahead.Proofs.Fuzzy.Sharing

/-!
# Searching and measuring alone

A search ranks its texts as if each of them had been measured on its own, and keeps the start of
that ranking. What it tells of a text besides its distance is always that of the text alone. The
distances are so where sorted neighbours lower in the same way what they share. Elsewhere a text
with a capital sigma may be measured with the lower case that a text before it has.
-/

namespace Typeahead.Fuzzy

open Decimal (Amount Positive place)

/-! ## Amounts -/

/-- Prices that are positive numbers yield amounts. -/
theorem yield_standard : (Prices.standard (κ := Float)).Yield Amount := by
  have delete : Positive (Prices.standard (κ := Float)).delete.toModel.unpack :=
    .finite _ _ (by decide)
  have addBefore : Positive (Prices.standard (κ := Float)).addBefore.toModel.unpack :=
    .finite _ _ (by decide)
  have addBetween : Positive (Prices.standard (κ := Float)).addBetween.toModel.unpack :=
    .finite _ _ (by decide)
  have addAfter : Positive (Prices.standard (κ := Float)).addAfter.toModel.unpack :=
    .finite _ _ (by decide)
  constructor
  case deleted => exact fun count => Decimal.amount_mul delete (Decimal.amount_natCast count)
  case addedBefore => exact fun count => Decimal.amount_mul addBefore (Decimal.amount_natCast count)
  case add =>
    exact fun cost amount => ⟨amount.add delete.unsigned, amount.add delete.unsigned,
      amount.add addBetween.unsigned, amount.add addAfter.unsigned⟩

/-- All distances are amounts. -/
theorem amount_of_mem_distances {query previous met : Text} {texts : List Text}
    (same : met.length = previous.length) {measured : Float × Text}
    (member : measured ∈
      distances Prices.standard query previous (reckoned Prices.standard query met) texts) :
    Amount measured.1 := by
  rw [distances_eq_map_zip _ _ same] at member
  obtain ⟨⟨compared, text⟩, -, rfl⟩ := List.mem_map.mp member
  exact kind_lastCell yield_standard compared

/-! ## The ranking -/

theorem cons_le_cons_iff (c d : Char) (first second : Text) :
    c :: first ≤ d :: second ↔ c < d ∨ c = d ∧ first ≤ second := by
  rw [← not_lt, ← not_lt, List.cons_lt_cons_iff]
  rcases lt_trichotomy c d with smaller | rfl | greater
  · simp [smaller, smaller.not_gt, smaller.ne']
  · simp
  · simp [greater, greater.not_gt, greater.ne']

/-- Texts are in the order of their code points. -/
theorem notAfter_iff_le (first second : Text) : first.notAfter second = true ↔ first ≤ second := by
  induction first generalizing second with
  | nil =>
      rw [← not_lt]
      simp [Text.notAfter]
  | cons c first inductionHypothesis =>
      cases second with
      | nil => simp [Text.notAfter]
      | cons d second =>
          have smaller : c.toNat < d.toNat ↔ c < d := Iff.rfl
          simp [Text.notAfter, inductionHypothesis, cons_le_cons_iff, smaller]

/-- Where a text with its distance stands among others. -/
def rank (measured : Float × Text) : Lex (Lex (Nat × Lex (Int × Nat)) × Text) :=
  toLex (place measured.1.toModel.unpack, measured.2)

theorem ranksBefore_iff {first second : Float × Text} (firstAmount : Amount first.1)
    (secondAmount : Amount second.1) :
    ranksBefore first second = true ↔ rank first ≤ rank second := by
  simp only [ranksBefore, rank, Prod.Lex.toLex_le_toLex, Bool.or_eq_true, Bool.and_eq_true,
    decide_eq_true_iff, firstAmount.lt_iff secondAmount, firstAmount.beq_iff secondAmount,
    notAfter_iff_le]

/-- Sorting texts by amounts ranks them. -/
theorem pairwise_mergeSort_ranksBefore {measured : List (Float × Text)}
    (amounts : ∀ found ∈ measured, Amount found.1) :
    (measured.mergeSort ranksBefore).Pairwise (ranksBefore · · = true) := by
  -- Doubles have no total order, so the laws of sorting hold for the ranks only.
  have byRank : measured.mergeSort ranksBefore =
      measured.mergeSort fun first second => decide (rank first ≤ rank second) := by
    have mapped := List.map_mergeSort (f := id) (l := measured) (r := ranksBefore)
      (s := fun first second => decide (rank first ≤ rank second)) fun first firstMember second
        secondMember => Bool.eq_iff_iff.mpr <|
          (ranksBefore_iff (amounts first firstMember) (amounts second secondMember)).trans
            decide_eq_true_iff.symm
    simpa using mapped
  have sorted : (measured.mergeSort ranksBefore).Pairwise (rank · ≤ rank ·) := by
    rw [byRank]
    have transitive : ∀ first second third : Float × Text, decide (rank first ≤ rank second) →
        decide (rank second ≤ rank third) → decide (rank first ≤ rank third) := by
      simp only [decide_eq_true_iff]
      exact fun _ _ _ => le_trans
    have total : ∀ first second : Float × Text,
        decide (rank first ≤ rank second) || decide (rank second ≤ rank first) := by
      simp only [Bool.or_eq_true, decide_eq_true_iff]
      exact fun _ _ => le_total _ _
    simpa only [decide_eq_true_iff] using List.pairwise_mergeSort transitive total measured
  refine sorted.imp_of_mem fun firstMember secondMember before => ?_
  rw [List.mem_mergeSort] at firstMember secondMember
  exact (ranksBefore_iff (amounts _ firstMember) (amounts _ secondMember)).mpr before

/-! ## Searching -/

theorem takeFirst_natCast {α : Type} (count : Nat) (elements : List α) :
    takeFirst count elements = elements.take count := by
  simp [takeFirst, Int.not_lt.mpr (Int.natCast_nonneg count)]

section Searching

variable {κ : Type} [Add κ] [Mul κ] [NatCast κ] [LE κ] [DecidableLE κ] [BEq κ] [Inhabited κ]
  [Sub κ] [Div κ] [LT κ] [DecidableLT κ]

/-- A text with its own distance, quality and highlight. -/
def matchAlone (prices : Prices κ) (query text : Text) : Except QueryError (Match κ) := do
  let distance ← distance prices text query
  let highlight ← highlight prices text query
  return { text, distance, quality := quality distance query text, highlight }

/-- The order of a ranking: nearer texts come first, and texts at one distance by themselves. -/
def Match.Precedes (first second : Match κ) : Prop :=
  first.distance < second.distance ∨
    (first.distance == second.distance) = true ∧ first.text ≤ second.text

/-- A text with its own distance from a query in lower case. -/
def measuredAlone (prices : Prices κ) (lowered text : Text) : κ × Text :=
  ((lastCell (columns prices lowered text)).cost, text)

/-- What a search tells of a text whose distance it knows. -/
def matchOf (prices : Prices κ) (query lowered : Text) (measured : κ × Text) : Match κ where
  text := measured.2
  distance := measured.1
  quality := quality measured.1 query measured.2
  highlight := highlightLowered prices measured.2 lowered

omit [LT κ] [DecidableLT κ] in
theorem matchAlone_eq_ok (prices : Prices κ) {query lowered : Text}
    (same : comparedQuery query = .ok lowered) (text : Text) :
    matchAlone prices query text =
      .ok (matchOf prices query lowered (measuredAlone prices lowered text)) := by
  simp only [matchAlone, distance, highlight, same]
  rfl

omit [LT κ] [DecidableLT κ] in
theorem mapM_matchAlone (prices : Prices κ) {query lowered : Text}
    (same : comparedQuery query = .ok lowered) (texts : List Text) :
    texts.mapM (matchAlone prices query) =
      .ok ((texts.map (measuredAlone prices lowered)).map (matchOf prices query lowered)) := by
  rw [funext (matchAlone_eq_ok prices same), List.map_map]
  exact List.mapM_pure

/-- The texts of at least a quality, by the distances that a search measures. -/
def ranking (prices : Prices κ) (texts : List Text) (query lowered : Text) (leastQuality : κ) :
    List (κ × Text) :=
  let measured := distances prices lowered [] (columns prices lowered [])
    (texts.mergeSort Text.notAfter)
  let good := measured.filter fun found => decide (leastQuality ≤ quality found.1 query found.2)
  good.mergeSort ranksBefore

/-- A search tells the start of the ranking. -/
theorem search_eq_ranking (prices : Prices κ) (texts : List Text) {query lowered : Text}
    (same : comparedQuery query = .ok lowered) (count : Nat) (leastQuality : κ) :
    search prices texts query count leastQuality =
      .ok (((ranking prices texts query lowered leastQuality).map
        (matchOf prices query lowered)).take count) := by
  cases texts with
  | nil => simp [search, ranking, distances]
  | cons text others =>
      simp only [search, List.isEmpty_cons, Bool.false_eq_true, if_false, same, takeFirst_natCast,
        ← List.map_take]
      rfl

end Searching

/-- The ranking by amounts is in order. -/
theorem pairwise_ranking (texts : List Text) (query lowered : Text) (leastQuality : Float) :
    ((ranking Prices.standard texts query lowered leastQuality).map
      (matchOf Prices.standard query lowered)).Pairwise Match.Precedes := by
  rw [List.pairwise_map]
  have amounts : ∀ found ∈ (distances Prices.standard lowered []
      (columns Prices.standard lowered []) (texts.mergeSort Text.notAfter)).filter
        fun found => decide (leastQuality ≤ quality found.1 query found.2), Amount found.1 :=
    fun found member => amount_of_mem_distances rfl (List.mem_of_mem_filter member)
  refine (pairwise_mergeSort_ranksBefore amounts).imp fun {first second} before => ?_
  simpa [Match.Precedes, matchOf, ranksBefore, notAfter_iff_le] using before

/-- Where sorted neighbours lower in the same way what they share, the ranking holds the texts that
are good enough on their own. -/
theorem ranking_perm (prices : Prices Float) {texts : List Text} (query lowered : Text)
    (leastQuality : Float) (shares : (texts.mergeSort Text.notAfter).IsChain SharesLowerCase) :
    ((ranking prices texts query lowered leastQuality).map (matchOf prices query lowered)).Perm
      (((texts.map (measuredAlone prices lowered)).map (matchOf prices query lowered)).filter
        fun found => decide (leastQuality ≤ found.quality)) := by
  have sharesAll : ([] :: texts.mergeSort Text.notAfter).IsChain SharesLowerCase :=
    List.isChain_cons.mpr ⟨fun _ _ => rfl, shares⟩
  have measured := distances_eq_map prices lowered sharesAll
  have sorted := (texts.mergeSort_perm Text.notAfter).map (measuredAlone prices lowered)
  rw [List.filter_map, ranking, measured]
  exact ((List.mergeSort_perm _ _).trans (sorted.filter _)).map _

/-- For a query that lower-casing does not lengthen, a search tells the start of a ranking by
distances and texts, in which each text has its own quality and highlight. Where sorted neighbours
that share a capital sigma lower it in the same way, these are the texts that are good enough on
their own, with their own distances. -/
theorem exists_ranked_search (texts : List Text) {query : Text}
    (same : query.lower.length = query.length) (leastQuality : Float) :
    ∃ ranked : List (Match Float),
      (∀ count : Nat,
        search Prices.standard texts query count leastQuality = .ok (ranked.take count)) ∧
      ranked.Pairwise Match.Precedes ∧
      (∀ found ∈ ranked,
        found.quality = quality found.distance query found.text ∧
          leastQuality ≤ found.quality ∧
          highlight (Prices.standard (κ := Float)) found.text query = .ok found.highlight) ∧
      ((texts.mergeSort Text.notAfter).IsChain (fun first second =>
          'Σ' ∈ first.take (sharedLength first second) → SharesLowerCase first second) →
        ∃ alone, texts.mapM (matchAlone Prices.standard query) = .ok alone ∧
          ranked.Perm (alone.filter fun found => decide (leastQuality ≤ found.quality))) := by
  have lowered := comparedQuery_of_not_mem ((Text.length_lower_eq_iff query).mp same)
  refine ⟨_, fun count => search_eq_ranking _ texts lowered count leastQuality,
    pairwise_ranking texts query query.lower leastQuality, ?_, fun sigmas =>
      ⟨_, mapM_matchAlone _ lowered texts, ranking_perm _ query query.lower leastQuality
        (sigmas.imp fun _ _ => sharesLowerCase_of_imp)⟩⟩
  intro found member
  obtain ⟨measured, ranked, rfl⟩ := List.mem_map.mp member
  have good := List.of_mem_filter (List.mem_mergeSort.mp ranked)
  refine ⟨rfl, of_decide_eq_true good, ?_⟩
  simp only [highlight, lowered]
  rfl

/-- Texts with capital sigmas at the end and in the middle of words, where neighbours share one. -/
theorem exists_ranked_search_finalSigma :
    ∃ ranked : List (Match Float),
      search Prices.standard ["ΣΑ Σ", "Σα", "Σας"] "σα" (7 : Nat) 0.8 = .ok (ranked.take 7) ∧
      ∃ alone, (["ΣΑ Σ", "Σα", "Σας"] : List Text).mapM (matchAlone Prices.standard "σα") =
          .ok alone ∧
        ranked.Perm (alone.filter fun found => decide (0.8 ≤ found.quality)) := by
  have inOrder : (["ΣΑ Σ", "Σα", "Σας"] : List Text).Pairwise (Text.notAfter · ·) := by
    decide
  have sigmas : (["ΣΑ Σ", "Σα", "Σας"] : List Text).IsChain (fun first second =>
      'Σ' ∈ first.take (sharedLength first second) → SharesLowerCase first second) := by
    decide
  have same : (Text.lower "σα").length = ("σα" : Text).length := by
    decide
  obtain ⟨ranked, told, -, -, alone⟩ := exists_ranked_search ["ΣΑ Σ", "Σα", "Σας"] same 0.8
  rw [List.mergeSort_of_pairwise inOrder] at alone
  exact ⟨ranked, told 7, alone sigmas⟩

/-- A text that is at no distance from a query is not found next to one that ends where its capital
sigma stands. -/
theorem search_sharedSigma :
    search Prices.standard ["aΣ", "aΣb"] "aσb" (7 : Nat) (0.8 : Float) = .ok [] ∧
      ∃ found : Match Float, matchAlone Prices.standard "aσb" "aΣb" = .ok found ∧
        found.distance = 0 ∧ 0.8 ≤ found.quality := by
  have lowered : comparedQuery "aσb" = .ok "aσb" := by rfl
  have inOrder : (["aΣ", "aΣb"] : List Text).Pairwise (Text.notAfter · ·) := by
    decide
  have noneGood : (distances Prices.standard "aσb" [] (columns Prices.standard "aσb" [])
      ["aΣ", "aΣb"]).filter
        (fun found => decide ((0.8 : Float) ≤ quality found.1 "aσb" found.2)) = [] := by
    decide +kernel
  constructor
  · rw [search_eq_ranking _ _ lowered, ranking, List.mergeSort_of_pairwise inOrder, noneGood,
      List.mergeSort_nil]
    rfl
  · refine ⟨_, matchAlone_eq_ok _ lowered _, ?_⟩
    decide +kernel

end Typeahead.Fuzzy

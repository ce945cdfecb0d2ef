import Mathlib.Algebra.BigOperators.Group.List.Basic
import Mathlib.Algebra.Order.BigOperators.Group.Finset
import Typeahead.Proofs.Trigram.Postings
import Typeahead.Proofs.Trigram.Scores

/-!
# What a search finds

A search adds up scores window by window, through the postings of the index. What a candidate gets
from all postings is the sum that the score of the candidate is defined as, window by window, and a
candidate without a score has nothing in common with the query. So a search finds exactly the
candidates whose score exceeds its bound.
-/

namespace Typeahead.Trigram

/-- The score of a candidate, given by its terms, among candidates. -/
noncomputable def score (candidates : List (List Text)) (query terms : List Text) : ℝ :=
  ∑ window ∈ (grams query).toFinset,
    occurrences query window * occurrences terms window * rarity candidates window

/-- The score against which the scores of candidates are held. -/
noncomputable def greatestScore (candidates : List (List Text)) (query : List Text) : ℝ :=
  ∑ window ∈ (grams query).toFinset, occurrences query window * rarity candidates window

theorem greatestScore_nonneg (candidates : List (List Text)) (query : List Text) :
    0 ≤ greatestScore candidates query :=
  Finset.sum_nonneg fun window _ =>
    mul_nonneg (Nat.cast_nonneg _) (rarity_nonneg candidates window)

/-- The greatest score is positive if a window of the query tells candidates apart. -/
theorem greatestScore_pos_iff {candidates : List (List Text)} {query : List Text} :
    0 < greatestScore candidates query ↔
      ∃ window ∈ grams query, ∃ terms ∈ candidates, window ∉ grams terms := by
  rw [greatestScore, Finset.sum_pos_iff_of_nonneg fun window _ =>
    mul_nonneg (Nat.cast_nonneg _) (rarity_nonneg candidates window)]
  constructor
  · rintro ⟨window, member, positive⟩
    have rare := pos_of_mul_pos_right positive (Nat.cast_nonneg _)
    exact ⟨window, List.mem_toFinset.mp member, rarity_pos_iff.mp rare⟩
  · rintro ⟨window, member, apart⟩
    have occurs : (0 : ℝ) < occurrences query window := Nat.cast_pos.mpr (occurrences_pos member)
    exact ⟨window, List.mem_toFinset.mpr member, mul_pos occurs (rarity_pos_iff.mpr apart)⟩

/-- A candidate with all windows of the query reaches the greatest score. -/
theorem greatestScore_le_score (candidates : List (List Text)) {query terms : List Text}
    (shared : grams query ⊆ grams terms) :
    greatestScore candidates query ≤ score candidates query terms := by
  apply Finset.sum_le_sum
  intro window member
  apply mul_le_mul_of_nonneg_right _ (rarity_nonneg candidates window)
  have occurs : (1 : ℝ) ≤ occurrences terms window :=
    Nat.one_le_cast.mpr (occurrences_pos (shared (List.mem_toFinset.mp member)))
  exact le_mul_of_one_le_right (Nat.cast_nonneg _) occurs

/-- Where no window of the query tells candidates apart, all scores are zero. -/
theorem score_eq_zero {candidates : List (List Text)} {query : List Text}
    (zero : ¬0 < greatestScore candidates query) (terms : List Text) :
    score candidates query terms = 0 := by
  apply Finset.sum_eq_zero
  intro window member
  have common : ¬0 < rarity candidates window := by
    intro rare
    exact zero (greatestScore_pos_iff.mpr
      ⟨window, List.mem_toFinset.mp member, rarity_pos_iff.mp rare⟩)
  rw [le_antisymm (not_lt.mp common) (rarity_nonneg candidates window), mul_zero]

/-- A sum over the counts of windows is a sum over the windows that occur. -/
theorem sum_map_count (terms : List Text) (amount : Text × Nat → ℝ) :
    ((count standardWidth terms).map amount).sum =
      ∑ window ∈ (grams terms).toFinset, amount (window, occurrences terms window) := by
  have same : (Entries.keys (count standardWidth terms)).toFinset = (grams terms).toFinset := by
    ext window
    rw [List.mem_toFinset, List.mem_toFinset, mem_keys_count_iff]
  have counted := congrArg (fun counts => (counts.map amount).sum) (count_eq_map terms)
  rw [← same, List.sum_toFinset _ (nodup_keys_count standardWidth terms)]
  apply counted.trans
  rw [List.map_map]
  rfl

/-- A sum over the postings for a window that only one candidate adds to. -/
theorem sum_holders {candidates : List (List Text)} {number : Nat} {terms : List Text}
    (known : candidates[number]? = some terms) (window : Text) (amount : Nat → ℝ)
    (zero : amount 0 = 0) :
    ((holders candidates.zipIdx window).map fun posting =>
        if posting.1 = number then amount posting.2 else 0).sum =
      amount (occurrences terms window) := by
  rw [← List.sum_toFinset _ (nodup_holders_zipIdx candidates window),
    Finset.sum_eq_single (number, occurrences terms window), if_pos rfl]
  · rintro ⟨other, count⟩ holder different
    apply if_neg
    rintro rfl
    obtain ⟨others, candidate, _, rfl⟩ := mem_holders_zipIdx_iff.mp (List.mem_toFinset.mp holder)
    rw [Option.some.inj (known.symm.trans candidate)] at different
    exact different rfl
  · intro unlisted
    have absent : window ∉ grams terms := fun member =>
      unlisted (List.mem_toFinset.mpr
        (mem_holders_zipIdx_iff.mpr ⟨terms, known, member, rfl⟩))
    rw [if_pos rfl, occurrences_eq_zero absent, zero]

/-- What each step of a run adds to a measure is added up. -/
theorem measure_foldl {σ β : Type} (measure : σ → ℝ) {step : σ → β → σ} {amount : β → ℝ}
    (adds : ∀ state item, measure (step state item) = measure state + amount item)
    (items : List β) (start : σ) :
    measure (items.foldl step start) = measure start + (items.map amount).sum := by
  induction items generalizing start with
  | nil => simp
  | cons item rest inductionHypothesis =>
      rw [List.foldl_cons, inductionHypothesis, adds, List.map_cons, List.sum_cons, add_assoc]

namespace Index

/-! ## Adding up -/

/-- The score that a list of scores has for a candidate, zero if none. -/
noncomputable def scoreOf (candidate : Nat) (scores : List (Nat × ℝ)) : ℝ :=
  (scores.map fun entry => if entry.1 = candidate then entry.2 else 0).sum

theorem scoreOf_cons (candidate : Nat) (entry : Nat × ℝ) (rest : List (Nat × ℝ)) :
    scoreOf candidate (entry :: rest) =
      (if entry.1 = candidate then entry.2 else 0) + scoreOf candidate rest :=
  List.sum_cons

theorem scoreOf_eq_zero {scores : List (Nat × ℝ)} {candidate : Nat}
    (unscored : candidate ∉ scored scores) : scoreOf candidate scores = 0 := by
  apply List.sum_eq_zero
  intro amount member
  obtain ⟨entry, listed, rfl⟩ := List.mem_map.mp member
  apply if_neg
  rintro rfl
  exact unscored (List.mem_map_of_mem listed)

theorem scoreOf_eq_of_mem {scores : List (Nat × ℝ)} (distinct : (scored scores).Nodup)
    {entry : Nat × ℝ} (member : entry ∈ scores) : scoreOf entry.1 scores = entry.2 := by
  induction scores with
  | nil => contradiction
  | cons first rest inductionHypothesis =>
      obtain ⟨unknown, others⟩ := List.nodup_cons.mp distinct
      rw [scoreOf_cons]
      rcases List.mem_cons.mp member with rfl | later
      · rw [if_pos rfl, scoreOf_eq_zero unknown, add_zero]
      · rw [if_neg, inductionHypothesis others later, zero_add]
        intro same
        exact unknown (same ▸ List.mem_map_of_mem later)

theorem scoreOf_addScore (amount : ℝ) (known : Nat) (scores : List (Nat × ℝ)) (candidate : Nat) :
    scoreOf candidate (addScore amount known scores) =
      scoreOf candidate scores + if known = candidate then amount else 0 := by
  induction scores with
  | nil => simp [addScore, scoreOf]
  | cons entry rest inductionHypothesis =>
      obtain ⟨first, score⟩ := entry
      rw [addScore]
      by_cases same : first = known
      · rw [if_pos same, scoreOf_cons, scoreOf_cons, same]
        by_cases asked : known = candidate
        · simp only [if_pos asked]
          ring
        · simp only [if_neg asked, add_zero]
      · rw [if_neg same, scoreOf_cons, scoreOf_cons, inductionHypothesis, add_assoc]

/-- The score of a candidate collects what the postings for the windows of the query add. -/
theorem scoreOf_scores (log : ℝ → ℝ) (index : Index) (query : Entries Nat) (candidate : Nat) :
    scoreOf candidate (index.scores log query) =
      (query.map fun entry =>
        (((index.postings.find? entry.1).getD []).map fun posting =>
          if posting.1 = candidate then
            ((entry.2 * posting.2 : Nat) : ℝ) * index.windowWeight log entry.1
          else 0).sum).sum := by
  apply Eq.trans (measure_foldl (scoreOf candidate) _ query [])
  · exact zero_add _
  · intro scores entry
    apply measure_foldl (scoreOf candidate)
    intro scores posting
    exact scoreOf_addScore _ _ _ _

/-- The best score collects what each window of the query is worth. -/
theorem bestScore_eq (log : ℝ → ℝ) (index : Index) (query : Entries Nat) :
    index.bestScore log query =
      (query.map fun entry => (entry.2 : ℝ) * index.windowWeight log entry.1).sum := by
  apply Eq.trans (measure_foldl id (fun _ _ => rfl) query _)
  simp

/-! ## Searching -/

/-- The listed score of a candidate is its score. -/
theorem scoreOf_scores_build {candidates : List (List Text)} {number : Nat} {terms : List Text}
    (known : candidates[number]? = some terms) (query : List Text) :
    scoreOf number ((build candidates).scores Real.log (count standardWidth query)) =
      score candidates query terms := by
  rw [scoreOf_scores, sum_map_count, score]
  apply Finset.sum_congr rfl
  intro window _
  rw [postings_build, windowWeight_build, ← Nat.cast_mul]
  apply sum_holders known window fun count =>
    ((occurrences query window * count : Nat) : ℝ) * rarity candidates window
  rw [mul_zero, Nat.cast_zero, zero_mul]

theorem bestScore_build (candidates : List (List Text)) (query : List Text) :
    (build candidates).bestScore Real.log (count standardWidth query) =
      greatestScore candidates query := by
  rw [bestScore_eq, sum_map_count, greatestScore]
  apply Finset.sum_congr rfl
  intro window _
  rw [windowWeight_build]

/-- Only candidates have scores. -/
theorem lt_length_of_mem_scored (log : ℝ → ℝ) (candidates : List (List Text))
    (query : Entries Nat) :
    ∀ number ∈ scored ((build candidates).scores log query), number < candidates.length := by
  apply scores_induction (motive := fun scores => ∀ number ∈ scored scores,
    number < candidates.length) log (build candidates) query (List.forall_mem_nil _)
  intro scores amount window posting holder inside number member
  rw [scored_addScore] at member
  rw [postings_build] at holder
  split at member
  · exact inside number member
  · rcases List.mem_append.mp member with earlier | last
    · exact inside number earlier
    · rw [List.mem_singleton.mp last]
      obtain ⟨terms, known, _⟩ := mem_holders_zipIdx_iff.mp holder
      exact (List.getElem?_eq_some_iff.mp known).1

/-- A search finds the candidates whose score exceeds its bound, with their scores. -/
theorem mem_search_build_iff {candidates : List (List Text)} {query : List Text} {cutoff : ℝ}
    (bound : 0 ≤ cutoff) {found : Nat × ℝ} :
    found ∈ (build candidates).search Real.log query cutoff ↔
      cutoff * greatestScore candidates query < found.2 ∧
        ∃ terms, candidates[found.1]? = some terms ∧ score candidates query terms = found.2 := by
  have distinct := nodup_scored_scores Real.log (build candidates) (count standardWidth query)
  rw [search, List.mem_filter, decide_eq_true_iff, bestScore_build, and_comm]
  apply and_congr_right
  intro exceeds
  constructor
  · intro listed
    have inside := lt_length_of_mem_scored Real.log candidates _ found.1
      (List.mem_map_of_mem listed)
    have known := List.getElem?_eq_getElem inside
    constructor
    · constructor
      · exact known
      · rw [← scoreOf_scores_build known, scoreOf_eq_of_mem distinct listed]
  · rintro ⟨terms, known, exact⟩
    rw [← scoreOf_scores_build known] at exact
    -- A candidate that no posting leads to has the score zero, which exceeds no bound.
    have listed : found.1 ∈ scored
        ((build candidates).scores Real.log (count standardWidth query)) := by
      by_contra unscored
      rw [scoreOf_eq_zero unscored] at exact
      have least := mul_nonneg bound (greatestScore_nonneg candidates query)
      linarith
    obtain ⟨entry, member, same⟩ := List.mem_map.mp listed
    have listedScore := scoreOf_eq_of_mem distinct member
    rw [same, exact] at listedScore
    rw [Prod.ext same listedScore.symm] at member
    exact member

/-- A search of an index finds, each once, the candidates whose score exceeds the given fraction of
the greatest score. -/
theorem search_build_perm (candidates : List (List Text)) (query : List Text) {cutoff : ℝ}
    (bound : 0 ≤ cutoff) :
    ((build candidates).search Real.log query cutoff).Perm
      ((candidates.zipIdx.map fun candidate =>
          (candidate.2, score candidates query candidate.1)).filter fun found =>
        decide (cutoff * greatestScore candidates query < found.2)) := by
  have scoredOnce : (candidates.zipIdx.map fun candidate =>
      (candidate.2, score candidates query candidate.1)).Nodup := by
    apply List.Nodup.of_map Prod.fst
    rw [List.map_map]
    change (candidates.zipIdx.map Prod.snd).Nodup
    rw [List.zipIdx_map_snd]
    exact List.nodup_range'
  rw [List.perm_ext_iff_of_nodup
    (List.Nodup.of_map Prod.fst (nodup_scored_search Real.log (build candidates) query cutoff))
    (scoredOnce.filter _)]
  rintro ⟨number, amount⟩
  rw [mem_search_build_iff bound, List.mem_filter, decide_eq_true_iff, and_comm]
  apply and_congr_left
  intro _
  simp only [List.mem_map, List.mem_zipIdx_iff_getElem?, Prod.mk.injEq]
  constructor
  · rintro ⟨terms, known, exact⟩
    exact ⟨(terms, number), known, rfl, exact⟩
  · rintro ⟨⟨terms, other⟩, known, rfl, exact⟩
    exact ⟨terms, known, exact⟩

theorem search_build_perm_half :
    (0 : ℝ) ≤ 1 / 2 ∧
      ((build [["map"], ["code"]]).search Real.log ["map"] (1 / 2)).Perm
        [(0, Real.log (3 / 2))] := by
  have bound : (0 : ℝ) ≤ 1 / 2 := by norm_num
  have asked : (grams ["map"]).toFinset = {("map" : Text)} := by decide
  have once : occurrences ["map"] "map" = 1 := by decide
  have never : occurrences ["code"] "map" = 0 := by decide
  have rare : rarity [["map"], ["code"]] "map" = Real.log (3 / 2) := by
    have holder : frequency [["map"], ["code"]] "map" = 1 := by decide
    rw [rarity, holder]
    norm_num
  have first : score [["map"], ["code"]] ["map"] ["map"] = Real.log (3 / 2) := by
    rw [score, asked, Finset.sum_singleton, once, rare, Nat.cast_one, one_mul, one_mul]
  have second : score [["map"], ["code"]] ["map"] ["code"] = 0 := by
    rw [score, asked, Finset.sum_singleton, never, Nat.cast_zero, mul_zero, zero_mul]
  have greatest : greatestScore [["map"], ["code"]] ["map"] = Real.log (3 / 2) := by
    rw [greatestScore, asked, Finset.sum_singleton, once, rare, Nat.cast_one, one_mul]
  have positive : 0 < Real.log (3 / 2) := Real.log_pos (by norm_num)
  have found := search_build_perm [["map"], ["code"]] ["map"] bound
  simp only [List.zipIdx_cons, List.zipIdx_nil, List.map_cons, List.map_nil, first, second,
    greatest] at found
  rw [List.filter_cons_of_pos, List.filter_cons_of_neg, List.filter_nil] at found
  · exact ⟨bound, found⟩
  · rw [decide_eq_true_iff]
    linarith
  · rw [decide_eq_true_iff]
    linarith

end Index

end Typeahead.Trigram

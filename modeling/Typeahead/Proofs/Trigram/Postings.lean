import Mathlib.Analysis.SpecialFunctions.Log.Basic
import Typeahead.Proofs.Trigram.Counts
import Typeahead.Trigram.Index

/-!
# The postings of an index

An index lists for each window the candidates that have it, each once and in their order, with the
number of occurrences. It has no list for a window that no candidate has. So the weight of a window
depends only on how many candidates have it.
-/

namespace Typeahead.Trigram

/-- The numbers of the candidates that have a window, with the number of its occurrences there. -/
def holders (candidates : List (List Text × Nat)) (window : Text) : List (Nat × Nat) :=
  (candidates.filter fun candidate => decide (window ∈ grams candidate.1)).map fun candidate =>
    (candidate.2, occurrences candidate.1 window)

theorem holders_concat (candidates : List (List Text × Nat)) (last : List Text × Nat)
    (window : Text) :
    holders (candidates ++ [last]) window =
      holders candidates window ++
        if window ∈ grams last.1 then [(last.2, occurrences last.1 window)] else [] := by
  rw [holders, List.filter_append, List.map_append, ← holders]
  by_cases member : window ∈ grams last.1
  · rw [List.filter_cons_of_pos (by simpa using member), if_pos member]
    rfl
  · rw [List.filter_cons_of_neg (by simpa using member), if_neg member]
    rfl

theorem mem_holders_zipIdx_iff {candidates : List (List Text)} {window : Text}
    {posting : Nat × Nat} :
    posting ∈ holders candidates.zipIdx window ↔
      ∃ terms, candidates[posting.1]? = some terms ∧ window ∈ grams terms ∧
        posting.2 = occurrences terms window := by
  obtain ⟨number, amount⟩ := posting
  simp only [holders, List.mem_map, List.mem_filter, List.mem_zipIdx_iff_getElem?,
    decide_eq_true_iff, Prod.mk.injEq]
  constructor
  · rintro ⟨⟨terms, known⟩, ⟨candidate, member⟩, rfl, rfl⟩
    exact ⟨terms, candidate, member, rfl⟩
  · rintro ⟨terms, candidate, member, rfl⟩
    exact ⟨(terms, number), ⟨candidate, member⟩, rfl, rfl⟩

/-- Each candidate holds a window once. -/
theorem nodup_holders_zipIdx (candidates : List (List Text)) (window : Text) :
    (holders candidates.zipIdx window).Nodup := by
  apply List.Nodup.of_map Prod.fst
  rw [holders, List.map_map]
  apply List.Nodup.sublist (List.filter_sublist.map Prod.snd)
  rw [List.zipIdx_map_snd]
  exact List.nodup_range'

/-- The number of candidates that have a window. -/
def frequency (candidates : List (List Text)) (window : Text) : Nat :=
  candidates.countP fun terms => decide (window ∈ grams terms)

theorem frequency_le_length (candidates : List (List Text)) (window : Text) :
    frequency candidates window ≤ candidates.length :=
  List.countP_le_length

theorem frequency_eq_length_iff {candidates : List (List Text)} {window : Text} :
    frequency candidates window = candidates.length ↔
      ∀ terms ∈ candidates, window ∈ grams terms := by
  rw [frequency, List.countP_eq_length]
  simp only [decide_eq_true_iff]

theorem length_holders_zipIdx (candidates : List (List Text)) (window : Text) :
    (holders candidates.zipIdx window).length = frequency candidates window := by
  rw [holders, List.length_map, ← List.countP_eq_length_filter, frequency]
  conv_rhs => rw [← List.zipIdx_map_fst 0 candidates, List.countP_map]
  rfl

/-- How much a window tells candidates apart. -/
noncomputable def rarity (candidates : List (List Text)) (window : Text) : ℝ :=
  Real.log ((1 + candidates.length) / (1 + frequency candidates window))

theorem rarity_of_frequency_eq_zero {candidates : List (List Text)} {window : Text}
    (absent : frequency candidates window = 0) :
    rarity candidates window = Real.log (1 + candidates.length) := by
  rw [rarity, absent, Nat.cast_zero, add_zero, div_one]

theorem rarity_nonneg (candidates : List (List Text)) (window : Text) :
    0 ≤ rarity candidates window := by
  apply Real.log_nonneg
  rw [one_le_div (by positivity)]
  have bound : (frequency candidates window : ℝ) ≤ candidates.length :=
    Nat.cast_le.mpr (frequency_le_length candidates window)
  linarith

/-- A window tells candidates apart unless all of them have it. -/
theorem rarity_pos_iff {candidates : List (List Text)} {window : Text} :
    0 < rarity candidates window ↔ ∃ terms ∈ candidates, window ∉ grams terms := by
  have incomplete : (∃ terms ∈ candidates, window ∉ grams terms) ↔
      frequency candidates window < candidates.length := by
    rw [(frequency_le_length candidates window).lt_iff_ne, Ne, frequency_eq_length_iff]
    push Not
    rfl
  have positive : (0 : ℝ) < 1 + frequency candidates window := by positivity
  rw [incomplete, rarity, Real.log_pos_iff (by positivity), one_lt_div positive]
  constructor
  · intro less
    exact Nat.cast_lt.mp (lt_of_add_lt_add_left less)
  · intro less
    exact add_lt_add_right (Nat.cast_lt.mpr less) 1

namespace Index

/-! ## What is noted -/

theorem find?_note (postings : Entries (List (Nat × Nat))) (candidate : Nat) (terms : List Text)
    (window : Text) :
    (note postings candidate terms).find? window =
      if window ∈ grams terms then
        some ((postings.find? window).getD [] ++ [(candidate, occurrences terms window)])
      else postings.find? window := by
  have noted := Entries.find?_foldl_upsert (nodup_keys_count standardWidth terms)
    (fun occurrences => [(candidate, occurrences)])
    (fun occurrences known => known ++ [(candidate, occurrences)]) postings window
  rw [find?_count] at noted
  apply Eq.trans noted
  by_cases member : window ∈ grams terms
  · rw [if_pos member, if_pos member]
    cases postings.find? window <;> rfl
  · rw [if_neg member, if_neg member]

theorem find?_foldl_note (candidates : List (List Text × Nat)) (window : Text) :
    Entries.find? (candidates.foldl (fun postings (terms, candidate) =>
        note postings candidate terms) []) window =
      if holders candidates window = [] then none else some (holders candidates window) := by
  induction candidates using List.reverseRecOn with
  | nil => rfl
  | append_singleton candidates last inductionHypothesis =>
      rw [List.foldl_concat, find?_note, inductionHypothesis, holders_concat]
      by_cases member : window ∈ grams last.1
      · rw [if_pos member, if_pos member, if_neg (List.append_ne_nil_of_right_ne_nil _ (by simp))]
        split <;> simp [*]
      · rw [if_neg member, if_neg member, List.append_nil]

/-- The index lists the candidates that have a window, and no empty list. -/
theorem find?_postings_build (candidates : List (List Text)) (window : Text) :
    (build candidates).postings.find? window =
      if holders candidates.zipIdx window = [] then none
      else some (holders candidates.zipIdx window) :=
  find?_foldl_note candidates.zipIdx window

theorem postings_build (candidates : List (List Text)) (window : Text) :
    ((build candidates).postings.find? window).getD [] = holders candidates.zipIdx window := by
  rw [find?_postings_build]
  split <;> simp [*]

/-- The weight of a window is its rarity, also if no candidate has it. -/
theorem windowWeight_build (candidates : List (List Text)) (window : Text) :
    (build candidates).windowWeight Real.log window = rarity candidates window := by
  have size : (build candidates).size = candidates.length := rfl
  rw [windowWeight, find?_postings_build]
  by_cases empty : holders candidates.zipIdx window = []
  · have absent : frequency candidates window = 0 := by
      rw [← length_holders_zipIdx, empty, List.length_nil]
    rw [if_pos empty, rarity_of_frequency_eq_zero absent]
    simp only [greatestWeight, size, Nat.cast_add, Nat.cast_one]
  · rw [if_neg empty]
    simp only [weight, size, length_holders_zipIdx, Nat.cast_add, Nat.cast_one, rarity]

end Index

end Typeahead.Trigram

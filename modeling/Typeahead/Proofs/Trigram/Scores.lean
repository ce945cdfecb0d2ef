import Typeahead.Trigram.Index

/-!
# One score for each candidate

However many windows lead to a candidate, it gets one score. So a search finds each candidate at
most once, whatever the weights of the windows are.
-/

namespace Typeahead.Trigram.Index

variable {κ : Type} [Add κ] [Mul κ] [Div κ] [NatCast κ] [LT κ] [DecidableLT κ]

/-- The candidates that have scores. -/
def scored (scores : List (Nat × κ)) : List Nat :=
  scores.map Prod.fst

omit [Mul κ] [Div κ] [LT κ] [DecidableLT κ] in
theorem scored_addScore (amount : κ) (candidate : Nat) (scores : List (Nat × κ)) :
    scored (addScore amount candidate scores) =
      if candidate ∈ scored scores then scored scores else scored scores ++ [candidate] := by
  induction scores with
  | nil => rfl
  | cons entry rest inductionHypothesis =>
      obtain ⟨known, score⟩ := entry
      rw [addScore]
      by_cases same : known = candidate
      · rw [if_pos same, if_pos (by rw [← same]; exact List.mem_cons_self)]
        rfl
      · rw [if_neg same]
        simp only [scored, List.map_cons, List.mem_cons, Ne.symm same, false_or]
          at inductionHypothesis ⊢
        rw [inductionHypothesis]
        exact apply_ite (known :: ·) _ _ _

omit [Mul κ] [Div κ] [LT κ] [DecidableLT κ] in
/-- Adding to a score keeps one score for each candidate. -/
theorem nodup_scored_addScore {amount : κ} {candidate : Nat} {scores : List (Nat × κ)}
    (distinct : (scored scores).Nodup) : (scored (addScore amount candidate scores)).Nodup := by
  rw [scored_addScore]
  split
  · exact distinct
  · rename_i unknown
    refine List.nodup_append.mpr ⟨distinct, by simp, ?_⟩
    rintro known member added single rfl
    exact unknown (List.mem_singleton.mp single ▸ member)

omit [LT κ] [DecidableLT κ] in
/-- What holds without scores, and keeps holding when a candidate of a posting gets an amount, holds
of the scores for every query. -/
theorem scores_induction {motive : List (Nat × κ) → Prop} (log : κ → κ) (index : Index)
    (query : Entries Nat) (none : motive [])
    (add : ∀ scores amount window, ∀ posting ∈ (index.postings.find? window).getD [],
      motive scores → motive (addScore amount posting.1 scores)) :
    motive (index.scores log query) := by
  unfold scores
  apply List.foldlRecOn (motive := motive) query _ none
  rintro scores kept ⟨window, occurrences⟩ _
  apply List.foldlRecOn (motive := motive) _ _ kept
  intro scores kept posting listed
  exact add scores _ window posting listed kept

omit [LT κ] [DecidableLT κ] in
theorem nodup_scored_scores (log : κ → κ) (index : Index) (query : Entries Nat) :
    (scored (index.scores log query)).Nodup := by
  apply scores_induction (motive := fun scores => (scored scores).Nodup) log index query
    List.nodup_nil
  intro scores amount window posting _ distinct
  exact nodup_scored_addScore distinct

/-- A search finds each candidate at most once. -/
theorem nodup_scored_search (log : κ → κ) (index : Index) (terms : List Text) (fraction : κ) :
    (scored (index.search log terms fraction)).Nodup :=
  List.Sublist.nodup (List.filter_sublist.map Prod.fst) (nodup_scored_scores log index _)

end Typeahead.Trigram.Index

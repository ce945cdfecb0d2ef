import Typeahead.Proofs.Completion.Fields
import Typeahead.Proofs.Trigram.Search

/-!
# Typing a name to its end

A candidate with a name that begins with what is typed is found while at most three characters are
typed. With more characters it has all windows of the typed part, and it is found if any of these
windows tells candidates apart. If all candidates have all windows of the typed part, none of the
windows has a weight, and nothing is found.
-/

namespace Typeahead.Completion

open Trigram

/-- The candidates that are similar to a part are those with more than half the greatest score. -/
theorem mem_similarCandidates_iff {candidates : List Candidate} {part : Text}
    {candidate : Candidate} :
    candidate ∈ similarCandidates Real.log candidates part ↔
      candidate ∈ candidates ∧
        1 / 2 * greatestScore (candidates.map Candidate.terms) [part] <
          score (candidates.map Candidate.terms) [part] candidate.terms := by
  have half : ((1 : Nat) : ℝ) / ((2 : Nat) : ℝ) = 1 / 2 := by norm_num
  have bound : (0 : ℝ) ≤ 1 / 2 := by norm_num
  simp only [similarCandidates, half, List.mem_map, List.mem_mergeSort, List.mem_filterMap,
    Index.mem_search_build_iff bound]
  constructor
  · rintro ⟨⟨_, _⟩, ⟨⟨place, amount⟩, ⟨exceeds, terms, known, rfl⟩, found⟩, rfl⟩
    obtain ⟨_, here, same⟩ := Option.map_eq_some_iff.mp found
    cases same
    rw [List.getElem?_map, here, Option.map_some, Option.some.injEq] at known
    constructor
    · exact List.mem_of_getElem? here
    · rw [known]
      exact exceeds
  · rintro ⟨member, exceeds⟩
    let amount := score (candidates.map Candidate.terms) [part] candidate.terms
    obtain ⟨place, here⟩ := List.mem_iff_getElem?.mp member
    have known : (candidates.map Candidate.terms)[place]? = some candidate.terms := by
      rw [List.getElem?_map, here]
      rfl
    have found : (candidates[place]?).map (·, amount) = some (candidate, amount) := by
      rw [here]
      rfl
    exact ⟨(candidate, amount), ⟨(place, amount), ⟨exceeds, candidate.terms, known, rfl⟩, found⟩,
      rfl⟩

/-- Some window of a part is in no name of some candidate. -/
def TellsApart (candidates : List Candidate) (part : Text) : Prop :=
  ∃ window ∈ grams [part], ∃ candidate ∈ candidates, window ∉ grams candidate.terms

instance (candidates : List Candidate) (part : Text) : Decidable (TellsApart candidates part) :=
  inferInstanceAs (Decidable (∃ window ∈ grams [part], ∃ candidate ∈ candidates,
    window ∉ grams candidate.terms))

theorem greatestScore_pos_iff_tellsApart {candidates : List Candidate} {part : Text} :
    0 < greatestScore (candidates.map Candidate.terms) [part] ↔ TellsApart candidates part := by
  simp only [greatestScore_pos_iff, List.mem_map, exists_exists_and_eq_and]
  rfl

/-- Nothing is similar to a part that does not tell candidates apart. -/
theorem similarCandidates_eq_nil {candidates : List Candidate} {part : Text}
    (alike : ¬TellsApart candidates part) : similarCandidates Real.log candidates part = [] := by
  rw [← greatestScore_pos_iff_tellsApart] at alike
  apply List.eq_nil_iff_forall_not_mem.mpr
  intro candidate similar
  have exceeds := (mem_similarCandidates_iff.mp similar).2
  rw [score_eq_zero alike] at exceeds
  have least := greatestScore_nonneg (candidates.map Candidate.terms) [part]
  linarith

/-- What begins with a part is similar to it, if the part tells candidates apart. -/
theorem mem_similarCandidates_of_begins {candidates : List Candidate} {part : Text}
    (apart : TellsApart candidates part) {candidate : Candidate}
    (member : candidate ∈ candidates) (begins : candidate.begins part) :
    candidate ∈ similarCandidates Real.log candidates part := by
  rw [← greatestScore_pos_iff_tellsApart] at apart
  obtain ⟨term, named, isPrefix⟩ := List.any_eq_true.mp begins
  have shared := grams_subset_of_prefix named (List.isPrefixOf_iff_prefix.mp isPrefix)
  have reached := greatestScore_le_score (candidates.map Candidate.terms) shared
  apply mem_similarCandidates_iff.mpr
  constructor
  · exact member
  · linarith

section

variable {typed : Text} {schema : Schema} {path : Text} {others : List Text}
  {candidate : Candidate}

/-- A candidate with a name that begins with the typed part is found if and only if the part has at
most three characters or tells the candidates apart. -/
theorem mem_matchingCandidates_iff_of_begins
    (member : candidate ∈ fieldCandidates typed schema path others)
    (begins : candidate.begins (Text.afterLast '.' typed).lower) :
    candidate ∈ matchingCandidates Real.log (fieldCandidates typed schema path others)
        (Text.afterLast '.' typed) ↔
      (Text.afterLast '.' typed).length ≤ shortLength ∨
        TellsApart (fieldCandidates typed schema path others) (Text.afterLast '.' typed).lower := by
  unfold matchingCandidates
  by_cases short : (Text.afterLast '.' typed).length ≤ shortLength
  · rw [if_pos short, List.mem_mergeSort, List.mem_filter]
    constructor
    · intro _
      exact .inl short
    · intro _
      exact ⟨member, begins⟩
  · rw [if_neg short]
    constructor
    · intro similar
      by_contra neither
      rw [similarCandidates_eq_nil fun apart => neither (.inr apart)] at similar
      contradiction
    · rintro (isShort | apart)
      · contradiction
      · exact mem_similarCandidates_of_begins apart member begins

end

/-- A schema of two fields, one of them with a single field below it. -/
def nestedSchema : Schema where
  fields :=
    [("user".toList, .mk {} []), ("user.name".toList, .mk {} []), ("tags".toList, .mk {} [])]
  sampled := 1

/-- The field below another one is found among all fields. -/
theorem mem_matchingCandidates_nested :
    Candidate.ofPath "user.name" ∈ fieldCandidates "name" nestedSchema [] [] ∧
      (Candidate.ofPath "user.name").begins (Text.lower "name") ∧
      Candidate.ofPath "user.name" ∈
        matchingCandidates Real.log (fieldCandidates "name" nestedSchema [] []) "name" := by
  have member : Candidate.ofPath "user.name" ∈ fieldCandidates "name" nestedSchema [] [] := by
    decide
  have begins : (Candidate.ofPath "user.name").begins (Text.lower "name") := by
    decide
  have apart : TellsApart (fieldCandidates "name" nestedSchema [] []) (Text.lower "name") := by
    decide
  exact ⟨member, begins, (mem_matchingCandidates_iff_of_begins member begins).mpr (.inr apart)⟩

/-- Behind the point it is the only candidate, and lost with the fourth character of its name. -/
theorem not_mem_matchingCandidates_nested :
    Candidate.ofPath "name" ∈ fieldCandidates "user.name" nestedSchema [] [] ∧
      (Candidate.ofPath "name").begins (Text.afterLast '.' "user.name").lower ∧
      Candidate.ofPath "name" ∉
        matchingCandidates Real.log (fieldCandidates "user.name" nestedSchema [] [])
          (Text.afterLast '.' "user.name") := by
  have member : Candidate.ofPath "name" ∈ fieldCandidates "user.name" nestedSchema [] [] := by
    decide
  have begins : (Candidate.ofPath "name").begins (Text.afterLast '.' "user.name").lower := by
    decide
  have long : ¬(Text.afterLast '.' "user.name").length ≤ shortLength := by
    decide
  have alike : ¬TellsApart (fieldCandidates "user.name" nestedSchema [] [])
      (Text.afterLast '.' "user.name").lower := by
    decide
  have lost : Candidate.ofPath "name" ∉
      matchingCandidates Real.log (fieldCandidates "user.name" nestedSchema [] [])
        (Text.afterLast '.' "user.name") := by
    rw [matchingCandidates, if_neg long, similarCandidates_eq_nil alike]
    exact List.not_mem_nil
  exact ⟨member, begins, lost⟩

end Typeahead.Completion

import Typeahead.Proofs.Fuzzy.Columns

/-!
# Texts that share their first columns

A text takes over the columns of the characters that it shares with the text before it. They were
reckoned for the lower case that these characters have there, and a capital sigma has two: its lower
case depends on what follows. So a text is compared with the lower case that was met first of each
stretch that it shares, and that is its own lower case exactly if neighbours that share a stretch
lower it in the same way.
-/

namespace Typeahead.Fuzzy

/-! ## Shared starts -/

section Shared

theorem take_sharedLength (first second : Text) :
    first.take (sharedLength first second) = second.take (sharedLength first second) := by
  induction first generalizing second with
  | nil => simp [sharedLength]
  | cons c first inductionHypothesis =>
      cases second with
      | nil => simp [sharedLength]
      | cons d second =>
          by_cases same : c = d
          · simp [sharedLength, same, inductionHypothesis]
          · simp [sharedLength, same]

theorem sharedLength_le_left (first second : Text) : sharedLength first second ≤ first.length := by
  induction first generalizing second with
  | nil => simp [sharedLength]
  | cons c first inductionHypothesis =>
      cases second with
      | nil => simp [sharedLength]
      | cons d second =>
          rw [sharedLength]
          split
          · exact Nat.succ_le_succ (inductionHypothesis second)
          · exact Nat.zero_le _

/-- Two texts give the characters that they share the same lower case. -/
def SharesLowerCase (first second : Text) : Prop :=
  (comparedText first).take (sharedLength first second) =
    (comparedText second).take (sharedLength first second)

instance (first second : Text) : Decidable (SharesLowerCase first second) :=
  inferInstanceAs (Decidable (_ = _))

/-- Without a capital sigma, the start of a text has one lower case. -/
theorem take_comparedText_append {first : Text} (plain : 'Σ' ∉ first) (rest : Text) :
    (comparedText (first ++ rest)).take first.length = comparedText first := by
  have enough : first.length ≤ (Text.lower first).length := Text.length_le_length_lower first
  have split : Text.lower (first ++ rest) =
      Text.lower first ++ Text.lowerAfter first.reverse rest := by
    simpa [Text.lower] using Text.lowerAfter_append plain [] rest
  rw [comparedText, comparedText, List.take_take, split,
    Nat.min_eq_left (by simp), List.take_append_of_le_length enough]

/-- Only a shared capital sigma can be lowered in two ways. -/
theorem sharesLowerCase_of_imp {first second : Text}
    (sigma : 'Σ' ∈ first.take (sharedLength first second) → SharesLowerCase first second) :
    SharesLowerCase first second := by
  by_cases plain : 'Σ' ∈ first.take (sharedLength first second)
  case pos => exact sigma plain
  have lengths : (first.take (sharedLength first second)).length = sharedLength first second := by
    rw [List.length_take]
    exact Nat.min_eq_left (sharedLength_le_left first second)
  have start : ∀ text : Text,
      text.take (sharedLength first second) = first.take (sharedLength first second) →
        (comparedText text).take (sharedLength first second) =
          comparedText (first.take (sharedLength first second)) := by
    intro text same
    have lowered := take_comparedText_append plain (text.drop (sharedLength first second))
    rwa [lengths, ← same, List.take_append_drop, same] at lowered
  rw [SharesLowerCase, start first rfl, start second (take_sharedLength first second).symm]

end Shared

/-! ## What a text is compared with -/

/-- The characters that a text is compared with behind another one that was compared with those
met: of the stretch that both share the same ones, and behind it its own ones in lower case. -/
def comparedBehind (previous met text : Text) : Text :=
  let shared := sharedLength previous text
  met.take shared ++ (comparedText text).drop shared

/-- The characters that each of some texts is compared with behind the one before it. -/
def comparedAfter : Text → Text → List Text → List Text
  | _, _, [] => []
  | previous, met, text :: others =>
      let compared := comparedBehind previous met text
      compared :: comparedAfter text compared others

/-- A text is compared with as many characters as it has. -/
theorem length_comparedBehind {previous met : Text} (same : met.length = previous.length)
    (text : Text) : (comparedBehind previous met text).length = text.length := by
  have fits : sharedLength previous text ≤ text.length := by
    have shorter := congrArg List.length (take_sharedLength previous text)
    have inside := sharedLength_le_left previous text
    simp only [List.length_take] at shorter
    omega
  have inside := sharedLength_le_left previous text
  simp only [comparedBehind, List.length_append, List.length_take, List.length_drop,
    length_comparedText]
  omega

/-- A text is compared with its own lower case exactly if it shares that of the text before. -/
theorem comparedBehind_eq_iff (previous text : Text) :
    comparedBehind previous (comparedText previous) text = comparedText text ↔
      SharesLowerCase previous text := by
  have split := List.take_append_drop (sharedLength previous text) (comparedText text)
  constructor
  · intro own
    exact List.append_cancel_right (own.trans split.symm)
  · intro shares
    rw [comparedBehind, shares, split]

/-- All texts are compared with their own lower case exactly if neighbours share it. -/
theorem comparedAfter_eq_map_iff (previous : Text) (texts : List Text) :
    comparedAfter previous (comparedText previous) texts = texts.map comparedText ↔
      (previous :: texts).IsChain SharesLowerCase := by
  induction texts generalizing previous with
  | nil => simp [comparedAfter]
  | cons text others inductionHypothesis =>
      rw [comparedAfter, List.map_cons, List.cons_eq_cons, comparedBehind_eq_iff,
        List.isChain_cons_cons]
      refine and_congr_right fun shares => ?_
      rw [(comparedBehind_eq_iff previous text).mpr shares]
      exact inductionHypothesis text

/-! ## Distances -/

section Distances

variable {κ : Type} [Add κ] [Mul κ] [NatCast κ] [LE κ] [DecidableLE κ] [BEq κ] [Inhabited κ]

/-- The distances are the prices of the characters that the texts are compared with. -/
theorem distances_eq_map_zip (prices : Prices κ) (query : Text) {previous met : Text}
    (same : met.length = previous.length) (texts : List Text) :
    distances prices query previous (reckoned prices query met) texts =
      ((comparedAfter previous met texts).zip texts).map fun pair =>
        ((lastCell (reckoned prices query pair.1)).cost, pair.2) := by
  induction texts generalizing previous met with
  | nil => rfl
  | cons text others inductionHypothesis =>
      -- The columns that are left are those of the start of what the text before was compared with.
      have filled : extend prices query
          ((reckoned prices query met).dropWhile (sharedLength previous text < ·.width))
            ((comparedText text).drop (sharedLength previous text)) =
          reckoned prices query (comparedBehind previous met text) := by
        rw [dropWhile_reckoned, comparedBehind, reckoned_append]
      simp only [distances, comparedAfter, List.zip_cons_cons, List.map_cons, filled]
      rw [inductionHypothesis (length_comparedBehind same text)]

/-- Where neighbours share the lower case, each distance is that of the text alone. -/
theorem distances_eq_map (prices : Prices κ) (query : Text) {previous : Text} {texts : List Text}
    (shares : (previous :: texts).IsChain SharesLowerCase) :
    distances prices query previous (columns prices query previous) texts =
      texts.map fun text => ((lastCell (columns prices query text)).cost, text) := by
  have own := (comparedAfter_eq_map_iff previous texts).mpr shares
  have measured := distances_eq_map_zip prices query (length_comparedText previous) texts
  rw [own, ← List.map_prod_right_eq_zip, List.map_map] at measured
  exact measured

end Distances

end Typeahead.Fuzzy

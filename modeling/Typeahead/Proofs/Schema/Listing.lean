import Mathlib.Data.List.Perm.Basic
import Typeahead.Proofs.Decimal.Exactness
import Typeahead.Proofs.Schema.Record

/-!
# Listings do not depend on the order

A listing is filled value by value, and it is given up when there are too many values. Which of two
values that are the same is listed depends on their order, and so does the order of the list. But
the values that are listed are the same up to what a comparison of values sees of them, and whether
a listing is given up does not depend on the order at all.
-/

namespace Typeahead.Schema

open Document (Value Words Number)

/-! ## Folds -/

/-- A fold whose steps commute up to a relation does not depend, up to the relation, on the order. -/
theorem foldl_of_perm {α σ : Type} (related : σ → σ → Prop) {step : σ → α → σ}
    (refl : ∀ state, related state state)
    (trans : ∀ {first second third}, related first second → related second third →
      related first third)
    (congr : ∀ value {first second}, related first second →
      related (step first value) (step second value))
    (comm : ∀ first second state, related (step (step state first) second)
      (step (step state second) first))
    {values others : List α} (perm : values.Perm others) (state : σ) :
    related (values.foldl step state) (others.foldl step state) := by
  have foldl_congr (values : List α) {first second : σ} (same : related first second) :
      related (values.foldl step first) (values.foldl step second) := by
    induction values generalizing first second with
    | nil => exact same
    | cons value rest inductionHypothesis => exact inductionHypothesis (congr value same)
  induction perm generalizing state with
  | nil => exact refl state
  | cons value _ inductionHypothesis => exact inductionHypothesis (step state value)
  | swap first second rest => exact foldl_congr rest (comm second first state)
  | trans _ _ firstHypothesis secondHypothesis =>
      exact trans (firstHypothesis state) (secondHypothesis state)

/-! ## Listings up to a view -/

/-- Listings of one kind that list the same values, up to a view of them and up to their order. -/
inductive Listing.Alike {α β : Type} (view : α → β) : Listing α → Listing α → Prop
  | absent : Alike view .absent .absent
  | unlisted : Alike view .unlisted .unlisted
  | listed {values others : List α} :
      (values.map view).Perm (others.map view) → Alike view (.listed values) (.listed others)

namespace Listing

variable {α β : Type} {view : α → β} {same : α → α → Bool} {limit : Nat}

theorem Alike.refl (listing : Listing α) : Alike view listing listing := by
  cases listing with
  | absent => exact .absent
  | unlisted => exact .unlisted
  | listed values => exact .listed (List.Perm.refl _)

theorem Alike.trans {first second third : Listing α} (left : Alike view first second)
    (right : Alike view second third) : Alike view first third := by
  cases left with
  | absent => exact right
  | unlisted => exact right
  | listed perm =>
      cases right with
      | listed next => exact .listed (perm.trans next)

/-- A comparison of values that only looks at a view of them. -/
structure Compares (view : α → β) (same : α → α → Bool) : Prop where
  symm : ∀ first second, same first second = same second first
  congr : ∀ value {first second}, view first = view second → same value first = same value second
  view_eq : ∀ {first second}, same first second = true → view first = view second

namespace Compares

variable (compares : Compares view same)

include compares

theorem any_congr (value : α) {values others : List α}
    (perm : (values.map view).Perm (others.map view)) :
    values.any (same value) = others.any (same value) := by
  have half {values others : List α} (within : values.map view ⊆ others.map view)
      (found : values.any (same value) = true) : others.any (same value) = true := by
    obtain ⟨listed, member, agrees⟩ := List.any_eq_true.mp found
    obtain ⟨other, otherMember, viewed⟩ := List.mem_map.mp (within (List.mem_map_of_mem member))
    exact List.any_eq_true.mpr ⟨other, otherMember, (compares.congr value viewed).trans agrees⟩
  exact Bool.eq_iff_iff.mpr ⟨half perm.subset, half perm.symm.subset⟩

/-- Listings stay alike when a value is added to both. -/
theorem add_congr (value : α) {first second : Listing α} (alike : Alike view first second) :
    Alike view (first.add limit same value) (second.add limit same value) := by
  cases alike with
  | absent => exact .refl _
  | unlisted => exact .refl _
  | @listed values others perm =>
      have lengths : values.length = others.length := by simpa using perm.length_eq
      simp only [add, any_congr compares value perm, lengths]
      split
      · exact .listed perm
      · split
        · exact .unlisted
        · apply Alike.listed
          rw [List.map_append, List.map_append]
          exact perm.append_right _

/-- Two values that are not listed may be added in either order. -/
theorem add_comm_of_new {first second : α} {values : List α}
    (firstNew : values.any (same first) = false) (secondNew : values.any (same second) = false) :
    Alike view (((listed values).add limit same first).add limit same second)
      (((listed values).add limit same second).add limit same first) := by
  by_cases full : limit ≤ values.length
  · simpa [add, firstNew, secondNew, full] using Alike.unlisted
  · by_cases agree : same first second = true
    · have agreeBack : same second first = true := by rwa [compares.symm]
      have alike : Alike view (.listed (values ++ [first])) (.listed (values ++ [second])) := by
        apply Alike.listed
        rw [List.map_append, List.map_append, List.map_singleton, List.map_singleton,
          compares.view_eq agree]
      simpa [add, firstNew, secondNew, full, agree, agreeBack] using alike
    · have disagreeBack : same second first = false := by
        rwa [compares.symm, Bool.eq_false_iff]
      by_cases last : limit ≤ values.length + 1
      · simpa [add, firstNew, secondNew, full, agree, disagreeBack, last] using Alike.unlisted
      · have alike : Alike view (.listed (values ++ [first, second]))
            (.listed (values ++ [second, first])) := by
          apply Alike.listed
          rw [List.map_append, List.map_append]
          exact (List.Perm.swap _ _ _).append_left _
        simpa [add, firstNew, secondNew, full, agree, disagreeBack, last] using alike

/-- Two values may be added in either order. -/
theorem add_comm (first second : α) (listing : Listing α) :
    Alike view ((listing.add limit same first).add limit same second)
      ((listing.add limit same second).add limit same first) := by
  cases listing with
  | unlisted => exact .unlisted
  | absent =>
      by_cases agree : same first second = true
      · have agreeBack : same second first = true := by rwa [compares.symm]
        have alike : Alike view (.listed [first]) (.listed [second]) := by
          apply Alike.listed
          rw [List.map_singleton, List.map_singleton, compares.view_eq agree]
        simpa [add, agree, agreeBack] using alike
      · have disagreeBack : same second first = false := by
          rwa [compares.symm, Bool.eq_false_iff]
        by_cases full : limit ≤ 1
        · simpa [add, agree, disagreeBack, full] using Alike.unlisted
        · have alike : Alike view (.listed [first, second]) (.listed [second, first]) := by
            apply Alike.listed
            exact List.Perm.swap _ _ _
          simpa [add, agree, disagreeBack, full] using alike
  | listed values =>
      cases firstKnown : values.any (same first) with
      | true =>
          cases secondKnown : values.any (same second) with
          | true => simpa [add, firstKnown, secondKnown] using Alike.refl _
          | false =>
              by_cases full : limit ≤ values.length
              · simpa [add, firstKnown, secondKnown, full] using Alike.unlisted
              · simpa [add, firstKnown, secondKnown, full] using Alike.refl _
      | false =>
          cases secondKnown : values.any (same second) with
          | true =>
              by_cases full : limit ≤ values.length
              · simpa [add, firstKnown, secondKnown, full] using Alike.unlisted
              · simpa [add, firstKnown, secondKnown, full] using Alike.refl _
          | false => exact add_comm_of_new compares firstKnown secondKnown

end Compares

/-! ## Turning the listed values into another form -/

variable {γ δ : Type} {turn : α → Option γ} {viewTurned : γ → δ}

/-- Values that look the same one by one are turned into values that look the same. -/
theorem mapM_of_forall₂
    (agree : ∀ {first second}, view first = view second →
      Option.Rel (fun one other => viewTurned one = viewTurned other) (turn first) (turn second))
    {values others : List α}
    (alike : List.Forall₂ (fun first second => view first = view second) values others) :
    Option.Rel (fun ones others => ones.map viewTurned = others.map viewTurned)
      (values.mapM turn) (others.mapM turn) := by
  induction alike with
  | nil => exact .some rfl
  | @cons first second rest others same _ inductionHypothesis =>
      have turned := agree same
      rw [List.mapM_cons, List.mapM_cons]
      generalize turn first = one, turn second = other at turned
      generalize rest.mapM turn = ones, others.mapM turn = others at inductionHypothesis
      cases turned with
      | none => exact .none
      | some first =>
          cases inductionHypothesis with
          | none => exact .none
          | some rest => exact .some (congrArg₂ List.cons first rest)

/-- Values in another order are turned into values in another order. -/
theorem mapM_of_perm {values others : List α} (perm : values.Perm others) :
    Option.Rel List.Perm (values.mapM turn) (others.mapM turn) := by
  induction perm with
  | nil => exact .some (List.Perm.refl _)
  | @cons value rest others _ inductionHypothesis =>
      rw [List.mapM_cons, List.mapM_cons]
      generalize rest.mapM turn = ones, others.mapM turn = others at inductionHypothesis
      cases turn value with
      | none => exact .none
      | some turned =>
          cases inductionHypothesis with
          | none => exact .none
          | some rest => exact .some (rest.cons turned)
  | swap first second rest =>
      simp only [List.mapM_cons]
      cases turn first with
      | none =>
          cases turn second with
          | none => exact .none
          | some _ => exact .none
      | some one =>
          cases turn second with
          | none => exact .none
          | some other =>
              cases rest.mapM turn with
              | none => exact .none
              | some turned => exact .some (List.Perm.swap one other turned)
  | @trans values between others _ _ before after =>
      generalize values.mapM turn = ones, between.mapM turn = middle at before after
      cases before with
      | none => exact after
      | some first =>
          generalize others.mapM turn = others at after
          cases after with
          | some second => exact .some (first.trans second)

/-- Alike listings are turned into alike listings. -/
theorem Alike.convert? {first second : Listing α} (alike : Alike view first second)
    (agree : ∀ {first second}, view first = view second →
      Option.Rel (fun one other => viewTurned one = viewTurned other) (turn first) (turn second)) :
    Option.Rel (Alike viewTurned) (Survey.convert? turn first) (Survey.convert? turn second) := by
  cases alike with
  | absent => exact .some .absent
  | unlisted => exact .some .unlisted
  | @listed values others perm =>
      have viewed : List.Forall₂ (fun look other => look = view other) (others.map view) others :=
        List.forall₂_map_left_iff.mpr (List.forall₂_same.mpr fun _ _ => rfl)
      obtain ⟨between, looks, order⟩ := List.perm_comp_forall₂ perm viewed
      have pointwise := mapM_of_forall₂ agree (List.forall₂_map_left_iff.mp looks)
      have ordered : Option.Rel List.Perm (between.mapM turn) (others.mapM turn) :=
        mapM_of_perm order
      simp only [Survey.convert?]
      generalize values.mapM turn = ones, between.mapM turn = middle at pointwise ordered
      cases pointwise with
      | none =>
          generalize others.mapM turn = others at ordered
          cases ordered
          exact .none
      | some same =>
          generalize others.mapM turn = others at ordered
          cases ordered with
          | some moved =>
              apply Option.Rel.some
              apply Alike.listed
              rw [same]
              exact moved.map viewTurned

end Listing

/-! ## Numbers and texts -/

theorem compares_numbers : Listing.Compares Number.exact Number.same where
  symm first second := by
    by_cases equal : first.exact = second.exact
    · rw [Number.same, Number.same, equal]
    · simp [Number.same, equal, Ne.symm equal]
  congr value first second viewed := by rw [Number.same, Number.same, viewed]
  view_eq same := by
    rw [Number.same, Bool.and_eq_true] at same
    exact of_decide_eq_true same.2

theorem compares_words :
    Listing.Compares id (fun first second : Words => first = second) where
  symm first second := decide_eq_decide.mpr eq_comm
  congr value first second viewed := by
    have equal : first = second := viewed
    rw [equal]
  view_eq same := of_decide_eq_true same

/-- The listed numbers do not depend on the order of the values. -/
theorem numbers_of_perm {values others : List Value} (perm : values.Perm others) :
    Listing.Alike Number.exact (listNumbers values).numbers (listNumbers others).numbers := by
  apply foldl_of_perm fun first second : SurveyFlags =>
    Listing.Alike Number.exact first.numbers second.numbers
  · intro flags
    exact .refl _
  · intro first second third left right
    exact left.trans right
  · intro number first second alike
    exact compares_numbers.add_congr number alike
  · intro first second flags
    exact compares_numbers.add_comm first second flags.numbers
  · exact perm.filterMap number?

/-- The listed texts do not depend on the order of the values. -/
theorem texts_of_perm {values others : List Value} (perm : values.Perm others) :
    Listing.Alike id (listTexts values).texts (listTexts others).texts := by
  apply foldl_of_perm fun first second : SurveyFlags =>
    Listing.Alike id first.texts second.texts
  · intro flags
    exact .refl _
  · intro first second third left right
    exact left.trans right
  · intro words first second alike
    by_cases long : SurveyFlags.textLimit < words.text.length
    · simpa only [SurveyFlags.addText, if_pos long] using Listing.Alike.unlisted
    · simpa only [SurveyFlags.addText, if_neg long] using compares_words.add_congr words alike
  · intro first second flags
    by_cases firstLong : SurveyFlags.textLimit < first.text.length
    · by_cases secondLong : SurveyFlags.textLimit < second.text.length
      · simpa only [SurveyFlags.addText, if_pos firstLong, if_pos secondLong] using
          Listing.Alike.unlisted
      · simpa only [SurveyFlags.addText, if_pos firstLong, if_neg secondLong,
          Listing.add] using Listing.Alike.unlisted
    · by_cases secondLong : SurveyFlags.textLimit < second.text.length
      · simpa only [SurveyFlags.addText, if_neg firstLong, if_pos secondLong,
          Listing.add] using Listing.Alike.unlisted
      · simpa only [SurveyFlags.addText, if_neg firstLong, if_neg secondLong] using
          compares_words.add_comm first second flags.texts
  · exact perm.filterMap words?

end Typeahead.Schema

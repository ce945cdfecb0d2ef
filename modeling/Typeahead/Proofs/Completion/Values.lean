import Mathlib.Data.Nat.Digits.Defs
import Typeahead.Acceptance.Template
import Typeahead.Completion.Values

/-!
# Offered values

Offered as values are numbers, texts between quotes, the truth values, and placeholders. A
placeholder begins with a parenthesis and none of the others does, and each placeholder that is
offered has a template. So everything that is offered as a value can be expanded.
-/

namespace Typeahead

/-! ## Texts that expand -/

namespace Acceptance

/-- A placeholder begins with a parenthesis. -/
theorem head?_of_isPlaceholder {text : Text} (placeholder : isPlaceholder text) :
    text.head? = some '(' := by
  unfold isPlaceholder at placeholder
  split at placeholder
  · rename_i rest opens
    unfold line at opens
    split at opens
    · have begins : text.dropLast <+: text := List.dropLast_prefix text
      rw [opens] at begins
      obtain ⟨more, rfl⟩ := begins
      rfl
    · rw [opens]
      rfl
  · contradiction

/-- A text expands, unless it is a placeholder without a template. -/
theorem exists_expand_iff (text : Text) :
    (∃ expansion, expand text = .ok expansion) ↔
      (isPlaceholder text → ∃ template, (text, template) ∈ templates) := by
  unfold expand
  split
  · rename_i placeholder
    simp only [placeholder, true_imp_iff]
    cases found : templates.find? (·.1 == text) with
    | none =>
        refine iff_of_false (by simp) ?_
        rintro ⟨template, member⟩
        have other := List.find?_eq_none.mp found _ member
        simp at other
    | some entry =>
        have same : entry.1 = text := by simpa using List.find?_some found
        refine iff_of_true (by simp) ⟨entry.2, ?_⟩
        rw [← same]
        exact List.mem_of_find?_eq_some found
  · rename_i plain
    exact iff_of_true ⟨_, rfl⟩ (fun placeholder => absurd placeholder plain)

end Acceptance

/-! ## Numbers -/

namespace Decimal

theorem not_mem_natDigits (n : Nat) : '(' ∉ natDigits n := by
  intro member
  have digit := Nat.isDigit_of_mem_toDigits (by decide) (by decide) member
  contradiction

theorem not_mem_integerText (n : Int) : '(' ∉ integerText n := by
  unfold integerText
  split
  · simp [not_mem_natDigits]
  · exact not_mem_natDigits _

theorem not_mem_positional {digits : Text} (absent : '(' ∉ digits) (whole : Int) :
    '(' ∉ positional digits whole := by
  have front (count : Nat) : '(' ∉ digits.take count := fun member =>
    absent (List.mem_of_mem_take member)
  have back (count : Nat) : '(' ∉ digits.drop count := fun member =>
    absent (List.mem_of_mem_drop member)
  unfold positional
  split
  · simp [absent]
  · split
    · simp [absent]
    · simp [front, back]

theorem not_mem_scientific {digits : Text} (absent : '(' ∉ digits) (exponent : Int) :
    '(' ∉ scientific digits exponent := by
  have front (count : Nat) : '(' ∉ digits.take count := fun member =>
    absent (List.mem_of_mem_take member)
  have back : '(' ∉ digits.tail := fun member => absent (List.mem_of_mem_tail member)
  have sign : '(' ≠ if exponent < 0 then '-' else '+' := by
    split <;> decide
  have size := not_mem_natDigits exponent.natAbs
  simp [scientific, front, back, sign, size]

theorem not_mem_doubleText (value : Float) : '(' ∉ doubleText value := by
  unfold doubleText
  split
  · decide
  · split <;> decide
  · rename_i negative mantissa exponent _
    have magnitude : '(' ∉ (if mantissa = 0 then "0.0".toList
        else (Decimal.shortest mantissa exponent).text) := by
      split
      · decide
      · unfold Decimal.text
        simp only
        split
        · exact not_mem_positional (not_mem_natDigits _) _
        · exact not_mem_scientific (not_mem_natDigits _) _
    simp only
    split
    · rw [List.mem_cons]
      rintro (same | member)
      · contradiction
      · exact magnitude member
    · exact magnitude

end Decimal

/-! ## What is offered -/

namespace Completion

open Schema (Kind Flags)
open Selector (Choices offeredQuote truthValues kindNames operatorChoices?)
open Acceptance (templates)

/-- A text that expands: it begins with no parenthesis, or it has a template. -/
def IsKnown (text : Text) : Prop :=
  text.head? ≠ some '(' ∨ ∃ template, (text, template) ∈ templates

theorem IsKnown.of_not_mem {text : Text} (absent : '(' ∉ text) : IsKnown text :=
  .inl fun first => absent (List.mem_of_head? first)

theorem IsKnown.exists_template {text : Text} (known : IsKnown text)
    (placeholder : Acceptance.isPlaceholder text) : ∃ template, (text, template) ∈ templates :=
  known.resolve_left (not_not_intro (Acceptance.head?_of_isPlaceholder placeholder))

theorem isKnown_offeredQuote (typed rest : Text) : IsKnown (offeredQuote typed :: rest) := by
  refine .inl ?_
  rw [List.head?_cons, offeredQuote]
  split <;> decide

theorem isKnown_number (value : Float) : IsKnown (Document.Number.double value).text := by
  refine .of_not_mem ?_
  rw [Document.Number.text]
  split
  · exact Decimal.not_mem_integerText _
  · exact Decimal.not_mem_doubleText value

/-- Each kind has a placeholder with a template. -/
theorem isKnown_placeholder (kind : Kind) : IsKnown (placeholder kind) := by
  have listed : placeholder kind ∈ templates.map Prod.fst := by
    cases kind <;> decide
  obtain ⟨⟨_, template⟩, member, rfl⟩ := List.mem_map.mp listed
  exact .inr ⟨template, member⟩

theorem isKnown_of_mem_truthValues {text : Text} (member : text ∈ truthValues) :
    IsKnown text := by
  simp only [truthValues, List.mem_cons, List.not_mem_nil, or_false] at member
  rcases member with rfl | rfl <;> exact .inl (by decide)

theorem mem_of_mem_beginning {values : List Text} {typed text : Text}
    (member : text ∈ beginning values typed) : text ∈ values := by
  have sorted := List.mem_of_mem_take member
  rw [Text.sortedSet, (List.mergeSort_perm _ _).mem_iff, List.mem_eraseDups] at sorted
  exact (List.mem_filter.mp sorted).1

theorem isKnown_of_mem_sampledValues {flags : Flags Float Text} {typed text : Text}
    (member : text ∈ sampledValues flags (offeredQuote typed)) : IsKnown text := by
  rw [sampledValues, List.mem_append, List.mem_append] at member
  rcases member with (number | quoted) | truth
  · obtain ⟨value, _, rfl⟩ := List.mem_map.mp number
    exact isKnown_number value
  · obtain ⟨value, _, rfl⟩ := List.mem_map.mp quoted
    exact isKnown_offeredQuote typed _
  · split at truth
    · exact isKnown_of_mem_truthValues truth
    · contradiction

theorem isKnown_of_mem_valueTexts {flags? : Option (Flags Float Text)} {typed text : Text}
    (member : text ∈ valueTexts typed flags?) : IsKnown text := by
  cases flags? with
  | none => contradiction
  | some flags =>
      rcases List.mem_append.mp member with sampled | placed
      · exact isKnown_of_mem_sampledValues (mem_of_mem_beginning sampled)
      · obtain ⟨kind, _, rfl⟩ := List.mem_map.mp placed
        exact isKnown_placeholder kind

/-- Everything that an operator offers as its value is known. -/
theorem isKnown_of_mem_operatorChoices {operator value typed text : Text} {choices : Choices}
    (offers : operatorChoices? operator value = some choices)
    {flags? : Option (Flags Float Text)} (member : text ∈ choiceTexts typed flags? choices) :
    IsKnown text := by
  unfold operatorChoices? at offers
  split at offers
  · cases offers
    exact isKnown_of_mem_valueTexts member
  split at offers
  · cases offers
    exact isKnown_of_mem_truthValues member
  split at offers
  · cases offers
    obtain ⟨name, _, rfl⟩ := List.mem_map.mp (mem_of_mem_beginning member)
    exact isKnown_offeredQuote value _
  split at offers
  · cases offers
    rw [List.mem_singleton.mp member]
    exact .inl (by decide)
  split at offers
  · cases offers
    rw [List.mem_singleton.mp member]
    exact .inr ⟨_, List.mem_cons_of_mem _ List.mem_cons_self⟩
  · contradiction

end Completion

end Typeahead

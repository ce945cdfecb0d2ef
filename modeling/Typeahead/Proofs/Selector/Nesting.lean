import Typeahead.Proofs.Selector.Forms

/-!
# Nesting

A stretch between two quotes ends at its own quote that no backslash precedes, and a stretch
between two brackets ends at its own closer. The closers of other brackets are characters like any
other inside it. The stretches are described by a grammar that knows nothing of the scan, and that
describes what is not balanced, too.

Behind an opener a text goes on with such a stretch and the closer, and the plain scan comes out of
it; or there is no such stretch, and the scan is still inside when it reaches the end.
-/

namespace Typeahead.Selector

open Scan

/-! ## Stretches -/

namespace Delimiter

/-- What may stand between an opener and the closer that ends the stretch. -/
inductive Encloses : Delimiter → Text → Prop
  | quoted {delimiter : Delimiter} {inner : Text} :
      delimiter.isQuote = true → Quoted delimiter.closer inner → Encloses delimiter inner
  | nil {delimiter : Delimiter} : delimiter.isQuote = false → Encloses delimiter []
  | plain {delimiter : Delimiter} {c : Char} {rest : Text} :
      delimiter.isQuote = false → opening? c = none → c ≠ delimiter.closer →
        Encloses delimiter rest → Encloses delimiter (c :: rest)
  | stretch {delimiter nested : Delimiter} {inner rest : Text} :
      delimiter.isQuote = false → Encloses nested inner → Encloses delimiter rest →
        Encloses delimiter (nested.opener :: inner ++ nested.closer :: rest)

/-- Behind an opener a text goes on with a stretch and its closer. -/
def Ends (delimiter : Delimiter) (text : Text) : Prop :=
  ∃ inner rest, text = inner ++ delimiter.closer :: rest ∧ delimiter.Encloses inner

theorem Ends.nested {delimiter nested : Delimiter} (bracket : delimiter.isQuote = false)
    {inner rest : Text} (encloses : nested.Encloses inner) (ends : delimiter.Ends rest) :
    delimiter.Ends (nested.opener :: (inner ++ nested.closer :: rest)) := by
  obtain ⟨further, behind, rfl, inside⟩ := ends
  exact ⟨nested.opener :: inner ++ nested.closer :: further, behind, by simp,
    .stretch bracket encloses inside⟩

end Delimiter

/-! ## Scanning a stretch that is closed -/

namespace Scan

/-- Inside brackets the plain scan passes what opens nothing and is not their closer. -/
theorem step_foreign {scan : Scan} {delimiter : Delimiter} {outer : List Delimiter}
    (unescaped : scan.escaped = false) (pending : scan.pending = delimiter :: outer)
    (bracket : delimiter.isQuote = false) {c : Char} (opens : Delimiter.opening? c = none)
    (other : c ≠ delimiter.closer) (position : Nat) :
    scan.step (recoversAt none position) c = some scan := by
  simp [step, stepInside, recoversAt, unescaped, pending, bracket, opens, other]

end Scan

/-- The plain scan comes out of a stretch at its closer. -/
theorem Delimiter.Encloses.closes {delimiter : Delimiter} {inner : Text}
    (encloses : delimiter.Encloses inner) (position : Nat) :
    Closes none position delimiter inner := by
  induction encloses generalizing position with
  | quoted isQuote quoted => exact quoted.closes isQuote position
  | nil bracket => exact (neutral_nil none position).closes bracket
  | @plain delimiter c rest bracket opens other _ induct =>
      intro scan ready
      have unescaped := ready.unescaped_enter delimiter
      have stepped := step_foreign unescaped rfl bracket opens other position
      rw [List.cons_append, pass_cons_of_step stepped]
      exact induct (position + 1) scan ready
  | @stretch delimiter nested inner rest bracket _ _ within behind =>
      intro scan ready
      have passed := pass_enclosed (ready.enter bracket) (within (position + 1))
      rw [behind_of_pending_ne_nil (by simp)] at passed
      have whole : nested.opener :: inner ++ nested.closer :: rest ++ [delimiter.closer] =
          (nested.opener :: inner ++ [nested.closer]) ++ (rest ++ [delimiter.closer]) := by
        simp
      rw [whole, pass_append passed]
      exact behind _ scan ready

/-! ## Scanning a stretch that is not closed -/

/-- A scan that enters a delimiter in front of a text is still inside it at the end. -/
def StaysInside (position : Nat) (delimiter : Delimiter) (text : Text) : Prop :=
  ∀ scan : Scan, scan.Ready → ∃ stop opened escaped,
    position + text.length ≤ stop ∧
      run none position (scan.enter delimiter) text =
        (stop,
          { scan.enter delimiter with
            pending := opened ++ delimiter :: scan.pending
            escaped := escaped })

/-- A name that dangles leaves its quote open. -/
theorem Dangling.staysInside {quote : Delimiter} (isQuote : quote.isQuote = true) {text : Text}
    (dangling : Dangling quote.closer text) (position : Nat) :
    StaysInside position quote text := by
  intro scan ready
  have unescaped := ready.unescaped_enter quote
  rcases dangling with quoted | ⟨inner, quoted, rfl⟩
  · have passed := run_append_of_pass (quoted.pass isQuote position unescaped rfl) []
    rw [List.append_nil, Scan.run] at passed
    exact ⟨_, [], _, Nat.le_add_right _ _, passed⟩
  · have other := quote.backslash_ne_closer
    have stepped := step_quoted unescaped rfl isQuote
      (recoversAt none (position + inner.length)) other (.inl rfl)
    refine ⟨position + inner.length + 2, [], true, ?_, ?_⟩
    · rw [List.length_append, List.length_singleton]
      omega
    · rw [run_append_of_pass (quoted.pass isQuote position unescaped rfl), Scan.run, stepped]
      rfl

theorem staysInside_nil (position : Nat) (delimiter : Delimiter) :
    StaysInside position delimiter [] :=
  fun _ _ => ⟨_, [], _, Nat.le_add_right _ _, rfl⟩

theorem StaysInside.plain {position : Nat} {delimiter : Delimiter} {c : Char} {rest : Text}
    (bracket : delimiter.isQuote = false) (opens : Delimiter.opening? c = none)
    (other : c ≠ delimiter.closer) (stays : StaysInside (position + 1) delimiter rest) :
    StaysInside position delimiter (c :: rest) := by
  intro scan ready
  have unescaped := ready.unescaped_enter delimiter
  have stepped := step_foreign unescaped rfl bracket opens other position
  obtain ⟨stop, opened, escaped, reaches, scanned⟩ := stays scan ready
  refine ⟨stop, opened, escaped, ?_, ?_⟩
  · rw [List.length_cons]
    omega
  · rw [run, stepped]
    exact scanned

/-- A stretch inside another one that is not closed leaves both open. -/
theorem StaysInside.enter {position : Nat} {delimiter nested : Delimiter} {rest : Text}
    (bracket : delimiter.isQuote = false) (stays : StaysInside (position + 1) nested rest) :
    StaysInside position delimiter (nested.opener :: rest) := by
  intro scan ready
  have within := ready.enter bracket
  have stepped := step_opener within (recoversAt none position) nested
  obtain ⟨stop, opened, escaped, reaches, scanned⟩ := stays _ within
  refine ⟨stop, opened ++ [nested], escaped, ?_, ?_⟩
  · rw [List.length_cons]
    omega
  · rw [run, stepped, List.append_assoc]
    simp only
    rw [scanned]
    rfl

/-- A stretch inside another one leaves no trace there. -/
theorem StaysInside.stretch {position : Nat} {delimiter nested : Delimiter} {inner rest : Text}
    (bracket : delimiter.isQuote = false) (encloses : nested.Encloses inner)
    (stays : StaysInside (position + (inner.length + 2)) delimiter rest) :
    StaysInside position delimiter (nested.opener :: (inner ++ nested.closer :: rest)) := by
  intro scan ready
  have passed := pass_enclosed (ready.enter bracket) (encloses.closes (position + 1))
  rw [behind_of_pending_ne_nil (by simp)] at passed
  have length : (nested.opener :: inner ++ [nested.closer]).length = inner.length + 2 := by
    simp
  have whole : nested.opener :: (inner ++ nested.closer :: rest) =
      (nested.opener :: inner ++ [nested.closer]) ++ rest := by
    simp
  obtain ⟨stop, opened, escaped, reaches, scanned⟩ := stays scan ready
  refine ⟨stop, opened, escaped, ?_, ?_⟩
  · rw [whole, List.length_append, length]
    omega
  · rw [whole, run_append_of_pass passed, length]
    exact scanned

/-- Behind an opener a stretch ends, or the scan stays inside it. -/
theorem ends_or_staysInside (delimiter : Delimiter) (position : Nat) (text : Text) :
    delimiter.Ends text ∨ StaysInside position delimiter text := by
  -- Behind a nested stretch the text is not the tail of the text, only shorter.
  induction length : text.length using Nat.strongRecOn generalizing delimiter position text with
  | _ bound induct =>
      cases isQuote : delimiter.isQuote with
      | true =>
          rcases quoted_or_dangling delimiter.closer text with
            ⟨inner, rest, quoted, whole⟩ | dangling
          · exact .inl ⟨inner, rest, whole, .quoted isQuote quoted⟩
          · exact .inr (dangling.staysInside isQuote position)
      | false =>
          rcases text with - | ⟨c, rest⟩
          · exact .inr (staysInside_nil position delimiter)
          rw [List.length_cons] at length
          by_cases closes : c = delimiter.closer
          · exact .inl ⟨[], rest, by rw [closes, List.nil_append], .nil isQuote⟩
          cases opens : Delimiter.opening? c with
          | none =>
              rcases induct rest.length (by omega) delimiter (position + 1) rest rfl with
                ⟨inner, behind, rfl, encloses⟩ | stays
              · exact .inl ⟨c :: inner, behind, rfl, .plain isQuote opens closes encloses⟩
              · exact .inr (stays.plain isQuote opens closes)
          | some nested =>
              rw [Delimiter.eq_opener_of_opening? opens]
              rcases induct rest.length (by omega) nested (position + 1) rest rfl with
                ⟨inner, behind, rfl, encloses⟩ | stays
              · rw [List.length_append, List.length_cons] at length
                rcases induct behind.length (by omega) delimiter (position + (inner.length + 2))
                  behind rfl with ends | stays
                · exact .inl (ends.nested isQuote encloses)
                · exact .inr (stays.stretch isQuote encloses)
              · exact .inr (stays.enter isQuote)

end Typeahead.Selector

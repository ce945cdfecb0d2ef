import Typeahead.Proofs.Acceptance.Frames
import Typeahead.Proofs.Selector.Heading

/-!
# Spelling accepted names

An accepted name is spelled as a label that can be read back. When it replaces the name of a written
key, the new text is again that of a written key: the blanks stay, the quotes come or go as the name
needs them, and a colon is there.
-/

namespace Typeahead.Acceptance

open Selector (Heading Label Caret)

/-! ## Labels -/

/-- The label for a name; the quote is for a name that needs one. -/
def labelFor (quote : Char) (name : Text) : Label :=
  if isBareName name then .bare name else .quoted quote name

theorem labelFor_wellFormed {quote : Char} (isQuote : isQuote quote = true) (name : Text) :
    (labelFor quote name).WellFormed := by
  unfold labelFor
  split
  · rename_i bare
    have plain := plain_of_isBareName bare
    obtain ⟨c, rest, rfl, visible⟩ := exists_visible_of_isBareName bare
    exact .bare visible plain
  · exact .quoted isQuote

/-- The name of a key with a label for a name is the spelling of the name, and the blanks behind
it if it is bare. -/
theorem spelled_begins (before gap name : Text) (quote : Char) (colon : Bool) :
    spelled name <+: Heading.name ⟨before, labelFor quote name, gap, colon⟩ := by
  unfold Heading.name labelFor spelled
  by_cases bare : isBareName name = true
  · simp [bare]
  · simp [bare]

/-! ## The frames of written keys -/

/-- The quote of a quoted label. -/
def quote? : Label → Option Char
  | .bare _ => none
  | .quoted quote _ => some quote

/-- The blanks between a quoted label and its colon. Behind a bare label they belong to the name. -/
def outerGap (heading : Heading) : Text :=
  match heading.label with
  | .bare _ => []
  | .quoted .. => heading.gap

/-! ## Replacing a name -/

/-- A key of the same place with another name, and with a colon. -/
def respelled (heading : Heading) (name : Text) : Heading where
  before := heading.before
  label := labelFor ((quote? heading.label).getD '\'') name
  gap := outerGap heading
  colon := true

theorem isQuote_getD_quote? {heading : Heading} (wellFormed : heading.WellFormed) :
    isQuote ((quote? heading.label).getD '\'') = true := by
  rcases heading with ⟨before, label, gap, colon⟩
  cases wellFormed.label with
  | bare => rfl
  | quoted isQuote => exact isQuote

theorem respelled_wellFormed {heading : Heading} (wellFormed : heading.WellFormed) (name : Text) :
    (respelled heading name).WellFormed where
  before := wellFormed.before
  label := labelFor_wellFormed (isQuote_getD_quote? wellFormed) name
  gap := by
    simp only [respelled, outerGap]
    split
    · rfl
    · exact wellFormed.gap

/-- What is written for a value that a new colon waits for. -/
def waiting (heading : Heading) : Text :=
  if heading.colon then [] else [' ']

theorem waiting_eq (heading : Heading) : waiting heading = awaiting heading.colonText := by
  rw [waiting, awaiting, Heading.colonText]
  cases heading.colon <;> rfl

/-- The form of the key with another name. -/
theorem form_respelled (heading : Heading) (name : Text) :
    (respelled heading name).form = respelledForm heading.form name := by
  rcases heading with ⟨before, label, gap, colon⟩
  by_cases bare : isBareName name = true
  · rw [respelledForm, if_pos bare, Heading.form, respelled, labelFor, if_pos bare]
    cases label <;> rfl
  · rw [respelledForm, if_neg bare, Heading.form, respelled, labelFor, if_neg bare]
    cases label <;> rfl

/-- Replacing the name of a written key gives the text of a written key. -/
theorem replaceName_eq {heading : Heading} (wellFormed : heading.WellFormed) (start : Nat)
    (caret : Caret) (offset : Nat) (completion : Text) :
    replaceName (heading.key start caret) offset completion =
      let name := replacingName heading.name offset completion
      { start
        removed := heading.text.length
        inserted := (respelled heading name).text ++ waiting heading
        caret := start + ((respelled heading name).opening.length + (spelled name).length) } := by
  have key := Heading.form_key heading.take_colonText ⟨heading.text, start, caret⟩
  have precedes := Selector.KeyForm.precedes_of_halts heading.isClosed_form heading.halts_colonText
  have text (name : Text) : (respelled heading name).text ++ waiting heading =
      (respelled heading name).stem ++ ':' :: waiting heading := by
    have colon : (respelled heading name).colon = true := rfl
    rw [Heading.text_of_colon colon, List.append_assoc]
    rfl
  rw [← key, replaceName_form wellFormed.form precedes _ offset completion
    (by rw [Heading.form_name]), ← form_respelled, Heading.form_stem, Heading.form_opening, key,
    ← waiting_eq]
  simp only [text]
  rfl

end Typeahead.Acceptance

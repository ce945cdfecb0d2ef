import Typeahead.Proofs.Acceptance.Names

/-!
# The text around the name of a key

When the name of a key is replaced, the blanks in front of it stay, the quotes come or go as the new
name needs them, and a colon is there afterwards. What stood between the closing quote and the colon
stays, too. So the new text is that of a key of another form.
-/

namespace Typeahead.Acceptance

open Selector

/-! ## The place of the name -/

theorem nameOffset_append {blanks : Text} (blank : blanks.isBlank) {c : Char}
    (visible : isBlank c = false) (rest : Text) :
    nameOffset (blanks ++ c :: rest) = blanks.length + if isQuote c then 1 else 0 := by
  rw [nameOffset, Text.leadingBlanks_append blank visible, Text.trimLeft_append_of_isBlank blank,
    Text.trimLeft_cons visible, List.head?_cons, Option.any_some]
  cases isQuote c <;> rfl

section

variable {form : KeyForm} {rest : Text}

/-- The name of a key lies behind its opening. -/
theorem nameOffset_stem (wellFormed : form.WellFormed) (rest : Text) :
    nameOffset (form.stem ++ rest) = form.opening.length := by
  obtain ⟨c, more, stem, blank, visible, quotes⟩ := wellFormed.exists_stem
  rw [stem, List.append_assoc, List.cons_append, nameOffset_append blank visible, quotes,
    KeyForm.length_opening]
  cases form.quote? <;> rfl

theorem trim_opening (wellFormed : form.WellFormed) :
    Text.trim form.opening = form.quote?.toList := by
  have trimmed (blank : form.before.isBlank) :
      Text.trim form.opening = Text.trim form.quote?.toList := by
    rw [KeyForm.opening, Text.trim, Text.trimLeft_append_of_isBlank blank, Text.trim]
  have single {quote : Char} (quotes : isQuote quote = true) : Text.trim [quote] = [quote] := by
    have visible := not_isBlank_of_isQuote quotes
    rw [Text.trim, Text.trimLeft_cons visible]
    exact Text.trimRight_concat [] visible
  cases wellFormed with
  | bare blank visible noQuote noColon => exact trimmed blank
  | quoted blank quotes inner noColon => exact (trimmed blank).trans (single quotes)
  | dangling blank quotes dangles => exact (trimmed blank).trans (single quotes)

/-- The text around the name of a key. -/
theorem ofKey_form (wellFormed : form.WellFormed) (rest : Text) (source : Source) :
    KeyFrame.ofKey (form.key rest source) =
      ⟨form.opening, form.quote?, form.closing ++ rest.take 1⟩ := by
  have before : (form.stem ++ rest.take 1).take form.opening.length = form.opening := by
    rw [KeyForm.stem, List.append_assoc, List.append_assoc, List.take_left]
  have after : (form.stem ++ rest.take 1).drop (form.opening.length + form.name.length) =
      form.closing ++ rest.take 1 := by
    rw [KeyForm.stem, List.append_assoc, ← List.length_append, List.drop_left]
  have first : form.quote?.toList.head? = form.quote? := by
    cases form.quote? <;> rfl
  rw [KeyFrame.ofKey, KeyForm.key]
  simp only [nameOffset_stem wellFormed, before, after, trim_opening wellFormed, first]

/-- Without its quotes a key keeps what stood behind them. -/
theorem bare_form (wellFormed : form.WellFormed) (precedes : form.Precedes rest) :
    KeyFrame.bare ⟨form.opening, form.quote?, form.closing ++ rest.take 1⟩ =
      ⟨form.before, none, form.between ++ rest.take 1⟩ := by
  have colon := (KeyForm.halts_of_precedes precedes).cases
  cases wellFormed with
  | bare blank visible noQuote noColon =>
      rcases colon with rfl | ⟨more, rfl⟩ <;>
        simp [KeyFrame.bare, KeyForm.opening, KeyForm.before, KeyForm.quote?,
          KeyForm.closing, KeyForm.between, isQuote]
  | quoted blank quotes inner noColon =>
      simp [KeyFrame.bare, KeyForm.opening, KeyForm.before, KeyForm.quote?, KeyForm.closing,
        KeyForm.between, quotes]
  | dangling blank quotes dangles =>
      obtain rfl : rest = [] := precedes
      simp [KeyFrame.bare, KeyForm.opening, KeyForm.before, KeyForm.quote?, KeyForm.closing,
        KeyForm.between]

/-- A quote that is missing on one of the sides is added there. -/
theorem quoted_form (wellFormed : form.WellFormed) (precedes : form.Precedes rest) :
    KeyFrame.quoted ⟨form.opening, form.quote?, form.closing ++ rest.take 1⟩ =
      ⟨form.before ++ [form.quote?.getD '\''], some (form.quote?.getD '\''),
        form.quote?.getD '\'' :: form.between ++ rest.take 1⟩ := by
  have colon := (KeyForm.halts_of_precedes precedes).cases
  cases wellFormed with
  | bare blank visible noQuote noColon =>
      rcases colon with rfl | ⟨more, rfl⟩ <;>
        simp [KeyFrame.quoted, KeyForm.opening, KeyForm.before, KeyForm.quote?,
          KeyForm.closing, KeyForm.between, isQuote]
  | quoted blank quotes inner noColon =>
      simp [KeyFrame.quoted, KeyForm.opening, KeyForm.before, KeyForm.quote?, KeyForm.closing,
        KeyForm.between, quotes]
  | dangling blank quotes dangles =>
      obtain rfl : rest = [] := precedes
      simp [KeyFrame.quoted, KeyForm.opening, KeyForm.before, KeyForm.quote?, KeyForm.closing,
        KeyForm.between]

/-- What is written behind a colon that a key did not have. -/
def awaiting (rest : Text) : Text :=
  if rest.isEmpty then [' '] else []

/-- A key without a colon gets one. -/
theorem withColon_form (halts : Halts rest) (before : Text) (quote? : Option Char) {front : Text}
    (noColon : ∀ c ∈ front, c ≠ ':') :
    KeyFrame.withColon ⟨before, quote?, front ++ rest.take 1⟩ =
      ⟨before, quote?, front ++ ':' :: awaiting rest⟩ := by
  rcases halts.cases with rfl | ⟨more, rfl⟩
  · have absent : (front ++ ([] : Text).take 1).contains ':' = false := by
      rw [List.take_nil, List.append_nil, ← Bool.not_eq_true, List.contains_iff_mem]
      exact fun member => noColon ':' member rfl
    simp only [KeyFrame.withColon, absent, Bool.false_eq_true, if_false]
    rw [List.take_nil, List.append_nil]
    rfl
  · have present : (front ++ (':' :: more).take 1).contains ':' = true := by
      rw [List.contains_iff_mem]
      exact List.mem_append_right front List.mem_cons_self
    simp only [KeyFrame.withColon, present, if_true]
    rfl

end

/-! ## Another name -/

/-- The form of the key that is written with another name. -/
def respelledForm (form : KeyForm) (name : Text) : KeyForm :=
  if isBareName name then .bare form.before (name ++ form.between)
  else .quoted form.before (form.quote?.getD '\'') name.escape form.between

theorem isClosed_respelledForm (form : KeyForm) (name : Text) :
    (respelledForm form name).IsClosed := by
  unfold respelledForm
  split <;> trivial

section

variable {form : KeyForm} {rest : Text}

theorem before_isBlank (wellFormed : form.WellFormed) : form.before.isBlank = true := by
  obtain ⟨c, more, stem, blank, visible, quotes⟩ := wellFormed.exists_stem
  exact blank

theorem ne_colon_between (wellFormed : form.WellFormed) : ∀ c ∈ form.between, c ≠ ':' := by
  cases wellFormed with
  | bare => exact fun c member => absurd member List.not_mem_nil
  | quoted _ _ _ noColon => exact noColon
  | dangling => exact fun c member => absurd member List.not_mem_nil

theorem isQuote_getD (wellFormed : form.WellFormed) :
    isQuote (form.quote?.getD '\'') = true := by
  cases wellFormed with
  | bare => rfl
  | quoted _ quotes _ _ => exact quotes
  | dangling _ quotes _ => exact quotes

theorem respelledForm_wellFormed (wellFormed : form.WellFormed) (name : Text) :
    (respelledForm form name).WellFormed := by
  have blank := before_isBlank wellFormed
  have noColon := ne_colon_between wellFormed
  unfold respelledForm
  split
  · rename_i bare
    have plain := plain_of_isBareName bare
    obtain ⟨c, more, rfl, visible⟩ := exists_visible_of_isBareName bare
    refine .bare blank visible (isQuote_of_opening? (plain c List.mem_cons_self).1)
      fun d member => ?_
    rcases List.mem_append.mp (show d ∈ (c :: more) ++ form.between from member) with front | back
    · exact (plain d front).2.2
    · exact noColon d back
  · exact .quoted blank (isQuote_getD wellFormed) (quoted_escape (isQuote_getD wellFormed) name)
      noColon

/-- Replacing the name of a key gives the text of a key with the other name and a colon. -/
theorem replaceName_form (wellFormed : form.WellFormed) (precedes : form.Precedes rest)
    (source : Source) (offset : Nat) (completion : Text) {name : Text}
    (replacing : replacingName form.name offset completion = name) :
    replaceName (form.key rest source) offset completion =
      { start := source.start
        removed := (form.key rest source).raw.length
        inserted := (respelledForm form name).stem ++ ':' :: awaiting rest
        caret := source.start +
          ((respelledForm form name).opening.length + (spelled name).length) } := by
  have here : (form.key rest source).name = form.name := rfl
  have place : (form.key rest source).start = source.start := rfl
  have halts := KeyForm.halts_of_precedes precedes
  have noColon := ne_colon_between wellFormed
  unfold replaceName
  rw [ofKey_form wellFormed, here, place]
  simp only [bare_form wellFormed precedes, quoted_form wellFormed precedes, replacing]
  cases bare : isBareName name with
  | true =>
      simp only [if_true, withColon_form halts form.before none noColon, respelledForm, spelled,
        bare, KeyForm.stem_bare, KeyForm.opening_bare]
      simp [Nat.add_assoc]
  | false =>
      have quotes := isQuote_getD wellFormed
      have noColonBehind : ∀ c ∈ form.quote?.getD '\'' :: form.between, c ≠ ':' := by
        refine List.forall_mem_cons.mpr ⟨?_, noColon⟩
        intro same
        rw [same] at quotes
        contradiction
      simp only [bare, Bool.false_eq_true, if_false, respelledForm, spelled, KeyForm.stem_quoted,
        KeyForm.opening_quoted, withColon_form halts (form.before ++ [form.quote?.getD '\''])
          (some (form.quote?.getD '\'')) noColonBehind]
      simp [Nat.add_assoc]

end

end Typeahead.Acceptance

import Typeahead.Proofs.Selector.Forms
import Typeahead.Proofs.Selector.Written

/-!
# Reading written keys

A key is taken from a source together with its name, wherever the caret is: up to the colon, or
with all that follows if it has no colon. The caret of the key is counted from the start of the
name. A scan for the end of a value passes over a key as over any other balanced text.
-/

namespace Typeahead.Selector

/-! ## Carets -/

namespace Caret

/-- The caret, counted from the start of a window. -/
def into (caret : Caret) (low high : Int) : Caret :=
  (caret.within low high).map Int.ofNat

theorem into_eq_some_iff (caret : Caret) (low high position : Int) :
    caret.into low high = some position ↔
      caret = some (low + position) ∧ 0 ≤ position ∧ low + position ≤ high := by
  simp only [into, Option.map_eq_some_iff, within_eq_some_iff]
  constructor
  · rintro ⟨offset, ⟨same, fits⟩, rfl⟩
    exact ⟨same, Int.natCast_nonneg offset, fits⟩
  · rintro ⟨same, positive, fits⟩
    refine ⟨position.toNat, ?_, Int.toNat_of_nonneg positive⟩
    rw [Int.toNat_of_nonneg positive]
    exact ⟨same, fits⟩

/-- Two windows, one inside the other, are one window. -/
theorem into_into (caret : Caret) {low high : Int} {innerLow innerHigh : Int}
    (positive : 0 ≤ innerLow) (within : low + innerHigh ≤ high) :
    (caret.into low high).into innerLow innerHigh =
      caret.into (low + innerLow) (low + innerHigh) := by
  ext position
  simp only [into_eq_some_iff]
  constructor
  · rintro ⟨⟨same, _, _⟩, inside, below⟩
    exact ⟨by rw [same, Int.add_assoc], inside, by omega⟩
  · rintro ⟨same, inside, below⟩
    exact ⟨⟨by rw [same, Int.add_assoc], by omega, by omega⟩, inside, by omega⟩

end Caret

attribute [ext] Source

namespace Source

theorem advance_caret (source : Source) (count : Nat) :
    (source.advance count).caret = source.caret.into count source.raw.length :=
  rfl

theorem advance_advance (source : Source) (first second : Nat) :
    (source.advance first).advance second = source.advance (first + second) := by
  apply Source.ext
  · simp [advance]
  · simp [advance, Nat.add_assoc]
  · ext position
    simp only [advance_caret, Caret.into_eq_some_iff, Int.natCast_add, Int.add_assoc]
    simp only [advance, List.length_drop]
    constructor
    · rintro ⟨⟨same, _, _⟩, inside, below⟩
      exact ⟨same, inside, by omega⟩
    · rintro ⟨same, inside, below⟩
      exact ⟨⟨same, by omega, by omega⟩, inside, by omega⟩

end Source

/-! ## Keys -/

theorem ne_colon_of_isBlank {blanks : Text} (blank : blanks.isBlank) : ∀ c ∈ blanks, c ≠ ':' := by
  rintro c member rfl
  have visible := Text.forall_isBlank blank ':' member
  contradiction

namespace Heading

variable {heading : Heading}

/-- What stands before the name: blanks and a quote. -/
def opening (heading : Heading) : Text :=
  match heading.label with
  | .bare _ => heading.before
  | .quoted quote _ => heading.before ++ [quote]

/-- What stands behind the name: a quote and blanks. -/
def closing (heading : Heading) : Text :=
  match heading.label with
  | .bare _ => []
  | .quoted quote _ => quote :: heading.gap

/-- The text of a key without its colon. -/
def stem (heading : Heading) : Text :=
  heading.opening ++ heading.name ++ heading.closing

theorem stem_eq (heading : Heading) :
    heading.stem = heading.before ++ heading.label.text ++ heading.gap := by
  unfold stem opening closing name Label.text
  split <;> simp_all

/-- The colon of a key that has one. -/
def colonText (heading : Heading) : Text :=
  if heading.colon then [':'] else []

/-- The text of a key around its name. -/
theorem text_eq (heading : Heading) :
    heading.text =
      heading.opening ++ heading.name ++ (heading.closing ++ heading.colonText) := by
  have whole : heading.text = heading.stem ++ heading.colonText := by
    rw [text, stem_eq, colonText]
  rw [whole, stem, List.append_assoc]

theorem text_of_colon (colon : heading.colon = true) : heading.text = heading.stem ++ [':'] := by
  rw [stem_eq, text, colon, if_pos rfl]

theorem text_of_no_colon (colon : heading.colon = false) : heading.text = heading.stem := by
  rw [stem_eq, text, colon, if_neg Bool.false_ne_true, List.append_nil]

/-- The key that is read for a heading. -/
def key (heading : Heading) (start : Nat) (caret : Caret) : Key where
  raw := heading.text
  start := start
  cursor := caret.within heading.opening.length (heading.opening.length + heading.name.length)
  name := heading.name

theorem take_colonText (heading : Heading) : heading.colonText.take 1 = heading.colonText := by
  unfold colonText
  split <;> rfl

theorem halts_colonText (heading : Heading) : Halts heading.colonText := by
  unfold colonText
  split
  · exact halts_colon []
  · exact halts_nil

/-- The form of a written key. -/
def form (heading : Heading) : KeyForm :=
  match heading.label with
  | .bare name => .bare heading.before (name ++ heading.gap)
  | .quoted quote name => .quoted heading.before quote name.escape heading.gap

theorem form_opening (heading : Heading) : heading.form.opening = heading.opening := by
  rcases heading with ⟨before, label, gap, colon⟩
  cases label with
  | bare name => exact KeyForm.opening_bare _ _
  | quoted quote name => exact KeyForm.opening_quoted _ _ _ _

theorem form_name (heading : Heading) : heading.form.name = heading.name := by
  rcases heading with ⟨before, label, gap, colon⟩
  cases label <;> rfl

theorem form_closing (heading : Heading) : heading.form.closing = heading.closing := by
  rcases heading with ⟨before, label, gap, colon⟩
  cases label <;> rfl

theorem form_stem (heading : Heading) : heading.form.stem = heading.stem := by
  rw [KeyForm.stem, form_opening, form_name, form_closing, stem]

/-- The key of a heading is that of its form. -/
theorem form_key {rest : Text} (here : rest.take 1 = heading.colonText) (source : Source) :
    heading.form.key rest source = heading.key source.start source.caret := by
  rw [KeyForm.key, key, form_stem, form_opening, form_name, here, stem_eq]
  rfl

theorem isClosed_form (heading : Heading) : heading.form.IsClosed := by
  rcases heading with ⟨before, label, gap, colon⟩
  cases label <;> trivial

theorem WellFormed.form (wellFormed : heading.WellFormed) : heading.form.WellFormed := by
  rcases heading with ⟨before, label, gap, colon⟩
  obtain ⟨blank, label, gapBlank⟩ := wellFormed
  have noColon := ne_colon_of_isBlank gapBlank
  cases label with
  | @bare c name visible plain =>
      refine .bare blank visible (isQuote_of_opening? (plain c List.mem_cons_self).1)
        fun d member => ?_
      rcases List.mem_append.mp (show d ∈ (c :: name) ++ gap from member) with front | back
      · exact (plain d front).2.2
      · exact noColon d back
  | @quoted quote name isQuote => exact .quoted blank isQuote (quoted_escape isQuote name) noColon

/-- A heading is read up to its colon. -/
theorem WellFormed.exists_scanned (wellFormed : heading.WellFormed) {rest : Text}
    (halts : Halts rest) : ∃ scan, heading.form.Scanned rest heading.stem.length scan := by
  rw [← form_stem]
  exact wellFormed.form.exists_scanned_stem heading.isClosed_form halts

end Heading

/-- A key with a colon is taken up to the colon. -/
theorem Source.takeKey_of_colon {source : Source} {heading : Heading} {rest : Text}
    (wellFormed : heading.WellFormed) (colon : heading.colon = true)
    (raw : source.raw = heading.text ++ rest) :
    source.takeKey =
      (some (heading.key source.start source.caret), source.advance heading.text.length) := by
  have text := Heading.text_of_colon colon
  have here : (':' :: rest).take 1 = heading.colonText := by
    rw [Heading.colonText, colon]
    rfl
  obtain ⟨scan, scanned⟩ := wellFormed.exists_scanned (halts_colon rest)
  rw [scanned.takeKey, Heading.form_key here, text, List.length_append]
  · rfl
  · rw [raw, text, Heading.form_stem, List.append_assoc]
    rfl

/-- A key without a colon is taken with all that follows. -/
theorem Source.takeKey_of_no_colon {source : Source} {heading : Heading}
    (wellFormed : heading.WellFormed) (colon : heading.colon = false)
    (raw : source.raw = heading.text) :
    source.takeKey =
      (some (heading.key source.start source.caret),
        source.advance (heading.text.length + 1)) := by
  have text := Heading.text_of_no_colon colon
  have here : ([] : Text).take 1 = heading.colonText := by
    rw [Heading.colonText, colon]
    rfl
  obtain ⟨scan, scanned⟩ := wellFormed.exists_scanned halts_nil
  rw [scanned.takeKey, Heading.form_key here, text]
  rw [raw, text, Heading.form_stem, List.append_nil]

/-! ## Scanning -/

open Scan

theorem Undisturbed.left {recovery : Option Int} {first second : Text}
    (undisturbed : Undisturbed recovery (first ++ second)) : Undisturbed recovery first :=
  undisturbed.mono fun _ member => List.mem_append_left second member

theorem Undisturbed.right {recovery : Option Int} {first second : Text}
    (undisturbed : Undisturbed recovery (first ++ second)) : Undisturbed recovery second :=
  undisturbed.mono fun _ member => List.mem_append_right first member

theorem Label.WellFormed.neutral {label : Label} (wellFormed : label.WellFormed)
    {recovery : Option Int} (undisturbed : Undisturbed recovery label.text) (position : Nat) :
    Neutral recovery position label.text := by
  have balanced : Balanced true label.text := by
    cases wellFormed with
    | @bare c rest _ plain =>
        rw [text]
        generalize c :: rest = name at plain
        induction name with
        | nil => exact .nil
        | cons d more induct =>
            obtain ⟨opens, closes, _⟩ := plain d List.mem_cons_self
            exact .plain opens closes (fun _ => rfl)
              (induct fun other member => plain other (List.mem_cons_of_mem d member))
    | @quoted quote name isQuote =>
        have kinds : ∃ delimiter : Delimiter, delimiter.isQuote = true ∧
            delimiter.opener = quote ∧ delimiter.closer = quote := by
          simp only [Typeahead.isQuote, Bool.or_eq_true, beq_iff_eq] at isQuote
          rcases isQuote with rfl | rfl
          · exact ⟨.apostrophe, rfl, rfl, rfl⟩
          · exact ⟨.quotation, rfl, rfl, rfl⟩
        rcases kinds with ⟨delimiter, quotes, opens, closes⟩
        have escaped := quoted_escape isQuote name
        rw [← closes] at escaped
        have whole := Balanced.quoted quotes escaped (@Balanced.nil true)
        rw [opens, closes] at whole
        exact whole
  exact balanced.neutral undisturbed position

theorem Heading.WellFormed.neutral {heading : Heading} (wellFormed : heading.WellFormed)
    {recovery : Option Int} (undisturbed : Undisturbed recovery heading.text) (position : Nat) :
    Neutral recovery position heading.text := by
  have colon (position : Nat) :
      Neutral recovery position (if heading.colon then [':'] else []) := by
    split
    · exact neutral_singleton recovery position rfl rfl
    · exact neutral_nil recovery position
  unfold text at undisturbed ⊢
  exact (((neutral_blanks wellFormed.before recovery position).append
    (wellFormed.label.neutral undisturbed.left.left.right _)).append
      (neutral_blanks wellFormed.gap recovery _)).append (colon _)

end Typeahead.Selector

import Typeahead.Proofs.Acceptance.Frames
import Typeahead.Proofs.Selector.Extent

/-!
# Keys taken from any text

A key may be malformed in every way: its quote may not be closed, its colon may be missing, and a
backslash may stand at the end. Still it takes up the text to its colon or to the end, and its name
lies behind the blanks and the quote at the start.
-/

namespace Typeahead.Selector

open Acceptance (nameOffset)

/-- What a key takes up, and where its name and its caret are. -/
structure Source.TakesKey (source : Source) (key : Key) : Prop where
  present : source.raw ≠ []
  start : key.start = source.start
  raw : key.raw ++ source.takeKey.2.raw = source.raw
  inside : nameOffset key.raw + key.name.length ≤ key.raw.length
  name : (key.raw.drop (nameOffset key.raw)).take key.name.length = key.name
  cursor : key.cursor =
    source.caret.within (nameOffset key.raw : Nat) (nameOffset key.raw + key.name.length : Nat)

namespace KeyForm

variable {form : KeyForm}

theorem WellFormed.takesKey (wellFormed : form.WellFormed) {rest : Text}
    (precedes : form.Precedes rest) {source : Source} (raw : source.raw = form.stem ++ rest) :
    source.TakesKey (form.key rest source) := by
  obtain ⟨stop, scan, scanned⟩ := wellFormed.exists_scanned precedes
  have here : (form.key rest source).raw = source.raw.take (stop + 1) := by
    rw [raw, scanned.taken]
    rfl
  have offset : nameOffset (form.key rest source).raw = form.opening.length :=
    Acceptance.nameOffset_stem wellFormed _
  constructor
  · obtain ⟨c, more, stem, _⟩ := wellFormed.exists_stem
    rw [raw, stem]
    simp
  · rfl
  · rw [here, scanned.takeKey raw]
    exact List.take_append_drop _ _
  · rw [offset]
    simp only [key, stem, List.length_append]
    omega
  · rw [offset]
    simp only [key, stem, List.append_assoc, List.drop_left, List.take_left]
  · rw [offset]
    rfl

end KeyForm

/-- Every key that is taken takes up the text to its end, and has its name in it. -/
theorem Source.takesKey_of_eq_some {source : Source} {key : Key}
    (taken : source.takeKey.1 = some key) : source.TakesKey key := by
  obtain ⟨form, rest, wellFormed, precedes, raw, rfl⟩ := exists_form taken
  exact wellFormed.takesKey precedes raw

end Typeahead.Selector

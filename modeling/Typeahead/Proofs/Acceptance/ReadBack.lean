import Typeahead.Proofs.Acceptance.Frames

/-!
# Reading a replaced key again

Where the name of a key is replaced, the key that is written instead is read again. Its name is the
new one as it is spelled, so that it means what was kept of the typed name, followed by the
completion. Two things get in the way of this. What was kept is spelled once more although it was
spelled before, which shows where it carries a backslash. And where the quotes are dropped, what
stood between the closing quote and the colon comes to belong to the name.
-/

namespace Typeahead.Acceptance

open Selector

/-! ## What the name of a key means -/

/-- The name of a key stands between quotes. -/
def IsQuotedKey (key : Key) : Prop :=
  key.raw.trimLeft.head?.any isQuote = true

instance (key : Key) : Decidable (IsQuotedKey key) :=
  inferInstanceAs (Decidable (_ = true))

/-- What a part of the name of a key means. -/
def meaning (key : Key) (part : Text) : Text :=
  if IsQuotedKey key then part.unescape else part

/-- The part of a typed name that a completion is written behind. -/
def keptPart (key : Key) (offset : Nat) : Text :=
  Text.throughLast '.' (key.name.take offset)

/-- What stands between the closing quote of a key and its colon. -/
def strayText (key : Key) : Text :=
  (KeyFrame.ofKey key).bare.after.takeWhile (· != ':')

/-- The text that is written in place of a key is read as a key with the intended name: what was
kept of the old one, followed by the completion. The caret is put behind this name. -/
def ReadsBack (key : Key) (offset : Nat) (completion : Text) : Prop :=
  let edit := replaceName key offset completion
  let source : Source := ⟨edit.inserted, edit.start, some ((edit.caret - edit.start : Nat) : Int)⟩
  ∃ read, source.takeKey.1 = some read ∧
    meaning read read.name = meaning key (keptPart key offset) ++ completion ∧
    read.cursor = some read.name.length

/-! ## Reading keys of each form -/

section

variable {form : KeyForm} {rest : Text}

theorem isQuotedKey_key (wellFormed : form.WellFormed) (rest : Text) (source : Source) :
    IsQuotedKey (form.key rest source) ↔ form.quote?.isSome = true := by
  obtain ⟨c, more, stem, blank, visible, quotes⟩ := wellFormed.exists_stem
  rw [IsQuotedKey, KeyForm.key, stem, List.append_assoc, Text.trimLeft_append_of_isBlank blank,
    List.cons_append, Text.trimLeft_cons visible, List.head?_cons, Option.any_some, quotes]

/-- The text between the closing quote and the colon of a key of a form. -/
theorem strayText_key (wellFormed : form.WellFormed) (precedes : form.Precedes rest)
    (source : Source) : strayText (form.key rest source) = form.between := by
  have plain : ∀ c ∈ form.between, (c != ':') = true := fun c member =>
    bne_iff_ne.mpr (ne_colon_between wellFormed c member)
  rw [strayText, ofKey_form wellFormed, bare_form wellFormed precedes]
  simp only
  rw [List.takeWhile_append_of_pos plain]
  rcases (KeyForm.halts_of_precedes precedes).cases with rfl | ⟨more, rfl⟩
  · rw [List.take_nil, List.takeWhile_nil, List.append_nil]
  · exact List.append_nil _

/-- The new key is read as a key of its form, with the caret where its spelled name ends. -/
theorem readsBack_key_iff (wellFormed : form.WellFormed) (precedes : form.Precedes rest)
    (source : Source) (offset : Nat) (completion : Text) {name : Text}
    (replacing : replacingName form.name offset completion = name) {other : KeyForm}
    (respelled : respelledForm form name = other) :
    ReadsBack (form.key rest source) offset completion ↔
      (if other.quote?.isSome then other.name.unescape else other.name) =
          meaning (form.key rest source) (keptPart (form.key rest source) offset) ++ completion ∧
        (spelled name).length = other.name.length := by
  have replaced := replaceName_form wellFormed precedes source offset completion replacing
  rw [respelled] at replaced
  have otherWellFormed : other.WellFormed := respelled ▸ respelledForm_wellFormed wellFormed name
  have otherPrecedes : other.Precedes (':' :: awaiting rest) :=
    KeyForm.precedes_of_halts (respelled ▸ isClosed_respelledForm form name) (halts_colon _)
  let caret := other.opening.length + (spelled name).length
  let edited : Source := ⟨other.stem ++ ':' :: awaiting rest, source.start, some (caret : Int)⟩
  have read : edited.takeKey.1 = some (other.key (':' :: awaiting rest) edited) :=
    otherWellFormed.takeKey otherPrecedes rfl
  have means : meaning (other.key (':' :: awaiting rest) edited) other.name =
      if other.quote?.isSome then other.name.unescape else other.name := by
    unfold meaning
    simp only [isQuotedKey_key otherWellFormed]
  have placed : (other.key (':' :: awaiting rest) edited).cursor = some other.name.length ↔
      (spelled name).length = other.name.length := by
    rw [KeyForm.key, Caret.within_eq_some_iff, Option.some.injEq]
    simp only [caret]
    omega
  rw [← means, ← placed]
  have start : source.start + caret - source.start = caret := Nat.add_sub_cancel_left _ _
  unfold ReadsBack
  rw [replaced]
  simp only
  rw [show source.start + (other.opening.length + (spelled name).length) - source.start = caret
    from start]
  change (∃ key, edited.takeKey.1 = some key ∧ _) ↔ _
  rw [read]
  constructor
  · rintro ⟨key, same, meant⟩
    rw [← Option.some.inj same] at meant
    exact meant
  · intro meant
    exact ⟨_, rfl, meant⟩

end

/-! ## Reading the new key -/

/-- What was kept means itself if it carries no backslash, or if the key is not quoted. -/
theorem meaning_keptPart_iff (key : Key) (offset : Nat) :
    meaning key (keptPart key offset) = keptPart key offset ↔
      (IsQuotedKey key → '\\' ∉ keptPart key offset) := by
  unfold meaning
  split
  · rename_i quoted
    rw [keptPart, Text.unescape_throughLast_eq_self_iff (by decide)]
    simp only [quoted, true_imp_iff]
  · rename_i bare
    simp only [bare, false_imp_iff]

/-- When the key that replaces another one is read with the intended name, and the caret behind it.
A bare one is if nothing stood between the closing quote and the colon of the other one, and a quoted
one is if nothing that it keeps from a quoted name has a backslash in it. -/
theorem readsBack_iff {source : Source} {key : Key} (taken : source.takeKey.1 = some key)
    (offset : Nat) (completion : Text) :
    ReadsBack key offset completion ↔
      if isBareName (replacingName key.name offset completion) then strayText key = []
      else IsQuotedKey key → '\\' ∉ keptPart key offset := by
  obtain ⟨form, rest, wellFormed, precedes, _, rfl⟩ := Source.exists_form taken
  have whole : replacingName form.name offset completion =
      keptPart (form.key rest source) offset ++ completion := rfl
  have here : (form.key rest source).name = form.name := rfl
  have meant := meaning_keptPart_iff (form.key rest source) offset
  rw [strayText_key wellFormed precedes, here]
  generalize named : replacingName form.name offset completion = name at whole ⊢
  by_cases bare : isBareName name = true
  · have respelled : respelledForm form name = .bare form.before (name ++ form.between) :=
      if_pos bare
    have plain := backslash_not_mem_of_isBareName bare
    rw [whole, List.mem_append, not_or] at plain
    rw [if_pos bare, readsBack_key_iff wellFormed precedes _ _ _ named respelled,
      meant.mpr fun _ => plain.1, ← whole, spelled, if_pos bare]
    change name ++ form.between = name ∧ name.length = (name ++ form.between).length ↔ _
    rw [List.length_append]
    constructor
    · rintro ⟨_, length⟩
      exact List.length_eq_zero_iff.mp (by omega)
    · intro empty
      rw [empty, List.append_nil]
      exact ⟨rfl, rfl⟩
  · have respelled : respelledForm form name =
        .quoted form.before (form.quote?.getD '\'') name.escape form.between :=
      if_neg bare
    rw [if_neg bare, readsBack_key_iff wellFormed precedes _ _ _ named respelled, ← meant, spelled,
      if_neg bare]
    change name.escape.unescape = _ ∧ name.escape.length = name.escape.length ↔ _
    rw [Text.unescape_escape, whole, List.append_left_inj]
    constructor
    · rintro ⟨same, _⟩
      exact same.symm
    · intro same
      exact ⟨same.symm, rfl⟩

/-- A quoted key with further characters in front of its colon, and with the caret in its name. -/
def dottedKey : Key where
  raw := "  \"ab.cd.ef\"xyz:".toList
  start := 0
  cursor := some 4
  name := "ab.cd.ef".toList

/-- With a point in its name the key keeps its quotes, so that what stands behind them does no
harm. -/
theorem readsBack_dottedKey :
    (Source.mk "  \"ab.cd.ef\"xyz: 1".toList 0 (some 7)).takeKey.1 = some dottedKey ∧
      ReadsBack dottedKey 4 "c".toList := by
  have taken : (Source.mk "  \"ab.cd.ef\"xyz: 1".toList 0 (some 7)).takeKey.1 = some dottedKey :=
    rfl
  exact ⟨taken, (readsBack_iff taken 4 "c".toList).mpr (by decide)⟩

/-- A key with an escaped quote in front of the last point of its name. -/
def escapedKey : Key where
  raw := "\"a\\'b.c\":".toList
  start := 0
  cursor := some 6
  name := "a\\'b.c".toList

/-- A quoted key with a further character in front of its colon. -/
def strayKey : Key where
  raw := "\"a\"x:".toList
  start := 0
  cursor := some 1
  name := ['a']

/-- An escaped quote that is kept is escaped once more, and a dropped quote lets a stray character
into the name. -/
theorem not_readsBack_escapedKey_and_strayKey :
    ((Source.mk "\"a\\'b.c\": 1".toList 0 (some 7)).takeKey.1 = some escapedKey ∧
        ¬ReadsBack escapedKey 6 ['d']) ∧
      ((Source.mk "\"a\"x: 1".toList 0 (some 2)).takeKey.1 = some strayKey ∧
        ¬ReadsBack strayKey 1 ['b']) := by
  refine ⟨⟨rfl, ?_⟩, rfl, ?_⟩
  · rintro ⟨read, taken, means, _⟩
    obtain rfl := Option.some.inj taken
    exact absurd means (by decide)
  · rintro ⟨read, taken, means, _⟩
    obtain rfl := Option.some.inj taken
    exact absurd means (by decide)

end Typeahead.Acceptance

import Typeahead.Text.Basic

/-!
# Trimming padded texts

Blanks around a text are invisible to trimming. The value in a raw span is therefore the text
between the blanks, whether a comma follows or not, if the text itself begins and ends with a
character that trimming keeps.
-/

namespace Typeahead.Text

theorem isBlank_append (first second : Text) :
    isBlank (first ++ second) = (isBlank first && isBlank second) :=
  List.all_append

theorem not_isBlank_of_mem {text : Text} {c : Char} (member : c ∈ text)
    (visible : Typeahead.isBlank c = false) : isBlank text = false := by
  rw [isBlank, List.all_eq_false]
  exact ⟨c, member, by simp [visible]⟩

theorem forall_isBlank {blanks : Text} (blank : isBlank blanks) :
    ∀ c ∈ blanks, Typeahead.isBlank c :=
  List.all_eq_true.mp blank

theorem isBlank_reverse {blanks : Text} (blank : isBlank blanks) : isBlank blanks.reverse := by
  rw [isBlank, List.all_reverse]
  exact blank

/-! ## The start of a text -/

theorem isBlank_leadingBlanks (text : Text) : isBlank (leadingBlanks text) := by
  rw [isBlank, leadingBlanks, List.all_takeWhile]

theorem trimLeft_append_of_isBlank {blanks : Text} (blank : isBlank blanks) (text : Text) :
    trimLeft (blanks ++ text) = trimLeft text :=
  List.dropWhile_append_of_pos (forall_isBlank blank)

theorem trimLeft_cons {c : Char} (visible : Typeahead.isBlank c = false) (rest : Text) :
    trimLeft (c :: rest) = c :: rest := by
  simp [trimLeft, visible]

theorem leadingBlanks_append {blanks : Text} (blank : isBlank blanks) {c : Char}
    (visible : Typeahead.isBlank c = false) (rest : Text) :
    leadingBlanks (blanks ++ c :: rest) = blanks := by
  rw [leadingBlanks, List.takeWhile_append_of_pos (forall_isBlank blank)]
  simp [visible]

/-! ## The end of a text -/

theorem trimRight_append_of_isBlank {blanks : Text} (blank : isBlank blanks) (text : Text) :
    trimRight (text ++ blanks) = trimRight text := by
  rw [trimRight, trimRight, List.reverse_append]
  congr 1
  exact List.dropWhile_append_of_pos (forall_isBlank (isBlank_reverse blank))

theorem trimRight_concat (text : Text) {c : Char} (visible : Typeahead.isBlank c = false) :
    trimRight (text ++ [c]) = text ++ [c] := by
  simp [trimRight, visible]

theorem trimRight_of_getLast? {text : Text}
    (ends : ∀ c, text.getLast? = some c → Typeahead.isBlank c = false) :
    trimRight text = text := by
  rcases List.eq_nil_or_concat text with rfl | ⟨before, c, rfl⟩
  · rfl
  · rw [List.concat_eq_append] at ends ⊢
    exact trimRight_concat before (ends c (by simp))

/-- What is dropped at the end are blanks. -/
theorem exists_trimRight_append (text : Text) :
    ∃ blanks, isBlank blanks ∧ trimRight text ++ blanks = text := by
  refine ⟨(text.reverse.takeWhile Typeahead.isBlank).reverse, ?_, ?_⟩
  · apply isBlank_reverse
    rw [isBlank, List.all_takeWhile]
  · rw [trimRight, ← List.reverse_append, List.takeWhile_append_dropWhile, List.reverse_reverse]

theorem trimRight_begins (text : Text) : trimRight text <+: text := by
  obtain ⟨blanks, _, whole⟩ := exists_trimRight_append text
  exact ⟨blanks, whole⟩

theorem trimRight_length_le (text : Text) : (trimRight text).length ≤ text.length :=
  (trimRight_begins text).length_le

theorem trimLeft_subset (text : Text) : trimLeft text ⊆ text :=
  (List.dropWhile_suffix _).subset

theorem trim_length_le (text : Text) : (trim text).length ≤ text.length :=
  Nat.le_trans (trimRight_length_le _) (trimLeft_length_le text)

theorem trim_subset (text : Text) : trim text ⊆ text :=
  List.Subset.trans (trimRight_begins _).subset (trimLeft_subset text)

/-! ## The value in a raw span -/

/-- A text that trimming keeps and that ends with no comma, so that it is the value of each raw
span with blanks and a comma around it. -/
structure IsTrimmed (text : Text) : Prop where
  begins : ∀ c, text.head? = some c → Typeahead.isBlank c = false
  ends : ∀ c, text.getLast? = some c → Typeahead.isBlank c = false ∧ c ≠ ','

theorem isTrimmed_nil : IsTrimmed [] where
  begins := by simp
  ends := by simp

/-- Blanks at the end do not show after trimming, also when nothing else is there. -/
theorem trim_append_of_isBlank {blanks : Text} (blank : isBlank blanks) (text : Text) :
    trim (text ++ blanks) = trim text := by
  rw [trim, trim, trimLeft, List.dropWhile_append]
  split
  · rename_i empty
    have nothing : trimLeft (blanks ++ []) = trimLeft [] := trimLeft_append_of_isBlank blank []
    rw [List.append_nil] at nothing
    rw [trimLeft, List.isEmpty_iff.mp empty]
    exact congrArg trimRight nothing
  · exact trimRight_append_of_isBlank blank _

theorem trim_padded {before after : Text} (blankBefore : isBlank before)
    (blankAfter : isBlank after) (text : Text) : trim (before ++ text ++ after) = trim text := by
  rw [trim_append_of_isBlank blankAfter, trim, trimLeft_append_of_isBlank blankBefore, trim]

theorem value_padded {before after : Text} (blankBefore : isBlank before)
    (blankAfter : isBlank after) (text : Text) :
    value (before ++ text ++ after) = value text := by
  rw [value, value, trim_padded blankBefore blankAfter]

theorem IsTrimmed.trim_eq {text : Text} (trimmed : IsTrimmed text) : trim text = text := by
  cases text with
  | nil => rfl
  | cons c rest =>
      rw [trim, trimLeft_cons (trimmed.begins c rfl)]
      exact trimRight_of_getLast? fun last found => (trimmed.ends last found).1

theorem IsTrimmed.value_eq {text : Text} (trimmed : IsTrimmed text) : value text = text := by
  rw [value, trimmed.trim_eq]
  split
  · rename_i comma
    exact absurd rfl (trimmed.ends ',' comma).2
  · rfl

theorem IsTrimmed.value_padded {text before after : Text} (trimmed : IsTrimmed text)
    (blankBefore : isBlank before) (blankAfter : isBlank after) :
    value (before ++ text ++ after) = text := by
  rw [Text.value_padded blankBefore blankAfter, trimmed.value_eq]

/-- With one comma behind a text only the blanks around the text are trimmed. -/
theorem value_concat_comma (text : Text) : value (text ++ [',']) = trim text := by
  have kept : trim (text ++ [',']) = trimLeft text ++ [','] := by
    rw [trim, trimLeft, List.dropWhile_append]
    split
    · rename_i empty
      rw [trimLeft, List.isEmpty_iff.mp empty]
      rfl
    · exact trimRight_concat _ rfl
  rw [value, kept, if_pos List.getLast?_concat, List.dropLast_concat, trim]

theorem IsTrimmed.value_padded_comma {text before after : Text} (trimmed : IsTrimmed text)
    (blankBefore : isBlank before) (blankAfter : isBlank after) :
    value (before ++ text ++ after ++ [',']) = text := by
  rw [value_concat_comma, trim_padded blankBefore blankAfter, trimmed.trim_eq]

/-- Blanks and one comma have no value. -/
theorem value_blanks_comma {blanks : Text} (blank : isBlank blanks) :
    value (blanks ++ [',']) = [] := by
  have padded := @IsTrimmed.value_padded_comma [] blanks [] isTrimmed_nil blank rfl
  rwa [List.append_nil, List.append_nil] at padded

theorem value_of_isBlank {blanks : Text} (blank : isBlank blanks) : value blanks = [] := by
  have padded := @IsTrimmed.value_padded [] blanks [] isTrimmed_nil blank rfl
  rwa [List.append_nil, List.append_nil] at padded

/-! ## The place of a value -/

/-- A value stands behind the blanks of its raw span. -/
theorem value_begins (raw : Text) : value raw <+: trimLeft raw := by
  have trimmed := trimRight_begins (trimLeft raw)
  rw [value]
  split
  · exact ((trimRight_begins _).trans (List.dropLast_prefix _)).trans trimmed
  · exact trimmed

theorem value_subset (raw : Text) : value raw ⊆ raw :=
  List.Subset.trans (value_begins raw).subset (trimLeft_subset raw)

theorem value_length_le (raw : Text) :
    (leadingBlanks raw).length + (value raw).length ≤ raw.length := by
  have whole := congrArg List.length (leadingBlanks_append_trimLeft raw)
  have short := (value_begins raw).length_le
  rw [List.length_append] at whole
  omega

/-- A raw span that ends with a visible character other than a comma ends with its value. -/
theorem value_eq_trimLeft {raw : Text} {c : Char} (ends : raw.getLast? = some c)
    (visible : Typeahead.isBlank c = false) (noComma : c ≠ ',') : value raw = trimLeft raw := by
  have last : (trimLeft raw).getLast? = some c := by
    have whole := leadingBlanks_append_trimLeft raw
    rw [← whole, List.getLast?_append] at ends
    cases rest : trimLeft raw with
    | nil =>
        rw [rest, List.append_nil] at whole
        rw [rest, List.getLast?_nil, Option.none_or, whole] at ends
        have blank : isBlank raw := by
          rw [isBlank, ← whole, leadingBlanks, List.all_takeWhile]
        rw [not_isBlank_of_mem (List.mem_of_getLast? ends) visible] at blank
        contradiction
    | cons d more =>
        rw [rest, List.getLast?_cons] at ends
        rw [List.getLast?_cons]
        exact ends
  have kept : trim raw = trimLeft raw := by
    rw [trim]
    refine trimRight_of_getLast? fun d same => ?_
    rw [last, Option.some.injEq] at same
    rw [← same]
    exact visible
  rw [value, kept, last]
  simp [noComma]

end Typeahead.Text

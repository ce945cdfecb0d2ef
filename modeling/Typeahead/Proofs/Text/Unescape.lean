import Typeahead.Text.Escape

/-!
# Reading escapes

Between quotes a backslash takes away the meaning of the character behind it, and is not meant
itself. The spelling of a text therefore means the text. Most texts that carry a backslash do not
mean themselves, so that their spelling means something else than they do.
-/

namespace Typeahead.Text

/-- What a text between quotes means. A backslash at the end has nothing behind it and stays. -/
def unescape : Text → Text
  | [] => []
  | [c] => [c]
  | c :: d :: rest => if c = '\\' then d :: unescape rest else c :: unescape (d :: rest)

theorem unescape_cons {c : Char} (plain : c ≠ '\\') (rest : Text) :
    unescape (c :: rest) = c :: unescape rest := by
  cases rest with
  | nil => rfl
  | cons d more => rw [unescape, if_neg plain]

/-- The spelling of a text means the text. -/
theorem unescape_escape (text : Text) : unescape (escape text) = text := by
  induction text with
  | nil => rfl
  | cons c rest inductionHypothesis =>
      rw [escape]
      split
      · rw [unescape, if_pos rfl, inductionHypothesis]
      · rename_i plain
        rw [unescape_cons (by rintro rfl; exact plain rfl), inductionHypothesis]

theorem length_unescape_le (text : Text) : (unescape text).length ≤ text.length := by
  fun_induction unescape text with
  | case1 => exact Nat.le_refl _
  | case2 c => exact Nat.le_refl _
  | case3 d rest inductionHypothesis =>
      simp only [List.length_cons]
      omega
  | case4 c d rest plain inductionHypothesis =>
      simp only [List.length_cons] at inductionHypothesis ⊢
      omega

/-- A text means itself if at most its last character is a backslash. -/
theorem unescape_eq_self_iff (text : Text) : unescape text = text ↔ '\\' ∉ text.dropLast := by
  fun_induction unescape text with
  | case1 => simp
  | case2 c => simp
  | case3 d rest inductionHypothesis =>
      have shorter := length_unescape_le rest
      have different : d :: unescape rest ≠ '\\' :: d :: rest := by
        intro same
        have length := congrArg List.length same
        simp only [List.length_cons] at length
        omega
      simp [different]
  | case4 c d rest plain inductionHypothesis =>
      have first : '\\' ≠ c := Ne.symm plain
      rw [List.cons_inj_right, inductionHypothesis, List.dropLast_cons_cons, List.mem_cons]
      simp [first]

/-! ## Replacing mark by mark -/

/-- Put a backslash before each occurrence of a mark. -/
def withBackslash (mark : Char) (text : Text) : Text :=
  text.flatMap fun c => if c = mark then ['\\', c] else [c]

theorem withBackslash_cons_self (mark : Char) (rest : Text) :
    withBackslash mark (mark :: rest) = '\\' :: mark :: withBackslash mark rest := by
  rw [withBackslash, List.flatMap_cons, if_pos rfl]
  rfl

theorem withBackslash_cons_of_ne {mark c : Char} (other : c ≠ mark) (rest : Text) :
    withBackslash mark (c :: rest) = c :: withBackslash mark rest := by
  rw [withBackslash, List.flatMap_cons, if_neg other]
  rfl

/-- The spelling arises by three replacements. That of the backslash comes first, because the other
two write backslashes. -/
theorem escape_eq_replacements (text : Text) :
    escape text = withBackslash '"' (withBackslash '\'' (withBackslash '\\' text)) := by
  induction text with
  | nil => rfl
  | cons c rest inductionHypothesis =>
      have backslash {mark : Char} (other : '\\' ≠ mark) := @withBackslash_cons_of_ne mark _ other
      rw [escape, inductionHypothesis]
      by_cases isBackslash : c = '\\'
      · subst isBackslash
        simp only [withBackslash_cons_self, backslash (by decide : '\\' ≠ '\''),
          backslash (by decide : '\\' ≠ '"')]
        rfl
      rw [withBackslash_cons_of_ne isBackslash]
      by_cases isApostrophe : c = '\''
      · subst isApostrophe
        rw [withBackslash_cons_self, backslash (by decide), withBackslash_cons_of_ne (by decide)]
        rfl
      rw [withBackslash_cons_of_ne isApostrophe]
      by_cases isQuotation : c = '"'
      · subst isQuotation
        rw [withBackslash_cons_self]
        rfl
      · rw [withBackslash_cons_of_ne isQuotation]
        simp [needsBackslash, isQuote, isBackslash, isApostrophe, isQuotation]

/-! ## The text up to a mark -/

/-- A text up to its last mark is empty or ends with the mark. -/
theorem throughLast_cases (mark : Char) (text : Text) :
    throughLast mark text = [] ∨ ∃ front, throughLast mark text = front ++ [mark] := by
  unfold throughLast
  cases shape : text.reverse.dropWhile (· != mark) with
  | nil => exact .inl rfl
  | cons c rest =>
      have stopped := List.head?_dropWhile_not (· != mark) text.reverse
      rw [shape] at stopped
      have isMark : c = mark := by simpa using stopped
      exact .inr ⟨rest.reverse, by rw [List.reverse_cons, isMark]⟩

/-- Without the mark nothing is before its end. -/
theorem throughLast_eq_nil {mark : Char} {text : Text} (absent : mark ∉ text) :
    throughLast mark text = [] := by
  refine (throughLast_cases mark text).resolve_right ?_
  rintro ⟨front, ends⟩
  refine absent ?_
  rw [← throughLast_append_afterLast mark text, ends]
  simp

/-- A text up to its last mark means itself if it carries no backslash. -/
theorem unescape_throughLast_eq_self_iff {mark : Char} (plain : mark ≠ '\\') (text : Text) :
    unescape (throughLast mark text) = throughLast mark text ↔
      '\\' ∉ throughLast mark text := by
  rw [unescape_eq_self_iff]
  rcases throughLast_cases mark text with empty | ⟨front, ends⟩
  · rw [empty]
    simp
  · have last : '\\' ≠ mark := Ne.symm plain
    rw [ends, List.dropLast_concat]
    simp [last]

end Typeahead.Text

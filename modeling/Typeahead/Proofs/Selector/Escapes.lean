import Typeahead.Proofs.Selector.Chunk
import Typeahead.Proofs.Selector.Forms

/-!
# Spellings between quotes

The spelling of a text can stand between quotes of either kind, in front of any text. Reading its
escapes gives the text back. The scan for the end of a value and the scan for the end of a key are
two machines, and both come out of the quotes exactly at the second quote. Only a scan that
recovers inside the quotes may come out before.
-/

namespace Typeahead.Selector

open Scan

/-- Inside quotes a scan does not come out of a beginning of what stands between them. -/
theorem Quoted.exists_pass_begins {quote : Delimiter} (isQuote : quote.isQuote = true)
    {inner : Text} (quoted : Quoted quote.closer inner) {front : Text} (begins : front <+: inner)
    (position : Nat) {scan : Scan} {outer : List Delimiter} (unescaped : scan.escaped = false)
    (pending : scan.pending = quote :: outer) :
    ∃ escaped, scan.pass none position front = some { scan with escaped := escaped } := by
  induction quoted generalizing front position with
  | nil =>
      obtain rfl := List.prefix_nil.mp begins
      exact ⟨scan.escaped, rfl⟩
  | @plain c rest other ordinary _ induct =>
      rcases List.prefix_cons_iff.mp begins with rfl | ⟨later, rfl, shorter⟩
      · exact ⟨scan.escaped, rfl⟩
      · have passed := (Quoted.plain other ordinary .nil).pass isQuote position unescaped pending
        obtain ⟨escaped, followed⟩ := induct shorter (position + 1)
        refine ⟨escaped, ?_⟩
        rw [← List.singleton_append, pass_append passed]
        exact followed
  | @escaped c rest _ induct =>
      rcases List.prefix_cons_iff.mp begins with rfl | ⟨later, rfl, shorter⟩
      · exact ⟨scan.escaped, rfl⟩
      rcases List.prefix_cons_iff.mp shorter with rfl | ⟨more, rfl, shortest⟩
      · have other := quote.backslash_ne_closer
        have stepped :=
          step_quoted unescaped pending isQuote (recoversAt none position) other (.inl rfl)
        exact ⟨true, by rw [pass_cons_of_step stepped]; rfl⟩
      · have passed := (Quoted.escaped (c := c) .nil).pass isQuote position unescaped pending
        obtain ⟨escaped, followed⟩ := induct shortest (position + 2)
        refine ⟨escaped, ?_⟩
        have whole : '\\' :: c :: more = ['\\', c] ++ more := rfl
        rw [whole, pass_append passed]
        exact followed

/-- Each of the two quotes is the opener of a delimiter that is a quote. -/
theorem exists_opener_of_isQuote {quote : Char} (quotes : isQuote quote = true) :
    ∃ delimiter : Delimiter, delimiter.isQuote = true ∧ quote = delimiter.opener := by
  simp only [isQuote, Bool.or_eq_true, beq_iff_eq] at quotes
  rcases quotes with rfl | rfl
  · exact ⟨.apostrophe, rfl, rfl⟩
  · exact ⟨.quotation, rfl, rfl⟩

/-- Before the boundary from which it recovers a scan is the plain scan. -/
theorem Scan.pass_of_late {recovery : Option Int} {position : Nat} {scan : Scan} {text : Text}
    (late : ∀ boundary ∈ recovery, (position + text.length : Int) ≤ boundary) :
    scan.pass recovery position text = scan.pass none position text := by
  induction text generalizing position scan with
  | nil => rfl
  | cons c rest induct =>
      simp only [List.length_cons] at late
      have never : recoversAt recovery position = recoversAt none position := by
        refine recoversAt_of_late fun boundary recovers => ?_
        have behind := late boundary recovers
        omega
      rw [pass, pass, never]
      congr 1
      funext next
      refine induct fun boundary recovers => ?_
      have behind := late boundary recovers
      omega

variable {quote : Char} (text : Text)

theorem Delimiter.quoted_escape {delimiter : Delimiter} (isQuote : delimiter.isQuote = true) :
    Quoted delimiter.closer text.escape := by
  rw [closer_eq_opener isQuote]
  exact Selector.quoted_escape (delimiter.isQuote_opener.trans isQuote) text

/-- The scan for the end of a value is still inside the quotes behind each beginning of a spelling,
if it does not recover there. -/
theorem exists_pass_begins_escape (quotes : isQuote quote = true) {recovery : Option Int}
    (late : ∀ boundary ∈ recovery, (text.escape.length : Int) < boundary) {front : Text}
    (begins : front <+: text.escape) :
    ∃ scan : Scan, ({} : Scan).pass recovery 0 (quote :: front) = some scan ∧
      scan.pending ≠ [] := by
  obtain ⟨delimiter, isQuote, rfl⟩ := exists_opener_of_isQuote quotes
  have quoted := Delimiter.quoted_escape text isQuote
  have opened := pass_cons_of_step (step_opener ready_start (recoversAt none 0) delimiter) front
  have inside : (({} : Scan).enter delimiter).pending = delimiter :: [] := rfl
  obtain ⟨escaped, passed⟩ := quoted.exists_pass_begins isQuote begins 1 rfl inside
  refine ⟨{ ({} : Scan).enter delimiter with escaped := escaped }, ?_, List.cons_ne_nil _ _⟩
  rw [pass_of_late, opened, passed]
  intro boundary recovers
  have behind := late boundary recovers
  have shorter := begins.length_le
  rw [List.length_cons]
  omega

/-- The scan for the end of a value is outside all delimiters behind the second quote, if it does
not recover before. -/
theorem exists_pass_escape (quotes : isQuote quote = true) :
    ∃ scan : Scan, scan.pending = [] ∧ scan.escaped = false ∧
      ∀ recovery : Option Int,
        (∀ boundary ∈ recovery, (text.escape.length : Int) < boundary) →
          ({} : Scan).pass recovery 0 (quote :: text.escape ++ [quote]) = some scan := by
  obtain ⟨delimiter, isQuote, rfl⟩ := exists_opener_of_isQuote quotes
  refine ⟨({} : Scan).behind delimiter, rfl, rfl, fun recovery late => ?_⟩
  have quoted := Delimiter.quoted_escape text isQuote
  have passed : ({} : Scan).pass recovery 0 (delimiter.opener :: text.escape) =
      some (({} : Scan).enter delimiter) := by
    rw [pass_of_late, pass_cons_of_step (step_opener ready_start _ delimiter)]
    · exact quoted.pass isQuote (0 + 1) rfl rfl
    · intro boundary recovers
      have behind := late boundary recovers
      rw [List.length_cons]
      omega
  have closing := step_closer_enter ready_start delimiter
    (recoversAt recovery (0 + (delimiter.opener :: text.escape).length))
  rw [Delimiter.closer_eq_opener isQuote] at closing
  rw [pass_append passed, pass_cons_of_step closing, pass_nil]

/-- A key whose name is a spelling between two quotes is taken up to the colon behind them. -/
theorem takeKey_escape (quotes : isQuote quote = true) {source : Source} {rest : Text}
    (raw : source.raw = quote :: text.escape ++ quote :: ':' :: rest) :
    ∃ key, source.takeKey.1 = some key ∧ key.name = text.escape ∧
      source.takeKey.2.raw = rest := by
  have wellFormed : (KeyForm.quoted [] quote text.escape []).WellFormed :=
    .quoted rfl quotes (quoted_escape quotes text) (by simp)
  obtain ⟨scan, scanned⟩ := wellFormed.exists_scanned_stem trivial (halts_colon rest)
  have begins : source.raw = (KeyForm.quoted [] quote text.escape []).stem ++ ':' :: rest := by
    rw [raw, KeyForm.stem_quoted]
    simp
  rw [scanned.takeKey begins]
  refine ⟨_, rfl, rfl, ?_⟩
  rw [Source.advance, begins, ← List.drop_drop, List.drop_left]
  rfl

/-- Reading the escapes of a spelling gives the text back, and both readers come out of the quotes
around the spelling at the second quote, and not before. A scan for the end of a value that is
repeated must not recover inside the quotes for this. -/
theorem escape_between_quotes (quotes : isQuote quote = true) :
    text.escape.unescape = text ∧
      text.escape = ((text.withBackslash '\\').withBackslash '\'').withBackslash '"' ∧
      (∃ scan : Scan, scan.pending = [] ∧ scan.escaped = false ∧
        ∀ recovery : Option Int,
          (∀ boundary ∈ recovery, (text.escape.length : Int) < boundary) →
            (∀ front, front <+: text.escape → ∃ within : Scan,
              ({} : Scan).pass recovery 0 (quote :: front) = some within ∧
                within.pending ≠ []) ∧
            ({} : Scan).pass recovery 0 (quote :: text.escape ++ [quote]) = some scan ∧
            ∀ (source : Source) (rest : Text),
              source.raw = quote :: text.escape ++ quote :: rest →
                source.scanFrom recovery = run recovery (text.escape.length + 2) scan rest) ∧
      ∀ (source : Source) (rest : Text),
        source.raw = quote :: text.escape ++ quote :: ':' :: rest →
          ∃ key, source.takeKey.1 = some key ∧ key.name = text.escape ∧
            source.takeKey.2.raw = rest := by
  obtain ⟨scan, outside, unescaped, passes⟩ := exists_pass_escape text quotes
  refine ⟨text.unescape_escape, text.escape_eq_replacements, ?_, ?_⟩
  · refine ⟨scan, outside, unescaped, fun recovery late => ⟨?_, passes recovery late, ?_⟩⟩
    · intro front begins
      exact exists_pass_begins_escape text quotes late begins
    · intro source rest raw
      have whole : source.raw = (quote :: text.escape ++ [quote]) ++ rest := by
        rw [raw]
        simp
      have length : (quote :: text.escape ++ [quote]).length = text.escape.length + 2 := by
        simp
      rw [Source.scanFrom, whole, run_append_of_pass (passes recovery late), length, Nat.zero_add]
  · intro source rest raw
    exact takeKey_escape text quotes raw

/-- A text that ends with a backslash and a quote is read back, and its last quote ends nothing. -/
theorem escape_between_quotes_backslash :
    isQuote '"' = true ∧ Text.unescape (Text.escape ['a', '\\', '"']) = ['a', '\\', '"'] ∧
      ∃ scan : Scan, scan.pending = [] ∧
        ({} : Scan).pass none 0 ['"', 'a', '\\', '\\', '\\', '"', '"'] = some scan := by
  have quotes : isQuote '"' = true := by
    decide
  obtain ⟨back, _, ⟨scan, outside, _, scans⟩, _⟩ := escape_between_quotes ['a', '\\', '"'] quotes
  have plain := (scans none fun _ absent => nomatch absent).2.1
  exact ⟨quotes, back, scan, outside, plain⟩

end Typeahead.Selector

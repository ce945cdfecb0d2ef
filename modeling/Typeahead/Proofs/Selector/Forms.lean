import Typeahead.Proofs.Selector.Balanced
import Typeahead.Proofs.Text.Unescape

/-!
# The forms of keys

A key that is taken from a text has one of three forms. It is bare, or it is quoted and may have
further characters between its closing quote and the colon, or its quote is not closed and it
reaches to the end of the text. Where the text ends, the colon can be missing. A text that goes on
like one of the forms gives a key of this form.
-/

namespace Typeahead.Selector

/-! ## Scans -/

namespace KeyScan

/-- A scan goes on behind a text of which each character leaves it as it is. -/
theorem run_of_stays {scan : KeyScan} {text : Text}
    (stays : ∀ c ∈ text, ∀ position, scan.step position c = some scan) (position : Nat)
    (rest : Text) : run position scan (text ++ rest) = run (position + text.length) scan rest := by
  induction text generalizing position with
  | nil => rfl
  | cons c more induct =>
      obtain ⟨first, others⟩ := List.forall_mem_cons.mp stays
      rw [List.cons_append, run, first position]
      dsimp only
      rw [induct others, List.length_cons, Nat.add_assoc, Nat.add_comm 1]

theorem run_blank {blanks : Text} (blank : blanks.isBlank) (position : Nat) (rest : Text) :
    run position .blank (blanks ++ rest) = run (position + blanks.length) .blank rest := by
  apply run_of_stays
  intro c member _
  exact if_pos (List.all_eq_true.mp blank c member)

theorem run_bare {name : Text} (noColon : ∀ c ∈ name, c ≠ ':') (low position : Nat)
    (rest : Text) :
    run position (.bare low) (name ++ rest) = run (position + name.length) (.bare low) rest := by
  apply run_of_stays
  intro c member _
  exact if_neg (noColon c member)

theorem run_named {gap : Text} (noColon : ∀ c ∈ gap, c ≠ ':') (low high position : Nat)
    (rest : Text) :
    run position (.named low high) (gap ++ rest) =
      run (position + gap.length) (.named low high) rest := by
  apply run_of_stays
  intro c member _
  exact if_neg (noColon c member)

theorem run_quoted {quote : Char} {inner : Text} (quoted : Quoted quote inner)
    (low position : Nat) (rest : Text) :
    run position (.quoted quote low false) (inner ++ rest) =
      run (position + inner.length) (.quoted quote low false) rest := by
  induction quoted generalizing position with
  | nil => rfl
  | plain other ordinary _ induct =>
      simp only [List.cons_append, run, step, Bool.false_eq_true, if_false, if_neg ordinary,
        if_neg other]
      rw [induct, List.length_cons, Nat.add_assoc, Nat.add_comm 1]
  | escaped _ induct =>
      simp only [List.cons_append, run, step, Bool.false_eq_true, if_false, if_true]
      rw [induct, List.length_cons, List.length_cons, Nat.add_assoc, Nat.add_comm 1,
        Nat.add_assoc, Nat.add_comm 1, ← Nat.add_assoc _ _ 1]

end KeyScan

theorem isQuote_of_opening? {c : Char} (opens : Delimiter.opening? c = none) :
    isQuote c = false := by
  simp only [isQuote, Bool.or_eq_false_iff, beq_eq_false_iff_ne]
  constructor <;> rintro rfl <;> contradiction

theorem not_isBlank_of_isQuote {quote : Char} (quotes : isQuote quote = true) :
    isBlank quote = false := by
  simp only [isQuote, Bool.or_eq_true, beq_iff_eq] at quotes
  rcases quotes with rfl | rfl <;> rfl

/-! ## Quoted names -/

/-- A name that reaches to the end of the text, because no quote closes it. Its last character can
be a backslash with nothing behind it. -/
def Dangling (quote : Char) (name : Text) : Prop :=
  Quoted quote name ∨ ∃ inner, Quoted quote inner ∧ name = inner ++ ['\\']

/-- Behind a quote a text goes on with a name and the same quote, or the name dangles. -/
theorem quoted_or_dangling (quote : Char) (text : Text) :
    (∃ name rest, Quoted quote name ∧ text = name ++ quote :: rest) ∨ Dangling quote text := by
  -- The recursion is that of reading escapes: a backslash is passed with the character behind it.
  fun_induction Text.unescape text with
  | case1 => exact .inr (.inl .nil)
  | case2 c =>
      by_cases backslash : c = '\\'
      · exact .inr (.inr ⟨[], .nil, by rw [backslash, List.nil_append]⟩)
      · by_cases closes : c = quote
        · exact .inl ⟨[], [], .nil, by rw [closes, List.nil_append]⟩
        · exact .inr (.inl (.plain closes backslash .nil))
  | case3 d rest inductionHypothesis =>
      rcases inductionHypothesis with ⟨name, more, quoted, rfl⟩ | quoted | ⟨inner, quoted, rfl⟩
      · exact .inl ⟨'\\' :: d :: name, more, .escaped quoted, rfl⟩
      · exact .inr (.inl (.escaped quoted))
      · exact .inr (.inr ⟨'\\' :: d :: inner, .escaped quoted, rfl⟩)
  | case4 c d rest plain inductionHypothesis =>
      by_cases closes : c = quote
      · exact .inl ⟨[], d :: rest, .nil, by rw [closes, List.nil_append]⟩
      · rcases inductionHypothesis with ⟨name, more, quoted, same⟩ | quoted | ⟨inner, quoted, same⟩
        · exact .inl ⟨c :: name, more, .plain closes plain quoted, by rw [same]; rfl⟩
        · exact .inr (.inl (.plain closes plain quoted))
        · exact .inr (.inr ⟨c :: inner, .plain closes plain quoted, by rw [same]; rfl⟩)

theorem Dangling.run {quote : Char} {name : Text} (dangling : Dangling quote name)
    (low position : Nat) :
    ∃ stop escaped, KeyScan.run position (.quoted quote low false) name =
      (stop, .quoted quote low escaped) ∧ position + name.length ≤ stop := by
  rcases dangling with quoted | ⟨inner, quoted, rfl⟩
  · have scanned := KeyScan.run_quoted quoted low position []
    rw [List.append_nil] at scanned
    exact ⟨_, _, scanned, Nat.le_refl _⟩
  · refine ⟨_, true, KeyScan.run_quoted quoted low position ['\\'], ?_⟩
    simp only [List.length_append, List.length_singleton, KeyScan.escapes, Bool.toNat_true]
    omega

/-! ## Colons -/

/-- A text at which a key ends: it begins with the colon or is empty. -/
def Halts (rest : Text) : Prop :=
  ∀ c, rest.head? = some c → c = ':'

theorem halts_colon (rest : Text) : Halts (':' :: rest) :=
  fun _ first => (Option.some.inj first).symm

theorem halts_nil : Halts [] := by
  rintro c ⟨⟩

theorem Halts.cases {rest : Text} (halts : Halts rest) :
    rest = [] ∨ ∃ more, rest = ':' :: more := by
  cases rest with
  | nil => exact .inl rfl
  | cons c more => exact .inr ⟨more, by rw [halts c rfl]⟩

/-- Every text goes on to its first colon, or to its end. -/
theorem exists_halts (text : Text) :
    ∃ front rest, text = front ++ rest ∧ (∀ c ∈ front, c ≠ ':') ∧ Halts rest := by
  refine ⟨text.takeWhile (· != ':'), text.dropWhile (· != ':'),
    List.takeWhile_append_dropWhile.symm, fun c member => ?_, fun c first => ?_⟩
  · have other := List.all_eq_true.mp List.all_takeWhile c member
    exact bne_iff_ne.mp other
  · have stopped := List.head?_dropWhile_not (· != ':') text
    rw [first] at stopped
    simpa using stopped

/-- A scan that a colon stops, stops where the key ends. -/
theorem Halts.run {rest : Text} (halts : Halts rest) {scan : KeyScan} {position : Nat}
    (stops : scan.step position ':' = none) (calm : scan.escapes = false) :
    KeyScan.run position scan rest = (position, scan) := by
  cases rest with
  | nil => rw [KeyScan.run, calm]; rfl
  | cons c more => rw [halts c rfl, KeyScan.run, stops]

/-! ## Keys of each form -/

/-- The parts of a key, but for its colon. -/
inductive KeyForm where
  | bare (before name : Text)
  /-- What stands between the closing quote and the colon does not belong to the name. -/
  | quoted (before : Text) (quote : Char) (name between : Text)
  | dangling (before : Text) (quote : Char) (name : Text)
  deriving DecidableEq, Repr

namespace KeyForm

/-- The blanks in front of the key. -/
def before : KeyForm → Text
  | bare before _ | quoted before _ _ _ | dangling before _ _ => before

def quote? : KeyForm → Option Char
  | bare _ _ => none
  | quoted _ quote _ _ | dangling _ quote _ => some quote

def name : KeyForm → Text
  | bare _ name | quoted _ _ name _ | dangling _ _ name => name

/-- What stands between the closing quote and the colon. -/
def between : KeyForm → Text
  | quoted _ _ _ between => between
  | bare _ _ | dangling _ _ _ => []

/-- What stands in front of the name: blanks and a quote. -/
def opening (form : KeyForm) : Text :=
  form.before ++ form.quote?.toList

/-- What stands behind the name, in front of the colon. -/
def closing : KeyForm → Text
  | quoted _ quote _ between => quote :: between
  | bare _ _ | dangling _ _ _ => []

/-- The text of a key of a form without its colon. -/
def stem (form : KeyForm) : Text :=
  form.opening ++ form.name ++ form.closing

theorem opening_bare (before name : Text) : (bare before name).opening = before :=
  List.append_nil before

theorem opening_quoted (before : Text) (quote : Char) (name between : Text) :
    (quoted before quote name between).opening = before ++ [quote] :=
  rfl

theorem stem_bare (before name : Text) : (bare before name).stem = before ++ name := by
  simp [stem, opening, KeyForm.before, quote?, KeyForm.name, closing]

theorem stem_quoted (before : Text) (quote : Char) (name between : Text) :
    (quoted before quote name between).stem = before ++ quote :: (name ++ quote :: between) := by
  simp [stem, opening, KeyForm.before, quote?, KeyForm.name, closing]

theorem stem_dangling (before : Text) (quote : Char) (name : Text) :
    (dangling before quote name).stem = before ++ quote :: name := by
  simp [stem, opening, KeyForm.before, quote?, KeyForm.name, closing]

theorem length_opening (form : KeyForm) :
    form.opening.length = form.before.length + form.quote?.toList.length :=
  List.length_append

/-- A form as keys can have it. -/
inductive WellFormed : KeyForm → Prop
  | bare {before : Text} {c : Char} {rest : Text} :
      before.isBlank → isBlank c = false → isQuote c = false → (∀ d ∈ c :: rest, d ≠ ':') →
        WellFormed (bare before (c :: rest))
  | quoted {before : Text} {quote : Char} {name between : Text} :
      before.isBlank → isQuote quote = true → Quoted quote name → (∀ c ∈ between, c ≠ ':') →
        WellFormed (quoted before quote name between)
  | dangling {before : Text} {quote : Char} {name : Text} :
      before.isBlank → isQuote quote = true → Dangling quote name →
        WellFormed (dangling before quote name)

/-- Behind its blanks a key begins with a character that shows whether it is quoted. -/
theorem WellFormed.exists_stem {form : KeyForm} (wellFormed : form.WellFormed) :
    ∃ c more, form.stem = form.before ++ c :: more ∧ form.before.isBlank = true ∧
      isBlank c = false ∧ isQuote c = form.quote?.isSome := by
  cases wellFormed with
  | bare blank visible noQuote noColon =>
      exact ⟨_, _, stem_bare _ _, blank, visible, noQuote⟩
  | quoted blank quotes inner noColon =>
      exact ⟨_, _, stem_quoted _ _ _ _, blank, not_isBlank_of_isQuote quotes, quotes⟩
  | dangling blank quotes dangles =>
      exact ⟨_, _, stem_dangling _ _ _, blank, not_isBlank_of_isQuote quotes, quotes⟩

/-- No name dangles. -/
def IsClosed : KeyForm → Prop
  | bare _ _ | quoted _ _ _ _ => True
  | dangling _ _ _ => False

/-- A text goes on behind a key of a form. Nothing is left behind a name that dangles. -/
def Precedes (form : KeyForm) (rest : Text) : Prop :=
  match form with
  | dangling _ _ _ => rest = []
  | bare _ _ | quoted _ _ _ _ => Halts rest

theorem precedes_of_halts {form : KeyForm} (closed : form.IsClosed) {rest : Text}
    (halts : Halts rest) : form.Precedes rest := by
  cases form with
  | bare => exact halts
  | quoted => exact halts
  | dangling => exact closed.elim

theorem halts_of_precedes {form : KeyForm} {rest : Text} (precedes : form.Precedes rest) :
    Halts rest := by
  cases form with
  | bare => exact precedes
  | quoted => exact precedes
  | dangling =>
      obtain rfl : rest = [] := precedes
      exact halts_nil

/-- The key of a form in front of a text. -/
def key (form : KeyForm) (rest : Text) (source : Source) : Key where
  raw := form.stem ++ rest.take 1
  start := source.start
  cursor := source.caret.within form.opening.length (form.opening.length + form.name.length : Nat)
  name := form.name

theorem run_quote {before : Text} {quote : Char} (blank : before.isBlank)
    (quotes : isQuote quote = true) (rest : Text) :
    KeyScan.run 0 .blank (before ++ quote :: rest) =
      KeyScan.run (before.length + 1) (.quoted quote (before.length + 1) false) rest := by
  have visible := not_isBlank_of_isQuote quotes
  have noColon : quote ≠ ':' := by
    rintro rfl
    contradiction
  have stepped : KeyScan.step before.length quote .blank =
      some (.quoted quote (before.length + 1) false) := by
    simp [KeyScan.step, visible, noColon, quotes]
  rw [KeyScan.run_blank blank, Nat.zero_add, KeyScan.run, stepped]

/-- A scan finds the name of a form, and stops at the end of its stem. -/
structure Scanned (form : KeyForm) (rest : Text) (stop : Nat) (scan : KeyScan) : Prop where
  run : KeyScan.run 0 .blank (form.stem ++ rest) = (stop, scan)
  extent : scan.extent? (form.stem ++ rest).length stop =
    some (form.opening.length, form.opening.length + form.name.length)
  taken : (form.stem ++ rest).take (stop + 1) = form.stem ++ rest.take 1

/-- A text is taken up to its colon. -/
theorem taken_stem (form : KeyForm) (rest : Text) :
    (form.stem ++ rest).take (form.stem.length + 1) = form.stem ++ rest.take 1 :=
  List.take_length_add_append 1

theorem scanned_bare {before rest : Text} {c : Char} {name : Text} (blank : before.isBlank)
    (visible : isBlank c = false) (noQuote : isQuote c = false)
    (noColon : ∀ d ∈ c :: name, d ≠ ':') (halts : Halts rest) :
    (bare before (c :: name)).Scanned rest (bare before (c :: name)).stem.length
      (.bare before.length) where
  run := by
    have stepped : KeyScan.step before.length c .blank = some (.bare before.length) := by
      simp [KeyScan.step, visible, noQuote, noColon c List.mem_cons_self]
    rw [stem_bare, List.append_assoc, List.cons_append, KeyScan.run_blank blank, Nat.zero_add,
      KeyScan.run, stepped]
    simp only
    rw [KeyScan.run_bare fun d member => noColon d (List.mem_cons_of_mem c member),
      halts.run rfl rfl, List.length_append, List.length_cons, Nat.add_assoc, Nat.add_comm 1]
  extent := by
    rw [KeyScan.extent?, length_opening, stem_bare, List.length_append]
    rfl
  taken := taken_stem _ _

theorem scanned_quoted {before rest : Text} {quote : Char} {name between : Text}
    (blank : before.isBlank) (quotes : isQuote quote = true) (inner : Quoted quote name)
    (noColon : ∀ c ∈ between, c ≠ ':') (halts : Halts rest) :
    (quoted before quote name between).Scanned rest (quoted before quote name between).stem.length
      (.named (before.length + 1) (before.length + 1 + name.length)) where
  run := by
    have plain : quote ≠ '\\' := by
      rintro rfl
      contradiction
    have closed : KeyScan.step (before.length + 1 + name.length) quote
        (.quoted quote (before.length + 1) false) =
          some (.named (before.length + 1) (before.length + 1 + name.length)) := by
      simp [KeyScan.step, plain]
    rw [stem_quoted, List.append_assoc, List.cons_append, List.append_assoc, List.cons_append,
      run_quote blank quotes, KeyScan.run_quoted inner, KeyScan.run, closed]
    simp only
    rw [KeyScan.run_named noColon, halts.run rfl rfl]
    simp only [List.length_append, List.length_cons, Prod.mk.injEq, and_true]
    omega
  extent := by
    rw [KeyScan.extent?, length_opening]
    rfl
  taken := taken_stem _ _

/-- Where a name dangles from a backslash, the scan stops behind the end of the text. -/
theorem exists_scanned_dangling {before : Text} {quote : Char} {name : Text}
    (blank : before.isBlank) (quotes : isQuote quote = true) (dangles : Dangling quote name) :
    ∃ stop scan, (dangling before quote name).Scanned [] stop scan := by
  obtain ⟨stop, escaped, scanned, reaches⟩ := dangles.run (before.length + 1) (before.length + 1)
  have length : (dangling before quote name).stem.length = before.length + 1 + name.length := by
    rw [stem_dangling, List.length_append, List.length_cons]
    omega
  refine ⟨stop, .quoted quote (before.length + 1) escaped, ?_, ?_, ?_⟩
  · rw [List.append_nil, stem_dangling, run_quote blank quotes, scanned]
  · rw [List.append_nil, length, KeyScan.extent?, length_opening]
    rfl
  · rw [List.append_nil, List.take_of_length_le (by omega), List.take_nil, List.append_nil]

/-- A key whose quote is closed, or that has none, is scanned up to the colon. -/
theorem WellFormed.exists_scanned_stem {form : KeyForm} (wellFormed : form.WellFormed)
    (closed : form.IsClosed) {rest : Text} (halts : Halts rest) :
    ∃ scan, form.Scanned rest form.stem.length scan := by
  cases wellFormed with
  | bare blank visible noQuote noColon =>
      exact ⟨_, scanned_bare blank visible noQuote noColon halts⟩
  | quoted blank quotes inner noColon =>
      exact ⟨_, scanned_quoted blank quotes inner noColon halts⟩
  | dangling => exact closed.elim

theorem WellFormed.exists_scanned {form : KeyForm} (wellFormed : form.WellFormed) {rest : Text}
    (precedes : form.Precedes rest) : ∃ stop scan, form.Scanned rest stop scan := by
  cases form with
  | bare => exact ⟨_, wellFormed.exists_scanned_stem trivial precedes⟩
  | quoted => exact ⟨_, wellFormed.exists_scanned_stem trivial precedes⟩
  | dangling =>
      obtain rfl : rest = [] := precedes
      cases wellFormed with
      | dangling blank quotes dangles => exact exists_scanned_dangling blank quotes dangles

/-- A key of a form is taken as it is, and dropped with all that the scan has passed. -/
theorem Scanned.takeKey {form : KeyForm} {rest : Text} {stop : Nat} {scan : KeyScan}
    (scanned : form.Scanned rest stop scan) {source : Source}
    (raw : source.raw = form.stem ++ rest) :
    source.takeKey = (some (form.key rest source), source.advance (stop + 1)) := by
  have name : ((form.stem ++ rest).take (form.opening.length + form.name.length)).drop
      form.opening.length = form.name := by
    rw [stem, List.append_assoc, ← List.length_append, List.take_left, List.drop_left]
  unfold Source.takeKey
  rw [raw, scanned.run]
  simp only [scanned.extent, scanned.taken, name]
  rfl

theorem WellFormed.takeKey {form : KeyForm} (wellFormed : form.WellFormed) {rest : Text}
    (precedes : form.Precedes rest) {source : Source} (raw : source.raw = form.stem ++ rest) :
    source.takeKey.1 = some (form.key rest source) := by
  obtain ⟨stop, scan, scanned⟩ := wellFormed.exists_scanned precedes
  rw [scanned.takeKey raw]

end KeyForm

/-! ## Taking keys -/

/-- A text that is not blank begins with blanks and another character. -/
theorem exists_visible {raw : Text} (visible : raw.isBlank = false) :
    ∃ blanks c rest, Text.isBlank blanks = true ∧ isBlank c = false ∧
      raw = blanks ++ c :: rest := by
  induction raw with
  | nil => contradiction
  | cons c rest inductionHypothesis =>
      cases first : isBlank c with
      | false => exact ⟨[], c, rest, rfl, first, rfl⟩
      | true =>
          rw [Text.isBlank, List.all_cons, first, Bool.true_and] at visible
          obtain ⟨blanks, d, more, blank, dVisible, rfl⟩ := inductionHypothesis visible
          refine ⟨c :: blanks, d, more, ?_, dVisible, rfl⟩
          rw [Text.isBlank, List.all_cons, first, Bool.true_and]
          exact blank

/-- A text goes on like one of the forms where neither a blank nor a colon follows blanks. -/
theorem exists_form_of_visible {before : Text} (blank : before.isBlank) {c : Char}
    (visible : isBlank c = false) (noColon : c ≠ ':') (text : Text) :
    ∃ (form : KeyForm) (rest : Text), form.WellFormed ∧ form.Precedes rest ∧
      before ++ c :: text = form.stem ++ rest := by
  cases quotes : isQuote c with
  | false =>
      obtain ⟨front, rest, rfl, plain, halts⟩ := exists_halts text
      refine ⟨.bare before (c :: front), rest, .bare blank visible quotes ?_, halts, ?_⟩
      · exact List.forall_mem_cons.mpr ⟨noColon, plain⟩
      · rw [KeyForm.stem_bare, List.append_assoc, List.cons_append]
  | true =>
      rcases quoted_or_dangling c text with ⟨name, behind, quoted, rfl⟩ | dangles
      · obtain ⟨between, rest, rfl, plain, halts⟩ := exists_halts behind
        refine ⟨.quoted before c name between, rest, .quoted blank quotes quoted plain, halts, ?_⟩
        rw [KeyForm.stem_quoted, List.append_assoc, List.cons_append, List.append_assoc,
          List.cons_append]
      · refine ⟨.dangling before c text, [], .dangling blank quotes dangles, rfl, ?_⟩
        rw [KeyForm.stem_dangling, List.append_nil]

namespace Source

variable {source : Source}

/-- Where a colon follows blanks, both are dropped and there is no key. -/
theorem takeKey_of_blank_colon {blanks rest : Text} (blank : blanks.isBlank)
    (raw : source.raw = blanks ++ ':' :: rest) :
    source.takeKey = (none, source.advance (blanks.length + 1)) := by
  have scanned : KeyScan.run 0 .blank source.raw = (blanks.length, .blank) := by
    rw [raw, KeyScan.run_blank blank, Nat.zero_add]
    rfl
  have inside : blanks.length < source.raw.length := by
    rw [raw, List.length_append, List.length_cons]
    omega
  unfold takeKey
  rw [scanned]
  simp only [KeyScan.extent?, if_pos inside]

/-- There is no key in a blank text. -/
theorem takeKey_of_isBlank (blank : source.raw.isBlank) : source.takeKey.1 = none := by
  have scanned := KeyScan.run_blank blank 0 []
  rw [List.append_nil] at scanned
  unfold takeKey
  rw [scanned]
  rfl

/-- Every key that is taken has one of the forms. -/
theorem exists_form {key : Key} (taken : source.takeKey.1 = some key) :
    ∃ (form : KeyForm) (rest : Text), form.WellFormed ∧ form.Precedes rest ∧
      source.raw = form.stem ++ rest ∧ key = form.key rest source := by
  have whole : ∃ (form : KeyForm) (rest : Text), form.WellFormed ∧ form.Precedes rest ∧
      source.raw = form.stem ++ rest := by
    cases visible : source.raw.isBlank with
    | true =>
        rw [takeKey_of_isBlank visible] at taken
        contradiction
    | false =>
        obtain ⟨blanks, c, text, blank, cVisible, raw⟩ := exists_visible visible
        by_cases colon : c = ':'
        · subst colon
          rw [takeKey_of_blank_colon blank raw] at taken
          contradiction
        · rw [raw]
          exact exists_form_of_visible blank cVisible colon text
  obtain ⟨form, rest, wellFormed, precedes, raw⟩ := whole
  rw [wellFormed.takeKey precedes raw] at taken
  exact ⟨form, rest, wellFormed, precedes, raw, (Option.some.inj taken).symm⟩

/-- Where no key is taken from a text that is not blank, blanks and a colon are dropped. -/
theorem exists_of_takeKey_eq_none (visible : source.raw.isBlank = false)
    (none : source.takeKey.1 = none) :
    ∃ blanks, Text.isBlank blanks = true ∧ source.raw = blanks ++ ':' :: source.takeKey.2.raw := by
  obtain ⟨blanks, c, rest, blank, cVisible, raw⟩ := exists_visible visible
  by_cases colon : c = ':'
  · subst colon
    refine ⟨blanks, blank, ?_⟩
    rw [takeKey_of_blank_colon blank raw]
    simp [advance, raw]
  · obtain ⟨form, behind, wellFormed, precedes, same⟩ :=
      exists_form_of_visible blank cVisible colon rest
    rw [wellFormed.takeKey precedes (raw.trans same)] at none
    contradiction

end Source

end Typeahead.Selector

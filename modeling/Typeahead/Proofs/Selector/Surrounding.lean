import Typeahead.Proofs.Selector.Extent
import Typeahead.Proofs.Selector.Nesting
import Typeahead.Proofs.Selector.Origin
import Typeahead.Proofs.Selector.Reading

/-!
# Texts that are objects and arrays

The root of a text is an object or an array exactly if one pair of braces or brackets surrounds the
text. The scan keeps a flag for this, and the body is cut at the last closer of the chunk. Both
agree on the closer: behind it only blanks and one comma are left in the chunk, so the closer that
ends the stretch is also the last one.
-/

namespace Typeahead.Selector

open Scan

/-- A delimiter surrounds a body in a text: blanks precede the opener. Behind the closer that ends
the stretch only blanks stand up to the first comma or the end, or the stretch is never closed. -/
inductive Surrounds (delimiter : Delimiter) : Text → Text → Prop
  | closed {blanks inner rest : Text} :
      blanks.isBlank → delimiter.Encloses inner → Text.isBlank (rest.takeWhile (· != ',')) →
        Surrounds delimiter (blanks ++ delimiter.opener :: (inner ++ delimiter.closer :: rest))
          inner
  | unclosed {blanks afterOpener : Text} :
      blanks.isBlank → ¬ delimiter.Ends afterOpener →
        Surrounds delimiter (blanks ++ delimiter.opener :: afterOpener) afterOpener

/-- A body that is surrounded in a text without a caret, at its place behind the opener. -/
def surroundedBody (text body : Text) : Source :=
  ⟨body, text.leadingBlanks.length + 1, none⟩

/-! ## The root -/

/-- The value at the start of a text without a caret, not yet looked into. -/
def rootChunk (text : Text) : Chunk :=
  (Source.takeValue ⟨text, 0, none⟩).1

/-- Without a caret the value ends where the plain scan stops. -/
theorem rootChunk_of_run {text : Text} {stop : Nat} {scan : Scan}
    (scanned : run none 0 {} text = (stop, scan)) :
    rootChunk text = ⟨text.take (stop + 1), 0, none, scan.frame?⟩ := by
  have plain : Source.scanValue ⟨text, 0, none⟩ = (stop, scan) := by
    rw [Source.scanValue, Source.scanFrom, scanned, Option.isNone_none, Bool.or_true, if_pos rfl]
  rw [rootChunk, Source.takeValue, plain]
  rfl

theorem parse_of_no_caret {caret : Int} (absent : caret < 0) (text : Text) :
    parse text caret = (rootChunk text).node := by
  rw [parse, if_pos absent, rootChunk]

/-! ## Texts that a delimiter surrounds -/

/-- A text with only blanks up to its first comma goes on behind the comma, if it has one. -/
theorem exists_continued {text : Text} (clean : Text.isBlank (text.takeWhile (· != ','))) :
    ∃ after more?, Text.isBlank after ∧ text = after ++ continued more? := by
  have whole := @List.takeWhile_append_dropWhile _ (· != ',') text
  cases behind : text.dropWhile (· != ',') with
  | nil =>
      rw [behind] at whole
      exact ⟨_, none, clean, whole.symm⟩
  | cons c rest =>
      have stopped := List.head?_dropWhile_not (· != ',') text
      rw [behind] at stopped whole
      obtain rfl : c = ',' := by simpa using stopped
      exact ⟨_, some rest, clean, whole.symm⟩

variable {delimiter : Delimiter} {text body : Text}

/-- A stretch that is closed is cut at the closer that ends it. -/
theorem body?_rootChunk_of_closed (framed : delimiter = .brace ∨ delimiter = .bracket)
    {blanks inner rest : Text} (blank : blanks.isBlank) (encloses : delimiter.Encloses inner)
    (clean : Text.isBlank (rest.takeWhile (· != ','))) :
    (rootChunk (blanks ++ delimiter.opener :: (inner ++ delimiter.closer :: rest))).body? =
      some (delimiter, ⟨inner, blanks.length + 1, none⟩) := by
  obtain ⟨after, more?, blankAfter, rfl⟩ := exists_continued clean
  obtain ⟨next, passed, finds⟩ :=
    (reads_container framed blank blankAfter (encloses.closes (0 + blanks.length + 1))).2
  have root := rootChunk_of_run (run_of_finds passed finds more?)
  have comma : (continued more?).take 1 = commaText more?.isSome := by
    cases more? <;> rfl
  rw [finds.frame, List.take_length_add_append, comma] at root
  have whole : blanks ++ delimiter.opener :: (inner ++ delimiter.closer :: (after ++
      continued more?)) = blanks ++ delimiter.opener :: inner ++ delimiter.closer :: after ++
        continued more? := by
    simp
  rw [whole, root]
  have cut := @Chunk.body?_of_frame (rootChunk (blanks ++ delimiter.opener :: inner ++
      delimiter.closer :: after ++ continued more?)) delimiter framed (by rw [root]) blanks inner
    after more?.isSome (by rw [root]) blank blankAfter none (blanks.length + 1 + inner.length)
    (by rw [root]; rfl) (Nat.le_refl _)
  rw [root, Nat.zero_add] at cut
  exact cut

/-- A stretch that is not closed goes on to the end. -/
theorem body?_rootChunk_of_unclosed (framed : delimiter = .brace ∨ delimiter = .bracket)
    {blanks afterOpener : Text} (blank : blanks.isBlank)
    (stays : StaysInside (blanks.length + 1) delimiter afterOpener) :
    (rootChunk (blanks ++ delimiter.opener :: afterOpener)).body? =
      some (delimiter, ⟨afterOpener, blanks.length + 1, none⟩) := by
  obtain ⟨stop, opened, escaped, reaches, scanned⟩ := stays {} ready_start
  have visible := delimiter.isBlank_opener
  have passed : run none 0 {} (blanks ++ delimiter.opener :: afterOpener) =
      run none (blanks.length + 1) (({} : Scan).enter delimiter) afterOpener := by
    rw [run_append_of_pass (pass_blanks blank none 0 ready_start), run, step_opener ready_start,
      Nat.zero_add]
  have root := rootChunk_of_run (passed.trans scanned)
  have frame : Scan.frame? { ({} : Scan).enter delimiter with
      pending := opened ++ delimiter :: [], escaped := escaped } = some ⟨delimiter, false⟩ := by
    rcases framed with rfl | rfl <;> cases opened <;> rfl
  rw [frame, List.take_of_length_le (by simp; omega)] at root
  rw [root, Chunk.body?, Option.bind_some, Frame.inner?, Text.trimLeft_append_of_isBlank blank,
    Text.trimLeft_cons visible]
  simp only [if_true, Bool.false_eq_true, if_false, Chunk.openerLength,
    Text.leadingBlanks_append blank visible, Nat.zero_add]
  rfl

theorem body?_rootChunk_of_surrounds (framed : delimiter = .brace ∨ delimiter = .bracket)
    (surrounds : Surrounds delimiter text body) :
    (rootChunk text).body? = some (delimiter, surroundedBody text body) := by
  have visible := delimiter.isBlank_opener
  cases surrounds with
  | closed blank encloses clean =>
      rw [surroundedBody, Text.leadingBlanks_append blank visible]
      exact body?_rootChunk_of_closed framed blank encloses clean
  | unclosed blank unclosed =>
      rw [surroundedBody, Text.leadingBlanks_append blank visible]
      exact body?_rootChunk_of_unclosed framed blank
        ((ends_or_staysInside delimiter _ _).resolve_left unclosed)

/-! ## All other texts -/

/-- The two traces that a stretch outside all others leaves are never lost. -/
structure Scan.Remembers (scan next : Scan) : Prop where
  solitary : scan.solitary = false → next.solitary = false
  first : ∀ delimiter, scan.first = some delimiter → next.first = some delimiter

theorem Scan.remembers_stepInside (scan : Scan) (innermost : Delimiter) (c : Char) :
    scan.Remembers (scan.stepInside innermost c) := by
  unfold stepInside
  split
  · exact ⟨id, fun _ => id⟩
  · split <;> exact ⟨id, fun _ => id⟩

theorem Scan.remembers_of_stepOutside {scan next : Scan} {c : Char}
    (stepped : scan.stepOutside c = some next) : scan.Remembers next := by
  unfold stepOutside at stepped
  split at stepped
  · cases stepped
    exact ⟨fun loose => by simp [loose], fun _ opened => by simp [opened]⟩
  · split at stepped
    · contradiction
    · cases stepped
      exact ⟨fun loose => by simp [loose], fun _ => id⟩

theorem Scan.remembers_of_step {scan next : Scan} {recovers : Bool} {c : Char}
    (stepped : scan.step recovers c = some next) : scan.Remembers next := by
  unfold step at stepped
  split at stepped
  · cases stepped
    exact ⟨id, fun _ => id⟩
  · split at stepped
    · exact remembers_of_stepOutside stepped
    · split at stepped
      · cases stepped
        exact ⟨id, fun _ => id⟩
      · split at stepped
        · split at stepped
          · cases stepped
            exact ⟨id, fun _ => id⟩
          · cases stepped
            exact remembers_stepInside _ _ _
        · cases stepped
          exact remembers_stepInside _ _ _

/-- What has made a scan unframed is never forgotten. -/
theorem Scan.Unframed.step {scan next : Scan} (unframed : scan.Unframed) {recovers : Bool}
    {c : Char} (stepped : scan.step recovers c = some next) : next.Unframed := by
  have remembers := remembers_of_step stepped
  rcases unframed with loose | ⟨delimiter, first, different⟩
  · exact .inl (remembers.solitary loose)
  · exact .inr ⟨delimiter, remembers.first delimiter first, different⟩

theorem Scan.Unframed.run {scan : Scan} (unframed : scan.Unframed) (recovery : Option Int)
    (position : Nat) (text : Text) : (Scan.run recovery position scan text).2.Unframed := by
  induction text generalizing scan position with
  | nil => exact unframed
  | cons c rest induct =>
      rw [Scan.run]
      split
      · exact unframed
      · rename_i next stepped
        exact induct (unframed.step stepped) (position + 1)

/-- Outside all delimiters a visible character other than a comma shows that there is no frame,
unless it is the brace or the bracket that opens the first stretch. -/
theorem unframed_run_cons {scan : Scan} (unescaped : scan.escaped = false)
    (outside : scan.pending = []) {c : Char} (visible : isBlank c = false) (comma : c ≠ ',')
    (cause : scan.first.isSome ∨ c ≠ '{' ∧ c ≠ '[') (position : Nat) (rest : Text) :
    (run none position scan (c :: rest)).2.Unframed := by
  have ready : scan.Ready := ⟨unescaped, by rw [outside]; simp⟩
  have next : ∃ next : Scan, scan.step (recoversAt none position) c = some next ∧
      next.Unframed := by
    cases opens : Delimiter.opening? c with
    | none =>
        refine ⟨_, step_outside unescaped outside _ opens comma, .inl ?_⟩
        simp only [visible, Bool.and_false]
    | some delimiter =>
        obtain rfl := Delimiter.eq_opener_of_opening? opens
        refine ⟨_, step_opener ready _ delimiter, ?_⟩
        rcases cause with opened | ⟨noBrace, noBracket⟩
        · refine .inl ?_
          rw [enter, Scan.behind, outside]
          simp [Option.isNone_eq_false_iff.mpr opened]
        · have shows : ShowsItself (delimiter.opener :: rest) :=
            ⟨_, rest, rfl, visible, noBrace, noBracket⟩
          exact Unframed.behind outside (.inr shows)
  obtain ⟨next, stepped, unframed⟩ := next
  rw [run, stepped]
  exact unframed.run none (position + 1) rest

/-- Behind the first stretch a visible character in front of the first comma shows that there is
no frame. -/
theorem unframed_run_of_visible {scan : Scan} (ready : scan.Ready) (outside : scan.pending = [])
    (opened : scan.first.isSome) {text : Text}
    (visible : Text.isBlank (text.takeWhile (· != ',')) = false) (position : Nat) :
    (run none position scan text).2.Unframed := by
  obtain ⟨blanks, c, rest, blank, cVisible, front⟩ := exists_visible visible
  have comma : c ≠ ',' := by
    have member : c ∈ text.takeWhile (· != ',') := by
      rw [front]
      simp
    simpa using List.all_eq_true.mp List.all_takeWhile c member
  rw [← @List.takeWhile_append_dropWhile _ (· != ',') text, front, List.append_assoc,
    run_append_of_pass (pass_blanks blank none position ready)]
  exact unframed_run_cons ready.unescaped outside cVisible comma (.inl opened) _ _

/-- A text that starts with an opener is surrounded by its delimiter or unframed. -/
theorem surrounds_or_unframed_of_opener {blanks : Text} (blank : blanks.isBlank) (rest : Text) :
    (∃ body, Surrounds delimiter (blanks ++ delimiter.opener :: rest) body) ∨
      (run none 0 {} (blanks ++ delimiter.opener :: rest)).2.Unframed := by
  by_cases ends : delimiter.Ends rest
  · obtain ⟨inner, behind, rfl, encloses⟩ := ends
    cases clean : Text.isBlank (behind.takeWhile (· != ',')) with
    | true => exact .inl ⟨inner, .closed blank encloses clean⟩
    | false =>
        have passed := @pass_container none 0 {} delimiter blanks inner [] blank rfl ready_start
          (encloses.closes _)
        have whole : blanks ++ delimiter.opener :: (inner ++ delimiter.closer :: behind) =
            blanks ++ delimiter.opener :: inner ++ [delimiter.closer] ++ behind := by
          simp
        rw [whole, run_append_of_pass passed]
        exact .inr (unframed_run_of_visible (ready_start.behind delimiter) rfl rfl clean _)
  · exact .inl ⟨rest, .unclosed blank ends⟩

/-- A text that no brace and no bracket surrounds is no frame. -/
theorem surrounds_or_unframed (text : Text) :
    (∃ delimiter body, (delimiter = .brace ∨ delimiter = .bracket) ∧
        Surrounds delimiter text body) ∨
      (run none 0 {} text).2.frame? = none := by
  cases visible : text.isBlank with
  | true =>
      have passed := run_append_of_pass (pass_blanks visible none 0 ready_start) []
      rw [List.append_nil] at passed
      exact .inr (by rw [passed]; rfl)
  | false =>
      obtain ⟨blanks, c, rest, blank, cVisible, rfl⟩ := exists_visible visible
      have passed := run_append_of_pass (pass_blanks blank none 0 ready_start) (c :: rest)
      by_cases comma : c = ','
      · subst comma
        exact .inr (by rw [passed]; rfl)
      by_cases framing : c = '{' ∨ c = '['
      · obtain ⟨delimiter, framed, rfl⟩ : ∃ delimiter : Delimiter,
            (delimiter = .brace ∨ delimiter = .bracket) ∧ c = delimiter.opener := by
          rcases framing with rfl | rfl
          · exact ⟨.brace, .inl rfl, rfl⟩
          · exact ⟨.bracket, .inr rfl, rfl⟩
        rcases @surrounds_or_unframed_of_opener delimiter _ blank rest with
          ⟨body, surrounds⟩ | unframed
        · exact .inl ⟨delimiter, body, framed, surrounds⟩
        · exact .inr unframed.frame?_eq_none
      · have unframed := @unframed_run_cons {} rfl rfl c cVisible comma
          (.inr (not_or.mp framing)) (0 + blanks.length) rest
        rw [← passed] at unframed
        exact .inr unframed.frame?_eq_none

/-! ## The root of the tree -/

/-- A root with a body is surrounded by the delimiter around the body. -/
theorem surrounds_of_body?_rootChunk {inside : Source}
    (found : (rootChunk text).body? = some (delimiter, inside)) :
    Surrounds delimiter text inside.raw := by
  rcases surrounds_or_unframed text with ⟨other, body, framed, surrounds⟩ | noFrame
  · have same := body?_rootChunk_of_surrounds framed surrounds
    rw [found, Option.some.injEq, Prod.mk.injEq] at same
    rcases same with ⟨rfl, rfl⟩
    exact surrounds
  · rw [rootChunk_of_run (Prod.eta _).symm, Chunk.body?, noFrame] at found
    contradiction

theorem parse_of_surrounds_brace {caret : Int} (absent : caret < 0)
    (surrounds : Surrounds .brace text body) :
    parse text caret = .object (rootChunk text).raw 0 none
      (surroundedBody text body).propertyNodes.1 := by
  have found := body?_rootChunk_of_surrounds (.inl rfl) surrounds
  rw [parse_of_no_caret absent, Chunk.node_of_body?_eq_brace found]
  exact congrArg (Node.object _ _ · _) (Source.index_eq_none _ _ rfl)

theorem parse_of_surrounds_bracket {caret : Int} (absent : caret < 0)
    (surrounds : Surrounds .bracket text body) :
    parse text caret = .array (rootChunk text).raw 0 none
      (surroundedBody text body).valueNodes.1 := by
  have found := body?_rootChunk_of_surrounds (.inr rfl) surrounds
  rw [parse_of_no_caret absent, Chunk.node_of_body?_eq_bracket found]
  exact congrArg (Node.array _ _ · _) (Source.index_eq_none _ _ rfl)

/-- Without a caret the root is an object exactly if braces surround the text, and an array exactly
if square brackets do. Its elements are then read from the body that is surrounded, and from no
other text. -/
theorem parse_iff_surrounds {text : Text} {caret : Int} (absent : caret < 0) :
    ((∃ raw start cursor properties, parse text caret = .object raw start cursor properties) ↔
        ∃ body, Surrounds .brace text body) ∧
      ((∃ raw start cursor values, parse text caret = .array raw start cursor values) ↔
        ∃ body, Surrounds .bracket text body) ∧
      (∀ body, Surrounds .brace text body →
        (rootChunk text).body? = some (.brace, surroundedBody text body) ∧
          parse text caret = .object (rootChunk text).raw 0 none
            (surroundedBody text body).propertyNodes.1) ∧
      ∀ body, Surrounds .bracket text body →
        (rootChunk text).body? = some (.bracket, surroundedBody text body) ∧
          parse text caret = .array (rootChunk text).raw 0 none
            (surroundedBody text body).valueNodes.1 := by
  refine ⟨⟨?_, ?_⟩, ⟨?_, ?_⟩, ?_, ?_⟩
  · rintro ⟨raw, start, cursor, properties, looked⟩
    rw [parse_of_no_caret absent] at looked
    obtain ⟨inside, found, _⟩ := Chunk.exists_of_node_eq_object looked
    exact ⟨inside.raw, surrounds_of_body?_rootChunk found⟩
  · rintro ⟨body, surrounds⟩
    exact ⟨_, _, _, _, parse_of_surrounds_brace absent surrounds⟩
  · rintro ⟨raw, start, cursor, values, looked⟩
    rw [parse_of_no_caret absent] at looked
    obtain ⟨delimiter, inside, found, noBrace, _⟩ := Chunk.exists_of_node_eq_array looked
    have lies : (rootChunk text).Lies text 0 :=
      (Source.Lies.takeValue ⟨Nat.zero_le 0, .whole text⟩).1
    obtain rfl := (lies.delimiter found).resolve_left noBrace
    exact ⟨inside.raw, surrounds_of_body?_rootChunk found⟩
  · rintro ⟨body, surrounds⟩
    exact ⟨_, _, _, _, parse_of_surrounds_bracket absent surrounds⟩
  · intro body surrounds
    exact ⟨body?_rootChunk_of_surrounds (.inl rfl) surrounds,
      parse_of_surrounds_brace absent surrounds⟩
  · intro body surrounds
    exact ⟨body?_rootChunk_of_surrounds (.inr rfl) surrounds,
      parse_of_surrounds_bracket absent surrounds⟩

/-- The closers of other brackets mean nothing between two braces. -/
theorem surrounds_strayClosers :
    Surrounds .brace [' ', '{', ')', ']', '}', ' ', ',', 'a'] [')', ']'] := by
  have encloses : Delimiter.brace.Encloses [')', ']'] :=
    .plain rfl rfl (by decide) (.plain rfl rfl (by decide) (.nil rfl))
  exact @Surrounds.closed .brace [' '] [')', ']'] [' ', ',', 'a'] rfl encloses rfl

/-- A text whose braces hold stray closers is an object. -/
theorem parse_iff_surrounds_strayClosers :
    (-1 : Int) < 0 ∧
      ∃ raw start cursor properties,
        parse [' ', '{', ')', ']', '}', ' ', ',', 'a'] (-1) =
          .object raw start cursor properties := by
  have absent : (-1 : Int) < 0 := by
    decide
  exact ⟨absent, (parse_iff_surrounds absent).1.mpr ⟨_, surrounds_strayClosers⟩⟩

end Typeahead.Selector

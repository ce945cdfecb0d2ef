import Typeahead.Selector.Source
import Typeahead.Text.Escape
import Typeahead.Proofs.Text.Trim

/-!
# Balanced texts

In a balanced text each quote is closed and each bracket has its closer. The texts are described
by a grammar that knows nothing of the scan. Inside brackets the scan comes out of a balanced
text as it went in. Outside all brackets it comes out with nothing pending, if the text keeps its
commas inside brackets and quotes.

A scan that recovers reads a closer inside quotes as the end of the brackets around them, so it
comes out of those balanced texts that have no quotes.
-/

namespace Typeahead.Selector

/-! ## The grammar -/

/-- What may stand between two quotes: a backslash takes away the meaning of the character
behind it. -/
inductive Quoted (quote : Char) : Text → Prop
  | nil : Quoted quote []
  | plain {c : Char} {rest : Text} :
      c ≠ quote → c ≠ '\\' → Quoted quote rest → Quoted quote (c :: rest)
  | escaped {c : Char} {rest : Text} : Quoted quote rest → Quoted quote ('\\' :: c :: rest)

/-- A text with closed quotes and matched brackets. Commas may stand outside all quotes and
brackets only if `commas`. -/
inductive Balanced : Bool → Text → Prop
  | nil {commas : Bool} : Balanced commas []
  | plain {commas : Bool} {c : Char} {rest : Text} :
      Delimiter.opening? c = none → Delimiter.closing? c = none → (c = ',' → commas = true) →
        Balanced commas rest → Balanced commas (c :: rest)
  | quoted {commas : Bool} {delimiter : Delimiter} {inner rest : Text} :
      delimiter.isQuote = true → Quoted delimiter.closer inner → Balanced commas rest →
        Balanced commas (delimiter.opener :: inner ++ delimiter.closer :: rest)
  | bracketed {commas : Bool} {delimiter : Delimiter} {inner rest : Text} :
      delimiter.isQuote = false → Balanced true inner → Balanced commas rest →
        Balanced commas (delimiter.opener :: inner ++ delimiter.closer :: rest)

/-! ## Delimiters -/

namespace Delimiter

@[simp]
theorem opening?_opener (delimiter : Delimiter) : opening? delimiter.opener = some delimiter := by
  cases delimiter <;> rfl

@[simp]
theorem closing?_opener (delimiter : Delimiter) : closing? delimiter.opener = none := by
  cases delimiter <;> rfl

theorem closing?_closer {delimiter : Delimiter} (bracket : delimiter.isQuote = false) :
    closing? delimiter.closer = some delimiter := by
  cases delimiter <;> first | rfl | contradiction

theorem closer_eq_opener {delimiter : Delimiter} (quote : delimiter.isQuote = true) :
    delimiter.closer = delimiter.opener := by
  cases delimiter <;> first | rfl | contradiction

theorem isBlank_opener (delimiter : Delimiter) : isBlank delimiter.opener = false := by
  cases delimiter <;> rfl

theorem isBlank_closer (delimiter : Delimiter) : isBlank delimiter.closer = false := by
  cases delimiter <;> rfl

theorem backslash_ne_closer (delimiter : Delimiter) : '\\' ≠ delimiter.closer := by
  cases delimiter <;> decide

theorem eq_opener_of_opening? {c : Char} {delimiter : Delimiter}
    (opens : opening? c = some delimiter) : c = delimiter.opener := by
  have holds := List.find?_some opens
  exact (beq_iff_eq.mp holds).symm

theorem eq_closer_of_closing? {c : Char} {delimiter : Delimiter}
    (closes : closing? c = some delimiter) : c = delimiter.closer := by
  have holds := List.find?_some closes
  exact (beq_iff_eq.mp holds).symm

theorem isQuote_opener (delimiter : Delimiter) :
    Typeahead.isQuote delimiter.opener = delimiter.isQuote := by
  cases delimiter <;> rfl

/-- The closer of a bracket opens nothing and closes no other bracket. -/
theorem opener_ne_closer {delimiter innermost : Delimiter} (bracket : innermost.isQuote = false) :
    delimiter.opener ≠ innermost.closer := by
  cases delimiter <;> cases innermost <;> first | decide | contradiction

theorem opening?_of_isBlank {c : Char} (blank : isBlank c = true) : opening? c = none := by
  cases found : opening? c with
  | none => rfl
  | some delimiter =>
      rw [eq_opener_of_opening? found] at blank
      cases delimiter <;> contradiction

theorem closing?_of_isBlank {c : Char} (blank : isBlank c = true) : closing? c = none := by
  cases found : closing? c with
  | none => rfl
  | some delimiter =>
      rw [eq_closer_of_closing? found] at blank
      cases delimiter <;> contradiction

end Delimiter

/-! ## Single characters -/

namespace Scan

/-- The scan stands outside all quotes, and no backslash is in front. -/
structure Ready (scan : Scan) : Prop where
  unescaped : scan.escaped = false
  unquoted : ∀ delimiter ∈ scan.pending.head?, delimiter.isQuote = false

/-- The scan behind a stretch between delimiters. Only a stretch outside all others leaves a
trace. -/
def behind (scan : Scan) (delimiter : Delimiter) : Scan :=
  match scan.pending with
  | [] =>
      { scan with
        first := scan.first.or (some delimiter)
        solitary := scan.solitary && scan.first.isNone }
  | _ :: _ => scan

/-- The scan behind an opener. -/
def enter (scan : Scan) (delimiter : Delimiter) : Scan :=
  { scan.behind delimiter with pending := delimiter :: scan.pending }

@[simp]
theorem behind_pending (scan : Scan) (delimiter : Delimiter) :
    (scan.behind delimiter).pending = scan.pending := by
  unfold behind
  split <;> rfl

@[simp]
theorem behind_escaped (scan : Scan) (delimiter : Delimiter) :
    (scan.behind delimiter).escaped = scan.escaped := by
  unfold behind
  split <;> rfl

@[simp]
theorem enter_pending (scan : Scan) (delimiter : Delimiter) :
    (scan.enter delimiter).pending = delimiter :: scan.pending :=
  rfl

@[simp]
theorem enter_escaped (scan : Scan) (delimiter : Delimiter) :
    (scan.enter delimiter).escaped = scan.escaped :=
  scan.behind_escaped delimiter

theorem behind_of_pending_ne_nil {scan : Scan} (inside : scan.pending ≠ [])
    (delimiter : Delimiter) : scan.behind delimiter = scan := by
  unfold behind
  split
  · contradiction
  · rfl

theorem Ready.behind {scan : Scan} (ready : scan.Ready) (delimiter : Delimiter) :
    (scan.behind delimiter).Ready where
  unescaped := by rw [behind_escaped, ready.unescaped]
  unquoted := by rw [behind_pending]; exact ready.unquoted

theorem Ready.unescaped_enter {scan : Scan} (ready : scan.Ready) (delimiter : Delimiter) :
    (scan.enter delimiter).escaped = false := by
  rw [enter_escaped, ready.unescaped]

theorem Ready.enter {scan : Scan} (ready : scan.Ready) {delimiter : Delimiter}
    (bracket : delimiter.isQuote = false) : (scan.enter delimiter).Ready where
  unescaped := ready.unescaped_enter delimiter
  unquoted := by
    intro innermost found
    rw [enter_pending, List.head?_cons, Option.mem_def, Option.some.injEq] at found
    rw [← found]
    exact bracket

theorem step_opener {scan : Scan} (ready : scan.Ready) (recovers : Bool)
    (delimiter : Delimiter) :
    scan.step recovers delimiter.opener = some (scan.enter delimiter) := by
  rcases scan with ⟨pending, escaped, first, solitary⟩
  rcases ready with ⟨unescaped, unquoted⟩
  simp only at unescaped unquoted
  subst unescaped
  cases pending with
  | nil => simp [step, stepOutside, enter, behind]
  | cons innermost outer =>
      have bracket : innermost.isQuote = false := unquoted innermost rfl
      have opens : delimiter.opener ≠ innermost.closer := Delimiter.opener_ne_closer bracket
      simp [step, stepInside, enter, behind, opens, bracket]

theorem step_closer {scan : Scan} {delimiter : Delimiter} {outer : List Delimiter}
    (unescaped : scan.escaped = false) (pending : scan.pending = delimiter :: outer)
    (recovers : Bool) :
    scan.step recovers delimiter.closer = some { scan with pending := outer } := by
  simp [step, unescaped, pending]

/-- Inside brackets a character that opens and closes nothing leaves the scan as it is. -/
theorem step_plain {scan : Scan} (ready : scan.Ready) (inside : scan.pending ≠ [])
    (recovers : Bool) {c : Char} (opens : Delimiter.opening? c = none)
    (closes : Delimiter.closing? c = none) : scan.step recovers c = some scan := by
  rcases scan with ⟨pending, escaped, first, solitary⟩
  rcases ready with ⟨unescaped, unquoted⟩
  simp only at unescaped unquoted
  subst unescaped
  cases pending with
  | nil => contradiction
  | cons innermost outer =>
      have bracket : innermost.isQuote = false := unquoted innermost rfl
      have other : c ≠ innermost.closer := by
        rintro rfl
        rw [Delimiter.closing?_closer bracket] at closes
        contradiction
      simp [step, stepInside, other, bracket, opens, closes]

/-- Outside all delimiters a character that opens nothing and is no comma can only make the
passed part less of a frame. -/
theorem step_outside {scan : Scan} (unescaped : scan.escaped = false)
    (outside : scan.pending = []) (recovers : Bool) {c : Char}
    (opens : Delimiter.opening? c = none) (comma : c ≠ ',') :
    scan.step recovers c = some { scan with solitary := scan.solitary && isBlank c } := by
  rcases scan with ⟨pending, escaped, first, solitary⟩
  simp only at unescaped outside
  simp [step, stepOutside, unescaped, outside, opens, comma]

/-- Inside quotes a character other than the quote only tells whether it is a backslash, unless
the scan recovers at it. -/
theorem step_quoted {scan : Scan} {quote : Delimiter} {outer : List Delimiter}
    (unescaped : scan.escaped = false) (pending : scan.pending = quote :: outer)
    (isQuote : quote.isQuote = true) (recovers : Bool) {c : Char} (other : c ≠ quote.closer)
    (kept : recovers = false ∨ Delimiter.closing? c = none) :
    scan.step recovers c = some { scan with escaped := c == '\\' } := by
  rcases kept with rfl | closes
  · simp [step, stepInside, unescaped, pending, isQuote, other]
  · simp [step, stepInside, unescaped, pending, isQuote, other, closes]

/-! ## Whole texts -/

/-- Before the boundary of a recovery nothing recovers. -/
theorem recoversAt_of_late {recovery : Option Int} {position : Nat}
    (late : ∀ boundary ∈ recovery, (position : Int) < boundary) :
    recoversAt recovery position = recoversAt none position := by
  cases recovery with
  | none => rfl
  | some boundary =>
      have behind := late boundary rfl
      simp only [recoversAt, Option.any_some, Option.any_none, decide_eq_false_iff_not]
      omega

/-- Pass all characters of a text from a position on; no comma outside all delimiters may end
the value before. -/
def pass (recovery : Option Int) : Nat → Scan → Text → Option Scan
  | _, scan, [] => some scan
  | position, scan, c :: rest =>
      (scan.step (recoversAt recovery position) c).bind fun next =>
        pass recovery (position + 1) next rest

@[simp]
theorem pass_nil (recovery : Option Int) (position : Nat) (scan : Scan) :
    pass recovery position scan [] = some scan :=
  rfl

theorem pass_cons_of_step {recovery : Option Int} {position : Nat} {scan next : Scan} {c : Char}
    (stepped : scan.step (recoversAt recovery position) c = some next) (rest : Text) :
    pass recovery position scan (c :: rest) = pass recovery (position + 1) next rest := by
  rw [pass, stepped, Option.bind_some]

theorem pass_append {recovery : Option Int} {position : Nat} {scan next : Scan} {first : Text}
    (passed : pass recovery position scan first = some next) (second : Text) :
    pass recovery position scan (first ++ second) =
      pass recovery (position + first.length) next second := by
  induction first generalizing position scan with
  | nil =>
      cases passed
      rfl
  | cons c rest induct =>
      rw [pass] at passed
      rcases Option.bind_eq_some_iff.mp passed with ⟨middle, stepped, passed⟩
      rw [List.cons_append, pass_cons_of_step stepped, induct passed, List.length_cons,
        Nat.add_assoc, Nat.add_comm 1]

/-- The scan of a text goes on behind a part that it passes. -/
theorem run_append_of_pass {recovery : Option Int} {position : Nat} {scan next : Scan}
    {first : Text} (passed : pass recovery position scan first = some next) (second : Text) :
    run recovery position scan (first ++ second) =
      run recovery (position + first.length) next second := by
  induction first generalizing position scan with
  | nil =>
      cases passed
      rfl
  | cons c rest induct =>
      rw [pass] at passed
      rcases Option.bind_eq_some_iff.mp passed with ⟨middle, stepped, passed⟩
      rw [List.cons_append, run, stepped, List.length_cons]
      simp only
      rw [induct passed, Nat.add_assoc, Nat.add_comm 1]

/-- Inside brackets a scan comes out of a text as it went in. -/
def Neutral (recovery : Option Int) (position : Nat) (text : Text) : Prop :=
  ∀ scan : Scan, scan.Ready → scan.pending ≠ [] → pass recovery position scan text = some scan

/-- A scan that enters a delimiter in front of a text comes out of it behind its closer. -/
def Closes (recovery : Option Int) (position : Nat) (delimiter : Delimiter) (body : Text) :
    Prop :=
  ∀ scan : Scan, scan.Ready →
    pass recovery position (scan.enter delimiter) (body ++ [delimiter.closer]) =
      some (scan.behind delimiter)

theorem neutral_nil (recovery : Option Int) (position : Nat) : Neutral recovery position [] :=
  fun _ _ _ => rfl

theorem Neutral.append {recovery : Option Int} {position : Nat} {first second : Text}
    (left : Neutral recovery position first)
    (right : Neutral recovery (position + first.length) second) :
    Neutral recovery position (first ++ second) := by
  intro scan ready inside
  rw [pass_append (left scan ready inside)]
  exact right scan ready inside

theorem neutral_singleton (recovery : Option Int) (position : Nat) {c : Char}
    (opens : Delimiter.opening? c = none) (closes : Delimiter.closing? c = none) :
    Neutral recovery position [c] := by
  intro scan ready inside
  rw [pass_cons_of_step (step_plain ready inside _ opens closes), pass_nil]

/-- Behind its closer a scan is as if it had not entered the delimiter. -/
theorem step_closer_enter {scan : Scan} (ready : scan.Ready) (delimiter : Delimiter)
    (recovers : Bool) :
    (scan.enter delimiter).step recovers delimiter.closer = some (scan.behind delimiter) := by
  have unescaped := ready.unescaped_enter delimiter
  rw [step_closer unescaped rfl]
  rcases scan with ⟨pending, escaped, first, solitary⟩
  cases pending <;> rfl

theorem Neutral.closes {recovery : Option Int} {position : Nat} {delimiter : Delimiter}
    {body : Text} (neutral : Neutral recovery position body)
    (bracket : delimiter.isQuote = false) : Closes recovery position delimiter body := by
  intro scan ready
  have inner := neutral (scan.enter delimiter) (ready.enter bracket) (by simp)
  rw [pass_append inner, pass_cons_of_step (step_closer_enter ready delimiter _), pass_nil]

/-- A stretch between delimiters leaves a trace only outside all others. -/
theorem pass_enclosed {recovery : Option Int} {position : Nat} {scan : Scan} (ready : scan.Ready)
    {delimiter : Delimiter} {body : Text} (closes : Closes recovery (position + 1) delimiter body) :
    pass recovery position scan (delimiter.opener :: body ++ [delimiter.closer]) =
      some (scan.behind delimiter) := by
  rw [List.cons_append, pass_cons_of_step (step_opener ready _ delimiter)]
  exact closes scan ready

theorem Closes.neutral {recovery : Option Int} {position : Nat} {delimiter : Delimiter}
    {body : Text} (closes : Closes recovery (position + 1) delimiter body) :
    Neutral recovery position (delimiter.opener :: body ++ [delimiter.closer]) := by
  intro scan ready inside
  rw [pass_enclosed ready closes, behind_of_pending_ne_nil inside]

/-- Blanks leave a scan as it is, also outside all delimiters. -/
theorem pass_blanks {blanks : Text} (blank : blanks.isBlank) (recovery : Option Int)
    (position : Nat) {scan : Scan} (ready : scan.Ready) :
    pass recovery position scan blanks = some scan := by
  induction blanks generalizing position with
  | nil => rfl
  | cons c rest induct =>
      have here : isBlank c = true := Text.forall_isBlank blank c List.mem_cons_self
      have later : Text.isBlank rest := List.all_eq_true.mpr fun other member =>
        Text.forall_isBlank blank other (List.mem_cons_of_mem c member)
      have opens := Delimiter.opening?_of_isBlank here
      have stepped : scan.step (recoversAt recovery position) c = some scan := by
        by_cases inside : scan.pending = []
        · have comma : c ≠ ',' := by
            rintro rfl
            contradiction
          rw [step_outside ready.unescaped inside _ opens comma, here, Bool.and_true]
        · exact step_plain ready inside _ opens (Delimiter.closing?_of_isBlank here)
      rw [pass_cons_of_step stepped]
      exact induct later (position + 1)

theorem neutral_blanks {blanks : Text} (blank : blanks.isBlank) (recovery : Option Int)
    (position : Nat) : Neutral recovery position blanks :=
  fun _ ready _ => pass_blanks blank recovery position ready

end Scan

/-! ## Balanced texts -/

open Scan

/-- Without recovery a scan passes what stands between two quotes. -/
theorem Quoted.pass {quote : Delimiter} (isQuote : quote.isQuote = true) {inner : Text}
    (quoted : Quoted quote.closer inner) (position : Nat) {scan : Scan} {outer : List Delimiter}
    (unescaped : scan.escaped = false) (pending : scan.pending = quote :: outer) :
    scan.pass none position inner = some scan := by
  induction quoted generalizing position with
  | nil => rfl
  | @plain c rest other ordinary _ induct =>
      have stepped :=
        step_quoted unescaped pending isQuote (recoversAt none position) other (.inl rfl)
      have same : { scan with escaped := c == '\\' } = scan := by
        rcases scan with ⟨pending, escaped, first, solitary⟩
        simp_all
      rw [same] at stepped
      rw [pass_cons_of_step stepped]
      exact induct (position + 1)
  | @escaped c rest _ induct =>
      have other := quote.backslash_ne_closer
      have stepped :=
        step_quoted unescaped pending isQuote (recoversAt none position) other (.inl rfl)
      rw [pass_cons_of_step stepped]
      have passed : ({ scan with escaped := true } : Scan).step
          (recoversAt none (position + 1)) c = some scan := by
        rcases scan with ⟨pending, escaped, first, solitary⟩
        simp_all [step]
      rw [show ('\\' == '\\') = true from rfl, pass_cons_of_step passed]
      exact induct (position + 2)

theorem Quoted.closes {quote : Delimiter} (isQuote : quote.isQuote = true) {inner : Text}
    (quoted : Quoted quote.closer inner) (position : Nat) :
    Closes none position quote inner := by
  intro scan ready
  have unescaped := ready.unescaped_enter quote
  rw [pass_append (quoted.pass isQuote position unescaped rfl),
    pass_cons_of_step (step_closer_enter ready quote _), pass_nil]

/-- The spelling of a name between quotes of either kind. -/
theorem quoted_escape {quote : Char} (isQuote : isQuote quote = true) (name : Text) :
    Quoted quote name.escape := by
  induction name with
  | nil => exact .nil
  | cons c rest induct =>
      rw [Text.escape]
      split
      · exact .escaped induct
      · rename_i plain
        refine .plain ?_ ?_ induct
        · rintro rfl
          exact plain (by simp [needsBackslash, isQuote])
        · rintro rfl
          exact plain rfl

/-- A recovery that reads a text like a plain scan: none, or any if the text has no quotes. -/
def Undisturbed (recovery : Option Int) (text : Text) : Prop :=
  recovery = none ∨ ∀ c ∈ text, isQuote c = false

theorem Undisturbed.mono {recovery : Option Int} {first second : Text}
    (undisturbed : Undisturbed recovery second) (within : ∀ c ∈ first, c ∈ second) :
    Undisturbed recovery first :=
  undisturbed.imp_right fun unquoted c member => unquoted c (within c member)

theorem Balanced.neutral {commas : Bool} {text : Text} (balanced : Balanced commas text)
    {recovery : Option Int} (undisturbed : Undisturbed recovery text) (position : Nat) :
    Neutral recovery position text := by
  induction balanced generalizing position with
  | nil => exact neutral_nil recovery position
  | @plain commas c rest opens closes _ _ induct =>
      have later := undisturbed.mono fun other member => List.mem_cons_of_mem c member
      exact (neutral_singleton recovery position opens closes).append (induct later _)
  | @quoted commas delimiter inner rest isQuote quoted _ induct =>
      have later : Undisturbed recovery rest := undisturbed.mono (by simp +contextual)
      rcases undisturbed with rfl | unquoted
      · have here := (quoted.closes isQuote (position + 1)).neutral.append (induct later _)
        simpa using here
      · have absent := unquoted delimiter.opener (by simp)
        rw [Delimiter.isQuote_opener, isQuote] at absent
        contradiction
  | @bracketed commas delimiter inner rest bracket _ _ inside behind =>
      have body := inside (undisturbed.mono (by simp +contextual)) (position + 1)
      have later := behind (undisturbed.mono (by simp +contextual))
      have here := (body.closes bracket).neutral.append (later _)
      simpa using here

/-! ## Outside all delimiters -/

/-- What has been passed is not one pair of braces or brackets with blanks around it. -/
def Scan.Unframed (scan : Scan) : Prop :=
  scan.solitary = false ∨
    ∃ delimiter, scan.first = some delimiter ∧ delimiter ≠ .brace ∧ delimiter ≠ .bracket

/-- A text that cannot be mistaken for an object or an array, by its first character. -/
def ShowsItself (text : Text) : Prop :=
  ∃ c rest, text = c :: rest ∧ isBlank c = false ∧ c ≠ '{' ∧ c ≠ '['

namespace Scan.Unframed

variable {scan : Scan}

theorem frame?_eq_none (unframed : scan.Unframed) : scan.frame? = none := by
  unfold frame?
  rcases unframed with loose | ⟨delimiter, first, noBrace, noBracket⟩
  · rw [loose]
  · rw [first]
    cases delimiter <;> simp_all

/-- A stretch outside all others keeps a scan unframed, and so does one that shows itself. -/
theorem behind (outside : scan.pending = []) {delimiter : Delimiter} {rest : Text}
    (cause : scan.Unframed ∨ ShowsItself (delimiter.opener :: rest)) :
    (scan.behind delimiter).Unframed := by
  simp only [Unframed, Scan.behind, outside]
  rcases cause with (loose | ⟨other, first, different⟩) | ⟨c, more, begins, _, noBrace, noBracket⟩
  · exact .inl (by simp [loose])
  · exact .inr ⟨other, by simp [first], different⟩
  · rcases List.cons_eq_cons.mp begins with ⟨rfl, _⟩
    cases first : scan.first with
    | none =>
        refine .inr ⟨delimiter, by simp, ?_, ?_⟩ <;> rintro rfl
        · exact noBrace rfl
        · exact noBracket rfl
    | some other => exact .inl (by simp)

end Scan.Unframed

/-- A balanced text without commas outside its brackets and quotes leaves nothing pending. It
leaves the scan unframed if the scan was so before, or if the text shows itself. -/
theorem Balanced.pass_outside {text : Text} (balanced : Balanced false text)
    {recovery : Option Int} (undisturbed : Undisturbed recovery text) (position : Nat)
    (scan : Scan) (unescaped : scan.escaped = false) (outside : scan.pending = [])
    (cause : scan.Unframed ∨ ShowsItself text) :
    ∃ next, scan.pass recovery position text = some next ∧
      next.escaped = false ∧ next.pending = [] ∧ next.Unframed := by
  have ready {scan : Scan} (unescaped : scan.escaped = false) (outside : scan.pending = []) :
      scan.Ready := ⟨unescaped, by rw [outside]; simp⟩
  -- The text behind a stretch has no commas outside either, but the stretch itself may have them.
  obtain ⟨commas, flag⟩ : ∃ commas, false = commas := ⟨_, rfl⟩
  rw [flag] at balanced
  induction balanced generalizing position scan with
  | nil =>
      rcases cause with unframed | ⟨c, rest, begins, _⟩
      · exact ⟨scan, rfl, unescaped, outside, unframed⟩
      · contradiction
  | @plain commas c rest opens _ comma _ induct =>
      have ordinary : c ≠ ',' := by
        intro same
        exact absurd (flag.trans (comma same)) Bool.false_ne_true
      rw [pass_cons_of_step (step_outside unescaped outside _ opens ordinary)]
      refine induct (undisturbed.mono (by simp +contextual)) _ _ unescaped outside (.inl ?_) flag
      rcases cause with (loose | first) | ⟨d, more, begins, visible, _⟩
      · exact .inl (by simp [loose])
      · exact .inr first
      · rcases List.cons_eq_cons.mp begins with ⟨rfl, _⟩
        exact .inl (by simp [visible])
  | @quoted commas delimiter inner rest isQuote quoted _ induct =>
      have later : Undisturbed recovery rest := undisturbed.mono (by simp +contextual)
      rcases undisturbed with rfl | unquoted
      · have here := pass_enclosed (ready unescaped outside)
          (quoted.closes isQuote (position + 1))
        obtain ⟨next, passed, after⟩ := induct later
          (position + (delimiter.opener :: inner ++ [delimiter.closer]).length) _
          ((behind_escaped scan delimiter).trans unescaped)
          ((behind_pending scan delimiter).trans outside)
          (.inl (Unframed.behind outside cause)) flag
        refine ⟨next, ?_, after⟩
        rw [← passed, ← pass_append here]
        simp
      · have absent := unquoted delimiter.opener (by simp)
        rw [Delimiter.isQuote_opener, isQuote] at absent
        contradiction
  | @bracketed commas delimiter inner rest bracket balanced _ _ induct =>
      have body := balanced.neutral (undisturbed.mono (by simp +contextual)) (position + 1)
      have here := pass_enclosed (ready unescaped outside) (body.closes bracket)
      obtain ⟨next, passed, after⟩ := induct (undisturbed.mono (by simp +contextual))
        (position + (delimiter.opener :: inner ++ [delimiter.closer]).length) _
        ((behind_escaped scan delimiter).trans unescaped)
        ((behind_pending scan delimiter).trans outside)
        (.inl (Unframed.behind outside cause)) flag
      refine ⟨next, ?_, after⟩
      rw [← passed, ← pass_append here]
      simp

end Typeahead.Selector

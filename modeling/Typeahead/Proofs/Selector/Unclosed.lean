import Typeahead.Proofs.Selector.Context

/-!
# Quotes that are not closed yet

While the last element of a container is typed as a quoted text, its quote is still open, and the
plain scan runs with it to the end of the text, in the container and in all containers around it.
The scan that recovers closes the quote at the closer of the container. On each level it starts
from a caret of its own, which lies behind the quote, so that from there on nothing is left of the
quote and every container ends where it ends without the quote.
-/

namespace Typeahead.Selector

open Scan

/-- A text that may stand behind a quote without closing it, and without a closer at which a scan
would recover too early. -/
structure IsUnclosed (quote : Delimiter) (typed : Text) : Prop where
  quotes : quote.isQuote = true
  kept : ∀ c ∈ typed, c ≠ quote.closer ∧ c ≠ '\\' ∧ Delimiter.closing? c = none

/-- The leaf with a quote that is not closed. -/
def unclosedLeaf (before : Text) (quote : Delimiter) (typed after : Text) : Written :=
  .atom before (quote.opener :: typed) after

variable {quote : Delimiter} {typed before after : Text}

theorem IsUnclosed.append_blanks (unclosed : IsUnclosed quote typed) (blank : after.isBlank) :
    IsUnclosed quote (typed ++ after) where
  quotes := unclosed.quotes
  kept := by
    intro c member
    rcases List.mem_append.mp member with front | back
    · exact unclosed.kept c front
    · have isBlank := Text.forall_isBlank blank c back
      refine ⟨?_, ?_, Delimiter.closing?_of_isBlank isBlank⟩
      · rintro rfl
        cases quote <;> contradiction
      · rintro rfl
        contradiction

/-! ## Scanning the open quote -/

/-- Behind the quote a scan stays inside it, also where it recovers. -/
theorem IsUnclosed.pass (unclosed : IsUnclosed quote typed) (recovery : Option Int)
    (position : Nat) {scan : Scan} {outer : List Delimiter} (unescaped : scan.escaped = false)
    (pending : scan.pending = quote :: outer) :
    scan.pass recovery position typed = some scan := by
  rcases unclosed with ⟨quotes, kept⟩
  induction typed generalizing position with
  | nil => rfl
  | cons c rest induct =>
      obtain ⟨other, ordinary, closes⟩ := kept c List.mem_cons_self
      have stepped := step_quoted unescaped pending quotes (recoversAt recovery position) other
        (.inr closes)
      have same : { scan with escaped := c == '\\' } = scan := by
        rcases scan with ⟨pending, escaped, first, solitary⟩
        simp_all
      rw [same] at stepped
      rw [pass_cons_of_step stepped]
      exact induct (position + 1) fun d member => kept d (List.mem_cons_of_mem c member)

/-- A scan enters the quote and does not leave it. -/
theorem IsUnclosed.pass_leaf (unclosed : IsUnclosed quote typed) (blankBefore : before.isBlank)
    (blankAfter : after.isBlank) (recovery : Option Int) (position : Nat) {scan : Scan}
    (ready : scan.Ready) :
    scan.pass recovery position (unclosedLeaf before quote typed after).text =
      some (scan.enter quote) := by
  have unescaped := ready.unescaped_enter quote
  rw [unclosedLeaf, Written.text, List.append_assoc,
    pass_append (pass_blanks blankBefore recovery position ready), List.cons_append,
    pass_cons_of_step (step_opener ready _ quote)]
  exact (unclosed.append_blanks blankAfter).pass recovery _ unescaped rfl

/-- Without recovery a quote that never comes again stays pending up to the end. -/
theorem run_pending_of_quote {text : Text} (absent : ∀ c ∈ text, c ≠ quote.closer)
    (quotes : quote.isQuote = true) (position : Nat) {scan : Scan} {outer : List Delimiter}
    (pending : scan.pending = quote :: outer) :
    (run none position scan text).2.pending = quote :: outer := by
  induction text generalizing position scan with
  | nil => exact pending
  | cons c rest induct =>
      have later := fun d member => absent d (List.mem_cons_of_mem c member)
      have other : c ≠ quote.closer := absent c List.mem_cons_self
      cases escaped : scan.escaped with
      | true =>
          have stepped : scan.step (recoversAt none position) c =
              some { scan with escaped := false } := by
            rw [step, escaped, if_pos rfl]
          rw [run, stepped]
          exact induct later (position + 1) pending
      | false =>
          have stepped := step_quoted escaped pending quotes (recoversAt none position) other
            (.inl rfl)
          rw [run, stepped]
          exact induct later (position + 1) pending

/-- A scan that recovers at the closer of a bracket leaves the bracket and the quote in it. -/
theorem step_closer_of_quote {scan : Scan} (ready : scan.Ready) {delimiter : Delimiter}
    (notQuote : delimiter.isQuote = false) (quotes : quote.isQuote = true) :
    ((scan.enter delimiter).enter quote).step true delimiter.closer =
      some (scan.behind delimiter) := by
  have unescaped : ((scan.enter delimiter).enter quote).escaped = false := by
    rw [enter_escaped, enter_escaped, ready.unescaped]
  have other : delimiter.closer ≠ quote.closer := by
    cases delimiter <;> cases quote <;> first | decide | contradiction
  have closed : closeThrough delimiter (delimiter :: scan.pending) = scan.pending := by
    simp [closeThrough]
  rw [step, unescaped, if_neg Bool.false_ne_true, enter_pending]
  simp only [other, if_false, if_true, Delimiter.closing?_closer notQuote, enter_pending, closed]
  rcases scan with ⟨pending, escaped, first, solitary⟩
  obtain rfl : escaped = false := ready.unescaped
  cases pending <;> rfl

/-! ## The innermost container -/

variable {last : Layer}

/-- The closer of the container closes the quote with it, if the scan recovers there. -/
theorem IsUnclosed.closes (unclosed : IsUnclosed quote typed) (blankBefore : before.isBlank)
    (blankAfter : after.isBlank) (wellFormed : last.WellFormed) (isLast : last.IsLast)
    (unquoted : ∀ c ∈ last.opening, isQuote c = false) {recovery : Int} {position : Nat}
    (reaches : recovery ≤
      position + (last.body (unclosedLeaf before quote typed after).text).length) :
    Closes (some recovery) position last.delimiter
      (last.body (unclosedLeaf before quote typed after).text) := by
  intro scan ready
  have inside := ready.enter last.delimiter_isQuote
  have calm : Undisturbed (some recovery) last.opening := .inr unquoted
  have opening := wellFormed.neutral_opening calm position _ inside (List.cons_ne_nil _ _)
  have leaf := unclosed.pass_leaf blankBefore blankAfter (some recovery)
    (position + last.opening.length) inside
  have body : last.body (unclosedLeaf before quote typed after).text =
      last.opening ++ (unclosedLeaf before quote typed after).text := by
    rw [Layer.body, isLast, continued, List.append_nil]
  have passed := (pass_append opening (unclosedLeaf before quote typed after).text).trans leaf
  rw [body] at reaches ⊢
  rw [pass_append passed]
  have recovers : recoversAt (some recovery) (position +
      (last.opening ++ (unclosedLeaf before quote typed after).text).length) = true := by
    simpa [recoversAt] using reaches
  have stepped := step_closer_of_quote ready last.delimiter_isQuote unclosed.quotes
  rw [← recovers] at stepped
  rw [pass_cons_of_step stepped, pass_nil]

/-- The leaf is taken from its source up to the end, with or without recovery. -/
theorem IsUnclosed.yields_leaf (unclosed : IsUnclosed quote typed) (blankBefore : before.isBlank)
    (blankAfter : after.isBlank) {source : Source}
    (raw : source.raw = (unclosedLeaf before quote typed after).text) :
    source.Yields (unclosedLeaf before quote typed after) false := by
  have unescaped : (({} : Scan).enter quote).escaped = false := rfl
  have scanned (recovery : Option Int) : source.scanFrom recovery =
      ((unclosedLeaf before quote typed after).text.length, ({} : Scan).enter quote) := by
    have passed := unclosed.pass_leaf blankBefore blankAfter recovery 0 ready_start
    rw [Source.scanFrom, raw, ← List.append_nil (unclosedLeaf before quote typed after).text,
      run_append_of_pass passed, run, unescaped, Nat.zero_add, List.append_nil]
    rfl
  have found : source.scanValue =
      ((unclosedLeaf before quote typed after).text.length, ({} : Scan).enter quote) := by
    rw [Source.scanValue, scanned none]
    split
    · rfl
    · exact scanned source.caret
  have frame : (({} : Scan).enter quote).frame? = none := by
    have quotes := unclosed.quotes
    cases quote <;> first | rfl | contradiction
  constructor
  · have begins : source.raw = (unclosedLeaf before quote typed after).text ++ continued none := by
      rw [raw, continued, List.append_nil]
    exact source.takeValue_of_scanValue begins found frame
  · exact Written.node_chunk_atom _ _ _ _ _ _

/-! ## All containers around the quote -/

/-- A tree that is well-formed and without quotes around the last element of one container, which
is an open quote. -/
structure OpenQuote (layers : List Layer) (last : Layer) (before : Text) (quote : Delimiter)
    (typed after : Text) : Prop where
  unclosed : IsUnclosed quote typed
  blankBefore : before.isBlank
  blankAfter : after.isBlank
  outer : ∀ layer ∈ layers, layer.WellFormed
  inner : last.WellFormed
  isLast : last.IsLast
  unquoted : ∀ c ∈ ahead layers ++ last.leading ++ last.trailing ++ behind layers,
    isQuote c = false

/-- The tree with an open quote as the last element of a container. -/
def damaged (layers : List Layer) (last : Layer) (before : Text) (quote : Delimiter)
    (typed after : Text) : Written :=
  filled layers (last.plug (unclosedLeaf before quote typed after))

/-- The scan that comes to the hole of a context is ready for what fills it. -/
theorem exists_pass_ahead {layers : List Layer} (wellFormed : ∀ layer ∈ layers, layer.WellFormed)
    (position : Nat) {scan : Scan} (ready : scan.Ready) :
    ∃ next, scan.pass none position (ahead layers) = some next ∧ next.Ready := by
  induction layers generalizing position scan with
  | nil => exact ⟨scan, rfl, ready⟩
  | cons layer others induct =>
      have here := (wellFormed layer List.mem_cons_self).pass_leading (.inl rfl) position ready
      obtain ⟨next, passed, after⟩ := induct
        (fun other member => wellFormed other (List.mem_cons_of_mem _ member))
        (position + layer.leading.length) (ready.enter layer.delimiter_isQuote)
      refine ⟨next, ?_, after⟩
      rw [ahead, pass_append here]
      exact passed

namespace OpenQuote

variable {layers : List Layer}

theorem tail {layer : Layer}
    (openQuote : OpenQuote (layer :: layers) last before quote typed after) :
    OpenQuote layers last before quote typed after :=
  { openQuote with
    outer := fun other member => openQuote.outer other (List.mem_cons_of_mem _ member)
    unquoted := by
      intro c member
      refine openQuote.unquoted c ?_
      simp only [ahead, behind, List.mem_append] at member ⊢
      rcases member with ((front | leading) | trailing) | back
      · exact .inl (.inl (.inl (.inr front)))
      · exact .inl (.inl (.inr leading))
      · exact .inl (.inr trailing)
      · exact .inr (.inl back) }

/-- From a caret behind the quote each container is read to its own closer. -/
theorem reads (openQuote : OpenQuote layers last before quote typed after) {recovery : Int}
    {position : Nat}
    (reaches : recovery ≤ position + (ahead layers ++ last.leading ++
      (unclosedLeaf before quote typed after).text).length) :
    Reads (some recovery) position (damaged layers last before quote typed after).text
      (damaged layers last before quote typed after).frame? := by
  induction layers generalizing position with
  | nil =>
      have opening : ∀ c ∈ last.opening, isQuote c = false := fun c member =>
        openQuote.unquoted c (by simp [Layer.leading, member])
      refine openQuote.inner.reads_plug ?_
      refine openQuote.unclosed.closes openQuote.blankBefore openQuote.blankAfter openQuote.inner
        openQuote.isLast opening ?_
      simp only [ahead, Layer.leading, Layer.body, List.length_append, List.length_cons,
        List.length_nil] at reaches ⊢
      omega
  | cons layer others induct =>
      -- The quote swallows no closer of an inner container, since the scan recovers behind it.
      have wellFormed := openQuote.outer layer List.mem_cons_self
      have reachesRest : recovery ≤ (position + layer.leading.length : Nat) +
          (ahead others ++ last.leading ++
            (unclosedLeaf before quote typed after).text).length := by
        simp only [ahead, List.length_append] at reaches ⊢
        omega
      have rest := induct openQuote.tail reachesRest
      have calmOpening : Undisturbed (some recovery) layer.opening :=
        .inr fun c member => openQuote.unquoted c (by simp [ahead, Layer.leading, member])
      have calmMore : Undisturbed (some recovery) (continued layer.more?) :=
        .inr fun c member => openQuote.unquoted c (by simp [behind, Layer.trailing, member])
      have opening := wellFormed.neutral_opening calmOpening (position + layer.before.length + 1)
      have more := wellFormed.neutral_more calmMore
      have start : position + layer.before.length + 1 + layer.opening.length =
          position + layer.leading.length := by
        simp only [Layer.leading, List.length_append, List.length_cons]
        omega
      refine wellFormed.reads_plug (Neutral.closes ?_ layer.delimiter_isQuote)
      refine (opening.append ?_).append (more _)
      rw [start]
      exact rest.1

/-- The plain scan runs with the quote to the end, if the quote never comes again. -/
theorem pending (openQuote : OpenQuote layers last before quote typed after) {rest : Text}
    (unquotedRest : ∀ c ∈ rest, isQuote c = false) :
    (run none 0 {} ((damaged layers last before quote typed after).text ++ rest)).2.pending ≠
      [] := by
  obtain ⟨next, passed, ready⟩ := exists_pass_ahead openQuote.outer 0 ready_start
  have leading := openQuote.inner.pass_leading (.inl rfl) (0 + (ahead layers).length) ready
  have leaf := openQuote.unclosed.pass_leaf openQuote.blankBefore openQuote.blankAfter none
    (0 + (ahead layers).length + last.leading.length) (ready.enter last.delimiter_isQuote)
  have absent : ∀ c ∈ last.trailing ++ behind layers ++ rest, c ≠ quote.closer := by
    rintro c member rfl
    have plain : isQuote quote.closer = false := by
      rcases List.mem_append.mp member with inside | outside
      · exact openQuote.unquoted _ (by
          simp only [List.mem_append] at inside ⊢
          rcases inside with trailing | back
          · exact .inl (.inr trailing)
          · exact .inr back)
      · exact unquotedRest _ outside
    rw [Delimiter.closer_eq_opener openQuote.unclosed.quotes, Delimiter.isQuote_opener,
      openQuote.unclosed.quotes] at plain
    contradiction
  rw [damaged, text_filled, Layer.text_plug]
  simp only [List.append_assoc]
  rw [run_append_of_pass passed, run_append_of_pass leading, run_append_of_pass leaf,
    ← List.append_assoc,
    run_pending_of_quote absent openQuote.unclosed.quotes _ (enter_pending _ quote)]
  exact List.cons_ne_nil _ _

variable {source : Source} {more? : Option Text} {position : Nat}

/-- A container around the quote is taken up to its end, if the caret is not behind the innermost
container. -/
theorem takeValue (openQuote : OpenQuote layers last before quote typed after)
    (raw : source.raw =
      (damaged layers last before quote typed after).text ++ continued more?)
    (unquotedMore : ∀ c ∈ continued more?, isQuote c = false)
    (caret : source.caret = some (position : Int))
    (reaches : position ≤ (ahead layers ++ last.leading ++
      (unclosedLeaf before quote typed after).text).length) :
    source.takeValue =
      ((damaged layers last before quote typed after).chunk source.start source.caret
          more?.isSome,
        source.advance ((damaged layers last before quote typed after).text.length + 1)) := by
  have plain : (source.scanFrom none).2.pending ≠ [] := by
    rw [Source.scanFrom, raw]
    exact openQuote.pending unquotedMore
  have covered : (position : Int) ≤ (0 : Nat) + (ahead layers ++ last.leading ++
      (unclosedLeaf before quote typed after).text).length := by
    omega
  obtain ⟨next, passed, finds⟩ := (openQuote.reads covered).2
  have scanned : source.scanValue =
      ((damaged layers last before quote typed after).text.length, next) := by
    rw [Source.scanValue]
    simp only [List.isEmpty_iff, plain, caret, Option.isNone_some, Bool.or_false, if_false]
    rw [Source.scanFrom, raw, run_of_finds passed finds]
  exact source.takeValue_of_scanValue raw scanned finds.frame

theorem not_isBlank_leaf : (unclosedLeaf before quote typed after).text.isBlank = false :=
  Text.not_isBlank_of_mem (by simp [unclosedLeaf, Written.text]) quote.isBlank_opener

/-- A container around the quote is looked into as it is described, if the caret is behind the
quote and not behind the innermost container. -/
theorem yields (openQuote : OpenQuote layers last before quote typed after)
    (raw : source.raw =
      (damaged layers last before quote typed after).text ++ continued more?)
    (unquotedMore : ∀ c ∈ continued more?, isQuote c = false)
    (caret : source.caret = some (position : Int))
    (behindQuote : (ahead layers ++ last.leading ++ before).length < position)
    (reaches : position ≤ (ahead layers ++ last.leading ++
      (unclosedLeaf before quote typed after).text).length) :
    source.Yields (damaged layers last before quote typed after) more?.isSome := by
  refine ⟨openQuote.takeValue raw unquotedMore caret reaches, ?_⟩
  induction layers generalizing source more? position with
  | nil =>
      refine openQuote.inner.node_plug not_isBlank_leaf ?_ _
      rw [openQuote.isLast]
      refine openQuote.unclosed.yields_leaf openQuote.blankBefore openQuote.blankAfter ?_
      rw [Layer.hole, openQuote.isLast, continued, List.append_nil]
  | cons layer others induct =>
      have wellFormed := openQuote.outer layer List.mem_cons_self
      have visible : (damaged others last before quote typed after).text.isBlank = false :=
        not_isBlank_filled (last.not_isBlank_plug _)
      have calm : ∀ c ∈ continued layer.more?, isQuote c = false := fun c member =>
        openQuote.unquoted c (by simp [behind, Layer.trailing, member])
      have low : (ahead others ++ last.leading ++ before).length <
          position - layer.leading.length := by
        simp only [ahead, List.length_append] at behindQuote ⊢
        omega
      have high : position - layer.leading.length ≤ (ahead others ++ last.leading ++
          (unclosedLeaf before quote typed after).text).length := by
        simp only [ahead, List.length_append] at reaches ⊢
        omega
      have inside : position - layer.leading.length ≤
          (damaged others last before quote typed after).text.length := by
        apply Nat.le_trans high
        rw [damaged, text_filled, Layer.text_plug]
        simp only [List.length_append]
        omega
      have hole : (layer.hole (damaged others last before quote typed after) source.start
          source.caret).caret = some ((position - layer.leading.length : Nat) : Int) := by
        rw [Layer.hole, Caret.into_eq_some_iff, caret]
        simp only [List.length_append, Option.some.injEq]
        omega
      have rest := openQuote.tail.takeValue rfl calm hole high
      exact wellFormed.node_plug visible
        ⟨rest, induct openQuote.tail rfl calm hole low high⟩ more?.isSome

/-- What is read for the damaged tree shows the quote as a leaf, and all around it as it was. -/
theorem outline_node (openQuote : OpenQuote layers last before quote typed after) (start : Nat)
    (caret : Caret) (comma : Bool) :
    ((damaged layers last before quote typed after).node start caret comma).outline =
      outlineAround layers (last.outlineAround (.leaf (Text.value (quote.opener :: typed)))) := by
  induction layers generalizing start caret comma with
  | nil =>
      refine openQuote.inner.outline_node_plug (fun start caret => ?_) start caret comma
      rw [openQuote.isLast, unclosedLeaf, Written.node, Node.outline, Written.text, commaText,
        Option.isSome_none, if_neg Bool.false_ne_true, List.append_nil,
        Text.value_padded openQuote.blankBefore openQuote.blankAfter]
  | cons layer others induct =>
      have wellFormed := openQuote.outer layer List.mem_cons_self
      exact wellFormed.outline_node_plug
        (fun start caret => induct openQuote.tail start caret layer.more?.isSome) start caret comma

end OpenQuote

/-- In a well-formed text without quotes let the last element of a container be replaced by a quote
that is not closed. With the caret anywhere behind the quote and not behind the container, the text
is read with the quote as a leaf; all else is read as before. -/
theorem outline_parse_unclosed {layers : List Layer} {last : Layer} {element : Written}
    (wellFormed : (filled layers (last.plug element)).WellFormed)
    (visible : element.text.isBlank = false) (isLast : last.IsLast)
    (unquoted : ∀ c ∈ (filled layers (last.plug element)).text, isQuote c = false)
    {quote : Delimiter} {typed before after : Text} (unclosed : IsUnclosed quote typed)
    (blankBefore : before.isBlank) (blankAfter : after.isBlank) {caret : Int}
    (behindQuote : (ahead layers ++ last.leading ++ before).length < caret)
    (reaches : caret ≤ (ahead layers ++ last.leading ++ before ++
      quote.opener :: typed ++ after).length) :
    (parse (damaged layers last before quote typed after).text caret).outline =
        outlineAround layers (last.outlineAround (.leaf (Text.value (quote.opener :: typed)))) ∧
      ∀ position, (parse (filled layers (last.plug element)).text position).outline =
        outlineAround layers (last.outlineAround element.outline) := by
  constructor
  · obtain ⟨outer, innermost⟩ := wellFormed_of_filled wellFormed (last.not_isBlank_plug element)
    obtain ⟨inner, _⟩ := Layer.wellFormed_of_plug innermost visible
    have openQuote : OpenQuote layers last before quote typed after :=
      { unclosed, blankBefore, blankAfter, outer, inner, isLast
        unquoted := by
          intro c member
          refine unquoted c ?_
          rw [text_filled, Layer.text_plug]
          simp only [List.mem_append] at member ⊢
          rcases member with ((front | leading) | trailing) | back
          · exact .inl (.inl front)
          · exact .inl (.inr (.inl (.inl leading)))
          · exact .inl (.inr (.inr trailing))
          · exact .inr back }
    have positive : ¬caret < 0 := by omega
    have known : textCaret caret = some ((caret.toNat : Nat) : Int) := by
      rw [textCaret, if_neg positive, Int.toNat_of_nonneg (Int.not_lt.mp positive)]
    have low : (ahead layers ++ last.leading ++ before).length < caret.toNat := by omega
    have high : caret.toNat ≤ (ahead layers ++ last.leading ++
        (unclosedLeaf before quote typed after).text).length := by
      simp only [unclosedLeaf, Written.text, List.length_append] at reaches ⊢
      omega
    have yields : (Source.mk (damaged layers last before quote typed after).text 0
        (textCaret caret)).Yields (damaged layers last before quote typed after) false :=
      @openQuote.yields _ _ _ _ _ _ _ none _ (by rw [continued, List.append_nil])
        (by simp [continued]) known low high
    rw [parse_of_yields yields, openQuote.outline_node]
  · intro position
    rw [outline_parse wellFormed, outline_filled, Layer.outline_plug]

/-- A quote in an array in an object, with the caret behind its first letter. -/
theorem outline_parse_unclosed_nested :
    (parse "\x7ba: [1, 'x, y ], c: 3\x7d".toList 10).outline =
      .object [(some "a", .array [.leaf "1", .leaf "'x, y"]), (some "c", .leaf "3")] := by
  have leaf {c : Char} (opens : Delimiter.opening? c = none) (closes : Delimiter.closing? c = none)
      (comma : c ≠ ',') (begins : ShowsItself [c]) {before : Text} (blank : before.isBlank) :
      (Written.atom before [c] []).WellFormed := by
    refine .atom blank rfl (.inr ⟨.plain opens closes (absurd · comma) .nil, begins, ?_⟩)
    rcases begins with ⟨_, _, same, visible, _⟩
    rcases List.cons_eq_cons.mp same with ⟨rfl, _⟩
    simp [visible]
  have label {c : Char} (visible : isBlank c = false) (plain : Delimiter.opening? c = none ∧
      Delimiter.closing? c = none ∧ c ≠ ':') : (Label.bare [c]).WellFormed :=
    .bare visible (by simpa using plain)
  have one : (Written.atom [] ['1'] []).WellFormed :=
    leaf rfl rfl (by decide) ⟨'1', [], rfl, rfl, by decide, by decide⟩ rfl
  have two : (Written.atom [' '] ['2'] []).WellFormed :=
    leaf rfl rfl (by decide) ⟨'2', [], rfl, rfl, by decide, by decide⟩ rfl
  have three : (Written.atom [' '] ['3'] []).WellFormed :=
    leaf rfl rfl (by decide) ⟨'3', [], rfl, rfl, by decide, by decide⟩ rfl
  have array : (Written.array [' '] [.atom [] ['1'] [], .atom [' '] ['2'] []] none
      []).WellFormed := by
    refine .array rfl rfl (by simp) ?_ ?_
    · simp only [List.mem_cons, List.not_mem_nil, or_false]
      rintro value (rfl | rfl) <;> rfl
    · simp only [List.mem_cons, List.not_mem_nil, or_false]
      rintro value (rfl | rfl)
      · exact one
      · exact two
  have whole : (filled [.property [] [] ⟨[], .bare ['a'], [], true⟩
      [(⟨[' '], .bare ['c'], [], true⟩, .atom [' '] ['3'] [])] none []]
      (Layer.plug (.value [' '] [.atom [] ['1'] []] [] none [])
        (.atom [' '] ['2'] []))).WellFormed := by
    refine .object rfl rfl (by simp) ⟨⟨rfl, label rfl (by decide), rfl⟩, by simp,
      ⟨rfl, label rfl (by decide), rfl⟩, by simp, trivial⟩ ?_
    simp only [List.nil_append, List.mem_cons, List.not_mem_nil, or_false]
    rintro property (rfl | rfl)
    · exact array
    · exact three
  have unclosed : IsUnclosed .apostrophe ['x', ',', ' ', 'y'] := by
    refine ⟨rfl, ?_⟩
    simp only [List.mem_cons, List.not_mem_nil, or_false]
    rintro c (rfl | rfl | rfl | rfl) <;> decide
  have blank : Text.isBlank [' '] := rfl
  have unquoted := List.all_eq_true.mp
    (show ("\x7ba: [1, 2], c: 3\x7d".toList.all fun c => !isQuote c) = true from rfl)
  simp only [Bool.not_eq_true'] at unquoted
  exact (@outline_parse_unclosed _ _ _ whole rfl rfl unquoted _ _ _ _ unclosed blank blank 10
    (by decide) (by decide)).1

end Typeahead.Selector

import Mathlib.Data.List.Forall2
import Mathlib.Data.List.TakeWhile
import Typeahead.Proofs.Text.Trim

/-!
# The span of a value as a pattern

The value in a raw span is cut out in two ways. One way trims the span, drops one comma and trims
again. The other way matches the span with a pattern: blanks, then any characters, and then blanks
around a comma that may be absent. The pieces of a pattern take their characters from left to right,
as many or as few as possible, and give some back or take more where the rest does not match. The
two ways find the same value.
-/

namespace Typeahead.Text

/-! ## Patterns -/

/-- A piece of a pattern: characters of a class, as many or as few as possible, or one character
that may be absent. -/
inductive Piece where
  | most (accepts : Char → Bool)
  | fewest (accepts : Char → Bool)
  | optional (c : Char)

/-- The lengths that a piece can take from a text, in the order in which they are tried. -/
def Piece.lengths (text : Text) : Piece → List Nat
  | most accepts => (List.range ((text.takeWhile accepts).length + 1)).reverse
  | fewest accepts => List.range ((text.takeWhile accepts).length + 1)
  | optional c => if text.head? = some c then [1, 0] else [0]

/-- The ways in which a pattern takes a text, in the order in which they are tried. At the end of
the text a line break may be left. -/
def ways : List Piece → Text → List (List Text)
  | [], rest => if rest = [] ∨ rest = ['\n'] then [[]] else []
  | piece :: more, text =>
      (piece.lengths text).flatMap fun length =>
        (ways more (text.drop length)).map (text.take length :: ·)

/-- What the pieces of a pattern take from a text: the first way that leads to the end. -/
def firstWay? (pattern : List Piece) (text : Text) : Option (List Text) :=
  (ways pattern text).head?

theorem firstWay?_cons (piece : Piece) (more : List Piece) (text : Text) :
    firstWay? (piece :: more) text =
      (piece.lengths text).findSome? fun length =>
        (firstWay? more (text.drop length)).map (text.take length :: ·) := by
  simp only [firstWay?, ways, List.head?_flatMap, List.head?_map]

/-- What a piece of a pattern may take. -/
def Piece.Takes : Piece → Text → Prop
  | most accepts, taken | fewest accepts, taken => ∀ c ∈ taken, accepts c = true
  | optional c, taken => taken = [] ∨ taken = [c]

theorem Piece.takes_of_mem_lengths {piece : Piece} {text : Text} {length : Nat}
    (tried : length ∈ piece.lengths text) : piece.Takes (text.take length) := by
  have accepted {accepts : Char → Bool} (short : length < (text.takeWhile accepts).length + 1) :
      ∀ c ∈ text.take length, accepts c = true := by
    intro c member
    have begins : text.take length <+: text.takeWhile accepts := by
      have inside := List.take_prefix_take_left (l := text) (Nat.le_of_lt_succ short)
      rwa [← List.prefix_iff_eq_take.mp (List.takeWhile_prefix accepts)] at inside
    exact List.all_eq_true.mp List.all_takeWhile c (begins.subset member)
  cases piece with
  | most accepts =>
      rw [lengths, List.mem_reverse, List.mem_range] at tried
      exact accepted tried
  | fewest accepts =>
      rw [lengths, List.mem_range] at tried
      exact accepted tried
  | optional c =>
      rw [lengths] at tried
      split at tried
      · rename_i first
        obtain ⟨rest, rfl⟩ := List.head?_eq_some_iff.mp first
        rcases List.mem_pair.mp tried with rfl | rfl
        · exact .inr rfl
        · exact .inl rfl
      · rw [List.mem_singleton.mp tried]
        exact .inl rfl

/-- Whatever is tried, the pieces take the text from its start, up to a line break at the end. -/
theorem takes_of_mem_ways {pattern : List Piece} {text : Text} {taken : List Text}
    (way : taken ∈ ways pattern text) :
    List.Forall₂ Piece.Takes pattern taken ∧
      ∃ ending, (ending = [] ∨ ending = ['\n']) ∧ text = taken.flatten ++ ending := by
  induction pattern generalizing text taken with
  | nil =>
      rw [ways] at way
      split at way
      · rename_i ends
        rw [List.mem_singleton.mp way]
        exact ⟨.nil, text, ends, rfl⟩
      · contradiction
  | cons piece more inductionHypothesis =>
      obtain ⟨length, tried, later⟩ := List.mem_flatMap.mp way
      obtain ⟨others, follows, rfl⟩ := List.mem_map.mp later
      obtain ⟨takes, ending, ends, whole⟩ := inductionHypothesis follows
      refine ⟨.cons (Piece.takes_of_mem_lengths tried) takes, ending, ends, ?_⟩
      rw [List.flatten_cons, List.append_assoc, ← whole, List.take_append_drop]

/-! ## The order in which lengths are tried -/

/-- A piece takes as many characters as it can, if the rest of the pattern matches then. -/
theorem firstWay?_most {accepts : Char → Bool} {more : List Piece} {text : Text}
    {taken : List Text} (rest : firstWay? more (text.dropWhile accepts) = some taken) :
    firstWay? (.most accepts :: more) text = some (text.takeWhile accepts :: taken) := by
  have split := @List.takeWhile_append_dropWhile _ accepts text
  have behind : text.drop (text.takeWhile accepts).length = text.dropWhile accepts := by
    nth_rewrite 2 [← split]
    exact List.drop_left
  have front : text.take (text.takeWhile accepts).length = text.takeWhile accepts := by
    exact (List.prefix_iff_eq_take.mp (List.takeWhile_prefix accepts)).symm
  rw [firstWay?_cons, Piece.lengths, List.range_succ, List.reverse_append, List.reverse_singleton,
    List.singleton_append, List.findSome?_cons, behind, rest, front]
  rfl

/-- A piece takes the least number of characters with which the rest of the pattern matches. -/
theorem firstWay?_fewest {accepts : Char → Bool} {more : List Piece} {text front back : Text}
    {taken : List Text} (whole : text = front ++ back) (accepted : ∀ c ∈ front, accepts c = true)
    (rest : firstWay? more back = some taken)
    (none : ∀ shorter < front.length, firstWay? more (text.drop shorter) = none) :
    firstWay? (.fewest accepts :: more) text = some (front :: taken) := by
  have bound : front.length ≤ (text.takeWhile accepts).length := by
    rw [whole, List.takeWhile_append_of_pos accepted, List.length_append]
    exact Nat.le_add_right _ _
  obtain ⟨further, enough⟩ := Nat.exists_eq_add_of_le bound
  have lengths : List.range ((text.takeWhile accepts).length + 1) =
      List.range front.length ++ front.length ::
        (List.range further).map (front.length + · + 1) := by
    rw [enough, Nat.add_assoc, List.range_add, List.range_succ_eq_map]
    simp [Nat.add_assoc]
  have before : (List.range front.length).findSome? (fun length =>
      (firstWay? more (text.drop length)).map (text.take length :: ·)) = Option.none := by
    rw [List.findSome?_eq_none_iff]
    intro shorter member
    rw [none shorter (List.mem_range.mp member), Option.map_none]
  rw [firstWay?_cons, Piece.lengths, lengths, List.findSome?_append, before, Option.none_or,
    List.findSome?_cons, whole, List.drop_left, rest, List.take_left]
  rfl

/-! ## Blanks around a comma -/

/-- Blanks around a comma that may be absent. -/
def IsGap (text : Text) : Prop :=
  ∃ before comma after : Text, before.isBlank ∧ (comma = [] ∨ comma = [',']) ∧ after.isBlank ∧
    text = before ++ comma ++ after

/-- The pattern for blanks around a comma that may be absent. -/
def gapPattern : List Piece :=
  [.most Typeahead.isBlank, .optional ',', .most Typeahead.isBlank]

/-- Blanks are taken as a whole. -/
theorem firstWay?_blanks {blanks : Text} (blank : blanks.isBlank) :
    firstWay? [.most Typeahead.isBlank] blanks = some [blanks] := by
  have ends : firstWay? [] (blanks.dropWhile Typeahead.isBlank) = some [] := by
    rw [List.dropWhile_eq_nil_iff.mpr (forall_isBlank blank)]
    rfl
  rw [firstWay?_most ends, List.takeWhile_eq_self_iff.mpr (forall_isBlank blank)]

/-- A gap is taken as a whole. -/
theorem exists_firstWay?_gap {text : Text} (gap : IsGap text) :
    ∃ before comma after : Text, firstWay? gapPattern text = some [before, comma, after] ∧
      before ++ comma ++ after = text := by
  obtain ⟨before, comma, after, blankBefore, rfl | rfl, blankAfter, rfl⟩ := gap
  · rw [List.append_nil]
    have blank : isBlank (before ++ after) := by
      rw [isBlank_append, blankBefore, blankAfter]
      rfl
    have rest : firstWay? [.optional ',', .most Typeahead.isBlank]
        ((before ++ after).dropWhile Typeahead.isBlank) = some [[], []] := by
      rw [List.dropWhile_eq_nil_iff.mpr (forall_isBlank blank)]
      rfl
    refine ⟨before ++ after, [], [], ?_, ?_⟩
    · rw [gapPattern, firstWay?_most rest,
        List.takeWhile_eq_self_iff.mpr (forall_isBlank blank)]
    · rw [List.append_nil, List.append_nil]
  · have visible : (before ++ [','] ++ after).dropWhile Typeahead.isBlank = ',' :: after := by
      rw [List.append_assoc, List.dropWhile_append_of_pos (forall_isBlank blankBefore)]
      rfl
    have taken : (before ++ [','] ++ after).takeWhile Typeahead.isBlank = before := by
      rw [List.append_assoc, List.takeWhile_append_of_pos (forall_isBlank blankBefore)]
      exact List.append_nil before
    have rest : firstWay? [.optional ',', .most Typeahead.isBlank]
        ((before ++ [','] ++ after).dropWhile Typeahead.isBlank) = some [[','], after] := by
      rw [visible, firstWay?_cons, Piece.lengths, List.head?_cons, if_pos rfl, List.findSome?_cons,
        List.drop_one, List.tail_cons, firstWay?_blanks blankAfter]
      rfl
    refine ⟨before, [','], after, ?_, rfl⟩
    rw [gapPattern, firstWay?_most rest, taken]

/-- What is no gap is not taken at all. A line break that may be left at the end is blank. -/
theorem firstWay?_gap_eq_none {text : Text} (noGap : ¬IsGap text) :
    firstWay? gapPattern text = none := by
  rw [Option.eq_none_iff_forall_not_mem]
  intro taken first
  obtain ⟨takes, ending, ends, rfl⟩ := takes_of_mem_ways (List.mem_of_head? first)
  obtain ⟨before, _, blankBefore, fromComma, rfl⟩ := List.forall₂_cons_left_iff.mp takes
  obtain ⟨comma, _, isComma, behindComma, rfl⟩ := List.forall₂_cons_left_iff.mp fromComma
  obtain ⟨after, _, blankAfter, nothing, rfl⟩ := List.forall₂_cons_left_iff.mp behindComma
  obtain rfl := List.forall₂_nil_left_iff.mp nothing
  have blankEnding : isBlank (after ++ ending) := by
    rw [isBlank_append, isBlank, List.all_eq_true.mpr blankAfter]
    rcases ends with rfl | rfl <;> rfl
  exact noGap ⟨before, comma, after ++ ending, List.all_eq_true.mpr blankBefore, isComma,
    blankEnding, by simp⟩

/-! ## The value -/

/-- Behind its value a raw span has a gap. -/
theorem exists_isGap_behind_value (raw : Text) :
    ∃ gap, IsGap gap ∧ trimLeft raw = value raw ++ gap := by
  obtain ⟨after, blankAfter, whole⟩ := exists_trimRight_append (trimLeft raw)
  rw [← trim] at whole
  by_cases comma : (trim raw).getLast? = some ','
  · obtain ⟨front, ends⟩ := List.getLast?_eq_some_iff.mp comma
    obtain ⟨before, blankBefore, kept⟩ := exists_trimRight_append front
    refine ⟨before ++ [','] ++ after, ?_, ?_⟩
    · exact ⟨before, [','], after, blankBefore, .inr rfl, blankAfter, rfl⟩
    · rw [value, if_pos comma, ends, List.dropLast_concat, ← whole, ends]
      nth_rewrite 1 [← kept]
      simp
  · refine ⟨after, ⟨[], [], after, rfl, .inl rfl, blankAfter, rfl⟩, ?_⟩
    rw [value, if_neg comma, whole]

/-- No beginning with a gap behind it is shorter than the value. -/
theorem value_length_le_of_isGap {raw front gap : Text} (isGap : IsGap gap)
    (whole : trimLeft raw = front ++ gap) : (value raw).length ≤ front.length := by
  have same : value raw = value (front ++ gap) := by
    have blank := isBlank_leadingBlanks raw
    have padded := @value_padded (leadingBlanks raw) [] blank rfl (trimLeft raw)
    rwa [List.append_nil, leadingBlanks_append_trimLeft, whole] at padded
  rw [same]
  obtain ⟨before, comma, after, blankBefore, rfl | rfl, blankAfter, rfl⟩ := isGap
  · have blank : isBlank (before ++ [] ++ after) := by
      rw [List.append_nil, isBlank_append, blankBefore, blankAfter]
      rfl
    have padded := @value_padded [] _ rfl blank front
    rw [List.nil_append] at padded
    rw [padded]
    have bound := value_length_le front
    omega
  · have padded := @value_padded [] after rfl blankAfter (front ++ before ++ [','])
    have split : front ++ (before ++ [','] ++ after) =
        [] ++ (front ++ before ++ [',']) ++ after := by
      simp
    rw [split, padded, value_concat_comma, trim_append_of_isBlank blankBefore]
    exact trim_length_le front

/-- The pattern for the span of a value: blanks, any characters, and blanks around a comma that may
be absent. -/
def valueSpan : List Piece :=
  .most Typeahead.isBlank :: .fewest (fun _ => true) :: gapPattern

/-- The pattern for the span of a value finds the value, and takes the whole span. -/
theorem firstWay?_valueSpan (raw : Text) :
    ∃ before comma after : Text,
      firstWay? valueSpan raw = some [leadingBlanks raw, value raw, before, comma, after] ∧
        leadingBlanks raw ++ value raw ++ (before ++ comma ++ after) = raw := by
  obtain ⟨gap, isGap, whole⟩ := exists_isGap_behind_value raw
  obtain ⟨before, comma, after, first, rfl⟩ := exists_firstWay?_gap isGap
  refine ⟨before, comma, after, ?_, ?_⟩
  · apply firstWay?_most
    refine firstWay?_fewest whole (fun _ _ => rfl) first fun shorter less => ?_
    apply firstWay?_gap_eq_none
    intro early
    have least := value_length_le_of_isGap early (List.take_append_drop shorter _).symm
    rw [List.length_take] at least
    omega
  · rw [List.append_assoc, ← whole, leadingBlanks_append_trimLeft]

end Typeahead.Text

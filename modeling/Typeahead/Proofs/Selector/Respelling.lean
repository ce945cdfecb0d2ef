import Typeahead.Proofs.Acceptance.Names
import Typeahead.Proofs.Selector.RoundTrip

/-!
# Other spellings of the keys of a tree

A change of spelling acts on each key of a tree and leaves the values alone. If it keeps keys
well-formed, then the tree stays so, and what is read for it differs only in the names of the keys.
Of the two spellings that matter here one moves the colons of all keys up to their labels, and the
other puts the labels between quotes and leaves the blanks behind them.
-/

namespace Typeahead.Selector

/-! ## Respelling trees -/

/-- All keys of a tree have a property. -/
inductive Written.AllKeys (holds : Heading → Prop) : Written → Prop
  | atom {before text after : Text} : AllKeys holds (.atom before text after)
  | object {before after : Text} {properties : List (Heading × Written)} {rest? : Option Text}
      (keys : ∀ property ∈ properties, holds property.1)
      (values : ∀ property ∈ properties, AllKeys holds property.2) :
      AllKeys holds (.object before properties rest? after)
  | array {before after : Text} {values : List Written} {rest? : Option Text}
      (elements : ∀ value ∈ values, AllKeys holds value) :
      AllKeys holds (.array before values rest? after)

mutual

/-- The tree with the keys spelled in another way. -/
def Written.respell (change : Heading → Heading) : Written → Written
  | .atom before text after => .atom before text after
  | .object before properties rest? after =>
      .object before (respellProperties change properties) rest? after
  | .array before values rest? after => .array before (respellValues change values) rest? after

/-- Properties with the keys spelled in another way. -/
def respellProperties (change : Heading → Heading) :
    List (Heading × Written) → List (Heading × Written)
  | [] => []
  | (heading, value) :: more =>
      (change heading, value.respell change) :: respellProperties change more

/-- Values with the keys spelled in another way. -/
def respellValues (change : Heading → Heading) : List Written → List Written
  | [] => []
  | value :: more => value.respell change :: respellValues change more

end

section Respelling

variable {change first second : Heading → Heading}

theorem respellProperties_eq_map (properties : List (Heading × Written)) :
    respellProperties change properties =
      properties.map fun property => (change property.1, property.2.respell change) := by
  induction properties with
  | nil => rfl
  | cons property more inductionHypothesis =>
      rw [respellProperties, List.map_cons, inductionHypothesis]

theorem respellValues_eq_map (values : List Written) :
    respellValues change values = values.map (Written.respell change) := by
  induction values with
  | nil => rfl
  | cons value more inductionHypothesis =>
      rw [respellValues, List.map_cons, inductionHypothesis]

theorem isBlank_text_respell (written : Written) :
    (written.respell change).text.isBlank = written.text.isBlank := by
  cases written with
  | atom before text after => rfl
  | object before properties rest? after =>
      rw [Text.not_isBlank_of_mem (c := '{') (by simp [Written.respell, Written.text]) rfl,
        Text.not_isBlank_of_mem (c := '{') (by simp [Written.text]) rfl]
  | array before values rest? after =>
      rw [Text.not_isBlank_of_mem (c := '[') (by simp [Written.respell, Written.text]) rfl,
        Text.not_isBlank_of_mem (c := '[') (by simp [Written.text]) rfl]

theorem Headed.respellProperties {properties : List (Heading × Written)} {rest? : Option Text}
    (headed : Headed properties rest?)
    (keeps : ∀ heading, heading.WellFormed → (change heading).WellFormed)
    (colons : ∀ heading, (change heading).colon = heading.colon) :
    Headed (respellProperties change properties) rest? := by
  induction properties with
  | nil => exact trivial
  | cons property more inductionHypothesis =>
      obtain ⟨heading, value⟩ := property
      obtain ⟨wellFormed, last, later⟩ := headed
      refine ⟨keeps heading wellFormed, fun colon => ?_, inductionHypothesis later⟩
      obtain ⟨rfl, rfl, rfl⟩ := last ((colons heading).symm.trans colon)
      exact ⟨rfl, rfl, rfl⟩

/-- A tree stays well-formed if its keys do. -/
theorem Written.WellFormed.respell {written : Written} (wellFormed : written.WellFormed)
    (keeps : ∀ heading, heading.WellFormed → (change heading).WellFormed)
    (colons : ∀ heading, (change heading).colon = heading.colon) :
    (written.respell change).WellFormed := by
  induction wellFormed with
  | atom blankBefore blankAfter form => exact .atom blankBefore blankAfter form
  | object blankBefore blankAfter blank headed _ inductionHypothesis =>
      refine .object blankBefore blankAfter blank (headed.respellProperties keeps colons) ?_
      rw [respellProperties_eq_map, List.forall_mem_map]
      exact inductionHypothesis
  | array blankBefore blankAfter blank visible _ inductionHypothesis =>
      refine .array blankBefore blankAfter blank ?_ ?_
      · rw [respellValues_eq_map, List.forall_mem_map]
        exact fun value member => (isBlank_text_respell value).trans (visible value member)
      · rw [respellValues_eq_map, List.forall_mem_map]
        exact inductionHypothesis

/-- Two spellings show the same outline exactly if they give each key the same name. -/
theorem Written.WellFormed.outline_respell_eq_iff {written : Written}
    (wellFormed : written.WellFormed) :
    (written.respell first).outline = (written.respell second).outline ↔
      written.AllKeys fun heading => (first heading).name = (second heading).name := by
  induction wellFormed with
  | atom => exact ⟨fun _ => .atom, fun _ => rfl⟩
  | @object before after properties rest? _ _ _ _ _ inductionHypothesis =>
      rw [Written.respell, Written.respell, outline, outline, Outline.object.injEq,
        headedOutlines_eq_map, headedOutlines_eq_map, respellProperties_eq_map,
        respellProperties_eq_map, List.map_map, List.map_map, List.map_inj_left]
      constructor
      · intro same
        refine .object (fun property member => ?_) fun property member => ?_
        · exact Option.some.inj (congrArg Prod.fst (same property member))
        · exact (inductionHypothesis property member).mp
            (congrArg Prod.snd (same property member))
      · intro keys property member
        cases keys with
        | object keys values =>
            exact Prod.ext (congrArg some (keys property member))
              ((inductionHypothesis property member).mpr (values property member))
  | @array before after values rest? _ _ _ _ _ inductionHypothesis =>
      rw [Written.respell, Written.respell, outline, outline, Outline.array.injEq,
        writtenOutlines_eq_map, writtenOutlines_eq_map, respellValues_eq_map,
        respellValues_eq_map, List.map_map, List.map_map, List.map_inj_left]
      constructor
      · exact fun same => .array fun value member =>
          (inductionHypothesis value member).mp (same value member)
      · intro keys value member
        cases keys with
        | array elements => exact (inductionHypothesis value member).mpr (elements value member)

theorem respell_id (written : Written) (wellFormed : written.WellFormed) :
    written.respell id = written := by
  induction wellFormed with
  | atom => rfl
  | object _ _ _ _ _ inductionHypothesis =>
      rw [Written.respell, respellProperties_eq_map]
      refine congrArg (Written.object _ · _ _) ?_
      refine (List.map_congr_left fun property member => ?_).trans (List.map_id _)
      exact Prod.ext rfl (inductionHypothesis property member)
  | array _ _ _ _ _ inductionHypothesis =>
      rw [Written.respell, respellValues_eq_map]
      refine congrArg (Written.array _ · _ _) ?_
      exact (List.map_congr_left inductionHypothesis).trans (List.map_id _)

end Respelling

namespace Written.AllKeys

variable {holds first second : Heading → Prop} {written : Written}

theorem mono (keys : written.AllKeys first) (implies : ∀ heading, first heading → second heading) :
    written.AllKeys second := by
  induction keys with
  | atom => exact .atom
  | object keys _ inductionHypothesis =>
      exact .object (fun property member => implies _ (keys property member)) inductionHypothesis
  | array _ inductionHypothesis => exact .array inductionHypothesis

theorem and (left : written.AllKeys first) (right : written.AllKeys second) :
    written.AllKeys fun heading => first heading ∧ second heading := by
  induction left with
  | atom => exact .atom
  | object keys _ inductionHypothesis =>
      cases right with
      | object others values =>
          exact .object (fun property member => ⟨keys property member, others property member⟩)
            fun property member => inductionHypothesis property member (values property member)
  | array _ inductionHypothesis =>
      cases right with
      | array elements =>
          exact .array fun value member => inductionHypothesis value member (elements value member)

/-- Properties that agree on the keys of a tree are held by all of them together. -/
theorem congr (keys : written.AllKeys holds)
    (same : ∀ heading, holds heading → (first heading ↔ second heading)) :
    written.AllKeys first ↔ written.AllKeys second :=
  ⟨fun given => (keys.and given).mono fun heading both => (same heading both.1).mp both.2,
    fun given => (keys.and given).mono fun heading both => (same heading both.1).mpr both.2⟩

end Written.AllKeys

/-! ## Blanks before colons -/

open Acceptance (isNamePart)

/-- A bare name of letters, digits and the other characters that names may have. -/
def Heading.IsIdentifier (heading : Heading) : Prop :=
  ∃ name, heading.label = .bare name ∧ name ≠ [] ∧ ∀ c ∈ name, isNamePart c = true

/-- The key with its colon right behind the label. -/
def Heading.tight (heading : Heading) : Heading :=
  { heading with gap := [] }

/-- The name of a label. -/
def Label.name : Label → Text
  | bare name | quoted _ name => name

/-- The key with its name between quotes, and the same blanks behind them. -/
def Heading.enquoted (quote : Char) (heading : Heading) : Heading :=
  { heading with label := .quoted quote heading.label.name }

/-- A name is written as it is between quotes. -/
theorem escape_of_forall_isNamePart {name : Text} (parts : ∀ c ∈ name, isNamePart c = true) :
    name.escape = name := by
  induction name with
  | nil => rfl
  | cons c rest inductionHypothesis =>
      obtain ⟨first, others⟩ := List.forall_mem_cons.mp parts
      have plain : needsBackslash c = false := by
        cases needs : needsBackslash c with
        | false => rfl
        | true =>
            simp only [needsBackslash, isQuote, Bool.or_eq_true, beq_iff_eq] at needs
            rcases needs with rfl | rfl | rfl <;> contradiction
      rw [Text.escape, plain, if_neg Bool.false_ne_true, inductionHypothesis others]

namespace Heading.IsIdentifier

variable {heading : Heading}

/-- Between quotes an identifier is the name of its key, whatever blanks are behind them. -/
theorem name_enquoted (identifier : heading.IsIdentifier) (quote : Char) :
    (heading.enquoted quote).name = heading.tight.name := by
  obtain ⟨name, label, -, parts⟩ := identifier
  simp [enquoted, tight, Heading.name, label, Label.name, escape_of_forall_isNamePart parts]

theorem name_eq (identifier : heading.IsIdentifier) :
    heading.name = heading.tight.name ++ heading.gap := by
  obtain ⟨name, label, -⟩ := identifier
  simp [tight, Heading.name, label]

/-- An identifier is the name of its key only right before the colon. -/
theorem name_eq_tight_iff (identifier : heading.IsIdentifier) :
    heading.name = heading.tight.name ↔ heading.gap = [] := by
  rw [identifier.name_eq]
  exact List.append_right_eq_self

theorem name_tight_ne_nil (identifier : heading.IsIdentifier) : heading.tight.name ≠ [] := by
  obtain ⟨name, label, present, -⟩ := identifier
  simpa [tight, Heading.name, label] using present

theorem isNamePart_of_mem (identifier : heading.IsIdentifier) {c : Char}
    (member : c ∈ heading.tight.name) : isNamePart c = true := by
  obtain ⟨name, label, -, parts⟩ := identifier
  simp only [tight, Heading.name, label, List.append_nil] at member
  exact parts c member

end Heading.IsIdentifier

theorem Written.WellFormed.allKeys {written : Written} (wellFormed : written.WellFormed) :
    written.AllKeys Heading.WellFormed := by
  induction wellFormed with
  | atom => exact .atom
  | object _ _ _ headed _ inductionHypothesis =>
      exact .object (headed.wellFormed) inductionHypothesis
  | array _ _ _ _ _ inductionHypothesis => exact .array inductionHypothesis

theorem Heading.WellFormed.tight {heading : Heading} (wellFormed : heading.WellFormed) :
    heading.tight.WellFormed :=
  ⟨wellFormed.before, wellFormed.label, rfl⟩

theorem Heading.WellFormed.enquoted {heading : Heading} (wellFormed : heading.WellFormed)
    {quote : Char} (isQuote : isQuote quote = true) : (heading.enquoted quote).WellFormed :=
  ⟨wellFormed.before, .quoted isQuote, wellFormed.gap⟩

section Names

variable {written : Written}

/-- Identifiers between quotes are read as the names of their keys, wherever the blanks and the
caret are. -/
theorem outline_parse_enquoted (wellFormed : written.WellFormed)
    (identifiers : written.AllKeys Heading.IsIdentifier) {quote : Char}
    (isQuote : isQuote quote = true) (caret : Int) :
    (parse (written.respell (Heading.enquoted quote)).text caret).outline =
      (written.respell Heading.tight).outline := by
  have respelled : (written.respell (Heading.enquoted quote)).WellFormed :=
    wellFormed.respell (fun _ heading => heading.enquoted isQuote) fun _ => rfl
  rw [respelled.parse, respelled.outline_node]
  exact wellFormed.outline_respell_eq_iff.mpr
    (identifiers.mono fun _ identifier => identifier.name_enquoted quote)

/-- Bare identifiers are read as the names of their keys exactly if all of them stand right before
their colons. -/
theorem outline_parse_eq_tight_iff (wellFormed : written.WellFormed)
    (identifiers : written.AllKeys Heading.IsIdentifier) (caret : Int) :
    (parse written.text caret).outline = (written.respell Heading.tight).outline ↔
      written.AllKeys fun heading => heading.gap = [] := by
  rw [wellFormed.parse, wellFormed.outline_node]
  have same := @Written.WellFormed.outline_respell_eq_iff id Heading.tight _ wellFormed
  rw [respell_id written wellFormed] at same
  exact same.trans (identifiers.congr fun _ identifier => identifier.name_eq_tight_iff)

end Names

end Typeahead.Selector

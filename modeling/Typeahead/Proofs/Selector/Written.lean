import Typeahead.Proofs.Selector.Balanced
import Typeahead.Proofs.Selector.Outline

/-!
# Written selectors

A written selector is a tree together with the way in which it is spelled: the blanks around its
parts, the quotes of its keys, and whether a comma stands behind the last element of a container.
Its text is what a user types. A well-formed one has balanced leaves, keys that can be told from
what follows them, and blanks only where blanks are meant.

Each object or array lists its elements; `rest?` are the blanks behind the comma that may follow
the last one, or between the brackets of an empty container.
-/

namespace Typeahead.Selector

/-! ## Keys -/

/-- A name as it is spelled. -/
inductive Label where
  | bare (name : Text)
  /-- A name that is escaped between two quotes. -/
  | quoted (quote : Char) (name : Text)
  deriving DecidableEq, Repr

/-- A key in front of a value. -/
structure Heading where
  before : Text
  label : Label
  /-- The blanks between the label and the colon. -/
  gap : Text
  /-- Only the last key of an object may still lack its colon. -/
  colon : Bool
  deriving DecidableEq, Repr

/-- The spelling of a label. -/
def Label.text : Label → Text
  | bare name => name
  | quoted quote name => quote :: name.escape ++ [quote]

namespace Heading

/-- The text of a key, up to its colon. -/
def text (heading : Heading) : Text :=
  heading.before ++ heading.label.text ++ heading.gap ++ if heading.colon then [':'] else []

/-- The name of a key as it is spelled. Blanks between a bare name and its colon belong to the
name. -/
def name (heading : Heading) : Text :=
  match heading.label with
  | .bare name => name ++ heading.gap
  | .quoted _ name => name.escape

end Heading

/-- A bare label begins with no blank, and has no quotes, brackets and colons. -/
inductive Label.WellFormed : Label → Prop
  | bare {c : Char} {rest : Text} :
      isBlank c = false →
        (∀ other ∈ c :: rest,
          Delimiter.opening? other = none ∧ Delimiter.closing? other = none ∧ other ≠ ':') →
          WellFormed (.bare (c :: rest))
  | quoted {quote : Char} {name : Text} :
      isQuote quote = true → WellFormed (.quoted quote name)

/-- A key with blanks around its label. -/
structure Heading.WellFormed (heading : Heading) : Prop where
  before : heading.before.isBlank
  label : heading.label.WellFormed
  gap : heading.gap.isBlank

/-! ## Pieces of a body -/

/-- What follows a piece: nothing, or a comma and the rest. -/
def continued : Option Text → Text
  | none => []
  | some rest => ',' :: rest

/-- Pieces with commas between them. With `rest?` there is a comma behind the last piece, too. -/
def joined : List Text → Option Text → Text
  | [], rest? => rest?.getD []
  | piece :: more, rest? =>
      if more.isEmpty && rest?.isNone then piece else piece ++ ',' :: joined more rest?

/-- What follows the first one of some pieces. -/
def following (more : List Text) (rest? : Option Text) : Option Text :=
  if more.isEmpty && rest?.isNone then none else some (joined more rest?)

theorem joined_cons (piece : Text) (more : List Text) (rest? : Option Text) :
    joined (piece :: more) rest? = piece ++ continued (following more rest?) := by
  rw [joined, following]
  split
  · rw [continued, List.append_nil]
  · rfl

/-! ## Trees -/

/-- A tree with its spelling. -/
inductive Written where
  /-- A leaf. -/
  | atom (before text after : Text)
  | object (before : Text) (properties : List (Heading × Written)) (rest? : Option Text)
      (after : Text)
  | array (before : Text) (values : List Written) (rest? : Option Text) (after : Text)

mutual

/-- The text of a tree. -/
def Written.text : Written → Text
  | .atom before text after => before ++ text ++ after
  | .object before properties rest? after =>
      before ++ '{' :: joined (propertyTexts properties) rest? ++ '}' :: after
  | .array before values rest? after =>
      before ++ '[' :: joined (valueTexts values) rest? ++ ']' :: after

/-- The texts of properties. -/
def propertyTexts : List (Heading × Written) → List Text
  | [] => []
  | (heading, value) :: more => (heading.text ++ value.text) :: propertyTexts more

/-- The texts of values. -/
def valueTexts : List Written → List Text
  | [] => []
  | value :: more => value.text :: valueTexts more

end

theorem propertyTexts_eq_map (properties : List (Heading × Written)) :
    propertyTexts properties =
      properties.map fun property => property.1.text ++ property.2.text := by
  induction properties with
  | nil => rfl
  | cons property more induct => rw [propertyTexts, induct, List.map_cons]

theorem valueTexts_eq_map (values : List Written) :
    valueTexts values = values.map Written.text := by
  induction values with
  | nil => rfl
  | cons value more induct => rw [valueTexts, induct, List.map_cons]

mutual

/-- The outline of a tree. -/
def Written.outline : Written → Outline
  | .atom _ text _ => .leaf text.value
  | .object _ properties _ _ => .object (headedOutlines properties)
  | .array _ values _ _ => .array (writtenOutlines values)

/-- The outlines of properties with their names. -/
def headedOutlines : List (Heading × Written) → List (Option Text × Outline)
  | [] => []
  | (heading, value) :: more => (some heading.name, value.outline) :: headedOutlines more

/-- The outlines of values. -/
def writtenOutlines : List Written → List Outline
  | [] => []
  | value :: more => value.outline :: writtenOutlines more

end

theorem headedOutlines_eq_map (properties : List (Heading × Written)) :
    headedOutlines properties =
      properties.map fun property => (some property.1.name, property.2.outline) := by
  induction properties with
  | nil => rfl
  | cons property more induct => rw [headedOutlines, induct, List.map_cons]

theorem writtenOutlines_eq_map (values : List Written) :
    writtenOutlines values = values.map Written.outline := by
  induction values with
  | nil => rfl
  | cons value more induct => rw [writtenOutlines, induct, List.map_cons]

/-! ## Well-formed trees -/

/-- A leaf: balanced, without commas outside brackets and quotes, without blanks around it, and
not to be mistaken for an object or an array. -/
structure IsAtom (text : Text) : Prop where
  balanced : Balanced false text
  begins : ShowsItself text
  ends : ∀ c, text.getLast? = some c → isBlank c = false

/-- A visible character that neither belongs to a delimiter nor is a comma is a leaf. -/
theorem isAtom_singleton {c : Char} (opens : Delimiter.opening? c = none)
    (closes : Delimiter.closing? c = none) (visible : isBlank c = false) (noComma : c ≠ ',') :
    IsAtom [c] where
  balanced := .plain opens closes (fun comma => absurd comma noComma) .nil
  begins := by
    refine ⟨c, [], rfl, visible, ?_, ?_⟩ <;> rintro rfl <;> contradiction
  ends := by
    rintro d ⟨⟩
    exact visible

/-- Well-formed keys, all of them with colons except the last one, which may lack its colon
where no value and no comma follows. -/
def Headed : List (Heading × Written) → Option Text → Prop
  | [], _ => True
  | (heading, value) :: more, rest? =>
      heading.WellFormed ∧
        (heading.colon = false → value = .atom [] [] [] ∧ more = [] ∧ rest? = none) ∧
          Headed more rest?

/-- A tree whose text can be read. The value of a property may be missing. -/
inductive Written.WellFormed : Written → Prop
  | atom {before text after : Text} :
      before.isBlank → after.isBlank → text = [] ∨ IsAtom text →
        WellFormed (.atom before text after)
  | object {before after : Text} {properties : List (Heading × Written)} {rest? : Option Text} :
      before.isBlank → after.isBlank → (∀ rest ∈ rest?, Text.isBlank rest) →
        Headed properties rest? → (∀ property ∈ properties, WellFormed property.2) →
          WellFormed (.object before properties rest? after)
  | array {before after : Text} {values : List Written} {rest? : Option Text} :
      before.isBlank → after.isBlank → (∀ rest ∈ rest?, Text.isBlank rest) →
        (∀ value ∈ values, value.text.isBlank = false) → (∀ value ∈ values, WellFormed value) →
          WellFormed (.array before values rest? after)

end Typeahead.Selector

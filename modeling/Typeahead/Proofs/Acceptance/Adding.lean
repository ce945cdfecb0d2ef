import Typeahead.Proofs.Acceptance.Containers
import Typeahead.Proofs.Acceptance.Renaming

/-!
# Adding a property to a written object

A new property goes behind the last property of a written object whose keys have their colons. The
text that arises is that of a written tree with the same context around the object, in which the
caret stands behind the name of the new property.
-/

namespace Typeahead.Acceptance

open Selector

variable {site : Site}

/-! ## The new object -/

/-- The key of a new property. -/
def newHeading (blanks : Text) (quote : Char) (name : Text) : Heading where
  before := blanks
  label := labelFor quote name
  gap := []
  colon := true

/-- The site with a new property behind the others, and with the caret behind its name. -/
def extended (site : Site) (blanks : Text) (quote : Char) (name : Text) : Site :=
  { site with
    properties := site.properties ++ [(newHeading blanks quote name, .atom [' '] [] [])]
    rest? := none
    position := site.before.length + 1 + (propertyOffset site.properties +
      ((newHeading blanks quote name).opening.length + (spelled name).length)) }

theorem extended_wellFormed (wellFormed : site.object.WellFormed)
    (colon : EndsWithColon site.properties) {blanks : Text} (blank : blanks.isBlank) {quote : Char}
    (isQuote : isQuote quote = true) (name : Text) :
    (extended site blanks quote name).object.WellFormed := by
  cases wellFormed with
  | object blankBefore blankAfter _ headed values =>
      have key : (newHeading blanks quote name).WellFormed :=
        ⟨blank, labelFor_wellFormed isQuote name, rfl⟩
      refine .object blankBefore blankAfter (by simp [extended]) ?_ ?_
      · exact headed.append colon ⟨key, fun absent => Bool.noConfusion absent, trivial⟩
      · intro property member
        rcases List.mem_append.mp member with front | back
        · exact values property front
        · rw [List.mem_singleton.mp back]
          exact .atom rfl rfl (.inl rfl)

theorem extended_types (blanks : Text) (quote : Char) (name : Text) :
    (extended site blanks quote name).Types (spelled name) :=
  ⟨site.properties, newHeading blanks quote name, .atom [' '] [] [], [], rfl,
    spelled_begins _ _ _ _ _, rfl⟩

/-! ## The new key -/

theorem isQuote_quoteStyle (properties : List (Option Key × Node)) :
    isQuote (quoteStyle properties) = true := by
  unfold quoteStyle
  simp only
  cases first : (properties.filterMap fun property =>
      property.1.bind fun key => key.raw.trim.head?.filter isQuote).head? with
  | none => rfl
  | some quote =>
      rcases List.mem_filterMap.mp (List.mem_of_head? first) with ⟨property, _, found⟩
      rcases Option.bind_eq_some_iff.mp found with ⟨key, _, quotes⟩
      exact (Option.filter_eq_some_iff.mp quotes).2

theorem newHeading_text (blanks : Text) (quote : Char) (name : Text) :
    (newHeading blanks quote name).text = blanks ++ (newHeading [] quote name).text := by
  simp [newHeading, Heading.text]

theorem newHeading_opening (blanks : Text) (quote : Char) (name : Text) :
    (newHeading blanks quote name).opening = blanks ++ (newHeading [] quote name).opening := by
  unfold Heading.opening newHeading
  split <;> simp_all

/-- The key of a new property is spelled as a written one. -/
theorem newKey_eq (properties : List (Option Key × Node)) (name : Text) :
    newKey properties name =
      let heading := newHeading [] (quoteStyle properties) name
      { text := heading.text ++ [' ']
        offset := heading.opening.length + (spelled name).length } := by
  unfold newKey spelled newHeading labelFor
  by_cases bare : isBareName name = true
  · simp [bare, Heading.text, Heading.opening, Label.text]
  · simp [bare, Heading.text, Heading.opening, Label.text]
    omega

theorem acceptName_of_no_property {base name : Text} {isNew : Bool} {raw : Text} {start : Nat}
    {cursor : Option Nat} {properties : List (Option Key × Node)}
    (none : (Node.object raw start cursor properties).propertyAt = none) :
    acceptName base name isNew (.object raw start cursor properties) =
      insertProperty base name (.object raw start cursor properties) properties := by
  rw [Node.propertyAt] at none
  simp only [acceptName, none]

/-! ## Inserting the property -/

/-- Inserting a property changes the text of a tree into that of the tree with the property, with
some blanks before the new key. -/
theorem exists_turns_insertProperty (wellFormed : site.object.WellFormed)
    (colon : EndsWithColon site.properties) (caret : Caret) (comma : Bool) (name : Text)
    (properties : List (Option Key × Node)) :
    ∃ blanks : Text, blanks.isBlank ∧
      Turns
        (insertProperty site.written.text name
          (site.object.node (ahead site.layers).length caret comma) properties)
        site (extended site blanks (quoteStyle properties) name) := by
  have shows := shows_object wellFormed colon (ahead site.layers).length caret comma
  have whole : site.written.text = ahead site.layers ++
      (objectParts site.before site.properties site.rest? site.after).text ++
        behind site.layers := text_filled _ _
  obtain ⟨blanks, blank, applied, position⟩ :=
    shows.exists_insertElement rfl whole (newKey properties name)
  refine ⟨blanks, blank, rfl, ?_, ?_⟩
  · have piece : blanks ++ (newKey properties name).text =
        (newHeading blanks (quoteStyle properties) name).text ++ [' '] := by
      rw [newKey_eq, newHeading_text blanks, List.append_assoc]
    have texts : propertyTexts (extended site blanks (quoteStyle properties) name).properties =
        propertyTexts site.properties ++ [blanks ++ (newKey properties name).text] := by
      rw [piece]
      exact propertyTexts_append _ _
    have object : (extended site blanks (quoteStyle properties) name).object.text =
        ((objectParts site.before site.properties site.rest? site.after).add
          (blanks ++ (newKey properties name).text)).text := by
      rw [Site.object, Written.text, texts]
      rfl
    exact applied.trans ((text_filled site.layers _).trans (by rw [object])).symm
  · have offset : (newKey properties name).offset =
        (newHeading [] (quoteStyle properties) name).opening.length + (spelled name).length := by
      rw [newKey_eq]
    refine position.trans ?_
    rw [offset, Site.caret, extended, newHeading_opening blanks, List.length_append]
    simp only [objectParts, propertyOffset, Nat.add_assoc]

end Typeahead.Acceptance

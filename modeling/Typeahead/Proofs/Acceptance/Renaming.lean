import Typeahead.Proofs.Acceptance.Spelling
import Typeahead.Proofs.Selector.Site

/-!
# Replacing the name of a written key

Replacing the name of a key changes the text of a written tree into that of another one, which has
the same context around the object of the key. In this object the caret then stands behind the new
name.
-/

namespace Typeahead.Acceptance

open Selector

/-- An edit of the text of a tree turns one site into another one in the same context. -/
structure Turns (edit : Edit) (site other : Site) : Prop where
  layers : other.layers = site.layers
  text : edit.apply site.written.text = other.written.text
  caret : edit.caret = other.caret

theorem acceptName_of_key {base name : Text} {node value : Node} {key : Key} {offset : Nat}
    (here : node.propertyAt = some (some key, value)) (cursor : key.cursor = some offset) :
    acceptName base name false node = replaceName key offset name := by
  cases node with
  | span => contradiction
  | array => contradiction
  | object raw start index properties =>
      rw [Node.propertyAt] at here
      simp only [acceptName, here, Option.bind_some, cursor, Bool.false_eq_true, if_false]

/-! ## Replacing a name -/

/-- A value behind a colon; a space where none was written. -/
def settled (heading : Heading) (value : Written) : Written :=
  if heading.colon then value else .atom [' '] [] []

theorem text_settled {heading : Heading} {value : Written}
    (last : heading.colon = false → value = .atom [] [] []) :
    (settled heading value).text = waiting heading ++ value.text := by
  rw [settled, waiting]
  cases colon : heading.colon with
  | true => rfl
  | false =>
      rw [last colon]
      rfl

theorem settled_wellFormed {value : Written} (wellFormed : value.WellFormed) (heading : Heading) :
    (settled heading value).WellFormed := by
  rw [settled]
  split
  · exact wellFormed
  · exact .atom rfl rfl (.inl rfl)

/-- The site with another name in place of that of a key, and with the caret behind it. -/
def renamed (site : Site) (earlier : List (Heading × Written)) (heading : Heading)
    (value : Written) (later : List (Heading × Written)) (name : Text) : Site :=
  { site with
    properties := earlier ++ (respelled heading name, settled heading value) :: later
    position := site.before.length + 1 + (propertyOffset earlier +
      ((respelled heading name).opening.length + (spelled name).length)) }

variable {site : Site} {earlier later : List (Heading × Written)} {heading : Heading}
  {value : Written}

/-- The text of an object around one of its keys. -/
theorem text_around_key (properties : site.properties = earlier ++ (heading, value) :: later) :
    site.written.text =
      (ahead site.layers ++ (site.before ++ '{' :: terminated (propertyTexts earlier))) ++
        heading.text ++
          (value.text ++ continued (following (propertyTexts later) site.rest?) ++
            '}' :: site.after ++ behind site.layers) := by
  rw [Site.written, text_filled, Site.object, Written.text, properties, propertyTexts_append,
    propertyTexts, joined_append_cons]
  simp only [List.append_assoc, List.cons_append]

theorem turns_replaceName (wellFormed : site.object.WellFormed)
    (properties : site.properties = earlier ++ (heading, value) :: later) (caret : Caret)
    (offset : Nat) (completion : Text) :
    Turns
      (replaceName (heading.key
        ((ahead site.layers).length + (site.before.length + 1) + propertyOffset earlier) caret)
          offset completion)
      site
      (renamed site earlier heading value later
        (replacingName heading.name offset completion)) := by
  have headed : Headed (earlier ++ (heading, value) :: later) site.rest? := by
    rw [← properties]
    cases wellFormed with
    | object _ _ _ headed _ => exact headed
  rw [replaceName_eq headed.of_append.1]
  generalize replacingName heading.name offset completion = name
  refine ⟨rfl, ?_, ?_⟩
  · have whole := @text_around_key (renamed site earlier heading value later name) earlier later
      (respelled heading name) (settled heading value) rfl
    rw [text_around_key properties, Edit.apply_append _ _ _ _ (by
      simp only [List.length_append, List.length_cons, propertyOffset]
      omega) rfl, whole]
    rw [text_settled fun colon => (headed.of_append.2.1 colon).1]
    simp only [renamed, List.append_assoc]
  · simp only [renamed, Site.caret]
    omega

theorem renamed_wellFormed (wellFormed : site.object.WellFormed)
    (properties : site.properties = earlier ++ (heading, value) :: later) (name : Text) :
    (renamed site earlier heading value later name).object.WellFormed := by
  rw [Site.object, properties] at wellFormed
  cases wellFormed with
  | object blankBefore blankAfter blank headed values =>
      have respelledKey := respelled_wellFormed headed.of_append.1 name
      refine .object blankBefore blankAfter blank (headed.respell respelledKey rfl _) ?_
      intro property member
      rcases List.mem_append.mp member with front | back
      · exact values property (List.mem_append_left _ front)
      · rcases List.mem_cons.mp back with rfl | behind
        · exact settled_wellFormed (values (heading, value) (by simp)) heading
        · exact values property (List.mem_append_right _ (List.mem_cons_of_mem _ behind))

theorem renamed_types (name : Text) :
    (renamed site earlier heading value later name).Types (spelled name) :=
  ⟨earlier, respelled heading name, settled heading value, later, rfl,
    spelled_begins _ _ _ _ _, rfl⟩

end Typeahead.Acceptance

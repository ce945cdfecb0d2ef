import Typeahead.Proofs.Selector.Descent

/-!
# Names at the caret

With the caret in the name of a written key, the part of the name before the caret is typed. Where a
name is sought in a written object, the caret either stands so, or behind the last property, in an
empty object or behind a comma.
-/

namespace Typeahead.Selector

/-- The property of an object that holds the caret. -/
def Node.propertyAt : Node → Option (Option Key × Node)
  | .object _ _ cursor properties => cursor.bind fun index => properties[index]?
  | _ => none

variable {before after path : Text} {properties earlier later : List (Heading × Written)}
  {heading : Heading} {value : Written} {rest? : Option Text} {start : Nat} {caret : Caret}
  {comma : Bool} {vocabulary : Vocabulary}

/-! ## Carets in keys -/

theorem Heading.key_cursor_eq_some_iff (position offset : Nat) :
    (heading.key start (some (position : Int))).cursor = some offset ↔
      position = heading.opening.length + offset ∧ offset ≤ heading.name.length := by
  rw [Heading.key, Caret.within_eq_some_iff, Option.some.injEq]
  omega

theorem Heading.opening_add_name_le (heading : Heading) :
    heading.opening.length + heading.name.length ≤ heading.text.length := by
  rw [text_eq]
  simp only [List.length_append]
  omega

/-- With the caret in the name of a written key, the part of the name before the caret is typed. -/
theorem exists_nameAt_of_key (headed : Headed (earlier ++ (heading, value) :: later) rest?)
    {offset : Nat} (inside : offset ≤ heading.name.length) (vocabulary : Vocabulary)
    (path : Text) :
    ∃ focus others,
      ((Written.object before (earlier ++ (heading, value) :: later) rest? after).node start
        (some ((before.length + 1 + (propertyOffset earlier + (heading.opening.length + offset)) :
          Nat) : Int)) comma).nameAt vocabulary path = some focus ∧
      focus.sought = .name vocabulary (some (heading.name.take offset)) others := by
  have fits : heading.opening.length + offset ≤ (heading.text ++ value.text).length := by
    have bound := heading.opening_add_name_le
    rw [List.length_append]
    omega
  obtain ⟨raw, nodes, node, _, property⟩ :=
    @node_of_property rest? start earlier later heading value before after comma headed _ fits
  have cursor := (@Heading.key_cursor_eq_some_iff heading
    (start + (before.length + 1) + propertyOffset earlier) _ offset).mpr ⟨rfl, inside⟩
  rw [node, Node.nameAt, Option.bind_some, locateName]
  simp only [property, propertyNode, Option.bind_some, cursor, Option.map_some]
  exact ⟨_, _, rfl, rfl⟩

/-! ## Behind the last property -/

/-- Without a comma behind the last property, the caret in a body belongs to one of them. -/
theorem lt_length_of_headedNodes {index : Nat} (headed : Headed properties none)
    (present : properties ≠ [])
    (found : (headedNodes none start caret properties).2 = some index) :
    index < properties.length := by
  induction properties generalizing start caret index with
  | nil => exact absurd rfl present
  | cons property more induct =>
      rcases property with ⟨heading, value⟩
      rw [headedNodes] at found
      rcases Option.map_eq_some_iff.mp found with ⟨position, _, found⟩
      cases others : (headedNodes none (start + (heading.consumed + (value.text.length + 1)))
          (Caret.into caret (heading.consumed + (value.text.length + 1) : Nat)
            (joined (propertyTexts ((heading, value) :: more)) none).length) more).2 with
      | none =>
          simp only [others, Option.elim_none] at found
          rw [← found]
          exact Nat.zero_lt_succ _
      | some later =>
          simp only [others, Option.elim_some] at found
          rw [← found]
          refine Nat.succ_lt_succ (induct headed.2.2 ?_ others)
          rintro rfl
          -- With no further property the caret would have to stand behind the end of the body.
          have caret := (@isSome_headedNodes none _ _ []).symm.trans (congrArg Option.isSome others)
          rcases Option.isSome_iff_exists.mp caret with ⟨offset, behind⟩
          rcases (Caret.into_eq_some_iff _ _ _ _).mp behind with ⟨_, positive, within⟩
          have width : heading.text.length ≤ heading.consumed := Nat.le_add_right _ _
          simp only [propertyTexts, joined_cons, following, List.isEmpty_nil, Option.isNone_none,
            Bool.and_self, if_true, continued, List.append_nil, List.length_append] at within
          omega

/-! ## Where names are sought -/

/-- The two ways in which a name is sought in a written object. -/
theorem nameAt_cases {focus : Focus} (headed : Headed properties rest?)
    (named : ((Written.object before properties rest? after).node start caret comma).nameAt
      vocabulary path = some focus) :
    (∃ earlier heading value later offset others,
      properties = earlier ++ (heading, value) :: later ∧
        ((Written.object before properties rest? after).node start caret comma).propertyAt =
          some (propertyNode rest? (start + (before.length + 1) + propertyOffset earlier)
            (heading.opening.length + offset) heading value later) ∧
        offset ≤ heading.name.length ∧
        focus.sought = .name vocabulary (some (heading.name.take offset)) others) ∨
      ((properties = [] ∨ rest?.isSome) ∧
        ((Written.object before properties rest? after).node start caret comma).propertyAt = none ∧
        ∃ others, focus.sought = .name vocabulary none others) := by
  rcases Option.bind_eq_some_iff.mp named with ⟨index, here, found⟩
  unfold locateName at found
  simp only at found
  split at found
  · rename_i absent
    refine .inr ⟨?_, ?_, ?_⟩
    · by_cases empty : properties = []
      · exact .inl empty
      · right
        cases rest? with
        | some rest => rfl
        | none =>
            have before := lt_length_of_headedNodes headed empty here
            rw [List.getElem?_eq_none_iff, length_headedNodes] at absent
            omega
    · rw [Written.node, Node.propertyAt, here, Option.bind_some]
      exact absent
    · rw [← Option.some.inj found]
      exact ⟨_, rfl⟩
  · rename_i key? node within
    rcases Option.bind_eq_some_iff.mp found with ⟨key, hasKey, typed⟩
    rcases Option.map_eq_some_iff.mp typed with ⟨offset, cursor, rfl⟩
    obtain ⟨earlier, heading, value, later, position, rfl, _, _, same⟩ :=
      exists_propertyNode_of_node headed here within
    rw [propertyNode, Prod.mk.injEq, hasKey, Option.some.injEq] at same
    rcases same with ⟨rfl, rfl⟩
    rcases (Heading.key_cursor_eq_some_iff _ _).mp cursor with ⟨rfl, inside⟩
    refine .inl ⟨earlier, heading, value, later, offset, _, rfl, ?_, inside, rfl⟩
    rw [Written.node, Node.propertyAt, here, Option.bind_some]
    rw [hasKey] at within
    exact within

end Typeahead.Selector

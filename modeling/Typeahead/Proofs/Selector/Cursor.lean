import Typeahead.Proofs.Selector.Context
import Typeahead.Selector.Focus

/-!
# The element that holds the caret

A caret in a body belongs to the element whose text it stands in, up to the end of this text; the
place behind a comma belongs to the next element. Behind the last comma there is no element at the
caret. The names of the properties do not depend on the caret.
-/

namespace Typeahead.Selector

/-! ## Carets in windows -/

theorem Caret.into_of_le {low position high : Nat} (inside : low + position ≤ high) :
    Caret.into (some ((low + position : Nat) : Int)) low high = some (position : Int) := by
  rw [Caret.into_eq_some_iff]
  exact ⟨rfl, Int.natCast_nonneg _, by omega⟩

theorem Caret.into_of_lt {low position : Nat} (before : position < low) (high : Int) :
    Caret.into (some (position : Int)) low high = none := by
  rw [Option.eq_none_iff_forall_not_mem]
  intro offset found
  rw [Option.mem_def, Caret.into_eq_some_iff, Option.some.injEq] at found
  omega

theorem Caret.within_of_lt {position high : Nat} (behind : high < position) (low : Nat) :
    Caret.within (some (position : Int)) low high = none := by
  rw [Option.eq_none_iff_forall_not_mem]
  intro offset found
  rw [Option.mem_def, Caret.within_eq_some_iff, Option.some.injEq] at found
  omega

/-- A body has a caret if and only if the caret of the text stands in it. -/
theorem exists_bodyCaret_of_isSome {caret : Caret} {before body : Text}
    (present : (bodyCaret caret before body).isSome) :
    ∃ position : Nat, bodyCaret caret before body = some (position : Int) ∧
      caret = some ((before.length + 1 + position : Nat) : Int) ∧ position ≤ body.length := by
  rcases Option.isSome_iff_exists.mp present with ⟨offset, found⟩
  rcases (Caret.into_eq_some_iff _ _ _ _).mp found with ⟨same, positive, below⟩
  refine ⟨offset.toNat, ?_, ?_, ?_⟩
  · rw [found, Int.toNat_of_nonneg positive]
  · rw [same, Option.some.injEq]
    omega
  · omega

/-! ## Names and indices -/

variable {rest? : Option Text} {start : Nat} {caret : Caret}

/-- The names of written properties. -/
def writtenNames (properties : List (Heading × Written)) : List Text :=
  properties.map fun property => property.1.name

theorem map_propertyName_headedNodes (properties : List (Heading × Written)) :
    (headedNodes rest? start caret properties).1.map propertyName = writtenNames properties := by
  induction properties generalizing start caret with
  | nil => rfl
  | cons property more induct =>
      rw [headedNodes, List.map_cons, induct]
      rfl

theorem length_headedNodes (properties : List (Heading × Written)) :
    (headedNodes rest? start caret properties).1.length = properties.length := by
  have names := congrArg List.length
    (@map_propertyName_headedNodes rest? start caret properties)
  rw [List.length_map, writtenNames, List.length_map] at names
  exact names

theorem length_writtenNodes (values : List Written) :
    (writtenNodes rest? start caret values).1.length = values.length := by
  induction values generalizing start caret with
  | nil => rfl
  | cons value more induct => rw [writtenNodes, List.length_cons, induct, List.length_cons]

/-- A body has an index if and only if it has a caret. -/
theorem isSome_headedNodes (properties : List (Heading × Written)) :
    (headedNodes rest? start caret properties).2.isSome = caret.isSome := by
  cases properties <;> simp [headedNodes]

theorem isSome_writtenNodes (values : List Written) :
    (writtenNodes rest? start caret values).2.isSome = caret.isSome := by
  cases values <;> simp [writtenNodes]

theorem headedNodes_of_no_caret (properties : List (Heading × Written)) :
    (headedNodes rest? start none properties).2 = none := by
  rw [← Option.not_isSome_iff_eq_none, isSome_headedNodes]
  exact Bool.false_ne_true

theorem writtenNodes_of_no_caret (values : List Written) :
    (writtenNodes rest? start none values).2 = none := by
  rw [← Option.not_isSome_iff_eq_none, isSome_writtenNodes]
  exact Bool.false_ne_true

/-! ## Properties -/

variable {earlier later : List (Heading × Written)} {heading : Heading} {value : Written}

/-- Where a property starts in its body. -/
def propertyOffset (earlier : List (Heading × Written)) : Nat :=
  (terminated (propertyTexts earlier)).length

theorem propertyOffset_cons {property : Heading × Written} (colon : property.1.colon = true)
    (more : List (Heading × Written)) :
    propertyOffset (property :: more) =
      property.1.consumed + (property.2.text.length + 1) + propertyOffset more := by
  rcases property with ⟨heading, value⟩
  have consumed := Heading.consumed_of_colon colon
  rw [propertyOffset, propertyTexts, terminated, consumed]
  simp only [List.length_append, List.length_cons, propertyOffset]
  omega

/-- The last value of a body stands behind its key, and a comma follows it if one is written. -/
theorem getLast?_headedNodes {front : List (Heading × Written)}
    (headed : Headed (front ++ [(heading, value)]) rest?) (colon : heading.colon = true) :
    ∃ last, ((headedNodes rest? start caret (front ++ [(heading, value)])).1.map
        Prod.snd).getLast? =
      some (value.node (start + (propertyOffset front + heading.text.length)) last
        rest?.isSome) := by
  induction front generalizing start caret with
  | nil =>
      have comma : (following (propertyTexts []) rest?).isSome = rest?.isSome := by
        cases rest? <;> rfl
      rw [List.nil_append, headedNodes, headedNodes, List.map_singleton, List.getLast?_singleton,
        Heading.consumed_of_colon colon, comma, propertyOffset, propertyTexts, terminated,
        List.length_nil, Nat.zero_add]
      exact ⟨_, rfl⟩
  | cons property more induct =>
      rcases property with ⟨first, firstValue⟩
      obtain ⟨last, found⟩ := @induct (start + (first.consumed + (firstValue.text.length + 1)))
        (caret.into (first.consumed + (firstValue.text.length + 1) : Nat)
          (joined (propertyTexts ((first, firstValue) :: (more ++ [(heading, value)])))
            rest?).length) headed.2.2
      refine ⟨last, ?_⟩
      rw [List.cons_append, headedNodes, List.map_cons, List.getLast?_cons, found,
        Option.getD_some, @propertyOffset_cons (first, firstValue) headed.colon_of_append]
      simp only [Nat.add_assoc]

/-- The node of a property that starts at a place, with the caret in its text. -/
def propertyNode (rest? : Option Text) (start position : Nat) (heading : Heading)
    (value : Written) (later : List (Heading × Written)) : Option Key × Node :=
  (some (heading.key start (some position)),
    value.node (start + heading.consumed)
      (Caret.into (some position) heading.consumed
        (heading.text ++ value.text ++ continued (following (propertyTexts later) rest?)).length)
      (following (propertyTexts later) rest?).isSome)

/-- Before the place of the next property the first one is at the caret. -/
theorem headedNodes_index_of_lt {more : List (Heading × Written)} {position : Nat}
    (before : position < heading.consumed + (value.text.length + 1)) :
    (headedNodes rest? start (some (position : Int)) ((heading, value) :: more)).2 = some 0 := by
  rw [headedNodes, Caret.into_of_lt before, headedNodes_of_no_caret]
  rfl

/-- From that place on the caret is at one of the others. -/
theorem headedNodes_index_of_le {more : List (Heading × Written)} {further : Nat}
    (inside : heading.consumed + (value.text.length + 1) + further ≤
      (joined (propertyTexts ((heading, value) :: more)) rest?).length) :
    (headedNodes rest? start
        (some ((heading.consumed + (value.text.length + 1) + further : Nat) : Int))
        ((heading, value) :: more)).2 =
      (headedNodes rest? (start + (heading.consumed + (value.text.length + 1)))
        (some (further : Int)) more).2.map (· + 1) := by
  rw [headedNodes, Caret.into_of_le inside]
  cases others : (headedNodes rest? (start + (heading.consumed + (value.text.length + 1)))
      (some (further : Int)) more).2 with
  | none =>
      have caret := @isSome_headedNodes rest?
        (start + (heading.consumed + (value.text.length + 1))) (some (further : Int)) more
      rw [others] at caret
      contradiction
  | some later => rfl

/-- What is left of a body behind a property and its comma. -/
theorem length_joined_property {more : List (Heading × Written)} (colon : heading.colon = true)
    {further : Nat}
    (inside : heading.consumed + (value.text.length + 1) + further ≤
      (joined (propertyTexts ((heading, value) :: more)) rest?).length) :
    further ≤ (joined (propertyTexts more) rest?).length := by
  have rest := congrArg List.length
    (drop_joined_cons (heading.text ++ value.text) (propertyTexts more) rest?)
  rw [List.length_drop, List.length_append] at rest
  rw [Heading.consumed_of_colon colon, propertyTexts] at inside
  omega

/-- A caret before the place of the next property stands in the text of the first one. -/
theorem le_length_of_lt {more : List (Heading × Written)}
    (headed : Headed ((heading, value) :: more) rest?) {position : Nat}
    (inside : position ≤ (joined (propertyTexts ((heading, value) :: more)) rest?).length)
    (before : position < heading.consumed + (value.text.length + 1)) :
    position ≤ (heading.text ++ value.text).length := by
  cases colon : heading.colon with
  | true =>
      rw [Heading.consumed_of_colon colon] at before
      rw [List.length_append]
      omega
  | false =>
      obtain ⟨rfl, rfl, rfl⟩ := headed.2.1 colon
      exact inside

/-- Only behind a property with a colon there is a place for the next one. -/
theorem colon_of_le {more : List (Heading × Written)}
    (headed : Headed ((heading, value) :: more) rest?)
    (inside : heading.consumed + (value.text.length + 1) ≤
      (joined (propertyTexts ((heading, value) :: more)) rest?).length) :
    heading.colon = true := by
  cases colon : heading.colon with
  | true => rfl
  | false =>
      obtain ⟨rfl, rfl, rfl⟩ := headed.2.1 colon
      rw [Heading.consumed, propertyTexts, propertyTexts, joined_cons] at inside
      simp only [following, continued, List.isEmpty_nil, Option.isNone_none, Bool.and_self,
        if_true, List.append_nil, List.length_append] at inside
      omega

/-- With the caret in the text of a property, the property is at the caret. -/
theorem headedNodes_at (headed : Headed (earlier ++ (heading, value) :: later) rest?)
    {position : Nat} (inside : position ≤ (heading.text ++ value.text).length) :
    (headedNodes rest? start (some ((propertyOffset earlier + position : Nat) : Int))
        (earlier ++ (heading, value) :: later)).2 = some earlier.length ∧
      (headedNodes rest? start (some ((propertyOffset earlier + position : Nat) : Int))
        (earlier ++ (heading, value) :: later)).1[earlier.length]? =
          some (propertyNode rest? (start + propertyOffset earlier) position heading value
            later) := by
  induction earlier generalizing start with
  | nil =>
      have wide : position < heading.consumed + (value.text.length + 1) := by
        rw [List.length_append] at inside
        rw [Heading.consumed]
        omega
      rw [propertyOffset, propertyTexts, terminated, List.length_nil, Nat.zero_add, List.nil_append,
        headedNodes_index_of_lt wide]
      refine ⟨rfl, ?_⟩
      rw [headedNodes, List.length_nil, List.getElem?_cons_zero, propertyTexts, joined_cons]
      rfl
  | cons property more induct =>
      have colon := Headed.colon_of_append headed
      rcases property with ⟨first, firstValue⟩
      have length : (joined (propertyTexts ((first, firstValue) ::
          (more ++ (heading, value) :: later))) rest?).length ≥
            propertyOffset ((first, firstValue) :: more) + position := by
        rw [← List.cons_append, propertyTexts_append,
          propertyTexts.eq_def ((heading, value) :: later)]
        simp only
        rw [joined_append_cons, List.length_append, List.length_append, propertyOffset]
        omega
      rw [propertyOffset_cons colon, Nat.add_assoc] at length ⊢
      have rest := @induct (start + (first.consumed + (firstValue.text.length + 1))) headed.2.2
      rw [List.cons_append, headedNodes_index_of_le length, rest.1, headedNodes,
        Caret.into_of_le length, List.length_cons, List.getElem?_cons_succ, rest.2]
      exact ⟨rfl, by simp only [Nat.add_assoc]⟩

/-- The property at the caret of a body is one of those that are written, and the caret stands in
its text. -/
theorem exists_split_of_headedNodes {properties : List (Heading × Written)}
    (headed : Headed properties rest?) {position index : Nat}
    (inside : position ≤ (joined (propertyTexts properties) rest?).length)
    (found : (headedNodes rest? start (some (position : Int)) properties).2 = some index)
    (present : index < properties.length) :
    ∃ earlier heading value later offset, properties = earlier ++ (heading, value) :: later ∧
      earlier.length = index ∧ position = propertyOffset earlier + offset ∧
        offset ≤ (heading.text ++ value.text).length := by
  induction properties generalizing start position index with
  | nil => exact absurd present (Nat.not_lt_zero index)
  | cons property more induct =>
      rcases property with ⟨heading, value⟩
      -- The place behind the comma belongs to the next property already.
      by_cases before : position < heading.consumed + (value.text.length + 1)
      · rw [headedNodes_index_of_lt before] at found
        exact ⟨[], heading, value, more, position, rfl, Option.some.inj found,
          (Nat.zero_add position).symm, le_length_of_lt headed inside before⟩
      · obtain ⟨further, rfl⟩ := Nat.exists_eq_add_of_le (Nat.not_lt.mp before)
        have colon := colon_of_le headed (Nat.le_of_add_right_le inside)
        rw [headedNodes_index_of_le inside] at found
        rcases Option.map_eq_some_iff.mp found with ⟨index, others, rfl⟩
        obtain ⟨earlier, other, otherValue, rest, offset, rfl, length, rfl, within⟩ :=
          induct headed.2.2 (length_joined_property colon inside) others
            (Nat.lt_of_succ_lt_succ present)
        refine ⟨(heading, value) :: earlier, other, otherValue, rest, offset, rfl, ?_, ?_, within⟩
        · rw [List.length_cons, length]
        · rw [@propertyOffset_cons (heading, value) colon earlier]
          simp only [Nat.add_assoc]

/-! ## Values -/

section

variable {earlier later : List Written}

/-- Where a value starts in its body. -/
def valueOffset (earlier : List Written) : Nat :=
  (terminated (valueTexts earlier)).length

theorem valueOffset_cons (value : Written) (more : List Written) :
    valueOffset (value :: more) = value.text.length + 1 + valueOffset more := by
  rw [valueOffset, valueTexts, terminated, List.length_append, List.length_cons, valueOffset]
  omega

/-- The last value of a body, with a comma behind it if one is written. -/
theorem getLast?_writtenNodes (front : List Written) (value : Written) :
    ∃ last, (writtenNodes rest? start caret (front ++ [value])).1.getLast? =
      some (value.node (start + valueOffset front) last rest?.isSome) := by
  induction front generalizing start caret with
  | nil =>
      have comma : (following (valueTexts []) rest?).isSome = rest?.isSome := by
        cases rest? <;> rfl
      rw [List.nil_append, writtenNodes, writtenNodes, List.getLast?_singleton, comma]
      exact ⟨_, rfl⟩
  | cons first more induct =>
      obtain ⟨last, found⟩ := @induct (start + (first.text.length + 1))
        (caret.into (first.text.length + 1 : Nat)
          (joined (valueTexts (first :: (more ++ [value]))) rest?).length)
      refine ⟨last, ?_⟩
      rw [List.cons_append, writtenNodes, List.getLast?_cons, found, Option.getD_some,
        valueOffset_cons]
      simp only [Nat.add_assoc]

/-- Before the place of the next value the first one is at the caret. -/
theorem writtenNodes_index_of_lt {more : List Written} {position : Nat}
    (before : position < value.text.length + 1) :
    (writtenNodes rest? start (some (position : Int)) (value :: more)).2 = some 0 := by
  rw [writtenNodes, Caret.into_of_lt before, writtenNodes_of_no_caret]
  rfl

/-- From that place on the caret is at one of the others. -/
theorem writtenNodes_index_of_le {more : List Written} {further : Nat}
    (inside : value.text.length + 1 + further ≤
      (joined (valueTexts (value :: more)) rest?).length) :
    (writtenNodes rest? start (some ((value.text.length + 1 + further : Nat) : Int))
        (value :: more)).2 =
      (writtenNodes rest? (start + (value.text.length + 1)) (some (further : Int)) more).2.map
        (· + 1) := by
  rw [writtenNodes, Caret.into_of_le inside]
  cases others : (writtenNodes rest? (start + (value.text.length + 1)) (some (further : Int))
      more).2 with
  | none =>
      have caret := @isSome_writtenNodes rest? (start + (value.text.length + 1))
        (some (further : Int)) more
      rw [others] at caret
      contradiction
  | some later => rfl

/-- With the caret in the text of a value, the value is at the caret. -/
theorem writtenNodes_at {position : Nat} (inside : position ≤ value.text.length) :
    (writtenNodes rest? start (some ((valueOffset earlier + position : Nat) : Int))
        (earlier ++ value :: later)).2 = some earlier.length ∧
      (writtenNodes rest? start (some ((valueOffset earlier + position : Nat) : Int))
        (earlier ++ value :: later)).1[earlier.length]? =
          some (value.node (start + valueOffset earlier) (some (position : Int))
            (following (valueTexts later) rest?).isSome) := by
  induction earlier generalizing start with
  | nil =>
      rw [valueOffset, valueTexts, terminated, List.length_nil, Nat.zero_add, List.nil_append,
        writtenNodes_index_of_lt (Nat.lt_succ_of_le inside)]
      refine ⟨rfl, ?_⟩
      rw [writtenNodes]
      rfl
  | cons first more induct =>
      have length : valueOffset (first :: more) + position ≤
          (joined (valueTexts (first :: (more ++ value :: later))) rest?).length := by
        rw [← List.cons_append, valueTexts_append, valueTexts.eq_def (value :: later)]
        simp only
        rw [joined_append_cons, List.length_append, List.length_append, valueOffset]
        omega
      rw [valueOffset_cons, Nat.add_assoc] at length ⊢
      have rest := @induct (start + (first.text.length + 1))
      rw [List.cons_append, writtenNodes_index_of_le length, rest.1, writtenNodes,
        Caret.into_of_le length, List.length_cons, List.getElem?_cons_succ, rest.2]
      exact ⟨rfl, by simp only [Nat.add_assoc]⟩

/-- The value at the caret of a body is one of those that are written, and the caret stands in its
text. -/
theorem exists_split_of_writtenNodes {values : List Written} {position index : Nat}
    (inside : position ≤ (joined (valueTexts values) rest?).length)
    (found : (writtenNodes rest? start (some (position : Int)) values).2 = some index)
    (present : index < values.length) :
    ∃ earlier value later offset, values = earlier ++ value :: later ∧
      earlier.length = index ∧ position = valueOffset earlier + offset ∧
        offset ≤ value.text.length := by
  induction values generalizing start position index with
  | nil => exact absurd present (Nat.not_lt_zero index)
  | cons value more induct =>
      by_cases before : position < value.text.length + 1
      · rw [writtenNodes_index_of_lt before] at found
        exact ⟨[], value, more, position, rfl, Option.some.inj found,
          (Nat.zero_add position).symm, Nat.le_of_lt_succ before⟩
      · obtain ⟨further, rfl⟩ := Nat.exists_eq_add_of_le (Nat.not_lt.mp before)
        rw [writtenNodes_index_of_le inside] at found
        rcases Option.map_eq_some_iff.mp found with ⟨index, others, rfl⟩
        have fits : further ≤ (joined (valueTexts more) rest?).length := by
          have rest := congrArg List.length (drop_joined_cons value.text (valueTexts more) rest?)
          rw [List.length_drop] at rest
          rw [valueTexts] at inside
          omega
        obtain ⟨earlier, other, rest, offset, rfl, length, rfl, within⟩ :=
          induct fits others (Nat.lt_of_succ_lt_succ present)
        refine ⟨value :: earlier, other, rest, offset, rfl, ?_, ?_, within⟩
        · rw [List.length_cons, length]
        · rw [valueOffset_cons]
          simp only [Nat.add_assoc]

end

/-! ## Elements of objects and arrays -/

section

variable {before after : Text} {comma : Bool}

/-- A body with a caret in the text of a property, behind the opener of an object. -/
theorem bodyCaret_of_property {position : Nat}
    (inside : position ≤ (heading.text ++ value.text).length) :
    bodyCaret (some ((before.length + 1 + (propertyOffset earlier + position) : Nat) : Int)) before
        (joined (propertyTexts (earlier ++ (heading, value) :: later)) rest?) =
      some ((propertyOffset earlier + position : Nat) : Int) := by
  apply Caret.into_of_le
  rw [propertyTexts_append, propertyTexts, joined_append_cons, propertyOffset]
  simp only [List.length_append] at inside ⊢
  omega

/-- With the caret in the text of a property, the property is at the caret. -/
theorem node_of_property (headed : Headed (earlier ++ (heading, value) :: later) rest?)
    {position : Nat} (inside : position ≤ (heading.text ++ value.text).length) :
    ∃ raw nodes,
      (Written.object before (earlier ++ (heading, value) :: later) rest? after).node start
          (some ((before.length + 1 + (propertyOffset earlier + position) : Nat) : Int)) comma =
        .object raw start (some earlier.length) nodes ∧
      nodes.map propertyName = writtenNames earlier ++ heading.name :: writtenNames later ∧
      nodes[earlier.length]? = some (propertyNode rest?
        (start + (before.length + 1) + propertyOffset earlier) position heading value later) := by
  obtain ⟨index, property⟩ :=
    @headedNodes_at rest? (start + (before.length + 1)) earlier later heading value headed _ inside
  have names := @map_propertyName_headedNodes rest? (start + (before.length + 1))
    (some ((propertyOffset earlier + position : Nat) : Int)) (earlier ++ (heading, value) :: later)
  rw [writtenNames, List.map_append, List.map_cons] at names
  refine ⟨(Written.object before (earlier ++ (heading, value) :: later) rest? after).text ++
    commaText comma, _, ?_, names, property⟩
  rw [Written.node, bodyCaret_of_property inside, index]

/-- The property at the caret of a written object is one of those that are written, and the caret
stands in its text. -/
theorem exists_propertyNode_of_node {before : Text} {properties : List (Heading × Written)}
    {rest? : Option Text} (headed : Headed properties rest?) {start : Nat} {caret : Caret}
    {index : Nat} {property : Option Key × Node}
    (here : (headedNodes rest? (start + (before.length + 1))
      (bodyCaret caret before (joined (propertyTexts properties) rest?)) properties).2 = some index)
    (within : (headedNodes rest? (start + (before.length + 1))
      (bodyCaret caret before (joined (propertyTexts properties) rest?)) properties).1[index]? =
        some property) :
    ∃ earlier heading value later position, properties = earlier ++ (heading, value) :: later ∧
      caret = some ((before.length + 1 + (propertyOffset earlier + position) : Nat) : Int) ∧
        position ≤ (heading.text ++ value.text).length ∧
          property = propertyNode rest? (start + (before.length + 1) + propertyOffset earlier)
            position heading value later := by
  have present := (List.getElem?_eq_some_iff.mp within).1
  rw [length_headedNodes] at present
  obtain ⟨offset, caretIn⟩ := exists_bodyCaret_of_isSome <| by
    rw [← @isSome_headedNodes rest? (start + (before.length + 1)) _ properties, here]
    rfl
  rw [caretIn.1] at here within
  obtain ⟨earlier, heading, value, later, position, rfl, length, rfl, inside⟩ :=
    exists_split_of_headedNodes headed caretIn.2.2 here present
  rw [← length, (headedNodes_at headed inside).2, Option.some.injEq] at within
  exact ⟨earlier, heading, value, later, position, rfl, caretIn.2.1, inside, within.symm⟩

/-- The value at the caret of a written array is one of those that are written. -/
theorem exists_writtenNode_of_node {before : Text} {values : List Written} {rest? : Option Text}
    {start : Nat} {caret : Caret} {index : Nat} {node : Node}
    (here : (writtenNodes rest? (start + (before.length + 1))
      (bodyCaret caret before (joined (valueTexts values) rest?)) values).2 = some index)
    (within : (writtenNodes rest? (start + (before.length + 1))
      (bodyCaret caret before (joined (valueTexts values) rest?)) values).1[index]? = some node) :
    ∃ earlier value later position, values = earlier ++ value :: later ∧
      caret = some ((before.length + 1 + (valueOffset earlier + position) : Nat) : Int) ∧
        ∃ comma, node = value.node (start + (before.length + 1) + valueOffset earlier)
          (some (position : Int)) comma := by
  have present := (List.getElem?_eq_some_iff.mp within).1
  rw [length_writtenNodes] at present
  obtain ⟨offset, caretIn⟩ := exists_bodyCaret_of_isSome <| by
    rw [← @isSome_writtenNodes rest? (start + (before.length + 1)) _ values, here]
    rfl
  rw [caretIn.1] at here within
  obtain ⟨earlier, value, later, position, rfl, length, rfl, inside⟩ :=
    exists_split_of_writtenNodes caretIn.2.2 here present
  rw [← length, (writtenNodes_at inside).2, Option.some.injEq] at within
  exact ⟨earlier, value, later, position, rfl, caretIn.2.1, _, within.symm⟩

end

/-! ## Layers with the caret in the hole -/

theorem Heading.length_text_of_colon (colon : heading.colon = true) :
    heading.text.length =
      heading.opening.length + heading.name.length + heading.closing.length + 1 := by
  rw [text_of_colon colon, stem]
  simp only [List.length_append, List.length_singleton]

/-- Behind the colon the caret is not in the key. -/
theorem Heading.key_cursor_of_lt (colon : heading.colon = true) (start position : Nat) :
    (heading.key start (some ((heading.text.length + position : Nat) : Int))).cursor = none := by
  have behind : heading.opening.length + heading.name.length < heading.text.length + position := by
    rw [heading.length_text_of_colon colon]
    omega
  exact Caret.within_of_lt behind _

namespace Layer

theorem WellFormed.colon {before after : Text}
    (wellFormed : (Layer.property before earlier heading later rest? after).WellFormed) :
    heading.colon = true := by
  cases wellFormed with
  | property _ _ _ headed _ _ => exact (headed (.array [] [] none [])).colon_of_visible rfl

theorem length_leading_property {before after : Text} :
    (Layer.property before earlier heading later rest? after).leading.length =
      before.length + 1 + (propertyOffset earlier + heading.text.length) := by
  simp only [leading, Layer.before, opening, propertyOffset, List.length_append, List.length_cons]
  omega

theorem length_leading_value {before after : Text} {earlier later : List Written} :
    (Layer.value before earlier later rest? after).leading.length =
      before.length + 1 + valueOffset earlier := by
  simp only [leading, Layer.before, opening, valueOffset, List.length_append, List.length_cons]
  omega

/-- The object of a layer, with the caret in the hole. -/
theorem WellFormed.exists_node_plug_property {before after : Text} {written : Written}
    (wellFormed : (Layer.property before earlier heading later rest? after).WellFormed)
    {position : Nat} (inside : position ≤ written.text.length) (start : Nat) (comma : Bool) :
    ∃ raw properties key,
      ((Layer.property before earlier heading later rest? after).plug written).node start
          (some (((Layer.property before earlier heading later rest? after).leading.length +
            position : Nat) : Int)) comma = .object raw start (some earlier.length) properties ∧
        properties.map propertyName = writtenNames earlier ++ heading.name :: writtenNames later ∧
        properties[earlier.length]? =
          some (some key, written.node
            (start + (Layer.property before earlier heading later rest? after).leading.length)
            (some (position : Int))
            (Layer.property before earlier heading later rest? after).more?.isSome) ∧
        key.cursor = none ∧ key.name = heading.name := by
  have colon := wellFormed.colon
  have headed : Headed (earlier ++ (heading, written) :: later) rest? := by
    cases wellFormed with
    | property _ _ _ headed _ _ => exact headed written
  have within : heading.text.length + position ≤ (heading.text ++ written.text).length := by
    rw [List.length_append]
    omega
  have whole : (Layer.property before earlier heading later rest? after).leading.length +
      position =
        before.length + 1 + (propertyOffset earlier + (heading.text.length + position)) := by
    rw [length_leading_property]
    omega
  obtain ⟨raw, nodes, node, names, property⟩ :=
    @node_of_property rest? start earlier later heading written before after comma headed _ within
  have inner : Caret.into (some ((heading.text.length + position : Nat) : Int)) heading.consumed
      (heading.text ++ written.text ++ continued (following (propertyTexts later) rest?)).length =
        some (position : Int) := by
    rw [Heading.consumed_of_colon colon]
    apply Caret.into_of_le
    simp only [List.length_append]
    omega
  have place : start + (before.length + 1) + propertyOffset earlier + heading.consumed =
      start + (Layer.property before earlier heading later rest? after).leading.length := by
    rw [length_leading_property, Heading.consumed_of_colon colon]
    omega
  rw [propertyNode, inner, place] at property
  rw [whole]
  exact ⟨raw, nodes, _, node, names, property,
    heading.key_cursor_of_lt colon (start + (before.length + 1) + propertyOffset earlier) position,
    rfl⟩

/-- The array of a layer, with the caret in the hole. -/
theorem exists_node_plug_value {before after : Text} {earlier later : List Written}
    {written : Written} {position : Nat} (inside : position ≤ written.text.length) (start : Nat)
    (comma : Bool) :
    ∃ raw values,
      ((Layer.value before earlier later rest? after).plug written).node start
          (some (((Layer.value before earlier later rest? after).leading.length +
            position : Nat) : Int)) comma = .array raw start (some earlier.length) values ∧
        values[earlier.length]? =
          some (written.node
            (start + (Layer.value before earlier later rest? after).leading.length)
            (some (position : Int))
            (Layer.value before earlier later rest? after).more?.isSome) := by
  have length : before.length + 1 + (valueOffset earlier + position) ≤
      before.length + 1 + (joined (valueTexts (earlier ++ written :: later)) rest?).length := by
    rw [valueTexts_append, valueTexts, joined_append_cons, valueOffset]
    simp only [List.length_append]
    omega
  have caret : bodyCaret
      (some (((Layer.value before earlier later rest? after).leading.length +
        position : Nat) : Int)) before (joined (valueTexts (earlier ++ written :: later)) rest?) =
      some ((valueOffset earlier + position : Nat) : Int) := by
    rw [length_leading_value, Nat.add_assoc, bodyCaret]
    exact Caret.into_of_le length
  obtain ⟨index, value⟩ :=
    @writtenNodes_at rest? (start + (before.length + 1)) written earlier later _ inside
  rw [Nat.add_assoc start, ← @length_leading_value rest? before after earlier later] at value
  refine ⟨((Layer.value before earlier later rest? after).plug written).text ++ commaText comma, _,
    ?_, value⟩
  rw [plug, Written.node, caret, index]

end Layer

end Typeahead.Selector

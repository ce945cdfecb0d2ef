import Typeahead.Proofs.Selector.Extent

/-!
# The sources that nodes are taken from

Each node of a tree was taken as a value from a source, and each element of an object or array from
one of the sources along the trail through its body. What reading passes on, behind a key, behind a
value and into a body, holds of all of these sources once it holds of the first one.
-/

namespace Typeahead.Selector

/-- Something that reading passes on from a source to the sources that it goes on with. -/
structure Keeps (motive : Source → Prop) : Prop where
  key : ∀ {source}, motive source → motive source.takeKey.2
  value : ∀ {source}, motive source → motive source.takeValue.2
  body : ∀ {source delimiter body}, motive source →
    source.takeValue.1.body? = some (delimiter, body) → motive body

namespace Keeps

variable {motive : Source → Prop}

theorem property (keeps : Keeps motive) {source : Source} (holds : motive source) :
    motive source.takeProperty.2 :=
  keeps.value (keeps.key holds)

theorem and {other : Source → Prop} (keeps : Keeps motive) (others : Keeps other) :
    Keeps fun source => motive source ∧ other source where
  key holds := ⟨keeps.key holds.1, others.key holds.2⟩
  value holds := ⟨keeps.value holds.1, others.value holds.2⟩
  body holds found := ⟨keeps.body holds.1 found, others.body holds.2 found⟩

/-- Each node below a value was taken from a source that reading came to. -/
theorem exists_source (keeps : Keeps motive) {source : Source} (holds : motive source)
    {node : Node} (part : Node.Part source.takeValue.1.node node) :
    ∃ origin, motive origin ∧ origin.takeValue.1.node = node := by
  induction part with
  | root => exact ⟨source, holds, rfl⟩
  | property _ member inductionHypothesis =>
      rcases inductionHypothesis with ⟨outer, outerHolds, looked⟩
      obtain ⟨body, found, _, rfl⟩ := Chunk.exists_of_node_eq_object looked
      rcases List.mem_map.mp member with ⟨taken, among, rfl⟩
      obtain ⟨inner, innerHolds, rfl⟩ :=
        Source.exists_take_of_mem_elements_of_keeps (fun _ => keeps.property)
          (keeps.body outerHolds found) among
      exact ⟨inner.takeKey.2, keeps.key innerHolds, rfl⟩
  | value _ member inductionHypothesis =>
      rcases inductionHypothesis with ⟨outer, outerHolds, looked⟩
      obtain ⟨delimiter, body, found, _, _, rfl⟩ := Chunk.exists_of_node_eq_array looked
      rcases List.mem_map.mp member with ⟨taken, among, rfl⟩
      obtain ⟨inner, innerHolds, rfl⟩ :=
        Source.exists_take_of_mem_elements_of_keeps (fun _ => keeps.value)
          (keeps.body outerHolds found) among
      exact ⟨inner, innerHolds, rfl⟩

end Keeps

/-- All that is read from a text shows the text. -/
theorem keeps_lies (text : Text) : Keeps (Source.Lies text 0) where
  key lies := lies.takeKey.2
  value lies := lies.takeValue.2
  body lies found :=
    { least := Nat.zero_le _
      shows := (lies.takeValue.1.body found).shows }

/-! ## The trail through a body -/

namespace Source

/-- The sources from which the elements are taken one after the other, and the blank source that is
left behind them. -/
def trail {α : Type} (take : Source → α × Source)
    (shortens : ∀ source, source.raw ≠ [] → (take source).2.raw.length < source.raw.length)
    (source : Source) : List Source :=
  if source.raw.isBlank then [source] else source :: trail take shortens (take source).2
termination_by source.raw.length
decreasing_by
  rename_i visible
  apply shortens
  intro empty
  simp [empty, Text.isBlank] at visible

variable {α : Type} (take : Source → α × Source)
  (shortens : ∀ source, source.raw ≠ [] → (take source).2.raw.length < source.raw.length)

theorem trail_of_blank {source : Source} (blank : source.raw.isBlank = true) :
    source.trail take shortens = [source] := by
  rw [trail, if_pos blank]

theorem trail_of_not_blank {source : Source} (visible : source.raw.isBlank = false) :
    source.trail take shortens = source :: (take source).2.trail take shortens := by
  rw [trail, if_neg (by rw [visible]; exact Bool.false_ne_true)]

theorem head?_trail (source : Source) : (source.trail take shortens).head? = some source := by
  rw [trail]
  split <;> rfl

/-- The elements of a body that is not blank are taken from the body itself and along the trail behind
the first element. -/
theorem dropLast_trail_of_not_blank {source : Source} (visible : source.raw.isBlank = false) :
    (source.trail take shortens).dropLast =
      source :: ((take source).2.trail take shortens).dropLast := by
  have further : (take source).2.trail take shortens ≠ [] := by
    intro none
    have first := head?_trail take shortens (take source).2
    rw [none] at first
    contradiction
  rw [trail_of_not_blank take shortens visible, List.dropLast_cons_of_ne_nil further]

/-- The index of the element that holds the caret is there if and only if the caret is. -/
theorem isSome_elements (source : Source) :
    (source.elements take shortens).2.isSome = source.caret.isSome := by
  rw [elements]
  split <;> exact Option.isSome_map

/-- Without a caret no element holds it. -/
theorem index_eq_none {source : Source} (noCaret : source.caret = none) :
    (source.elements take shortens).2 = none := by
  rw [← Option.not_isSome_iff_eq_none, isSome_elements, noCaret]
  exact Bool.false_ne_true

/-- The elements are what is taken along the trail. -/
theorem elements_eq_map_trail (source : Source) :
    (source.elements take shortens).1 =
      (source.trail take shortens).dropLast.map fun part => (take part).1 := by
  fun_induction elements take shortens source with
  | case1 source blank =>
      rw [trail_of_blank take shortens blank]
      rfl
  | case2 source visible taken others inductionHypothesis =>
      rw [dropLast_trail_of_not_blank take shortens (Bool.eq_false_iff.mpr visible),
        inductionHypothesis]
      rfl

end Source

end Typeahead.Selector

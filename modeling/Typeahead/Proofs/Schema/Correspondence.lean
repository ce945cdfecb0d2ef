import Typeahead.Proofs.Schema.Checked
import Typeahead.Proofs.Schema.Invariant

/-!
# Shapes and tables

The shape of a survey is a tree of names, and its table is flat. Names with points in them and empty
names let several nodes of the shape share one path. Still the paths that have flags are those of
the nodes of the shape, and this lasts through each array and object that the survey goes into.

So the survey finds flags wherever it looks for them. As it takes no kind from flags, they keep the
kinds that they once have.
-/

namespace Typeahead.Schema

open Document (Value Name IsContainer Value.induction)

/-! ## Nodes of a shape -/

namespace Shape

/-- The names remembered at a node. -/
def names (node : Shape) : List Text :=
  Entries.keys (node.children?.getD [])

/-- The node at the end of a route into a shape. -/
def node? (shape : Shape) : Route → Option Shape
  | [] => some shape
  | name :: rest => (Entries.find? (shape.children?.getD []) name).bind (node? · rest)

theorem node?_append (shape : Shape) (front back : Route) :
    shape.node? (front ++ back) = (shape.node? front).bind (·.node? back) := by
  induction front generalizing shape with
  | nil => rfl
  | cons name rest inductionHypothesis =>
      rw [List.cons_append, node?, node?, Option.bind_assoc]
      exact congrArg _ (funext fun child => inductionHypothesis child)

variable {shape later child : Shape} {known : Entries Shape} {path other name : Text}

/-- There is a node one name below another if and only if the name is remembered there. -/
theorem isSome_node?_concat_iff {route : Route} :
    (shape.node? (route ++ [name])).isSome ↔
      ∃ node, shape.node? route = some node ∧ name ∈ node.names := by
  rw [node?_append]
  cases shape.node? route with
  | none => simp
  | some node => simp [node?, names, ← Entries.isSome_find?_iff]

/-- A shape at a path has a node with another path. -/
def Leads (shape : Shape) (path other : Text) : Prop :=
  ∃ route, (shape.node? route).isSome ∧ route.foldl Table.below path = other

theorem Leads.self (shape : Shape) (path : Text) : shape.Leads path path :=
  ⟨[], rfl, rfl⟩

theorem Leads.of_child (found : Entries.find? (shape.children?.getD []) name = some child)
    (leads : child.Leads (Table.below path name) other) : shape.Leads path other := by
  obtain ⟨route, present, same⟩ := leads
  refine ⟨name :: route, ?_, same⟩
  rw [node?, found]
  exact present

theorem leads_iff :
    shape.Leads path other ↔ path = other ∨
      ∃ name child, Entries.find? (shape.children?.getD []) name = some child ∧
        child.Leads (Table.below path name) other := by
  constructor
  · rintro ⟨route, present, same⟩
    cases route with
    | nil => exact .inl same
    | cons name rest =>
        rw [node?, Option.isSome_bind, Option.any_eq_true] at present
        obtain ⟨child, found, below⟩ := present
        exact .inr ⟨name, child, found, rest, below, same⟩
  · rintro (rfl | ⟨name, child, found, leads⟩)
    · exact .self shape path
    · exact leads.of_child found

/-- A shape has a node wherever another one has. -/
def Extends (later shape : Shape) : Prop :=
  ∀ route, (shape.node? route).isSome → (later.node? route).isSome

theorem Leads.mono (leads : shape.Leads path other) (grown : later.Extends shape) :
    later.Leads path other := by
  obtain ⟨route, present, same⟩ := leads
  exact ⟨route, grown route present, same⟩

/-- A shape that is opened has the nodes that it had before. -/
theorem isSome_node?_opened (shape : Shape) (route : Route) :
    ((Shape.mk (some (shape.children?.getD []))).node? route).isSome =
      (shape.node? route).isSome := by
  cases route <;> rfl

/-- Below a name that is given a shape are the nodes of that shape. -/
theorem leads_insert_iff :
    (Shape.mk (some (known.insert name child))).Leads path other ↔
      path = other ∨ child.Leads (Table.below path name) other ∨
        ∃ first old, name ≠ first ∧ known.find? first = some old ∧
          old.Leads (Table.below path first) other := by
  rw [leads_iff]
  apply or_congr_right
  simp only [children?, Option.getD_some, Entries.find?_insert]
  constructor
  · rintro ⟨first, old, found, leads⟩
    by_cases same : name = first
    · subst same
      rw [if_pos rfl, Option.some.injEq] at found
      exact .inl (found ▸ leads)
    · rw [if_neg same] at found
      exact .inr ⟨first, old, same, found, leads⟩
  · rintro (leads | ⟨first, old, apart, found, leads⟩)
    · exact ⟨name, child, if_pos rfl, leads⟩
    · exact ⟨first, old, (if_neg apart).trans found, leads⟩

/-- A name is given a shape that extends the one that it had, if it had one. -/
theorem extends_insert (grown : child.Extends ((known.find? name).getD (.mk none))) :
    (Shape.mk (some (known.insert name child))).Extends (.mk (some known)) := by
  intro route present
  cases route with
  | nil => rfl
  | cons first rest =>
      rw [node?, children?, Option.getD_some, Option.isSome_bind, Option.any_eq_true] at present
      obtain ⟨old, found, below⟩ := present
      rw [node?, children?, Option.getD_some, Entries.find?_insert]
      by_cases same : name = first
      · subst same
        rw [found] at grown
        rw [if_pos rfl]
        exact grown rest below
      · rw [if_neg same, found]
        exact below

end Shape

/-! ## Parts of a survey -/

namespace Table

variable {table arrived : Table} {path name : Text} {shape : Shape} {known : Entries Shape}

/-- A table has flags for the path of each node of a shape at a path. -/
def Covers (table : Table) (path : Text) (shape : Shape) : Prop :=
  ∀ other, shape.Leads path other → other ∈ Entries.keys table

theorem Covers.self (covers : table.Covers path shape) : path ∈ Entries.keys table :=
  covers path (.self shape path)

theorem Covers.child {child : Shape} (covers : table.Covers path shape)
    (found : Entries.find? (shape.children?.getD []) name = some child) :
    table.Covers (below path name) child :=
  fun other leads => covers other (leads.of_child found)

/-- The names remembered at a node have flags below its path. -/
theorem Covers.below (covers : table.Covers path shape) (remembered : name ∈ shape.names) :
    Table.below path name ∈ Entries.keys table := by
  obtain ⟨child, found⟩ :=
    Option.isSome_iff_exists.mp (Entries.isSome_find?_iff.mpr remembered)
  exact (covers.child found).self

/-- A path got flags if it had none. -/
def Arrives (child : Text) (table arrived : Table) : Prop :=
  ∀ other, other ∈ Entries.keys arrived ↔ other ∈ Entries.keys table ∨ child = other

theorem arrives_touch (table : Table) (child : Text) (absent : Bool) :
    Arrives child table
      (if absent then (table.touch child).mark child .null else table.touch child) := by
  intro other
  rw [← Entries.isSome_find?_iff, find?_arrive, ← Entries.isSome_find?_iff]
  by_cases same : child = other <;> simp [same]

/-- A new node has no names below it, and an old one is covered with the shape that knows it. -/
theorem Covers.arrive (covers : table.Covers path (.mk (some known)))
    (arrives : Arrives (Table.below path name) table arrived) :
    arrived.Covers (Table.below path name) ((known.find? name).getD (.mk none)) := by
  intro other leads
  rw [arrives]
  cases found : known.find? name with
  | none =>
      rw [found, Shape.leads_iff] at leads
      rcases leads with same | ⟨_, _, impossible, _⟩
      · exact .inr same
      · contradiction
  | some child =>
      rw [found] at leads
      exact .inl (covers.child found other leads)

theorem keys_mark_markNull (table : Table) (path : Text) (kind : Kind) (names : List Text) :
    Entries.keys ((table.mark path kind).markNull path names) = Entries.keys table :=
  (keys_markNull ..).trans (Entries.keys_modify ..)

/-- Where a container stands, it can be marked, and so can the names that are remembered there. -/
theorem Covers.change?_bind_markNull? (covers : table.Covers path shape) (kind : Kind)
    {names : List Text} (remembered : names ⊆ shape.names) :
    (table.change? path (·.mark kind)).bind (·.markNull? path names) =
      some ((table.mark path kind).markNull path names) := by
  have marked : table.change? path (·.mark kind) = some (table.mark path kind) :=
    change?_eq_some_iff.mpr ⟨covers.self, rfl⟩
  rw [marked, Option.bind_some]
  apply markNull?_eq_some_iff.mpr
  constructor
  · intro name among
    rw [mark, Entries.keys_modify]
    exact covers.below (remembered among)
  · rfl

end Table

/-- What a part of a survey makes of the shape at a path and of the table: no node is lost, and the
paths that get flags are those of nodes. -/
structure Advances (path : Text) (before later : Shape × Table) : Prop where
  grown : later.1.Extends before.1
  mem_keys_iff : ∀ other, other ∈ Entries.keys later.2 ↔
    other ∈ Entries.keys before.2 ∨ later.1.Leads path other

namespace Advances

variable {path : Text} {first second third : Shape × Table} {shape : Shape} {table : Table}

theorem covers (advances : Advances path first second) : second.2.Covers path second.1 :=
  fun other leads => (advances.mem_keys_iff other).mpr (.inr leads)

/-- A part of a survey that changes flags only. -/
theorem of_keys {later : Table} (covers : table.Covers path shape)
    (same : Entries.keys later = Entries.keys table) :
    Advances path (shape, table) (shape, later) where
  grown _ := id
  mem_keys_iff other := by
    rw [same]
    exact (or_iff_left_of_imp (covers other)).symm

theorem trans (start : Advances path first second) (rest : Advances path second third) :
    Advances path first third where
  grown route present := rest.grown route (start.grown route present)
  mem_keys_iff other := by
    rw [rest.mem_keys_iff, start.mem_keys_iff, or_assoc]
    exact or_congr_right (or_iff_right_of_imp fun leads => leads.mono rest.grown)

/-- The survey comes to a container. -/
theorem opened (covers : table.Covers path shape) (kind : Kind) (names : List Text) :
    Advances path (shape, table)
      (.mk (some (shape.children?.getD [])), (table.mark path kind).markNull path names) where
  grown route present := by
    rw [Shape.isSome_node?_opened]
    exact present
  mem_keys_iff other := by
    rw [Table.keys_mark_markNull, Shape.Leads]
    simp only [Shape.isSome_node?_opened]
    exact (or_iff_left_of_imp (covers other)).symm

/-- The survey comes back from a field. -/
theorem insert {name : Text} {known : Entries Shape} {arrived : Table} {later : Shape × Table}
    (covers : table.Covers path (.mk (some known)))
    (arrives : Table.Arrives (Table.below path name) table arrived)
    (advances : Advances (Table.below path name)
      ((known.find? name).getD (.mk none), arrived) later) :
    Advances path (.mk (some known), table)
      (.mk (some (known.insert name later.1)), later.2) where
  grown := Shape.extends_insert advances.grown
  mem_keys_iff other := by
    rw [advances.mem_keys_iff, arrives, Shape.leads_insert_iff]
    constructor
    · rintro ((old | rfl) | leads)
      · exact .inl old
      · exact .inr (.inr (.inl (.self later.1 _)))
      · exact .inr (.inr (.inl leads))
    · -- The nodes beside the field had flags before the survey came to it.
      rintro (old | rfl | leads | ⟨other, child, _, found, leads⟩)
      · exact .inl (.inl old)
      · exact .inl (.inl covers.self)
      · exact .inr leads
      · exact .inl (.inl (covers.child found _ leads))

end Advances

/-- The checked survey of a value does not fail where the table covers the shape. -/
def Succeeds (value : Value) : Prop :=
  ∀ {path : Text} {shape : Shape} {table : Table}, table.Covers path shape →
    visit? path shape table value = some (visit path shape table value) ∧
      Advances path (shape, table) (visit path shape table value)

theorem Succeeds.leaf {value : Value} (leaf : ¬IsContainer value) : Succeeds value := by
  intro path shape table covers
  have noted : table.change? path (·.note value) = some (table.modify path (·.note value)) :=
    Table.change?_eq_some_iff.mpr ⟨covers.self, rfl⟩
  rw [visit?_of_leaf path shape table leaf, visit_of_leaf path shape table leaf, noted]
  exact ⟨rfl, .of_keys covers (Entries.keys_modify ..)⟩

/-- The elements of an array are seen at one path, each with the shape that those before left. -/
theorem visitElements?_eq_some {elements : List Value}
    (succeeds : ∀ element ∈ elements, Succeeds element) {path : Text} {shape : Shape}
    {table : Table} (covers : table.Covers path shape) :
    visitElements? path shape table elements = some (visitElements path shape table elements) ∧
      Advances path (shape, table) (visitElements path shape table elements) := by
  induction elements generalizing shape table with
  | nil => exact ⟨rfl, .of_keys covers rfl⟩
  | cons element rest inductionHypothesis =>
      obtain ⟨visited, start⟩ := succeeds element List.mem_cons_self covers
      obtain ⟨others, later⟩ := inductionHypothesis
        (fun other member => succeeds other (List.mem_cons_of_mem _ member)) start.covers
      rw [visitElements?, visitElements, visited]
      exact ⟨others, start.trans later⟩

/-- The fields of an object are seen at paths below its own, which need not be distinct. -/
theorem visitFields?_eq_some {fields : List (Name × Value)}
    (succeeds : ∀ field ∈ fields, Succeeds field.2) {path : Text} {seen : Bool}
    {known : Entries Shape} {table : Table} (covers : table.Covers path (.mk (some known))) :
    visitFields? path seen known table fields = some (visitFields path seen known table fields) ∧
      Advances path (.mk (some known), table) (visitFields path seen known table fields) := by
  induction fields generalizing known table with
  | nil => exact ⟨rfl, .of_keys covers rfl⟩
  | cons field rest inductionHypothesis =>
      obtain ⟨name, value⟩ := field
      -- The path of the field has flags before the shape takes in the name.
      have arrives := Table.arrives_touch table (Table.below path name.spelled)
        ((known.find? name.spelled).isNone && seen)
      obtain ⟨visited, advances⟩ := succeeds _ List.mem_cons_self (covers.arrive arrives)
      have inserted := advances.insert covers arrives
      obtain ⟨others, later⟩ := inductionHypothesis
        (fun other member => succeeds other (List.mem_cons_of_mem _ member)) inserted.covers
      rw [visitFields?, visitFields, visited]
      exact ⟨others, inserted.trans later⟩

theorem Succeeds.array {elements : List Value}
    (succeeds : ∀ element ∈ elements, Succeeds element) : Succeeds (.array elements) := by
  intro path shape table covers
  have marked := covers.change?_bind_markNull? .array (List.Subset.refl shape.names)
  have start := Advances.opened covers .array shape.names
  obtain ⟨inside, later⟩ := visitElements?_eq_some succeeds start.covers
  constructor
  · calc
      visit? path shape table (.array elements)
        = ((table.change? path (·.mark .array)).bind (·.markNull? path shape.names)).bind
            fun marked =>
              visitElements? path (.mk (some (shape.children?.getD []))) marked elements :=
          (Option.bind_assoc ..).symm
      _ = some (visit path shape table (.array elements)) := by
          rw [marked]
          exact inside
  · exact start.trans later

theorem Succeeds.object {fields : List (Name × Value)}
    (succeeds : ∀ field ∈ fields, Succeeds field.2) : Succeeds (.object fields) := by
  intro path shape table covers
  have remembered : missing (shape.children?.getD []) fields ⊆ shape.names :=
    List.filter_sublist.subset
  have marked := covers.change?_bind_markNull? .object remembered
  have start := Advances.opened covers .object (missing (shape.children?.getD []) fields)
  obtain ⟨inside, later⟩ := visitFields?_eq_some succeeds start.covers
  constructor
  · calc
      visit? path shape table (.object fields)
        = ((table.change? path (·.mark .object)).bind
            (·.markNull? path (missing (shape.children?.getD []) fields))).bind
            fun marked =>
              visitFields? path shape.children?.isSome (shape.children?.getD []) marked fields :=
          (Option.bind_assoc ..).symm
      _ = some (visit path shape table (.object fields)) := by
          rw [marked]
          exact inside
  · exact start.trans later

/-- The checked survey of a value does not fail, whatever stands below the value. -/
theorem succeeds (value : Value) : Succeeds value := by
  induction value using Value.induction with
  | leaf value leaf => exact Succeeds.leaf leaf
  | array elements below => exact Succeeds.array below
  | object fields below => exact Succeeds.object below

/-! ## Kinds -/

namespace Table

/-- The paths that have flags in a table have flags in a later one, with the kinds that they had. -/
def KeptIn (table later : Table) : Prop :=
  ∀ path flags, table.find? path = some flags →
    ∃ kept, later.find? path = some kept ∧ ∀ kind, flags.has kind = true → kept.has kind = true

theorem KeptIn.modify {table later : Table} (kept : table.KeptIn later) (path : Text)
    {change : SurveyFlags → SurveyFlags}
    (keeps : ∀ flags kind, flags.has kind = true → (change flags).has kind = true) :
    table.KeptIn (Entries.modify later path change) := by
  intro other flags found
  obtain ⟨before, known, has⟩ := kept other flags found
  rw [Entries.find?_modify, known]
  by_cases same : path = other
  · rw [if_pos same]
    exact ⟨change before, rfl, fun kind shown => keeps before kind (has kind shown)⟩
  · rw [if_neg same]
    exact ⟨before, rfl, has⟩

theorem KeptIn.touch {table later : Table} (kept : table.KeptIn later) (path : Text) :
    table.KeptIn (later.touch path) := by
  intro other flags found
  obtain ⟨before, known, has⟩ := kept other flags found
  refine ⟨before, ?_, has⟩
  rw [find?_touch, known]
  split <;> rfl

/-- Each change that a survey makes to a table leaves the kinds that are there. -/
theorem invariant_keptIn (table : Table) : Invariant table.KeptIn fun _ => True where
  touch path kept := kept.touch path
  mark path kept := kept.modify path fun flags kind shown => by
    rw [Flags.has_mark, shown, Bool.or_true]
  note path value _ kept := kept.modify path fun flags kind shown => by
    rw [SurveyFlags.has_note, shown, Bool.or_true]

end Table

/-! ## Surveys of documents -/

namespace Survey

/-- The paths that have flags are those of the nodes of the shape. -/
def Corresponds (survey : Survey) : Prop :=
  ∀ path, path ∈ Entries.keys survey.table ↔ survey.shape.Leads [] path

theorem corresponds_empty : ({} : Survey).Corresponds := by
  intro path
  rw [Shape.leads_iff]
  constructor
  · intro known
    exact .inl (List.mem_singleton.mp known).symm
  · rintro (same | ⟨_, _, impossible, _⟩)
    · exact List.mem_singleton.mpr same.symm
    · contradiction

/-- One document is surveyed without a failure, and then shape and table correspond again. -/
theorem Corresponds.add {survey : Survey} (corresponds : survey.Corresponds)
    (document : Document) :
    survey.add? document = some (survey.add document) ∧ (survey.add document).Corresponds := by
  obtain ⟨visited, advances⟩ :=
    succeeds (.object document) fun other leads => (corresponds other).mpr leads
  constructor
  · rw [add?, visited]
    rfl
  · intro path
    have still : path ∈ Entries.keys survey.table → (survey.add document).shape.Leads [] path :=
      fun known => ((corresponds path).mp known).mono advances.grown
    exact (advances.mem_keys_iff path).trans (or_iff_right_of_imp still)

theorem Corresponds.addAll {survey : Survey} (corresponds : survey.Corresponds)
    (documents : List Document) :
    survey.addAll? documents = some (survey.addAll documents) ∧
      (survey.addAll documents).Corresponds := by
  induction documents generalizing survey with
  | nil => exact ⟨rfl, corresponds⟩
  | cons document rest inductionHypothesis =>
      obtain ⟨added, next⟩ := corresponds.add document
      obtain ⟨others, last⟩ := inductionHypothesis next
      constructor
      · rw [addAll?, List.foldlM_cons, added]
        exact others
      · exact last

/-- The shape and the table of a survey are in step. -/
structure InStep (survey : Survey) : Prop where
  /-- The document itself has flags. -/
  document : [] ∈ Entries.keys survey.table
  /-- The names that a node remembers have flags at their paths below it. -/
  flagged : ∀ route node, survey.shape.node? route = some node → ∀ name ∈ node.names,
    Table.below route.path name ∈ Entries.keys survey.table
  /-- All other flags than those of the document are those of a name that a node remembers. -/
  remembered : ∀ path ∈ Entries.keys survey.table, path ≠ [] →
    ∃ route node, survey.shape.node? route = some node ∧
      ∃ name ∈ node.names, Table.below route.path name = path

theorem Corresponds.inStep {survey : Survey} (corresponds : survey.Corresponds) :
    survey.InStep where
  document := (corresponds []).mpr ⟨[], rfl, rfl⟩
  flagged route node found name known := by
    rw [corresponds, ← Route.path_concat]
    exact ⟨route ++ [name], Shape.isSome_node?_concat_iff.mpr ⟨node, found, known⟩, rfl⟩
  remembered path known present := by
    obtain ⟨route, found, rfl⟩ := (corresponds path).mp known
    rcases List.eq_nil_or_concat route with rfl | ⟨front, name, rfl⟩
    · exact absurd rfl present
    · rw [List.concat_eq_append] at found ⊢
      obtain ⟨node, above, among⟩ := Shape.isSome_node?_concat_iff.mp found
      exact ⟨front, node, above, name, among, (Route.path_concat front name).symm⟩

/-- After any documents shape and table are in step: the names that nodes remember are those that
have flags. So no look-up fails in the documents that follow. A path that is flagged with a kind
stays flagged with it. -/
theorem inStep_addAll (documents more : List Document) :
    let survey := ({} : Survey).addAll documents
    survey.InStep ∧ survey.addAll? more = some (survey.addAll more) ∧
      survey.table.KeptIn (survey.addAll more).table := by
  intro survey
  obtain ⟨-, corresponds⟩ := corresponds_empty.addAll documents
  obtain ⟨succeeded, -⟩ := corresponds.addAll more
  have kept : survey.table.KeptIn (survey.addAll more).table := by
    apply (Table.invariant_keptIn survey.table).addAll
    · intro path flags found
      exact ⟨flags, found, fun _ => id⟩
    · exact fun _ _ => trivial
  exact ⟨corresponds.inStep, succeeded, kept⟩

/-- The field `a.b` and the field `b` in `a` are two nodes of the shape with one path. -/
example :
    (({} : Survey).addAll? [[(.text ['a', '.', 'b'], .null),
      (.text ['a'], .object [(.text ['b'], .bool true)])]]).map (Entries.keys ·.table) =
        some [[], ['a', '.', 'b'], ['a']] := by
  decide

end Survey

end Typeahead.Schema

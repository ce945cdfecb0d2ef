import Typeahead.Proofs.Completion.Fields
import Typeahead.Proofs.Selector.Gaps

/-!
# Names that are used

A name is left out of what is offered in an object if another key of the object is spelled with it.
Blanks between a bare name and its colon belong to the spelling. So identifiers are left out, and
lead to the fields that they name, if they stand right before their colons or between quotes, and
otherwise not.
-/

namespace Typeahead.Completion

open Selector

/-! ## Typed parts without points -/

/-- If there is no point in the names of a tree, then there is none in what is typed of a name. -/
theorem typed_undotted {tree : Node} (names : tree.AllNames ('.' ∉ ·)) {focus : Focus}
    (located : tree.locate = some focus) {vocabulary : Vocabulary} {typed? : Option Text}
    {others : List Text} (sought : focus.sought = .name vocabulary typed? others) :
    '.' ∉ typed?.getD [] := by
  cases typed? with
  | none => exact List.not_mem_nil
  | some typed =>
      have below := Node.below_of_locate located
      obtain ⟨raw, start, cursor, properties, context, key, value, member, begins⟩ :=
        below.spells _ _ _ sought
      have inside := names.of_part below.part
      rw [context] at inside
      cases inside with
      | object names _ => exact fun point => names _ member (begins.subset point)

/-! ## Offering a name -/

section

variable {typed path name : Text} {schema : Schema} {others : List Text}

/-- A field of the schema is a candidate if no other key is spelled with its name. -/
theorem mem_texts_fieldCandidates (undotted : '.' ∉ typed) (present : name ≠ [])
    (listed : enclosing path ++ name ∈ schema.paths) (unused : name ∉ others) :
    name ∈ (fieldCandidates typed schema path others).map Candidate.text := by
  rw [texts_fieldCandidates, Text.throughLast_eq_nil undotted, List.append_nil]
  refine List.mem_append_right _ (List.mem_map.mpr ⟨enclosing path ++ name, ?_, List.drop_left⟩)
  refine List.mem_filter.mpr ⟨listed, ?_⟩
  rw [Text.throughLast_eq_nil undotted, List.append_nil, List.drop_left]
  simp [List.isPrefixOf_iff_prefix, present, unused]

/-- A few candidates are all offered where nothing is typed. -/
theorem mem_fieldTexts_nil (log : Float → Float)
    (few : (fieldCandidates [] schema path others).length ≤ offerLimit)
    (candidate : name ∈ (fieldCandidates [] schema path others).map Candidate.text) :
    name ∈ fieldTexts log [] schema path others := by
  have begin (candidate : Candidate) (member : candidate ∈ fieldCandidates [] schema path others) :
      candidate.begins [] = true := by
    obtain ⟨text, _, rfl⟩ := List.mem_map.mp member
    obtain ⟨first, rest, terms⟩ := List.exists_cons_of_ne_nil (Text.pieces_ne_nil '.' text.lower)
    simp [Candidate.begins, Candidate.ofPath, terms]
  have all : matchingCandidates log (fieldCandidates [] schema path others) [] =
      (fieldCandidates [] schema path others).mergeSort shorterFirst := by
    rw [matchingCandidates, if_pos (show ([] : Text).length ≤ shortLength by decide)]
    exact congrArg (List.mergeSort · shorterFirst) (List.filter_eq_self.mpr begin)
  obtain ⟨found, member, rfl⟩ := List.mem_map.mp candidate
  refine List.mem_map_of_mem ?_
  rw [show Text.afterLast '.' [] = [] from rfl, all,
    List.take_of_length_le (by rwa [List.length_mergeSort])]
  exact List.mem_mergeSort.mpr member

end

/-- A schema of one field. -/
def loneField (path : Text) : Schema where
  fields := [(path, .mk {} [])]
  sampled := 1

theorem length_fieldCandidates_loneField_le (typed field path : Text) (others : List Text) :
    (fieldCandidates typed (loneField field) path others).length ≤ offerLimit := by
  have operators : (openOperators typed path others).length ≤ 3 := by
    unfold openOperators
    split
    · exact List.length_filter_le _ _
    · exact Nat.zero_le _
  have paths : (openPaths typed (loneField field) path others).length ≤ 1 :=
    List.length_filter_le _ _
  have texts := congrArg List.length (texts_fieldCandidates typed (loneField field) path others)
  rw [List.length_map, List.length_append, List.length_map] at texts
  unfold offerLimit
  omega

/-! ## The other names of an object -/

theorem others_of_locateName {object : Node} {properties : List (Option Key × Node)} {index : Nat}
    {vocabulary other : Vocabulary} {path : Text} {focus : Focus}
    (named : locateName object properties index vocabulary path = some focus)
    {typed? : Option Text} {others : List Text}
    (sought : focus.sought = .name other typed? others) :
    others = (properties.map propertyName).eraseIdx index := by
  simp only [locateName] at named
  split at named
  next behind =>
    rw [← Option.some.inj named, Sought.name.injEq] at sought
    rw [← sought.2.2, List.eraseIdx_of_length_le]
    rw [List.length_map]
    exact List.getElem?_eq_none_iff.mp behind
  next =>
    obtain ⟨key, rfl, named⟩ := Option.bind_eq_some_iff.mp named
    obtain ⟨offset, _, rfl⟩ := Option.map_eq_some_iff.mp named
    exact (Sought.name.inj sought).2.2.symm

/-- The others are the names of the keys in other places. -/
theorem mem_eraseIdx_iff_namedElsewhere {properties : List (Option Key × Node)} {index : Nat}
    {name : Text} (present : name ≠ []) :
    name ∈ (properties.map propertyName).eraseIdx index ↔
      NamedElsewhere properties index name := by
  rw [List.mem_eraseIdx_iff_getElem?]
  constructor
  · rintro ⟨place, elsewhere, here⟩
    rw [List.getElem?_map, Option.map_eq_some_iff] at here
    obtain ⟨⟨_ | key, value⟩, here, same⟩ := here
    · exact absurd same.symm present
    · exact ⟨place, key, value, elsewhere, here, same⟩
  · rintro ⟨place, key, value, elsewhere, here, same⟩
    refine ⟨place, elsewhere, ?_⟩
    rw [List.getElem?_map, here, ← same]
    rfl

/-- No schema has a name among the candidates at a focus on field names. -/
def NeverCandidate (focus : Focus) (typed? : Option Text) (others : List Text) (name : Text) :
    Prop :=
  ∀ schema,
    name ∉ (fieldCandidates (typed?.getD []) schema focus.path others).map Candidate.text

/-- For no schema is a name offered at a focus. -/
def NeverOffered (focus : Focus) (name : Text) : Prop :=
  ∀ schema, name ∉ textsAt focus schema

/-- At a focus on field names a name is left out for every schema if another key is spelled with
it, and only then. Where nothing is typed, it is offered otherwise for a schema that has no other
field. -/
theorem never_iff_namedElsewhere {tree : Node} {focus : Focus}
    (located : tree.locate = some focus) {typed? : Option Text} {others : List Text}
    (sought : focus.sought = .name .fields typed? others)
    (undotted : tree.AllNames ('.' ∉ ·)) :
    ∃ raw start index properties, focus.context = .object raw start (some index) properties ∧
      ∀ name, name ≠ [] →
        (NeverCandidate focus typed? others name ↔ NamedElsewhere properties index name) ∧
          (typed? = none →
            (NeverOffered focus name ↔ NamedElsewhere properties index name)) := by
  obtain ⟨raw, start, index, properties, path, context, named⟩ :=
    (Node.arises_of_locate located).exists_locateName sought
  refine ⟨raw, start, index, properties, context, fun name present => ?_⟩
  have point := typed_undotted undotted located sought
  rw [← mem_eraseIdx_iff_namedElsewhere present, ← others_of_locateName named sought]
  have listed : enclosing focus.path ++ name ∈
      (loneField (enclosing focus.path ++ name)).paths := List.mem_cons_self
  constructor
  · constructor
    · intro never
      by_contra unused
      exact never _ (mem_texts_fieldCandidates point present listed unused)
    · intro used schema candidate
      have isOpen := open_of_mem_fieldCandidates candidate
      rw [Text.throughLast_eq_nil point] at isOpen
      exact isOpen.unused used
  · rintro rfl
    simp only [NeverOffered, textsAt, sought]
    constructor
    · intro never
      by_contra unused
      exact never _ (mem_fieldTexts_nil Float.log (length_fieldCandidates_loneField_le _ _ _ _)
        (mem_texts_fieldCandidates point present listed unused))
    · intro used schema offered
      exact (open_of_mem_fieldTexts offered).unused used

/-! ## Identifiers and blanks -/

theorem point_not_mem_name {heading : Heading} (identifier : heading.IsIdentifier)
    (wellFormed : heading.WellFormed) : '.' ∉ heading.name := by
  rw [identifier.name_eq]
  intro member
  rcases List.mem_append.mp member with name | gap
  · have part := identifier.isNamePart_of_mem name
    contradiction
  · have blank := Text.forall_isBlank wellFormed.gap '.' gap
    contradiction

section Written

variable {written : Written}

/-- The names of a tree that is read are those of its keys. -/
theorem allNames_parse (wellFormed : written.WellFormed)
    (identifiers : written.AllKeys Heading.IsIdentifier) (caret : Int) {holds : Text → Prop}
    (given : ∀ heading : Heading, heading.IsIdentifier → heading.WellFormed → holds heading.name) :
    (parse written.text caret).AllNames holds := by
  have keys := (identifiers.and wellFormed.allKeys).mono fun heading both =>
    given heading both.1 both.2
  rw [wellFormed.parse]
  exact keys.allNames_node _ _ _

/-- Without blanks the names that are read are the identifiers. -/
theorem outline_tight_parse (wellFormed : written.WellFormed)
    (identifiers : written.AllKeys Heading.IsIdentifier) (caret : Int) :
    (parse written.text caret).tight.outline = (written.respell Heading.tight).outline := by
  rw [wellFormed.parse]
  exact wellFormed.outline_tight_node
    ((identifiers.and wellFormed.allKeys).mono fun _ both => both.1.withoutBlanks_name both.2)
    _ _ _

/-- An identifier that is in use is left out for every schema exactly if another key of the object
is spelled with it and no blank. -/
theorem never_identifier_iff (wellFormed : written.WellFormed)
    (identifiers : written.AllKeys Heading.IsIdentifier) {caret : Int} {focus : Focus}
    (located : (parse written.text caret).locate = some focus) {typed? : Option Text}
    {others : List Text} (sought : focus.sought = .name .fields typed? others) :
    ∃ raw start index properties, focus.context = .object raw start (some index) properties ∧
      ∀ place key value, place ≠ index → properties[place]? = some (some key, value) →
        let identifier := key.name.withoutBlanks
        (NeverCandidate focus typed? others identifier ↔
            NamedElsewhere properties index identifier) ∧
          (typed? = none →
            (NeverOffered focus identifier ↔ NamedElsewhere properties index identifier)) := by
  have undotted : (parse written.text caret).AllNames ('.' ∉ ·) :=
    allNames_parse wellFormed identifiers caret
      fun _ identifier keyFormed => point_not_mem_name identifier keyFormed
  have present : (parse written.text caret).AllNames fun name => name.withoutBlanks ≠ [] :=
    allNames_parse wellFormed identifiers caret
      fun _ identifier keyFormed => identifier.withoutBlanks_name_ne_nil keyFormed
  obtain ⟨raw, start, index, properties, context, never⟩ :=
    never_iff_namedElsewhere located sought undotted
  have inside := present.of_part (Node.below_of_locate located).part
  rw [context] at inside
  refine ⟨raw, start, index, properties, context, fun place key value _ here => never _ ?_⟩
  cases inside with
  | object names _ => exact names _ (List.mem_of_getElem? here)

/-- Where the walk comes to a value in the tree whose names are the identifiers, it comes to it
under the same path in the tree that is read exactly if there are no blanks in the names on the
way. -/
theorem exists_locate_iff_isTight (wellFormed : written.WellFormed)
    (identifiers : written.AllKeys Heading.IsIdentifier) {caret : Int} {focus : Focus}
    (located : (parse written.text caret).tight.locate = some focus)
    (isValue : ¬focus.sought.IsName) :
    ∃ names last, (parse written.text caret).Way names last ∧ focus.context = last.tight ∧
      ((∃ found, (parse written.text caret).locate = some found ∧
          found.sought = focus.sought ∧ found.path = focus.path) ↔
        ∀ name ∈ names, name.IsTight) := by
  have begins : (parse written.text caret).AllNames BeginsTight :=
    allNames_parse wellFormed identifiers caret
      fun _ identifier keyFormed => identifier.beginsTight keyFormed
  obtain ⟨names, last, way, context, same, apart⟩ :=
    follows_locate begins .selector [] focus located isValue
  refine ⟨names, last, way, context, ?_, fun tight => ⟨_, same tight, rfl, rfl⟩⟩
  rintro ⟨found, read, _, path⟩ name member
  by_contra spaced
  refine apart ⟨name, member, spaced⟩ found read ?_
  rw [path]
  exact isTight_path_of_locate_tight located

/-- A tree with identifiers as keys, and blanks between them and their colons. Between quotes the
identifiers are the names of the keys. As they stand they are so exactly if there are no such
blanks, and only then are they left out where they are in use, and lead to the values of the fields
that they name. -/
theorem reads_identifiers_iff (wellFormed : written.WellFormed)
    (identifiers : written.AllKeys Heading.IsIdentifier) {quote : Char}
    (isQuote : isQuote quote = true) (caret : Int) :
    let tree := parse written.text caret
    let meant := (written.respell Heading.tight).outline
    (parse (written.respell (Heading.enquoted quote)).text caret).outline = meant ∧
      tree.tight.outline = meant ∧
      (tree.outline = meant ↔ written.AllKeys fun heading => heading.gap = []) ∧
      (∀ focus typed? others, tree.locate = some focus →
        focus.sought = .name .fields typed? others →
        ∃ raw start index properties, focus.context = .object raw start (some index) properties ∧
          ∀ place key value, place ≠ index → properties[place]? = some (some key, value) →
            let identifier := key.name.withoutBlanks
            (NeverCandidate focus typed? others identifier ↔
                NamedElsewhere properties index identifier) ∧
              (typed? = none →
                (NeverOffered focus identifier ↔
                  NamedElsewhere properties index identifier))) ∧
      ∀ focus, tree.tight.locate = some focus → ¬focus.sought.IsName →
        ∃ names last, tree.Way names last ∧ focus.context = last.tight ∧
          ((∃ found, tree.locate = some found ∧ found.sought = focus.sought ∧
              found.path = focus.path) ↔
            ∀ name ∈ names, name.IsTight) := by
  intro tree meant
  refine ⟨outline_parse_enquoted wellFormed identifiers isQuote caret,
    outline_tight_parse wellFormed identifiers caret,
    outline_parse_eq_tight_iff wellFormed identifiers caret, ?_, ?_⟩
  · intro focus typed? others located sought
    exact never_identifier_iff wellFormed identifiers located sought
  · intro focus located isValue
    exact exists_locate_iff_isTight wellFormed identifiers located isValue

end Written

/-- An identifier with a blank between it and its colon. -/
def gappedKey : Heading :=
  ⟨[], .bare "age".toList, [' '], true⟩

/-- A selector with such a key, and the place of a second one. -/
def gappedSelector : Written :=
  .object [] [(gappedKey, .atom [' '] ['1'] [])] (some [' ']) []

theorem gappedSelector_wellFormed : gappedSelector.WellFormed := by
  have one : (Written.atom [' '] ['1'] []).WellFormed :=
    .atom rfl rfl (.inr (isAtom_singleton rfl rfl rfl (by decide)))
  have label : (Label.bare "age".toList).WellFormed :=
    .bare rfl (Acceptance.plain_of_isBareName rfl)
  refine .object rfl rfl (by simp; rfl) ⟨⟨rfl, label, rfl⟩, nofun, trivial⟩ ?_
  simpa using one

theorem gappedSelector_identifiers : gappedSelector.AllKeys Heading.IsIdentifier := by
  have keys (property : Heading × Written)
      (member : property ∈ [(gappedKey, .atom [' '] ['1'] [])]) :
      property.1.IsIdentifier ∧ property.2.AllKeys Heading.IsIdentifier := by
    rw [List.mem_singleton.mp member]
    exact ⟨⟨_, rfl, by decide, List.all_eq_true.mp rfl⟩, .atom⟩
  exact .object (fun property member => (keys property member).1)
    fun property member => (keys property member).2

/-- The place of the second key. -/
def gappedFocus : Focus where
  sought := .name .fields none ["age ".toList]
  path := []
  context := gappedSelector.node 0 (some 10) false

/-- The value of the first key. -/
def gappedValue : Focus :=
  .atValue ((Written.atom [' '] ['1'] []).node 6 (some 2) true) "age ".toList .sampled

/-- The key is read with its blank: it is offered again, and its value is that of no field that the
identifier names. -/
theorem misread_gappedSelector :
    gappedSelector.text = "\x7bage : 1, \x7d".toList ∧
      gappedSelector.AllKeys Heading.IsIdentifier ∧
      (parse gappedSelector.text 10).outline = .object [(some "age ".toList, .leaf ['1'])] ∧
      (parse gappedSelector.text 10).locate = some gappedFocus ∧
      "age".toList ∈ textsAt gappedFocus (loneField "age".toList) ∧
      (parse gappedSelector.text 8).locate = some gappedValue := by
  have node (caret : Int) : parse gappedSelector.text caret =
      gappedSelector.node 0 (textCaret caret) false := gappedSelector_wellFormed.parse caret
  refine ⟨rfl, gappedSelector_identifiers, ?_, ?_, ?_, ?_⟩
  · rw [node, gappedSelector_wellFormed.outline_node]
    rfl
  · rw [node, gappedSelector, Written.node, Node.locate, locateSelector_object]
    rfl
  · refine mem_fieldTexts_nil Float.log (length_fieldCandidates_loneField_le _ _ _ _) ?_
    exact mem_texts_fieldCandidates List.not_mem_nil (by decide) List.mem_cons_self (by decide)
  · rw [node, gappedSelector, Written.node, Node.locate, locateSelector_object]
    change locateProperty []
      (some (gappedKey.key 1 (some 7)), (Written.atom [' '] ['1'] []).node 6 (some 2) true) = _
    rw [locateProperty, if_neg (by decide), Written.node, locateFieldValue]
    rfl

/-- Between quotes the same key is read as the identifier, and without them it is not. -/
theorem reads_identifiers_iff_gapped :
    (parse "\x7b'age' : 1, \x7d".toList 10).outline = .object [(some "age".toList, .leaf ['1'])] ∧
      (parse "\x7bage : 1, \x7d".toList 10).outline ≠
        .object [(some "age".toList, .leaf ['1'])] := by
  obtain ⟨quoted, -, bare, -, -⟩ :=
    @reads_identifiers_iff gappedSelector gappedSelector_wellFormed gappedSelector_identifiers '\''
      rfl 10
  refine ⟨quoted, fun same => ?_⟩
  cases bare.mp same with
  | object gaps _ => exact absurd (gaps _ List.mem_cons_self) (by decide)

end Typeahead.Completion

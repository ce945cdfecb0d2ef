import Typeahead.Proofs.Schema.FlagReading

/-!
# Fields and the fields below them

The profile of a field holds the profiles of the fields one name below it. Fields are linked with
the deepest paths first: when a field takes in its children, all fields one name below it are
known, and no field that is linked later is a child of it. So the children of a field are the
same in the end, they come in the order of the fields, and each is the profile that the schema
itself gives to its path, with all that lies below it.
-/

namespace Typeahead.Schema

/-! ## Paths one name below -/

section Paths

variable {parent path name : Text}

theorem childName?_eq_some_iff :
    childName? parent path = some name ↔ path = parent ++ '.' :: name ∧ '.' ∉ name := by
  have dropped (rest : Text) : (parent ++ ['.'] ++ rest).drop (parent.length + 1) = rest :=
    List.drop_left' (by simp)
  unfold childName?
  constructor
  · intro named
    split at named
    next below =>
      obtain ⟨rest, rfl⟩ := List.isPrefixOf_iff_prefix.mp below
      dsimp only at named
      rw [dropped] at named
      split at named
      next => contradiction
      next plain =>
        obtain rfl := Option.some.inj named
        exact ⟨List.append_assoc .., by simpa using plain⟩
    next => contradiction
  · rintro ⟨rfl, plain⟩
    have split : parent ++ '.' :: name = parent ++ ['.'] ++ name := by simp
    rw [split, if_pos (List.isPrefixOf_iff_prefix.mpr (List.prefix_append _ _)), dropped]
    exact if_neg (by simpa using plain)

theorem depth_of_childName? (named : childName? parent path = some name) :
    depth path = depth parent + 1 := by
  obtain ⟨rfl, plain⟩ := childName?_eq_some_iff.mp named
  simp [depth, List.count_eq_zero.mpr plain]

end Paths

/-! ## The order of linking -/

section Order

variable {fields : Entries (Flags Float Text)}

/-- A field comes before another one if its path is at least as deep. -/
def notDeeper (first second : Text × Flags Float Text) : Bool :=
  depth second.1 ≤ depth first.1

theorem notDeeper_trans (first second third : Text × Flags Float Text)
    (before : notDeeper first second) (after : notDeeper second third) :
    notDeeper first third := by
  simp only [notDeeper, decide_eq_true_eq] at *
  omega

theorem notDeeper_total (first second : Text × Flags Float Text) :
    (notDeeper first second || notDeeper second first) = true := by
  simp only [notDeeper, Bool.or_eq_true, decide_eq_true_eq]
  omega

theorem pairwise_deepestFirst (fields : Entries (Flags Float Text)) :
    (deepestFirst fields).Pairwise fun first second => depth second.1 ≤ depth first.1 := by
  have sorted : (deepestFirst fields).Pairwise fun first second => notDeeper first second :=
    List.pairwise_mergeSort notDeeper_trans notDeeper_total fields
  simpa [notDeeper] using sorted

/-- Fields of one depth keep their order. -/
theorem filter_deepestFirst {keep : Text → Bool} {level : Nat}
    (even : ∀ path, keep path = true → depth path = level) :
    (deepestFirst fields).filter (fun field => keep field.1) =
      fields.filter fun field => keep field.1 := by
  have perm : (deepestFirst fields).Perm fields := List.mergeSort_perm _ _
  have sorted : (fields.filter fun field => keep field.1).Pairwise
      fun first second => notDeeper first second := by
    refine List.pairwise_of_forall_mem_list fun first firstKept second secondKept => ?_
    have firstLevel := even _ (List.mem_filter.mp firstKept).2
    have secondLevel := even _ (List.mem_filter.mp secondKept).2
    simp [notDeeper, firstLevel, secondLevel]
  have kept : (fields.filter fun field => keep field.1).Sublist (deepestFirst fields) :=
    List.sublist_mergeSort notDeeper_trans notDeeper_total sorted List.filter_sublist
  have inside := kept.filter fun field => keep field.1
  rw [List.filter_filter] at inside
  simp only [Bool.and_self] at inside
  exact (inside.eq_of_length (perm.filter _).length_eq.symm).symm

end Order

/-! ## Linking -/

section Links

variable {known : Entries Profile} {fields : Entries (Flags Float Text)} {path : Text}

theorem childrenOf_append (first second : Entries Profile) (path : Text) :
    childrenOf (first ++ second) path = childrenOf first path ++ childrenOf second path :=
  List.filterMap_append

/-- What is not deeper than a path does not lie below it. -/
theorem childrenOf_eq_nil (shallow : ∀ entry ∈ known, depth entry.1 ≤ depth path) :
    childrenOf known path = [] := by
  refine List.filterMap_eq_nil_iff.mpr fun entry member => ?_
  rw [Option.map_eq_none_iff, Option.eq_none_iff_forall_ne_some]
  intro name named
  have deeper := depth_of_childName? named
  have notDeeper := shallow entry member
  omega

theorem mem_childrenOf_iff {child : Text × Profile} :
    child ∈ childrenOf known path ↔ '.' ∉ child.1 ∧ (path ++ '.' :: child.1, child.2) ∈ known := by
  obtain ⟨name, profile⟩ := child
  rw [childrenOf, List.mem_filterMap]
  constructor
  · rintro ⟨⟨other, profile⟩, member, found⟩
    obtain ⟨name, named, ⟨⟩⟩ := Option.map_eq_some_iff.mp found
    obtain ⟨rfl, plain⟩ := childName?_eq_some_iff.mp named
    exact ⟨plain, member⟩
  · rintro ⟨plain, member⟩
    refine ⟨_, member, Option.map_eq_some_iff.mpr ⟨name, ?_, rfl⟩⟩
    exact childName?_eq_some_iff.mpr ⟨rfl, plain⟩

/-- The paths of the children of a field are those one name below it, in the order in which the
fields are known. -/
theorem map_childrenOf (known : Entries Profile) (path : Text) :
    (childrenOf known path).map (fun child => path ++ '.' :: child.1) =
      known.keys.filter fun other => (childName? path other).isSome := by
  induction known with
  | nil => rfl
  | cons entry rest inductionHypothesis =>
      obtain ⟨other, profile⟩ := entry
      have tail := inductionHypothesis
      simp only [childrenOf, Entries.keys, List.filterMap_cons, List.map_cons,
        List.filter_cons] at tail ⊢
      cases named : childName? path other with
      | none => simpa using tail
      | some name =>
          obtain ⟨rfl, -⟩ := childName?_eq_some_iff.mp named
          simpa using tail

/-- Linking keeps what is known, and adds the fields in their order. -/
theorem exists_linkFrom_eq_append (known : Entries Profile) (fields : Entries (Flags Float Text)) :
    ∃ linked : Entries Profile, linkFrom known fields = known ++ linked ∧
      linked.keys = fields.keys := by
  induction fields generalizing known with
  | nil => exact ⟨[], by simp [linkFrom], rfl⟩
  | cons field rest inductionHypothesis =>
      obtain ⟨path, flags⟩ := field
      obtain ⟨linked, whole, keys⟩ :=
        inductionHypothesis (known ++ [(path, .mk flags (childrenOf known path))])
      refine ⟨(path, .mk flags (childrenOf known path)) :: linked, ?_, ?_⟩
      · rw [linkFrom, whole, List.append_assoc]
        rfl
      · exact congrArg (path :: ·) keys

/-- Each field that is linked has the children that all fields together give it, if the deepest
ones are linked first. -/
theorem children_of_mem_linkFrom
    (sorted : fields.Pairwise fun first second => depth second.1 ≤ depth first.1)
    {entry : Text × Profile} (member : entry ∈ linkFrom known fields) :
    entry ∈ known ∨ entry.2.children = childrenOf (linkFrom known fields) entry.1 := by
  induction fields generalizing known with
  | nil => exact .inl member
  | cons field rest inductionHypothesis =>
      obtain ⟨path, flags⟩ := field
      obtain ⟨shallow, restSorted⟩ := List.pairwise_cons.mp sorted
      rcases inductionHypothesis restSorted member with earlier | linked
      · rcases List.mem_append.mp earlier with old | new
        · exact .inl old
        · right
          obtain rfl := List.mem_singleton.mp new
          obtain ⟨linked, whole, keys⟩ :=
            exists_linkFrom_eq_append (known ++ [(path, .mk flags (childrenOf known path))]) rest
          -- The field itself and those that are linked after it do not lie below it.
          have noChild : childrenOf ((path, .mk flags (childrenOf known path)) :: linked) path =
              [] := by
            apply childrenOf_eq_nil
            intro other among
            rcases List.mem_cons.mp among with rfl | later
            · exact Nat.le_refl _
            · have inRest : other.1 ∈ Entries.keys rest := by
                rw [← keys]
                exact List.mem_map_of_mem later
              obtain ⟨field, fieldMember, same⟩ := List.mem_map.mp inRest
              rw [← same]
              exact shallow field fieldMember
          rw [linkFrom, whole, List.append_assoc, childrenOf_append, List.singleton_append,
            noChild, List.append_nil]
          rfl
      · exact .inr linked

end Links

/-! ## Schemas -/

/-- The children of a field are the fields one name below it: their paths come in the order of the
schema, and each has the profile that the schema gives to its path. -/
structure LinksChildren (schema : Schema) (path : Text) (children : List (Text × Profile)) :
    Prop where
  ordered : (children.map fun child => path ++ '.' :: child.1).Sublist schema.paths
  named : ∀ name, name ∈ children.map Prod.fst ↔
    '.' ∉ name ∧ path ++ '.' :: name ∈ schema.paths
  linked : ∀ child ∈ children, schema.find? (path ++ '.' :: child.1) = some child.2

section Schemas

variable {fields : Entries (Flags Float Text)} {sampled : Int} {path : Text}

theorem keys_linkFrom_deepestFirst (fields : Entries (Flags Float Text)) :
    (linkFrom [] (deepestFirst fields)).keys = (deepestFirst fields).keys := by
  obtain ⟨linked, whole, keys⟩ := exists_linkFrom_eq_append [] (deepestFirst fields)
  rw [whole, List.nil_append, keys]

theorem keys_deepestFirst_perm (fields : Entries (Flags Float Text)) :
    (deepestFirst fields).keys.Perm fields.keys :=
  (List.mergeSort_perm _ _).map Prod.fst

/-- A schema gives each of its paths the profile that was linked for it. -/
theorem find?_ofFlags (fields : Entries (Flags Float Text)) (sampled : Int) (path : Text) :
    (ofFlags fields sampled).find? path = (linkFrom [] (deepestFirst fields)).find? path := by
  rw [Schema.find?, ofFlags_fields, Entries.find?_filterMap]
  split
  · rfl
  next unknown =>
    symm
    rw [← Option.not_isSome_iff_eq_none, Entries.isSome_find?_iff, keys_linkFrom_deepestFirst,
      (keys_deepestFirst_perm fields).mem_iff]
    exact unknown

/-- The paths one name below a path, in the order of the fields, whatever the order of linking. -/
theorem filter_keys_deepestFirst (fields : Entries (Flags Float Text)) (path : Text) :
    (deepestFirst fields).keys.filter (fun other => (childName? path other).isSome) =
      fields.keys.filter fun other => (childName? path other).isSome := by
  have even (other : Text) (below : (childName? path other).isSome = true) :
      depth other = depth path + 1 := by
    obtain ⟨name, named⟩ := Option.isSome_iff_exists.mp below
    exact depth_of_childName? named
  have kept : (deepestFirst fields).filter (fun field => (childName? path field.1).isSome) =
      fields.filter fun field => (childName? path field.1).isSome :=
    filter_deepestFirst even
  rw [Entries.keys, Entries.keys, List.filter_map, List.filter_map]
  exact congrArg (List.map Prod.fst) kept

theorem exists_linksChildren_ofFlags (distinct : fields.keys.Nodup) (member : path ∈ fields.keys) :
    ∃ profile, (ofFlags fields sampled).find? path = some profile ∧
      LinksChildren (ofFlags fields sampled) path profile.children := by
  have linkedDistinct : (linkFrom [] (deepestFirst fields)).keys.Nodup := by
    rw [keys_linkFrom_deepestFirst]
    exact (keys_deepestFirst_perm fields).nodup_iff.mpr distinct
  have known : path ∈ (linkFrom [] (deepestFirst fields)).keys := by
    rw [keys_linkFrom_deepestFirst]
    exact (keys_deepestFirst_perm fields).mem_iff.mpr member
  obtain ⟨profile, found⟩ := Option.isSome_iff_exists.mp (Entries.isSome_find?_iff.mpr known)
  have children : profile.children = childrenOf (linkFrom [] (deepestFirst fields)) path := by
    refine (children_of_mem_linkFrom (pairwise_deepestFirst fields)
      (Entries.mem_of_find?_eq_some found)).resolve_left ?_
    exact List.not_mem_nil
  refine ⟨profile, (find?_ofFlags fields sampled path).trans found, ?_⟩
  rw [children]
  constructor
  · rw [map_childrenOf, keys_linkFrom_deepestFirst, filter_keys_deepestFirst,
      paths_ofFlags distinct]
    exact List.filter_sublist
  · intro name
    rw [paths_ofFlags distinct, ← (keys_deepestFirst_perm fields).mem_iff,
      ← keys_linkFrom_deepestFirst]
    simp only [Entries.keys, List.mem_map]
    constructor
    · rintro ⟨child, among, rfl⟩
      obtain ⟨plain, below⟩ := mem_childrenOf_iff.mp among
      exact ⟨plain, _, below, rfl⟩
    · rintro ⟨plain, ⟨other, profile⟩, below, rfl⟩
      exact ⟨(name, profile), mem_childrenOf_iff.mpr ⟨plain, below⟩, rfl⟩
  · intro child among
    rw [find?_ofFlags]
    exact Entries.find?_eq_some_of_mem linkedDistinct (mem_childrenOf_iff.mp among).2

end Schemas

/-! ## Schemas of flag documents -/

section Documents

/-- A schema is read from the flag documents of fields unless one of them lists a value that is not
of its kind. It has the paths of the fields in their order, and links each of them to the fields
one name below it. -/
theorem ofDocuments_links {fields : Entries FlagDocument} (distinct : fields.keys.Nodup)
    (kinds : ∀ field ∈ fields, field.2.NamesKinds) (sampled : Int) :
    ((∃ field ∈ fields, ¬field.2.WellTyped) ∧ ofDocuments fields sampled = .error .illTyped) ∨
      ∃ schema, ofDocuments fields sampled = .ok schema ∧ schema.paths = fields.keys ∧
        ∀ path ∈ fields.keys, ∃ profile, schema.find? path = some profile ∧
          LinksChildren schema path profile.children := by
  by_cases typed : ∀ field ∈ fields, field.2.WellTyped
  · right
    obtain ⟨flags, read⟩ := exists_flagsOfDocuments kinds typed
    have keys := keys_of_flagsOfDocuments read
    have flagsDistinct : flags.keys.Nodup := keys ▸ distinct
    refine ⟨ofFlags flags sampled, ofDocuments_eq_ok_iff.mpr ⟨flags, read, rfl⟩, ?_, ?_⟩
    · rw [paths_ofFlags flagsDistinct, keys]
    · intro path member
      exact exists_linksChildren_ofFlags flagsDistinct (keys ▸ member)
  · left
    have ill : ∃ field ∈ fields, ¬field.2.WellTyped := by
      simpa only [not_forall, exists_prop] using typed
    exact ⟨ill, by rw [ofDocuments, flagsOfDocuments_of_not_wellTyped kinds ill]; rfl⟩

/-- Paths that are prefixes of each other, one of them with an empty name at its end, and one
whose own parent is missing. -/
def nestedFields : Entries FlagDocument :=
  [("a.b.c.d", [(Kind.double.name, .array [.bool true])]),
    ("a.bc", []),
    ("a.", [(Kind.string.name, .text { text := ['x'] })]),
    ("a.b", []),
    ("a", [(Kind.object.name, .bool true)]),
    ("a.b.e", [])]

/-- `a` has the child `b`, which has the child `e`, and a child with an empty name. -/
theorem ofDocuments_links_nestedFields :
    ∃ schema outer inner, ofDocuments nestedFields 3 = .ok schema ∧
      schema.find? "a" = some outer ∧ (['b'], inner) ∈ outer.children ∧
      ['e'] ∈ inner.children.map Prod.fst ∧ [] ∈ outer.children.map Prod.fst ∧
      ['c'] ∉ inner.children.map Prod.fst := by
  have kinds : ∀ field ∈ nestedFields, field.2.NamesKinds := by
    intro field member name known
    rw [← Kind.isSome_ofName?_iff]
    revert name
    revert field
    decide
  have typed : ∀ field ∈ nestedFields, field.2.WellTyped := by
    intro field member
    constructor <;> apply isSome_listingOf?_iff.mp <;> revert field <;> decide
  rcases ofDocuments_links (by decide) kinds 3 with ⟨⟨field, member, ill⟩, -⟩ |
    ⟨schema, read, paths, links⟩
  · exact absurd (typed field member) ill
  · obtain ⟨outer, found, outerLinks⟩ := links "a" (by decide)
    have named : ['b'] ∈ outer.children.map Prod.fst := by
      rw [outerLinks.named, paths]
      decide
    obtain ⟨⟨_, inner⟩, among, rfl⟩ := List.mem_map.mp named
    obtain ⟨other, foundInner, innerLinks⟩ := links "a.b" (by decide)
    obtain rfl : other = inner :=
      Option.some.inj (foundInner.symm.trans (outerLinks.linked _ among))
    refine ⟨schema, outer, other, read, found, among, ?_, ?_, ?_⟩
    · rw [innerLinks.named, paths]
      decide
    · rw [outerLinks.named, paths]
      decide
    · rw [innerLinks.named, paths]
      decide

end Documents

end Typeahead.Schema

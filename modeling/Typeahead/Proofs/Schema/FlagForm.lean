import Mathlib.Data.List.Nodup
import Typeahead.Proofs.Schema.FlagReading
import Typeahead.Proofs.Schema.Linking
import Typeahead.Proofs.Schema.Paths
import Typeahead.Proofs.Schema.Throughout

/-!
# Schemas through their flag documents

Flags that are read from a document or found by a survey never list an empty list and keep numbers
and texts to their listings. Such flags are read back from the document that is written for them,
and a schema of such flags is read back from the documents of its fields: the profiles below a
field are not written, but they are linked again.

What is written for flags that were read is the document in its normal form.
-/

namespace Typeahead.Schema

open Document (Value)

open FlagDocument

/-! ## The normal form of a document -/

/-- An element of a list that can be read, as it is written again. -/
def rewritten {α : Type} (read : Value → Option α) (write : α → Value) (element : Value) : Value :=
  ((read element).map write).getD element

/-- A double. -/
def writeDouble (number : Float) : Value :=
  .number (.double number)

/-- A plain text. -/
def writeText (text : Text) : Value :=
  .text { text }

/-- A list with its elements changed; any other value only says that it is set. -/
def settledWith (change : Value → Value) : Value → Value
  | .array elements => .array (elements.map change)
  | _ => .bool true

/-- What is left of the value of a kind: nothing if it is not set, the list if it lists numbers
or texts under their own kinds, and else that it is set. The numbers of a list become doubles, and
plain texts stay as they are. -/
def settled? (kind : Kind) (value : Value) : Option Value :=
  if value.isSet then
    some (match kind with
      | .double => settledWith (rewritten numberOf? writeDouble) value
      | .string => settledWith (rewritten textOf? writeText) value
      | _ => .bool true)
  else
    none

/-- The document with what is left of its values. -/
def FlagDocument.normal (document : FlagDocument) : FlagDocument :=
  document.filterMap fun flag =>
    (Kind.ofName? flag.1).bind fun kind =>
      (settled? kind flag.2).map fun value => (flag.1, value)

section Normal

variable {document : FlagDocument}

theorem mem_normal_iff {name : Text} {value : Value} :
    (name, value) ∈ document.normal ↔
      ∃ kind : Kind, name = kind.name ∧
        ∃ before, (name, before) ∈ document ∧ settled? kind before = some value := by
  simp only [normal, List.mem_filterMap, Option.bind_eq_some_iff, Option.map_eq_some_iff,
    Kind.ofName?_eq_some_iff]
  constructor
  · rintro ⟨⟨name, before⟩, member, kind, known, value, left, ⟨⟩⟩
    exact ⟨kind, known, before, member, left⟩
  · rintro ⟨kind, known, before, member, left⟩
    exact ⟨(name, before), member, kind, known, value, left, rfl⟩

theorem nodup_keys_normal (distinct : document.keys.Nodup) :
    (Entries.keys document.normal).Nodup := by
  refine List.Sublist.nodup (Entries.keys_filterMap_sublist ?_ document) distinct
  intro flag entry left
  simp only [Option.bind_eq_some_iff, Option.map_eq_some_iff] at left
  obtain ⟨_, _, _, _, rfl⟩ := left
  rfl

theorem flagOf_eq_of_mem (distinct : document.keys.Nodup) {kind : Kind} {value : Value}
    (member : (kind.name, value) ∈ document) : flagOf document kind = value := by
  rw [flagOf, Entries.find?_eq_some_of_mem distinct member]
  rfl

theorem flagOf_eq_null {kind : Kind} (unknown : ∀ value, (kind.name, value) ∉ document) :
    flagOf document kind = .null := by
  unfold flagOf
  cases found : document.find? kind.name with
  | none => rfl
  | some value => exact absurd (Entries.mem_of_find?_eq_some found) (unknown value)

end Normal

/-! ## Canonical flags -/

/-- Nothing is listed as an empty list, and numbers and texts are only in their listings. -/
structure Flags.Canonical {ν τ : Type} (flags : Flags ν τ) : Prop where
  numbers : flags.numbers ≠ .listed []
  texts : flags.texts ≠ .listed []
  others : ∀ kind : Kind, kind.isListed → flags.others kind = false

section Reading

variable {document : FlagDocument} {flags : Flags Float Text}

theorem listingOf?_ne_listed_nil {α : Type} {read : Value → Option α} {value : Value}
    {listing : Listing α} (known : listingOf? read value = some listing) :
    listing ≠ .listed [] := by
  unfold listingOf? at known
  split at known
  · obtain rfl := Option.some.inj known
    simp
  next elements present =>
    obtain ⟨values, reads, rfl⟩ := Option.map_eq_some_iff.mp known
    rintro ⟨⟩
    have none := Listing.mapM_eq_some_iff.mp reads
    rw [List.map_nil, List.map_eq_nil_iff] at none
    exact present none
  next =>
    obtain rfl := Option.some.inj known
    split <;> simp

theorem canonical_of_ofDocument (read : Flags.ofDocument document = .ok flags) :
    flags.Canonical := by
  obtain ⟨-, numbers, texts, others⟩ := Flags.ofDocument_eq_ok_iff.mp read
  refine ⟨listingOf?_ne_listed_nil numbers, listingOf?_ne_listed_nil texts, fun kind listed => ?_⟩
  rw [← others]
  simp [listed]

end Reading

/-! ## The document of flags -/

/-- What is written for the listing of a kind. -/
def Listing.written? {α : Type} (write : α → Value) : Listing α → Option Value
  | absent => none
  | listed values => some (.array (values.map write))
  | unlisted => some (.bool true)

section Writing

variable {flags : Flags Float Text}

theorem valueFor?_double (flags : Flags Float Text) :
    flags.valueFor? .double = flags.numbers.written? writeDouble := by
  unfold Flags.valueFor? Flags.has
  cases flags.numbers <;> rfl

theorem valueFor?_string (flags : Flags Float Text) :
    flags.valueFor? .string = flags.texts.written? writeText := by
  unfold Flags.valueFor? Flags.has
  cases flags.texts <;> rfl

theorem valueFor?_of_not_isListed (flags : Flags Float Text) {kind : Kind}
    (unlisted : kind.isListed = false) :
    flags.valueFor? kind = if flags.others kind then some (.bool true) else none := by
  cases kind <;> first | rfl | contradiction

theorem mem_toDocument_iff {name : Text} {value : Value} :
    (name, value) ∈ flags.toDocument ↔
      ∃ kind : Kind, name = kind.name ∧ flags.valueFor? kind = some value := by
  simp only [Flags.toDocument, List.mem_filterMap, Option.map_eq_some_iff]
  constructor
  · rintro ⟨kind, -, value, written, ⟨⟩⟩
    exact ⟨kind, rfl, written⟩
  · rintro ⟨kind, rfl, written⟩
    exact ⟨kind, kind.mem_all, value, written, rfl⟩

theorem nodup_keys_toDocument (flags : Flags Float Text) : flags.toDocument.keys.Nodup := by
  have names : (Kind.all.map Kind.name).Nodup := by decide
  refine List.Sublist.nodup (Entries.keys_filterMap_sublist ?_ Kind.all) names
  intro kind entry written
  obtain ⟨_, _, rfl⟩ := Option.map_eq_some_iff.mp written
  rfl

theorem namesKinds_toDocument (flags : Flags Float Text) : NamesKinds flags.toDocument := by
  intro name known
  obtain ⟨⟨_, value⟩, member, rfl⟩ := List.mem_map.mp known
  obtain ⟨kind, same, -⟩ := mem_toDocument_iff.mp member
  exact ⟨kind, same⟩

theorem flagOf_toDocument (flags : Flags Float Text) (kind : Kind) :
    flagOf flags.toDocument kind = (flags.valueFor? kind).getD .null := by
  cases written : flags.valueFor? kind with
  | some value =>
      exact flagOf_eq_of_mem (nodup_keys_toDocument flags)
        (mem_toDocument_iff.mpr ⟨kind, rfl, written⟩)
  | none =>
      refine flagOf_eq_null fun value member => ?_
      obtain ⟨other, same, found⟩ := mem_toDocument_iff.mp member
      obtain rfl := Kind.name_injective same
      simp [written] at found

end Writing

/-! ## Reading what was written -/

section RoundTrip

variable {document : FlagDocument} {flags : Flags Float Text}

/-- The listing of a kind is read back from what is written for it. -/
theorem listingOf?_written? {α : Type} {read : Value → Option α} {write : α → Value}
    (reads : ∀ value, read (write value) = some value) {listing : Listing α}
    (present : listing ≠ .listed []) :
    listingOf? read ((listing.written? write).getD .null) = some listing := by
  cases listing with
  | absent => rfl
  | unlisted => rfl
  | listed values =>
      cases values with
      | nil => contradiction
      | cons first rest =>
          have all : ((first :: rest).map write).mapM read = some (first :: rest) := by
            rw [Listing.mapM_eq_some_iff, List.map_map]
            exact List.map_congr_left fun value _ => reads value
          exact congrArg (Option.map Listing.listed) all

/-- Canonical flags are read back from their document. -/
theorem ofDocument_toDocument (canonical : flags.Canonical) :
    Flags.ofDocument flags.toDocument = .ok flags := by
  have readsDouble (number : Float) : numberOf? (writeDouble number) = some number := rfl
  have readsText (text : Text) : textOf? (writeText text) = some text := rfl
  rw [Flags.ofDocument_eq_ok_iff]
  refine ⟨namesKinds_toDocument flags, ?_, ?_, ?_⟩
  · rw [flagOf_toDocument, valueFor?_double]
    exact listingOf?_written? readsDouble canonical.numbers
  · rw [flagOf_toDocument, valueFor?_string]
    exact listingOf?_written? readsText canonical.texts
  · funext kind
    cases listed : kind.isListed with
    | true => exact (canonical.others kind listed).symm
    | false =>
        rw [flagOf_toDocument, valueFor?_of_not_isListed flags listed]
        cases flags.others kind <;> rfl

theorem map_rewritten {α : Type} {read : Value → Option α} (write : α → Value)
    {elements : List Value} {values : List α} (reads : elements.map read = values.map some) :
    elements.map (rewritten read write) = values.map write := by
  induction elements generalizing values with
  | nil => simpa using reads
  | cons element rest inductionHypothesis =>
      cases values with
      | nil => contradiction
      | cons value others =>
          obtain ⟨first, later⟩ := List.cons.inj reads
          rw [List.map_cons, List.map_cons, inductionHypothesis later, rewritten, first]
          rfl

/-- What is written for a listing that was read from a value is what is left of the value. -/
theorem written?_of_listingOf? {α : Type} {read : Value → Option α} (write : α → Value)
    {value : Value} {listing : Listing α} (known : listingOf? read value = some listing) :
    listing.written? write =
      if value.isSet then some (settledWith (rewritten read write) value) else none := by
  unfold listingOf? at known
  split at known
  · obtain rfl := Option.some.inj known
    rfl
  next elements present =>
    obtain ⟨values, reads, rfl⟩ := Option.map_eq_some_iff.mp known
    have set : (Value.array elements).isSet = true := by simpa [Value.isSet] using present
    rw [if_pos set, settledWith, map_rewritten write (Listing.mapM_eq_some_iff.mp reads)]
    rfl
  next notEmpty notList =>
    obtain rfl := Option.some.inj known
    have plain : settledWith (rewritten read write) value = .bool true := by
      unfold settledWith
      split
      · exact absurd rfl (notList _)
      · rfl
    rw [plain]
    cases value.isSet <;> rfl

/-- What is written for flags that were read from a document is what is left of its values. -/
theorem valueFor?_of_ofDocument (read : Flags.ofDocument document = .ok flags) (kind : Kind) :
    flags.valueFor? kind = settled? kind (flagOf document kind) := by
  obtain ⟨-, numbers, texts, others⟩ := Flags.ofDocument_eq_ok_iff.mp read
  cases kind
  case double =>
    rw [valueFor?_double]
    exact written?_of_listingOf? writeDouble numbers
  case string =>
    rw [valueFor?_string]
    exact written?_of_listingOf? writeText texts
  all_goals
    rw [valueFor?_of_not_isListed flags rfl, ← others]
    rfl

/-- What is written for flags that were read from a document is its normal form. -/
theorem toDocument_of_ofDocument (distinct : document.keys.Nodup)
    (read : Flags.ofDocument document = .ok flags) :
    flags.toDocument.Perm document.normal := by
  -- The names of both are distinct, so it is enough that they have the same entries.
  have notNull {kind : Kind} {value : Value} : settled? kind .null ≠ some value := nofun
  refine (List.perm_ext_iff_of_nodup ?_ ?_).mpr ?_
  · exact List.Nodup.of_map Prod.fst (nodup_keys_toDocument flags)
  · exact List.Nodup.of_map Prod.fst (nodup_keys_normal distinct)
  rintro ⟨name, value⟩
  rw [mem_toDocument_iff, mem_normal_iff]
  refine exists_congr fun kind => and_congr_right ?_
  rintro rfl
  rw [valueFor?_of_ofDocument read]
  constructor
  · intro left
    by_cases known : ∃ before, (kind.name, before) ∈ document
    · obtain ⟨before, member⟩ := known
      exact ⟨before, member, flagOf_eq_of_mem distinct member ▸ left⟩
    · rw [flagOf_eq_null (not_exists.mp known)] at left
      exact absurd left notNull
  · rintro ⟨before, member, left⟩
    rw [flagOf_eq_of_mem distinct member]
    exact left

end RoundTrip

/-! ## Canonical flags of surveys -/

section Surveys

theorem Listing.add_ne_listed_nil {α : Type} {limit : Nat} {same : α → α → Bool} {value : α}
    {listing : Listing α} (present : listing ≠ .listed []) :
    listing.add limit same value ≠ .listed [] := by
  cases listing with
  | absent => simp [Listing.add]
  | unlisted => simp [Listing.add]
  | listed values =>
      simp only [Listing.add]
      split
      · exact present
      · split <;> simp

theorem Flags.Canonical.mark {flags : SurveyFlags} (canonical : flags.Canonical) {kind : Kind}
    (unlisted : kind.isListed = false) : (flags.mark kind).Canonical := by
  have kept : (flags.mark kind).numbers = flags.numbers ∧ (flags.mark kind).texts = flags.texts ∧
      (flags.mark kind).others = fun other => other = kind || flags.others other := by
    cases kind <;> first | contradiction | exact ⟨rfl, rfl, rfl⟩
  obtain ⟨numbers, texts, others⟩ := kept
  refine ⟨numbers ▸ canonical.numbers, texts ▸ canonical.texts, fun other listed => ?_⟩
  have different : other ≠ kind := by
    rintro rfl
    simp [unlisted] at listed
  simp [others, different, canonical.others other listed]

theorem Flags.Canonical.note {flags : SurveyFlags} (canonical : flags.Canonical) (value : Value) :
    (flags.note value).Canonical := by
  cases value with
  | number number =>
      exact ⟨Listing.add_ne_listed_nil canonical.numbers, canonical.texts, canonical.others⟩
  | text words =>
      refine ⟨canonical.numbers, ?_, canonical.others⟩
      change (if _ then _ else _) ≠ _
      split
      · simp
      · exact Listing.add_ne_listed_nil canonical.texts
  | other _ => exact canonical
  | _ =>
      simp only [SurveyFlags.note, Kind.ofValue?, Option.map_some, Option.getD_some]
      exact canonical.mark rfl

theorem lasting_canonical : Lasting Flags.Canonical fun _ => True where
  empty := ⟨by simp, by simp, fun _ _ => rfl⟩
  mark canonical := canonical.mark rfl
  note _ canonical := canonical.note _

theorem Listing.ne_listed_nil_of_convert? {α β : Type} {turn : α → Option β}
    {listing : Listing α} {turned : Listing β}
    (turns : Survey.convert? turn listing = some turned) (present : listing ≠ .listed []) :
    turned ≠ .listed [] := by
  rintro rfl
  obtain ⟨values, listed, same⟩ := (Listing.values?_of_convert? turns).mp rfl
  rw [List.map_nil, List.map_eq_nil_iff] at same
  subst same
  cases listing <;> simp_all [Listing.values?]

theorem Flags.Canonical.finish? {flags : SurveyFlags} (canonical : flags.Canonical)
    {finished : Flags Float Text} (done : Survey.finish? flags = some finished) :
    finished.Canonical := by
  simp only [Survey.finish?, Option.bind_eq_some_iff, Option.map_eq_some_iff] at done
  obtain ⟨numbers, numbersDone, texts, textsDone, rfl⟩ := done
  exact ⟨Listing.ne_listed_nil_of_convert? numbersDone canonical.numbers,
    Listing.ne_listed_nil_of_convert? textsDone canonical.texts, canonical.others⟩

/-- The schema of documents is linked from canonical flags. -/
theorem canonical_of_mapValues? {documents : List Document} {fields : Entries (Flags Float Text)}
    (finished : Entries.mapValues? Survey.finish? (({} : Survey).addAll documents).fields =
      some fields) {field : Text × Flags Float Text} (member : field ∈ fields) :
    field.2.Canonical := by
  have canonical : (({} : Survey).addAll documents).table.Throughout Flags.Canonical :=
    lasting_canonical.throughout fun _ _ => trivial
  obtain ⟨surveyed, among, done⟩ := Entries.exists_of_mem_mapValues? finished member
  exact (canonical _ (List.mem_filter.mp among).1).finish? done

end Surveys

/-! ## Schemas -/

/-- The names of the document are kinds, each given once, and its lists are of their kinds. -/
structure FlagDocument.Valid (document : FlagDocument) : Prop where
  distinct : document.keys.Nodup
  kinds : document.NamesKinds
  typed : document.WellTyped

section Schemas

variable {fields : Entries (Flags Float Text)}

/-- A schema of fields has the fields, with their flags and in their order. -/
theorem map_flags_ofFlags (distinct : fields.keys.Nodup) (sampled : Int) :
    (ofFlags fields sampled).fields.map (fun entry => (entry.1, entry.2.flags)) = fields := by
  have each : ∀ field ∈ fields,
      ((((linkFrom [] (deepestFirst fields)).find? field.1).map fun profile =>
        (field.1, profile)).map fun entry => (entry.1, entry.2.flags)) = some field := by
    intro field member
    have flags := map_flags_find?_linkFrom distinct field.1
    rw [Entries.find?_eq_some_of_mem distinct member] at flags
    obtain ⟨profile, found, same⟩ := Option.map_eq_some_iff.mp flags
    rw [found, Option.map_some, Option.map_some, same]
  rw [ofFlags_fields, List.map_filterMap, List.filterMap_congr each, List.filterMap_some]

theorem toDocuments_ofFlags (distinct : fields.keys.Nodup) (sampled : Int) :
    (ofFlags fields sampled).toDocuments =
      fields.map fun field => (field.1, field.2.toDocument) := by
  have flags := congrArg (List.map fun field => (field.1, Flags.toDocument field.2))
    (map_flags_ofFlags distinct sampled)
  rw [List.map_map] at flags
  exact flags

/-- A schema of canonical flags is read back from the documents of its fields. -/
theorem ofDocuments_toDocuments (distinct : fields.keys.Nodup)
    (canonical : ∀ field ∈ fields, field.2.Canonical) (sampled : Int) :
    ofDocuments (ofFlags fields sampled).toDocuments sampled = .ok (ofFlags fields sampled) := by
  have read : flagsOfDocuments (ofFlags fields sampled).toDocuments = .ok fields := by
    rw [flagsOfDocuments_eq_ok_iff, toDocuments_ofFlags distinct, List.map_map]
    refine List.map_congr_left fun field member => ?_
    exact congrArg (field.1, ·) (ofDocument_toDocument (canonical field member))
  exact ofDocuments_eq_ok_iff.mpr ⟨fields, read, rfl⟩

theorem canonical_of_flagsOfDocuments {documents : Entries FlagDocument}
    (read : flagsOfDocuments documents = .ok fields) {field : Text × Flags Float Text}
    (member : field ∈ fields) : field.2.Canonical := by
  have written : (field.1, Except.ok field.2) ∈
      documents.map fun field => (field.1, Flags.ofDocument field.2) := by
    rw [flagsOfDocuments_eq_ok_iff.mp read]
    exact List.mem_map_of_mem member
  obtain ⟨document, -, same⟩ := List.mem_map.mp written
  exact canonical_of_ofDocument (congrArg Prod.snd same)

/-- Each field that is read is written in its normal form. -/
theorem normal_of_flagsOfDocuments {documents : Entries FlagDocument}
    (distinct : ∀ field ∈ documents, field.2.keys.Nodup)
    (read : flagsOfDocuments documents = .ok fields) :
    List.Forall₂ (fun written field => written.1 = field.1 ∧ written.2.Perm field.2.normal)
      (fields.map fun field => (field.1, field.2.toDocument)) documents := by
  have same := flagsOfDocuments_eq_ok_iff.mp read
  rw [← List.forall₂_eq_eq_eq, List.forall₂_map_left_iff, List.forall₂_map_right_iff] at same
  have each := (List.forall₂_and_left documents fields).mpr ⟨distinct, same⟩
  rw [List.forall₂_map_left_iff]
  refine each.flip.imp fun read field agree => ?_
  obtain ⟨distinct, agree⟩ := agree
  obtain ⟨paths, flags⟩ := Prod.ext_iff.mp agree
  exact ⟨paths.symm, toDocument_of_ofDocument distinct flags⟩

/-- A schema that is read from flag documents, and so the schema of documents, is read back from
its own flag documents. What it writes for a field is the normal form of what was read. -/
theorem ofDocuments_toDocuments_of_valid :
    (∀ (documents : Entries FlagDocument) (sampled : Int), documents.keys.Nodup →
      (∀ field ∈ documents, field.2.Valid) →
      ∃ schema, ofDocuments documents sampled = .ok schema ∧
        ofDocuments schema.toDocuments schema.sampled = .ok schema ∧
        List.Forall₂ (fun written field => written.1 = field.1 ∧ written.2.Perm field.2.normal)
          schema.toDocuments documents) ∧
    ∀ (documents : List Document) (schema : Schema),
      (({} : Survey).addAll documents).schema? = some schema →
        ofDocuments schema.toDocuments schema.sampled = .ok schema := by
  constructor
  · intro documents sampled distinct valid
    obtain ⟨flags, read⟩ := exists_flagsOfDocuments (fun field member => (valid field member).kinds)
      fun field member => (valid field member).typed
    have flagsDistinct : flags.keys.Nodup := keys_of_flagsOfDocuments read ▸ distinct
    refine ⟨ofFlags flags sampled, ofDocuments_eq_ok_iff.mpr ⟨flags, read, rfl⟩, ?_, ?_⟩
    · exact ofDocuments_toDocuments flagsDistinct
        (fun _ member => canonical_of_flagsOfDocuments read member) sampled
    · rw [toDocuments_ofFlags flagsDistinct]
      exact normal_of_flagsOfDocuments (fun field member => (valid field member).distinct) read
  · intro documents schema built
    obtain ⟨fields, finished, distinct, linked⟩ := Survey.exists_fields_of_schema? built
    rw [linked]
    exact ofDocuments_toDocuments distinct
      (fun _ member => canonical_of_mapValues? finished member) schema.sampled

/-- A field whose numbers and texts are told in the loosest ways. -/
def looseField : FlagDocument :=
  [(Kind.string.name, .array [.text { text := ['x'] }, .binary ['7', '9']]),
    (Kind.null.name, .number (.integer 0)),
    (Kind.double.name, .array [.bool true, .long 2, .number (.double 1)]),
    (Kind.date.name, .text { text := ['z'] })]

/-- The loose field below another one. -/
def looseFields : Entries FlagDocument :=
  [(['a'], [(Kind.object.name, .long 7)]), (['a', '.', 'b'], looseField)]

/-- The loose field with its texts and numbers as they are read. -/
def settledField : FlagDocument :=
  [(Kind.string.name, .array [writeText ['x'], writeText ['y']]),
    (Kind.double.name, .array [writeDouble 1, writeDouble (Float.ofInt 2), writeDouble 1]),
    (Kind.date.name, .bool true)]

theorem map_textOf?_looseField :
    [Value.text { text := ['x'] }, .binary ['7', '9']].map textOf? =
      [['x'], ['y']].map some := by
  have spelled : textOf? (.binary ['7', '9']) = some ['y'] :=
    textOf?_eq_some_iff.mpr (.inr ⟨_, [0x79], rfl, rfl, rfl⟩)
  rw [List.map_cons, List.map_cons, spelled]
  rfl

theorem map_numberOf?_looseField :
    [Value.bool true, .long 2, .number (.double 1)].map numberOf? =
      [1, Float.ofInt 2, 1].map some := by
  have two : numberOf? (.long 2) = some (Float.ofInt 2) := by decide +kernel
  rw [List.map_cons, List.map_cons, two]
  rfl

theorem readsEach_of_map {α : Type} {read : Value → Option α} {elements : List Value}
    {values : List α} (reads : elements.map read = values.map some) :
    ReadsEach read (.array elements) := by
  rintro _ ⟨⟩
  apply Listing.isSome_mapM_iff.mp
  rw [Listing.mapM_eq_some_iff.mpr reads]
  rfl

theorem looseFields_valid : ∀ field ∈ looseFields, field.2.Valid := by
  intro field member
  have distinct : ∀ field ∈ looseFields, field.2.keys.Nodup := by decide
  have kinds : field.2.NamesKinds := by
    intro name known
    rw [← Kind.isSome_ofName?_iff]
    revert name
    revert field
    decide
  refine ⟨distinct field member, kinds, ?_⟩
  rcases List.mem_pair.mp member with rfl | rfl
  · constructor <;> exact isSome_listingOf?_iff.mp rfl
  · exact ⟨readsEach_of_map map_numberOf?_looseField, readsEach_of_map map_textOf?_looseField⟩

theorem normal_looseField : looseField.normal = settledField := by
  have texts : settled? .string (.array [.text { text := ['x'] }, .binary ['7', '9']]) =
      some (.array [writeText ['x'], writeText ['y']]) :=
    congrArg (fun elements => some (Value.array elements))
      (map_rewritten writeText map_textOf?_looseField)
  have numbers : settled? .double (.array [.bool true, .long 2, .number (.double 1)]) =
      some (.array [writeDouble 1, writeDouble (Float.ofInt 2), writeDouble 1]) :=
    congrArg (fun elements => some (Value.array elements))
      (map_rewritten writeDouble map_numberOf?_looseField)
  have nothing : settled? .null (.number (.integer 0)) = none := if_neg (by decide)
  have date : settled? .date (.text { text := ['z'] }) = some (.bool true) := rfl
  simp [FlagDocument.normal, looseField, settledField, Kind.ofName?_name,
    texts, numbers, nothing, date]

/-- A value that is not set is dropped, the elements of the lists become doubles and plain texts,
and the field is a child of the one above it. A document with a null field below another one has a
schema that is read back too. -/
theorem ofDocuments_toDocuments_of_valid_looseField :
    (∃ schema outer inner written, ofDocuments looseFields 5 = .ok schema ∧
      ofDocuments schema.toDocuments schema.sampled = .ok schema ∧
      schema.find? ['a'] = some outer ∧ (['b'], inner) ∈ outer.children ∧
      schema.find? ['a', '.', 'b'] = some inner ∧
      schema.toDocuments =
        [(['a'], [(Kind.object.name, .bool true)]), (['a', '.', 'b'], written)] ∧
      written.Perm settledField) ∧
    ∃ schema, (({} : Survey).addAll [[(.text ['a'], .object [(.text ['b'], .null)])]]).schema? =
        some schema ∧
      ofDocuments schema.toDocuments schema.sampled = .ok schema := by
  obtain ⟨schema, read, again, forms⟩ :=
    ofDocuments_toDocuments_of_valid.1 looseFields 5 (by decide) looseFields_valid
  -- What is written for both fields.
  obtain ⟨⟨_, above⟩, _, ⟨rfl, permAbove⟩, later, whole⟩ := List.forall₂_cons_right_iff.mp forms
  obtain ⟨⟨_, written⟩, others, ⟨rfl, perm⟩, rest, rfl⟩ := List.forall₂_cons_right_iff.mp later
  obtain rfl := List.forall₂_nil_right_iff.mp rest
  have normalAbove : normal [(Kind.object.name, .long 7)] = [(Kind.object.name, .bool true)] := rfl
  rw [normalAbove, List.perm_singleton] at permAbove
  rw [normal_looseField] at perm
  -- The links are those of the flags that were read.
  obtain ⟨flags, flagsRead, linked⟩ := ofDocuments_eq_ok_iff.mp read
  have keys := keys_of_flagsOfDocuments flagsRead
  have distinct : flags.keys.Nodup := by
    rw [keys]
    decide
  obtain ⟨outer, found, links⟩ : ∃ outer, (ofFlags flags 5).find? ['a'] = some outer ∧
      LinksChildren (ofFlags flags 5) ['a'] outer.children := by
    apply exists_linksChildren_ofFlags distinct
    rw [keys]
    decide
  have named : ['b'] ∈ outer.children.map Prod.fst := by
    rw [links.named, paths_ofFlags distinct, keys]
    decide
  rw [linked] at found links
  obtain ⟨⟨_, inner⟩, among, rfl⟩ := List.mem_map.mp named
  exact ⟨⟨schema, outer, inner, written, read, again, found, among, links.linked _ among,
      permAbove ▸ whole, perm⟩,
    _, rfl, ofDocuments_toDocuments_of_valid.2 [[(.text ['a'], .object [(.text ['b'], .null)])]] _
      rfl⟩

end Schemas

end Typeahead.Schema

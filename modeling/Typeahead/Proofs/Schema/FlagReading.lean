import Typeahead.Proofs.Schema.Enumeration
import Typeahead.Schema.FlagDocument

/-!
# Which flag documents can be read

A flag document is read if all its names are kinds and the values that it lists for numbers and
texts are of their kinds; what it says of the other kinds is never refused. Flag documents of
several fields are read one by one, and all are read or none is.
-/

namespace Typeahead.Schema

open Document (Value)

namespace FlagDocument

/-- All names of the document are kinds. -/
def NamesKinds (document : FlagDocument) : Prop :=
  ∀ name ∈ document.keys, ∃ kind : Kind, name = kind.name

/-- If the value is a list, its elements can all be read. -/
def ReadsEach {α : Type} (read : Value → Option α) (value : Value) : Prop :=
  ∀ elements, value = .array elements → ∀ element ∈ elements, (read element).isSome

/-- The values that the document lists are of their kinds. -/
structure WellTyped (document : FlagDocument) : Prop where
  numbers : ReadsEach numberOf? (flagOf document .double)
  texts : ReadsEach textOf? (flagOf document .string)

end FlagDocument

open FlagDocument

/-! ## Names of kinds -/

namespace Kind

theorem ofName?_name (kind : Kind) : ofName? kind.name = some kind := by
  cases kind <;> decide

theorem name_injective : Function.Injective name := by
  intro first second same
  have known := ofName?_name first
  rw [same, ofName?_name] at known
  exact (Option.some.inj known).symm

theorem mem_all (kind : Kind) : kind ∈ all := by
  cases kind <;> decide

theorem ofName?_eq_some_iff {name : Text} {kind : Kind} :
    ofName? name = some kind ↔ name = kind.name := by
  constructor
  · intro found
    rw [ofName?, List.find?_eq_some_iff_append] at found
    exact (eq_of_beq found.1).symm
  · rintro rfl
    exact ofName?_name kind

theorem isSome_ofName?_iff {name : Text} :
    (ofName? name).isSome ↔ ∃ kind : Kind, name = kind.name := by
  simp only [Option.isSome_iff_exists, ofName?_eq_some_iff]

end Kind

theorem unknownKind?_eq_none_iff {document : FlagDocument} :
    unknownKind? document = none ↔ document.NamesKinds := by
  simp [unknownKind?, NamesKinds, ← Kind.isSome_ofName?_iff, Option.isSome_iff_ne_none]

/-! ## One document -/

/-- A text is told by itself and by the bytes of its UTF-8 form. -/
theorem textOf?_eq_some_iff {value : Value} {text : Text} :
    textOf? value = some text ↔
      (∃ words, value = .text words ∧ words.text = text) ∨
        ∃ digits bytes, value = .binary digits ∧ digits.bytes? = some bytes ∧
          bytes.toByteArray = text.utf8Encode := by
  cases value with
  | binary digits => simp [textOf?, Option.bind_eq_some_iff, Text.ofUtf8?_eq_some_iff]
  | _ => simp [textOf?]

theorem isSome_listingOf?_iff {α : Type} {read : Value → Option α} {value : Value} :
    (listingOf? read value).isSome ↔ ReadsEach read value := by
  unfold listingOf?
  split
  · simp [ReadsEach]
  · simp [ReadsEach, Listing.isSome_mapM_iff]
  next notEmpty notList =>
    simp only [Option.isSome_some, true_iff]
    intro elements isList
    exact absurd isList (notList elements)

namespace Flags

variable {document : FlagDocument}

/-- The flags that are read from a document are the listings of its numbers and texts, and what it
says of the other kinds. -/
theorem ofDocument_eq_ok_iff {flags : Flags Float Text} :
    ofDocument document = .ok flags ↔
      document.NamesKinds ∧
        listingOf? numberOf? (flagOf document .double) = some flags.numbers ∧
        listingOf? textOf? (flagOf document .string) = some flags.texts ∧
        (fun kind => !kind.isListed && (flagOf document kind).isSet) = flags.others := by
  obtain ⟨numbers, texts, others⟩ := flags
  rw [← unknownKind?_eq_none_iff, ofDocument]
  cases unknownKind? document with
  | some name => simp
  | none =>
      cases listingOf? numberOf? (flagOf document .double) with
      | none => simp
      | some numbersRead =>
          cases listingOf? textOf? (flagOf document .string) with
          | none => simp
          | some textsRead => simp

/-- A document is read if its names are kinds and it is well typed. -/
theorem exists_ofDocument (kinds : document.NamesKinds) (typed : document.WellTyped) :
    ∃ flags, ofDocument document = .ok flags := by
  obtain ⟨numbers, numbersRead⟩ :=
    Option.isSome_iff_exists.mp (isSome_listingOf?_iff.mpr typed.numbers)
  obtain ⟨texts, textsRead⟩ :=
    Option.isSome_iff_exists.mp (isSome_listingOf?_iff.mpr typed.texts)
  exact ⟨⟨numbers, texts, _⟩, ofDocument_eq_ok_iff.mpr ⟨kinds, numbersRead, textsRead, rfl⟩⟩

/-- A document whose names are kinds is refused as ill-typed if it is not well typed. -/
theorem ofDocument_of_not_wellTyped (kinds : document.NamesKinds)
    (ill : ¬document.WellTyped) : ofDocument document = .error .illTyped := by
  unfold ofDocument
  rw [unknownKind?_eq_none_iff.mpr kinds]
  dsimp only
  split
  next numbers texts numbersRead textsRead =>
    refine absurd ⟨?_, ?_⟩ ill
    · exact isSome_listingOf?_iff.mp (Option.isSome_of_eq_some numbersRead)
    · exact isSome_listingOf?_iff.mp (Option.isSome_of_eq_some textsRead)
  next => rfl

end Flags

/-! ## Documents of fields -/

variable {fields : Entries FlagDocument}

theorem flagsOfDocuments_cons (path : Text) (document : FlagDocument)
    (rest : Entries FlagDocument) :
    flagsOfDocuments ((path, document) :: rest) =
      (Flags.ofDocument document).bind fun flags =>
        (flagsOfDocuments rest).map fun others => (path, flags) :: others := by
  rw [flagsOfDocuments]
  cases Flags.ofDocument document with
  | error error => rfl
  | ok flags => cases flagsOfDocuments rest <;> rfl

/-- Fields are read one by one, in their order and under their paths. -/
theorem flagsOfDocuments_eq_ok_iff {flags : Entries (Flags Float Text)} :
    flagsOfDocuments fields = .ok flags ↔
      fields.map (fun field => (field.1, Flags.ofDocument field.2)) =
        flags.map fun read => (read.1, .ok read.2) := by
  induction fields generalizing flags with
  | nil => cases flags <;> simp [flagsOfDocuments]
  | cons field rest inductionHypothesis =>
      obtain ⟨path, document⟩ := field
      rw [flagsOfDocuments_cons]
      cases flags with
      | nil =>
          cases Flags.ofDocument document with
          | error error => simp [Except.bind]
          | ok first => cases flagsOfDocuments rest <;> simp [Except.bind, Except.map]
      | cons read others =>
          rw [List.map_cons, List.map_cons, List.cons.injEq, ← inductionHypothesis]
          cases Flags.ofDocument document with
          | error error => simp [Except.bind]
          | ok first =>
              cases flagsOfDocuments rest <;> simp [Except.bind, Except.map, Prod.ext_iff]

theorem keys_of_flagsOfDocuments {flags : Entries (Flags Float Text)}
    (read : flagsOfDocuments fields = .ok flags) : flags.keys = fields.keys := by
  have same := congrArg (List.map Prod.fst) (flagsOfDocuments_eq_ok_iff.mp read)
  simpa [Entries.keys, Function.comp_def] using same.symm

/-- A schema is read if and only if the flags of all fields are, from which it is linked. -/
theorem ofDocuments_eq_ok_iff {sampled : Int} {schema : Schema} :
    ofDocuments fields sampled = .ok schema ↔
      ∃ flags, flagsOfDocuments fields = .ok flags ∧ ofFlags flags sampled = schema := by
  rw [ofDocuments]
  cases flagsOfDocuments fields <;> simp [Except.map]

/-- Documents of fields whose names are kinds are read if all are well typed. -/
theorem exists_flagsOfDocuments (kinds : ∀ field ∈ fields, field.2.NamesKinds)
    (typed : ∀ field ∈ fields, field.2.WellTyped) :
    ∃ flags, flagsOfDocuments fields = .ok flags := by
  induction fields with
  | nil => exact ⟨[], rfl⟩
  | cons field rest inductionHypothesis =>
      obtain ⟨path, document⟩ := field
      obtain ⟨firstKinds, othersKinds⟩ := List.forall_mem_cons.mp kinds
      obtain ⟨firstTyped, othersTyped⟩ := List.forall_mem_cons.mp typed
      obtain ⟨first, read⟩ := Flags.exists_ofDocument firstKinds firstTyped
      obtain ⟨others, readOthers⟩ := inductionHypothesis othersKinds othersTyped
      rw [flagsOfDocuments_cons, read, readOthers]
      exact ⟨(path, first) :: others, rfl⟩

/-- Documents of fields whose names are kinds are refused if one of them is not well typed. -/
theorem flagsOfDocuments_of_not_wellTyped (kinds : ∀ field ∈ fields, field.2.NamesKinds)
    (ill : ∃ field ∈ fields, ¬field.2.WellTyped) :
    flagsOfDocuments fields = .error .illTyped := by
  induction fields with
  | nil => simp at ill
  | cons field rest inductionHypothesis =>
      obtain ⟨path, document⟩ := field
      obtain ⟨first, others⟩ := List.forall_mem_cons.mp kinds
      rw [flagsOfDocuments_cons]
      by_cases typed : document.WellTyped
      · obtain ⟨flags, read⟩ := Flags.exists_ofDocument first typed
        have later : ∃ field ∈ rest, ¬field.2.WellTyped := by simpa [typed] using ill
        rw [read, inductionHypothesis others later]
        rfl
      · rw [Flags.ofDocument_of_not_wellTyped first typed]
        rfl

end Typeahead.Schema

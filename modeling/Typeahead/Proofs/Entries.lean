import Typeahead.Entries

/-!
# Looking up in entries

What is found under a key after entries were put in another order, filtered, or changed value by
value. Entries with distinct keys are determined by what is found under their keys, up to their
order.
-/

namespace Typeahead

namespace Entries

variable {α β : Type}

theorem find?_eq_some_of_mem {entries : Entries α} {key : Text} {value : α}
    (distinct : (keys entries).Nodup) (member : (key, value) ∈ entries) :
    find? entries key = some value := by
  induction entries with
  | nil => contradiction
  | cons entry rest induct =>
      obtain ⟨unknown, others⟩ := List.nodup_cons.mp distinct
      rw [find?_cons]
      rcases List.mem_cons.mp member with rfl | later
      · rw [if_pos rfl]
      · rw [if_neg, induct others later]
        intro same
        exact unknown (same ▸ List.mem_map_of_mem later)

theorem mem_of_find?_eq_some {entries : Entries α} {key : Text} {value : α}
    (found : find? entries key = some value) : (key, value) ∈ entries := by
  induction entries with
  | nil => simp at found
  | cons entry rest induct =>
      rw [find?_cons] at found
      split at found
      · rename_i same
        rw [← same, ← Option.some.inj found]
        exact List.mem_cons_self
      · exact List.mem_cons_of_mem _ (induct found)

/-- The value under a key does not depend on the order of entries with distinct keys. -/
theorem find?_of_perm {entries others : Entries α} (perm : entries.Perm others)
    (distinct : (keys entries).Nodup) (key : Text) : find? entries key = find? others key := by
  have othersDistinct : (keys others).Nodup := (perm.map Prod.fst).nodup_iff.mp distinct
  ext value
  constructor
  · intro found
    exact find?_eq_some_of_mem othersDistinct (perm.mem_iff.mp (mem_of_find?_eq_some found))
  · intro found
    exact find?_eq_some_of_mem distinct (perm.mem_iff.mpr (mem_of_find?_eq_some found))

/-- What is found after the values of distinct keys were put into entries one by one. -/
theorem find?_foldl_upsert {values : Entries β} (distinct : (keys values).Nodup) (first : β → α)
    (change : β → α → α) (start : Entries α) (key : Text) :
    find? (values.foldl (fun known entry =>
        known.upsert entry.1 (first entry.2) (change entry.2)) start) key =
      match find? values key with
      | none => find? start key
      | some value => some (((find? start key).map (change value)).getD (first value)) := by
  induction values generalizing start with
  | nil => rfl
  | cons entry rest induct =>
      obtain ⟨unknown, others⟩ := List.nodup_cons.mp distinct
      rw [List.foldl_cons, induct others, find?_upsert, find?_cons]
      by_cases same : entry.1 = key
      · have absent : find? rest key = none := by
          rw [← Option.not_isSome_iff_eq_none, isSome_find?_iff, ← same]
          exact unknown
        rw [if_pos same, if_pos same, absent]
      · rw [if_neg same, if_neg same]

theorem find?_map (entries : Entries α) (change : α → β) (key : Text) :
    find? (entries.map fun entry => (entry.1, change entry.2)) key =
      (find? entries key).map change := by
  induction entries with
  | nil => rfl
  | cons entry rest induct =>
      rw [List.map_cons, find?_cons, find?_cons, induct]
      split <;> rfl

theorem find?_filter (entries : Entries α) (keep : Text → Bool) (key : Text) :
    find? (entries.filter fun entry => keep entry.1) key =
      if keep key then find? entries key else none := by
  induction entries with
  | nil => simp
  | cons entry rest induct =>
      by_cases same : entry.1 = key
      · subst same
        by_cases kept : keep entry.1 <;> simp [kept, find?_cons, induct]
      · by_cases kept : keep entry.1 <;> simp [kept, find?_cons, induct, same]

theorem mem_keys_cons {entry : Text × α} {rest : Entries α} {key : Text} :
    key ∈ keys (entry :: rest) ↔ entry.1 = key ∨ key ∈ keys rest := by
  rw [keys, List.map_cons, List.mem_cons, eq_comm]
  rfl

/-- Entries that take their values from a look-up. -/
theorem find?_filterMap (entries : Entries α) (look : Text → Option β) (key : Text) :
    find? (entries.filterMap fun entry => (look entry.1).map fun value => (entry.1, value)) key =
      if key ∈ keys entries then look key else none := by
  induction entries with
  | nil => simp [keys]
  | cons entry rest induct =>
      simp only [List.filterMap_cons, mem_keys_cons]
      by_cases same : entry.1 = key
      · subst same
        cases looked : look entry.1 with
        | none => simp [induct, looked]
        | some value => simp [find?_cons]
      · cases looked : look entry.1 with
        | none => simp [induct, same]
        | some value => simp [find?_cons, same, induct]

theorem keys_filterMap (entries : Entries α) {look : Text → Option β}
    (found : ∀ key ∈ keys entries, (look key).isSome) :
    keys (entries.filterMap fun entry => (look entry.1).map fun value => (entry.1, value)) =
      keys entries := by
  induction entries with
  | nil => rfl
  | cons entry rest induct =>
      obtain ⟨value, looked⟩ := Option.isSome_iff_exists.mp (found entry.1 List.mem_cons_self)
      rw [List.filterMap_cons, looked]
      exact congrArg (entry.1 :: ·)
        (induct fun key member => found key (List.mem_cons_of_mem _ member))

/-- Entries that are made of items, each under a key that the item has. -/
theorem keys_filterMap_sublist {ι : Type} {key : ι → Text} {look : ι → Option (Text × α)}
    (keyed : ∀ {item entry}, look item = some entry → entry.1 = key item) (items : List ι) :
    (keys (items.filterMap look)).Sublist (items.map key) := by
  induction items with
  | nil => exact List.Sublist.refl _
  | cons item rest induct =>
      rw [List.filterMap_cons, List.map_cons]
      split
      · exact induct.cons _
      next entry looked =>
        rw [← keyed looked]
        exact induct.cons_cons entry.1

/-- Change all values, if each has a change. -/
def mapValues? (change : α → Option β) (entries : Entries α) : Option (Entries β) :=
  entries.mapM fun entry => (change entry.2).map fun value => (entry.1, value)

theorem mapValues?_cons (change : α → Option β) (entry : Text × α) (rest : Entries α) :
    mapValues? change (entry :: rest) =
      (change entry.2).bind fun value =>
        (mapValues? change rest).map fun others => (entry.1, value) :: others := by
  rw [mapValues?, List.mapM_cons]
  cases change entry.2 with
  | none => rfl
  | some value => cases others : mapValues? change rest <;> simp_all [mapValues?]

theorem find?_of_mapValues? {change : α → Option β} {entries : Entries α} {results : Entries β}
    (mapped : mapValues? change entries = some results) (key : Text) :
    find? results key = (find? entries key).bind change := by
  induction entries generalizing results with
  | nil =>
      cases mapped
      rfl
  | cons entry rest induct =>
      simp only [mapValues?_cons, Option.bind_eq_some_iff, Option.map_eq_some_iff] at mapped
      obtain ⟨value, changed, others, later, rfl⟩ := mapped
      rw [find?_cons, find?_cons]
      split
      · exact changed.symm
      · exact induct later

theorem keys_of_mapValues? {change : α → Option β} {entries : Entries α} {results : Entries β}
    (mapped : mapValues? change entries = some results) : keys results = keys entries := by
  induction entries generalizing results with
  | nil =>
      cases mapped
      rfl
  | cons entry rest induct =>
      simp only [mapValues?_cons, Option.bind_eq_some_iff, Option.map_eq_some_iff] at mapped
      obtain ⟨value, _, others, later, rfl⟩ := mapped
      exact congrArg (entry.1 :: ·) (induct later)

theorem exists_of_mem_mapValues? {change : α → Option β} {entries : Entries α}
    {results : Entries β} (mapped : mapValues? change entries = some results) {result : Text × β}
    (member : result ∈ results) :
    ∃ value, (result.1, value) ∈ entries ∧ change value = some result.2 := by
  induction entries generalizing results with
  | nil =>
      cases mapped
      contradiction
  | cons entry rest induct =>
      simp only [mapValues?_cons, Option.bind_eq_some_iff, Option.map_eq_some_iff] at mapped
      obtain ⟨value, changed, others, later, rfl⟩ := mapped
      rcases List.mem_cons.mp member with rfl | among
      · exact ⟨entry.2, List.mem_cons_self, changed⟩
      · obtain ⟨value, before, done⟩ := induct later among
        exact ⟨value, List.mem_cons_of_mem _ before, done⟩

theorem isSome_mapValues?_iff {change : α → Option β} {entries : Entries α} :
    (mapValues? change entries).isSome ↔ ∀ entry ∈ entries, (change entry.2).isSome := by
  induction entries with
  | nil => simp [mapValues?]
  | cons entry rest induct =>
      rw [mapValues?_cons, List.forall_mem_cons, ← induct]
      cases change entry.2 <;> simp

end Entries

end Typeahead

import Typeahead.Text.Basic

/-!
# Ordered entries

Values under textual keys, in the order in which the keys first appeared. A new value for a known
key keeps the place of the key.
-/

namespace Typeahead

/-- Values under keys, in the order of the keys' first appearance. -/
abbrev Entries (α : Type) := List (Text × α)

namespace Entries

variable {α : Type}

/-- The keys in their order. -/
def keys (entries : Entries α) : List Text :=
  entries.map Prod.fst

/-- The value under a key. -/
def find? (entries : Entries α) (key : Text) : Option α :=
  (List.find? (·.1 == key) entries).map (·.2)

/-- Change the value under a key; an absent key is put at the end with a first value. -/
def upsert (key : Text) (first : α) (change : α → α) : Entries α → Entries α
  | [] => [(key, first)]
  | entry :: rest =>
      if entry.1 = key then (key, change entry.2) :: rest
      else entry :: upsert key first change rest

/-- Give a key a value. -/
def insert (entries : Entries α) (key : Text) (value : α) : Entries α :=
  upsert key value (fun _ => value) entries

/-- Change the value under a key, if there is one. -/
def modify (entries : Entries α) (key : Text) (change : α → α) : Entries α :=
  entries.map fun entry => if entry.1 = key then (entry.1, change entry.2) else entry

/-- Entries with the last value of each key, at the place of its first. -/
def ofList (pairs : List (Text × α)) : Entries α :=
  pairs.foldl (fun known pair => insert known pair.1 pair.2) []

theorem keys_upsert (key : Text) (first : α) (change : α → α) (entries : Entries α) :
    keys (upsert key first change entries) =
      if key ∈ keys entries then keys entries else keys entries ++ [key] := by
  induction entries with
  | nil => simp [upsert, keys]
  | cons entry rest induct =>
      simp only [keys, List.map_cons] at induct ⊢
      by_cases same : entry.1 = key
      · simp [upsert, same]
      · have other : key ≠ entry.1 := Ne.symm same
        by_cases known : key ∈ rest.map Prod.fst <;>
          simp [upsert, same, induct, other, known]

theorem nodup_keys_upsert {key : Text} {first : α} {change : α → α} {entries : Entries α}
    (distinct : (keys entries).Nodup) : (keys (upsert key first change entries)).Nodup := by
  rw [keys_upsert]
  split
  · exact distinct
  · rename_i unknown
    refine List.nodup_append.mpr ⟨distinct, by simp, ?_⟩
    intro known member added single
    rw [List.mem_singleton.mp single]
    exact fun same => unknown (same ▸ member)

theorem keys_modify (entries : Entries α) (key : Text) (change : α → α) :
    keys (modify entries key change) = keys entries := by
  simp only [keys, modify, List.map_map]
  apply List.map_congr_left
  intro entry _
  simp only [Function.comp_apply]
  split <;> rfl

@[simp]
theorem find?_nil (key : Text) : find? ([] : Entries α) key = none :=
  rfl

theorem find?_cons (entry : Text × α) (rest : Entries α) (key : Text) :
    find? (entry :: rest) key = if entry.1 = key then some entry.2 else find? rest key := by
  by_cases same : entry.1 = key <;> simp [find?, same]

theorem isSome_find?_iff {entries : Entries α} {key : Text} :
    (find? entries key).isSome ↔ key ∈ keys entries := by
  induction entries with
  | nil => simp [keys]
  | cons entry rest induct =>
      rw [find?_cons, keys, List.map_cons, List.mem_cons, ← keys, ← induct]
      by_cases same : entry.1 = key
      · simp [same]
      · simp [same, Ne.symm same]

theorem find?_upsert (key : Text) (first : α) (change : α → α) (entries : Entries α)
    (other : Text) :
    find? (upsert key first change entries) other =
      if key = other then some (((find? entries other).map change).getD first)
      else find? entries other := by
  induction entries with
  | nil => rw [upsert, find?_cons]; rfl
  | cons entry rest induct =>
      rw [upsert]
      by_cases same : entry.1 = key
      · rw [if_pos same, find?_cons, find?_cons]
        by_cases asked : key = other
        · rw [if_pos asked, if_pos asked, if_pos (same.trans asked)]
          rfl
        · rw [if_neg asked, if_neg asked, if_neg (same ▸ asked)]
      · rw [if_neg same, find?_cons, find?_cons, induct]
        by_cases asked : key = other
        · subst asked
          rw [if_neg same, if_neg same]
        · rw [if_neg asked, if_neg asked]

theorem find?_insert (entries : Entries α) (key : Text) (value : α) (other : Text) :
    find? (insert entries key value) other =
      if key = other then some value else find? entries other := by
  rw [insert, find?_upsert]
  cases find? entries other <;> rfl

theorem find?_modify (entries : Entries α) (key : Text) (change : α → α) (other : Text) :
    find? (modify entries key change) other =
      if key = other then (find? entries other).map change else find? entries other := by
  induction entries with
  | nil => simp [modify]
  | cons entry rest induct =>
      rw [modify, List.map_cons, find?_cons, ← modify, induct, find?_cons]
      by_cases same : entry.1 = key
      · subst same
        by_cases asked : entry.1 = other <;> simp [asked]
      · rw [if_neg same]
        by_cases asked : entry.1 = other
        · subst asked
          simp [Ne.symm same]
        · simp [asked]

end Entries

end Typeahead

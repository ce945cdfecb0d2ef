import Typeahead.Proofs.Entries
import Typeahead.Trigram.Grams

/-!
# How often windows occur

The windows of terms are counted in entries, one for each window that occurs, with the number of
its occurrences. A term that begins with a part has all windows of the part.
-/

namespace Typeahead.Trigram

/-- The windows of terms, from left to right. -/
def grams (terms : List Text) : List Text :=
  terms.flatMap (windows standardWidth)

/-- The number of times that a window occurs in terms. -/
def occurrences (terms : List Text) (window : Text) : Nat :=
  (grams terms).count window

theorem occurrences_eq_zero {terms : List Text} {window : Text} (absent : window ∉ grams terms) :
    occurrences terms window = 0 :=
  List.count_eq_zero_of_not_mem absent

theorem occurrences_pos {terms : List Text} {window : Text} (member : window ∈ grams terms) :
    0 < occurrences terms window :=
  List.count_pos_iff.mpr member

/-! ## Beginnings -/

theorem windows_subset_of_prefix {part term : Text} (begins : part <+: term) :
    windows standardWidth part ⊆ windows standardWidth term := by
  obtain ⟨rest, rfl⟩ := begins
  intro window member
  obtain ⟨low, inside, rfl⟩ := List.mem_map.mp member
  rw [List.mem_range, standardWidth] at inside
  have room : low < (((part ++ rest).length : Int) - standardWidth + 1).toNat := by
    rw [List.length_append, standardWidth]
    omega
  have stop : ((low : Int) + standardWidth).toNat ≤ part.length := by
    rw [standardWidth]
    omega
  have ahead : ¬((low : Int) + standardWidth < 0) := by
    rw [standardWidth]
    omega
  have same : stretch (part ++ rest) low (low + standardWidth) =
      stretch part low (low + standardWidth) := by
    rw [stretch, stretch, if_neg ahead, if_neg ahead, List.take_append_of_le_length stop]
  exact List.mem_map.mpr ⟨low, List.mem_range.mpr room, same⟩

/-- What begins one of the terms has only windows of the terms. -/
theorem grams_subset_of_prefix {part term : Text} {terms : List Text} (member : term ∈ terms)
    (begins : part <+: term) : grams [part] ⊆ grams terms := by
  intro window occurs
  rw [grams, List.flatMap_singleton] at occurs
  exact List.mem_flatMap.mpr ⟨term, member, windows_subset_of_prefix begins occurs⟩

/-! ## Counts -/

theorem nodup_keys_foldl_count (listed : List Text) (start : Entries Nat)
    (distinct : (Entries.keys start).Nodup) :
    (Entries.keys (listed.foldl (fun counts window => counts.upsert window 1 (· + 1))
      start)).Nodup := by
  induction listed generalizing start with
  | nil => exact distinct
  | cons window rest inductionHypothesis =>
      exact inductionHypothesis _ (Entries.nodup_keys_upsert distinct)

theorem nodup_keys_count (width : Int) (terms : List Text) :
    (Entries.keys (count width terms)).Nodup :=
  nodup_keys_foldl_count _ [] List.nodup_nil

theorem find?_foldl_count (start : Entries Nat) (listed : List Text) (window : Text) :
    Entries.find? (listed.foldl (fun counts window => counts.upsert window 1 (· + 1)) start)
      window =
      if window ∈ listed then some ((start.find? window).getD 0 + listed.count window)
      else start.find? window := by
  induction listed generalizing start with
  | nil => rfl
  | cons first rest inductionHypothesis =>
      rw [List.foldl_cons, inductionHypothesis, Entries.find?_upsert]
      by_cases same : first = window
      · subst same
        rw [if_pos rfl, if_pos List.mem_cons_self, List.count_cons_self]
        by_cases later : first ∈ rest
        · rw [if_pos later]
          cases start.find? first with
          | none => simp [Nat.add_comm]
          | some known => simp [Nat.add_comm, Nat.add_left_comm]
        · rw [if_neg later, List.count_eq_zero_of_not_mem later]
          cases start.find? first <;> rfl
      · simp only [if_neg same, List.mem_cons, Ne.symm same, false_or, List.count_cons_of_ne same]

/-- A window is counted as often as it occurs. -/
theorem find?_count (terms : List Text) (window : Text) :
    (count standardWidth terms).find? window =
      if window ∈ grams terms then some (occurrences terms window) else none := by
  rw [count, find?_foldl_count, Entries.find?_nil, Option.getD_none, Nat.zero_add]
  rfl

theorem mem_keys_count_iff {terms : List Text} {window : Text} :
    window ∈ Entries.keys (count standardWidth terms) ↔ window ∈ grams terms := by
  rw [← Entries.isSome_find?_iff, find?_count]
  split <;> simp [*]

/-- The counts list each window once, with the number of its occurrences. -/
theorem count_eq_map (terms : List Text) :
    count standardWidth terms =
      (Entries.keys (count standardWidth terms)).map fun window =>
        (window, occurrences terms window) := by
  rw [Entries.keys, List.map_map]
  symm
  apply Eq.trans (List.map_congr_left _) (List.map_id _)
  intro entry member
  have found := Entries.find?_eq_some_of_mem (nodup_keys_count standardWidth terms) member
  rw [find?_count] at found
  split at found
  · exact Prod.ext rfl (Option.some.inj found)
  · contradiction

end Typeahead.Trigram

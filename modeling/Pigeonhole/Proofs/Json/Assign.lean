import Mathlib.Data.List.Induction
import Mathlib.Data.List.Nodup
import Pigeonhole.Json.Basic

/-!
# Assignments to lists of entries

`assign` keeps the keys of the entries, or adds its own at the end (`map_fst_assign`), so keys that
stand once each stay so.  After a list of assignments the keys stand in the order of their first
(`map_fst_assignAll`), and assigning entries with keys that stand once each gives these entries
(`assignAll_of_nodup`).
-/

namespace Pigeonhole

variable {κ α : Type} [DecidableEq κ]

theorem isSome_lookup_iff {key : κ} {entries : List (κ × α)} :
    (entries.lookup key).isSome = true ↔ key ∈ entries.map (·.1) := by
  induction entries with
  | nil => simp
  | cons entry rest ih =>
    obtain ⟨k, v⟩ := entry
    rw [List.lookup_cons, List.map_cons, List.mem_cons]
    by_cases hk : key = k
    · simp [hk]
    · rw [beq_false_of_ne hk, ih]
      simp [hk]

/-- One more element at the end is new, or it changes nothing. -/
theorem eraseDups_concat (l : List κ) (a : κ) :
    (l ++ [a]).eraseDups = if a ∈ l then l.eraseDups else l.eraseDups ++ [a] := by
  rw [List.eraseDups_append]
  by_cases ha : a ∈ l
  · simp [List.removeAll, ha]
  · simp [List.removeAll, ha, List.eraseDups_cons]

theorem nodup_eraseDups (l : List κ) : l.eraseDups.Nodup := by
  induction l using List.reverseRecOn with
  | nil => exact List.nodup_nil
  | append_singleton l a ih =>
    rw [eraseDups_concat]
    by_cases ha : a ∈ l
    · rwa [if_pos ha]
    · rw [if_neg ha, ← List.concat_eq_append]
      exact ih.concat fun h => ha (List.mem_eraseDups.1 h)

theorem mem_assign {key : κ} {value : α} {entries : List (κ × α)} {entry : κ × α}
    (h : entry ∈ assign key value entries) : entry = (key, value) ∨ entry ∈ entries := by
  induction entries with
  | nil => exact .inl (List.mem_singleton.1 h)
  | cons e rest ih =>
    obtain ⟨k, v⟩ := e
    by_cases hk : k = key
    · simp only [assign, if_pos hk, List.mem_cons] at h
      rcases h with rfl | h
      · exact .inl (by rw [hk])
      · exact .inr (List.mem_cons_of_mem _ h)
    · simp only [assign, if_neg hk, List.mem_cons] at h
      rcases h with rfl | h
      · exact .inr List.mem_cons_self
      · exact (ih h).imp_right (List.mem_cons_of_mem _)

/-- An assignment keeps the keys, or adds its own at the end. -/
theorem map_fst_assign (key : κ) (value : α) (entries : List (κ × α)) :
    (assign key value entries).map (·.1) =
      if key ∈ entries.map (·.1) then entries.map (·.1) else entries.map (·.1) ++ [key] := by
  induction entries with
  | nil => rfl
  | cons e rest ih =>
    obtain ⟨k, v⟩ := e
    by_cases hk : k = key
    · subst hk
      simp [assign]
    · simp only [assign, if_neg hk, List.map_cons, ih, List.mem_cons, Ne.symm hk, false_or]
      split <;> rfl

theorem nodup_map_fst_assign (key : κ) (value : α) {entries : List (κ × α)}
    (h : (entries.map (·.1)).Nodup) : ((assign key value entries).map (·.1)).Nodup := by
  rw [map_fst_assign]
  split
  · exact h
  · rename_i hk
    rw [← List.concat_eq_append]
    exact h.concat hk

/-- Assigning what is found under a key changes nothing. -/
theorem assign_of_lookup {key : κ} {value : α} {entries : List (κ × α)}
    (h : entries.lookup key = some value) : assign key value entries = entries := by
  induction entries with
  | nil => cases h
  | cons e rest ih =>
    obtain ⟨k, v⟩ := e
    by_cases hk : k = key
    · subst hk
      rw [List.lookup_cons_self] at h
      rw [assign, if_pos rfl, Option.some.inj h]
    · have hne : (key == k) = false := by simpa using Ne.symm hk
      rw [List.lookup_cons, hne] at h
      rw [assign, if_neg hk, ih h]

/-- Of two assignments to a key the second holds. -/
theorem assign_assign (key : κ) (first second : α) (entries : List (κ × α)) :
    assign key second (assign key first entries) = assign key second entries := by
  induction entries with
  | nil => simp only [assign, if_pos]
  | cons e rest ih =>
    obtain ⟨k, v⟩ := e
    by_cases hk : k = key
    · simp only [assign, if_pos hk]
    · simp only [assign, if_neg hk, ih]

theorem assign_of_not_mem {key : κ} (value : α) {entries : List (κ × α)}
    (h : key ∉ entries.map (·.1)) : assign key value entries = entries ++ [(key, value)] := by
  induction entries with
  | nil => rfl
  | cons e rest ih =>
    obtain ⟨k, v⟩ := e
    rw [List.map_cons, List.mem_cons, not_or] at h
    rw [assign, if_neg (Ne.symm h.1), ih h.2, List.cons_append]

theorem assignAll_concat (pairs : List (κ × α)) (pair : κ × α) :
    assignAll (pairs ++ [pair]) = assign pair.1 pair.2 (assignAll pairs) := by
  rw [assignAll, List.foldl_append]
  rfl

theorem mem_of_mem_assignAll {pairs : List (κ × α)} {entry : κ × α} (h : entry ∈ assignAll pairs) :
    entry ∈ pairs := by
  induction pairs using List.reverseRecOn with
  | nil => exact h
  | append_singleton pairs pair ih =>
    rw [assignAll_concat] at h
    rcases mem_assign h with rfl | h
    · exact List.mem_append_right _ List.mem_cons_self
    · exact List.mem_append_left _ (ih h)

/-- The keys of assignments stand once each, in the order of their first. -/
theorem map_fst_assignAll (pairs : List (κ × α)) :
    (assignAll pairs).map (·.1) = (pairs.map (·.1)).eraseDups := by
  induction pairs using List.reverseRecOn with
  | nil => rfl
  | append_singleton pairs pair ih =>
    rw [assignAll_concat, map_fst_assign, ih, List.map_append, List.map_singleton, eraseDups_concat]
    simp only [List.mem_eraseDups]

/-- Entries that agree with a function have its values under their keys. -/
theorem lookup_eq_of_forall {key : κ} {entries : List (κ × α)} {f : κ → Option α}
    (h : ∀ e ∈ entries, f e.1 = some e.2) (hkey : key ∈ entries.map (·.1)) :
    entries.lookup key = f key := by
  obtain ⟨value, hvalue⟩ := Option.isSome_iff_exists.1 (isSome_lookup_iff.2 hkey)
  obtain ⟨before, after, hentries, -⟩ := List.lookup_eq_some_iff.1 hvalue
  have hmem : (key, value) ∈ entries := by
    rw [hentries]
    exact List.mem_append_right before List.mem_cons_self
  rw [hvalue, h _ hmem]

theorem lookup_assignAll (pairs : List (κ × α)) (key : κ) :
    (assignAll pairs).lookup key = pairs.reverse.lookup key := by
  induction pairs using List.reverseRecOn with
  | nil => rfl
  | append_singleton pairs pair ih =>
    obtain ⟨k, v⟩ := pair
    rw [assignAll_concat, List.reverse_append, List.reverse_singleton, List.singleton_append,
      List.lookup_cons]
    by_cases hk : key = k
    · rw [hk, lookup_assign_self, beq_self_eq_true]
    · rw [lookup_assign_of_ne hk, ih, beq_false_of_ne hk]

/-- Entries whose keys stand once each are their keys with what is found under them. -/
theorem filterMap_lookup_of_nodup {entries : List (κ × α)} (h : (entries.map (·.1)).Nodup) :
    (entries.map (·.1)).filterMap (fun k => (entries.lookup k).map (k, ·)) = entries := by
  induction entries with
  | nil => rfl
  | cons entry rest ih =>
    obtain ⟨k, v⟩ := entry
    rw [List.map_cons, List.nodup_cons] at h
    have hrest : (rest.map (·.1)).filterMap (fun k' => (((k, v) :: rest).lookup k').map (k', ·)) =
        (rest.map (·.1)).filterMap (fun k' => (rest.lookup k').map (k', ·)) := by
      refine List.filterMap_congr fun k' hk' => ?_
      have hne : k' ≠ k := fun heq => h.1 (heq ▸ hk')
      rw [List.lookup_cons, beq_false_of_ne hne]
    rw [List.map_cons, List.filterMap_cons, List.lookup_cons_self, Option.map_some, hrest, ih h.2]

/-- Assignments leave the last value of each key at the place of its first. -/
theorem assignAll_eq_filterMap (pairs : List (κ × α)) :
    assignAll pairs = (pairs.map (·.1)).eraseDups.filterMap
      fun k => (pairs.reverse.lookup k).map (k, ·) := by
  have hnodup : ((assignAll pairs).map (·.1)).Nodup := by
    rw [map_fst_assignAll]
    exact nodup_eraseDups _
  have hentries := filterMap_lookup_of_nodup hnodup
  simp only [map_fst_assignAll, lookup_assignAll] at hentries
  exact hentries.symm

theorem assignAll_of_nodup {pairs : List (κ × α)} (h : (pairs.map (·.1)).Nodup) :
    assignAll pairs = pairs := by
  have hfold : ∀ done : List (κ × α), ((done ++ pairs).map (·.1)).Nodup →
      pairs.foldl (fun members pair => assign pair.1 pair.2 members) done = done ++ pairs := by
    clear h
    induction pairs with
    | nil => exact fun done _ => (List.append_nil done).symm
    | cons pair pairs ih =>
      obtain ⟨key, value⟩ := pair
      intro done hdone
      have hkey : key ∉ done.map (·.1) := by
        rw [List.map_append, List.map_cons, List.nodup_append] at hdone
        intro hmem
        exact hdone.2.2 key hmem key List.mem_cons_self rfl
      have hrest := ih (done ++ [(key, value)]) (by rwa [List.append_assoc])
      simp only [List.foldl_cons, assign_of_not_mem value hkey, hrest, List.append_assoc,
        List.singleton_append]
  exact hfold [] h

end Pigeonhole

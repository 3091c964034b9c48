import Pigeonhole.Json.Basic
import Pigeonhole.Proofs.Number.Place

/-!
# Entries of mappings

Keys lead to one entry if they have one `Key.slot`: what counts as a number is told apart by its
place on the line, everything else as it is (`Key.same_iff`).  So an assignment is found again under
every key of its slot and hides nothing else (`Key.lookup_assign`).
-/

namespace Pigeonhole

namespace Key

/-- What a key is told apart by: the place of a number, or the key itself. -/
def slot (key : Key) : Place ⊕ Key :=
  match key.number? with
  | some n => .inl n.place
  | none => .inr key

theorem sameNumber_iff (a b : Number) : sameNumber a b = true ↔ a.place = b.place := by
  obtain ⟨ha, hplace⟩ | ⟨x, ha, hx, hplace⟩ := a.place_of_extent?
  · obtain ⟨hb, hplace'⟩ | ⟨y, hb, -, hplace'⟩ := b.place_of_extent?
    · simp [sameNumber, ha, hb, hplace, hplace']
    · simp [sameNumber, ha, hb, hplace, hplace', (y.place_ne_apart).symm]
  · obtain ⟨hb, hplace'⟩ | ⟨y, hb, hy, hplace'⟩ := b.place_of_extent?
    · simp [sameNumber, ha, hb, hplace, hplace', x.place_ne_apart]
    · simp [sameNumber, ha, hb, hplace, hplace', Extent.compare_eq_iff hx hy]

theorem same_iff (a b : Key) : a.same b = true ↔ a.slot = b.slot := by
  unfold same slot
  cases a.number? <;> cases b.number? <;> simp [sameNumber_iff]

variable {α : Type} {key other : Key} {value : α} {entries : List (Key × α)}

theorem lookup_cons (key other : Key) (value : α) (rest : List (Key × α)) :
    lookup key ((other, value) :: rest) =
      if other.same key then some value else lookup key rest := by
  unfold lookup
  rw [List.find?_cons]
  cases other.same key <;> rfl

theorem lookup_congr (h : key.same other = true) (entries : List (Key × α)) :
    lookup key entries = lookup other entries := by
  rw [same_iff] at h
  unfold lookup
  congr 2
  funext entry
  rw [Bool.eq_iff_iff, same_iff, same_iff, h]

theorem lookup_assign (key other : Key) (value : α) (entries : List (Key × α)) :
    lookup key (assign other value entries) =
      if other.same key then some value else lookup key entries := by
  induction entries with
  | nil => exact lookup_cons key other value []
  | cons entry rest ih =>
    obtain ⟨k, v⟩ := entry
    by_cases hk : k.same other = true
    · have hsame : k.same key = other.same key := by
        rw [same_iff] at hk
        rw [Bool.eq_iff_iff, same_iff, same_iff, hk]
      rw [assign, if_pos hk, lookup_cons, lookup_cons, hsame]
      split <;> rfl
    · rw [assign, if_neg hk, lookup_cons, lookup_cons, ih]
      by_cases hkey : k.same key = true
      · have hother : other.same key = false := by
          rw [same_iff] at hk hkey
          rw [Bool.eq_false_iff, ne_eq, same_iff]
          intro h
          exact hk (hkey.trans h.symm)
        rw [if_pos hkey, hother]
        simp [hkey]
      · simp only [if_neg hkey]

/-- Entries in which no two keys are the same. -/
def Distinct (entries : List (Key × α)) : Prop :=
  entries.Pairwise fun a b => a.1.same b.1 = false

theorem Distinct.lookup_eq_none {rest : List (Key × α)} (h : Distinct ((other, value) :: rest))
    (hkey : other.same key = true) : lookup key rest = none := by
  rw [Distinct, List.pairwise_cons] at h
  rw [← lookup_congr hkey, lookup, Option.map_eq_none_iff, List.find?_eq_none]
  intro entry hentry hsame
  have hne := h.1 entry hentry
  rw [same_iff] at hsame
  rw [Bool.eq_false_iff, ne_eq, same_iff] at hne
  exact hne hsame.symm

/-! ## Strings -/

/-- Members as entries. -/
def ofMembers (ms : List (String × α)) : List (Key × α) :=
  ms.map fun m => (.str m.1, m.2)

theorem distinct_ofMembers {ms : List (String × α)} (h : (ms.map (·.1)).Nodup) :
    Distinct (ofMembers ms) := by
  rw [Distinct, ofMembers, List.pairwise_map]
  apply (List.pairwise_map.1 h).imp
  intro m n hne
  rw [same_str]
  simpa using hne

theorem lookup_ofMembers (name : String) (ms : List (String × α)) :
    lookup (.str name) (ofMembers ms) = ms.lookup name := by
  induction ms with
  | nil => rfl
  | cons m rest ih =>
    obtain ⟨k, v⟩ := m
    show lookup (.str name) ((.str k, v) :: ofMembers rest) = _
    rw [lookup_cons, ih, same_str, List.lookup_cons]
    by_cases hk : name = k
    · simp [hk]
    · simp [Ne.symm hk, beq_false_of_ne hk]

theorem stringEntries_ofMembers (ms : List (String × α)) : stringEntries (ofMembers ms) = ms := by
  rw [stringEntries, ofMembers, List.filterMap_map]
  exact List.filterMap_some

theorem lookup_stringEntries (name : String) (entries : List (Key × α)) :
    (stringEntries entries).lookup name = lookup (.str name) entries := by
  induction entries with
  | nil => rfl
  | cons entry rest ih =>
    obtain ⟨k, v⟩ := entry
    rw [lookup_cons, same_str, ← ih]
    cases k with
    | str s =>
      show ((s, v) :: stringEntries rest).lookup name = _
      rw [List.lookup_cons]
      by_cases hs : name = s
      · simp [hs]
      · simp [Ne.symm hs, beq_false_of_ne hs]
    | _ => rfl

theorem length_stringEntries_le (entries : List (Key × α)) :
    (stringEntries entries).length ≤ entries.length :=
  List.length_filterMap_le _ _

/-- Entries of which none is left out are all under strings. -/
theorem ofMembers_stringEntries (h : (stringEntries entries).length = entries.length) :
    ofMembers (stringEntries entries) = entries := by
  induction entries with
  | nil => rfl
  | cons entry rest ih =>
    obtain ⟨k, v⟩ := entry
    have hle := length_stringEntries_le rest
    cases k with
    | str s =>
      have hrest : (stringEntries rest).length = rest.length := Nat.succ.inj h
      exact congrArg ((Key.str s, v) :: ·) (ih hrest)
    | _ =>
      have hlength : (stringEntries rest).length = rest.length + 1 := h
      omega

end Key

namespace Value

theorem entries?_ofEntries (entries : List (Key × Value)) :
    (ofEntries entries).entries? = some entries := by
  unfold ofEntries
  simp only
  split
  · rename_i h
    exact congrArg some (Key.ofMembers_stringEntries h)
  · rfl

theorem members?_eq (v : Value) : v.members? = v.entries?.map Key.stringEntries := by
  cases v with
  | obj ms => exact congrArg some (Key.stringEntries_ofMembers ms).symm
  | foreign leaf => cases leaf <;> rfl
  | _ => rfl

end Value

end Pigeonhole

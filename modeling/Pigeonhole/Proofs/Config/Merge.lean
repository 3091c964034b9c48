import Pigeonhole.Config.Merge
import Pigeonhole.Proofs.Json.Key

/-!
# What a merge leaves at a path

A value is looked into along a path of keys (`Value.at?`).  Where a value that is put over another
one has something at a path, this is put over what the other one has there (`at?_putOver`).  Where a
key of the path is not there, the other value shows through (`at?_putOver_of_absent`), and where the
path would lead on from what is no mapping, there is nothing (`at?_putOver_of_blocked`).
-/

namespace Pigeonhole.Value

variable {base? : Option Value} {base v w : Value} {path first rest : List Key} {key : Key}
  {entries upper : List (Key × Value)}

/-! ## Paths -/

/-- What a value has at a path of keys. -/
def at? : List Key → Value → Option Value
  | [], v => some v
  | key :: path, v => (v.entries?.bind (Key.lookup key)).bind (at? path)

def isMapping (v : Value) : Bool := v.entries?.isSome

theorem at?_cons (h : v.entries? = some entries) (key : Key) (path : List Key) :
    v.at? (key :: path) = (Key.lookup key entries).bind (at? path) := by
  rw [at?, h, Option.bind_some]

theorem at?_cons_of_none (h : v.entries? = none) (key : Key) (path : List Key) :
    v.at? (key :: path) = none := by
  rw [at?, h]
  rfl

theorem at?_obj (ms : List (String × Value)) (name : String) (path : List Key) :
    at? (.str name :: path) (.obj ms) = (ms.lookup name).bind (at? path) := by
  rw [at?_cons (show entries? (.obj ms) = some (Key.ofMembers ms) from rfl), Key.lookup_ofMembers]

theorem at?_append (v : Value) (first rest : List Key) :
    v.at? (first ++ rest) = (v.at? first).bind (at? rest) := by
  induction first generalizing v with
  | nil => rfl
  | cons key first ih =>
    simp only [List.cons_append, at?, Option.bind_assoc, ih]

theorem at?_cons_eq_some (h : v.at? (key :: path) = some w) :
    ∃ entries u, v.entries? = some entries ∧ Key.lookup key entries = some u ∧
      u.at? path = some w := by
  obtain ⟨u, hu, hw⟩ := Option.bind_eq_some_iff.1 h
  obtain ⟨entries, hentries, hlookup⟩ := Option.bind_eq_some_iff.1 hu
  exact ⟨entries, u, hentries, hlookup, hw⟩

/-! ## Distinct keys -/

/-- In no mapping within a value two keys are the same. -/
def Keyed (v : Value) : Prop :=
  ∀ path w entries, v.at? path = some w → w.entries? = some entries → Key.Distinct entries

theorem Keyed.distinct (h : v.Keyed) (hentries : v.entries? = some entries) :
    Key.Distinct entries :=
  h [] v entries rfl hentries

theorem Keyed.of_lookup (h : v.Keyed) (hentries : v.entries? = some entries)
    (hkey : Key.lookup key entries = some w) : w.Keyed := by
  intro path u inner hu
  apply h (key :: path)
  rw [at?_cons hentries, hkey, Option.bind_some, hu]

theorem keyed_of_none (h : v.entries? = none) : v.Keyed := by
  intro path w entries hw hentries
  cases path with
  | nil =>
    cases hw
    rw [h] at hentries
    contradiction
  | cons key path =>
    rw [at?_cons_of_none h] at hw
    contradiction

theorem keyed_of_entries (h : v.entries? = some entries) (hdistinct : Key.Distinct entries)
    (hall : ∀ entry ∈ entries, entry.2.Keyed) : v.Keyed := by
  intro path w inner hw hinner
  cases path with
  | nil =>
    cases hw
    rw [h, Option.some.injEq] at hinner
    rwa [← hinner]
  | cons key path =>
    rw [at?_cons h] at hw
    obtain ⟨u, hu, hw⟩ := Option.bind_eq_some_iff.1 hw
    obtain ⟨entry, hentry, rfl⟩ := Option.map_eq_some_iff.1 hu
    exact hall entry (List.mem_of_find?_eq_some hentry) path w inner hw hinner

theorem keyed_obj {ms : List (String × Value)} (h : (ms.map (·.1)).Nodup)
    (hall : ∀ m ∈ ms, m.2.Keyed) : Keyed (.obj ms) := by
  apply keyed_of_entries rfl (Key.distinct_ofMembers h)
  intro entry hentry
  obtain ⟨m, hm, rfl⟩ := List.mem_map.1 hentry
  exact hall m hm

/-! ## Merging -/

theorem mergeMembers_eq (entries : List (Key × Value)) (ms : List (String × Value)) :
    mergeMembers entries ms = mergeEntries entries (Key.ofMembers ms) := by
  induction ms generalizing entries with
  | nil => rw [mergeMembers, Key.ofMembers, List.map_nil, mergeEntries]
  | cons m ms ih =>
    obtain ⟨key, v⟩ := m
    show _ = mergeEntries entries ((.str key, v) :: Key.ofMembers ms)
    rw [mergeMembers, ih, mergeEntries]

theorem putOver_of_not_mapping (h : v.entries? = none) (base? : Option Value) :
    putOver base? v = v := by
  cases v with
  | obj ms => cases h
  | foreign leaf =>
    cases leaf with
    | mapping entries => cases h
    | missing | object => simp only [putOver, putForeignOver]
  | _ => simp only [putOver]

theorem putOver_of_base_not_mapping (h : base?.bind entries? = none) (v : Value) :
    putOver base? v = v := by
  cases v with
  | obj ms => simp only [putOver, h]
  | foreign leaf =>
    cases leaf with
    | mapping entries => simp only [putOver, putForeignOver, h]
    | missing | object => simp only [putOver, putForeignOver]
  | _ => simp only [putOver]

/-- Two mappings are merged into the mapping of their merged entries. -/
theorem putOver_eq_ofEntries (hbase : base?.bind entries? = some entries)
    (hv : v.entries? = some upper) : putOver base? v = ofEntries (mergeEntries entries upper) := by
  cases v with
  | obj ms =>
    cases hv
    simp only [putOver, hbase, mergeMembers_eq]
    rfl
  | foreign leaf =>
    cases leaf with
    | mapping inner =>
      cases hv
      simp only [putOver, putForeignOver, hbase]
    | missing | object => cases hv
  | _ => cases hv

theorem entries?_putOver (hbase : base?.bind entries? = some entries)
    (hv : v.entries? = some upper) :
    (putOver base? v).entries? = some (mergeEntries entries upper) := by
  rw [putOver_eq_ofEntries hbase hv, entries?_ofEntries]

/-- What stands under a key in merged entries. -/
theorem lookup_mergeEntries (h : Key.Distinct upper) (key : Key) (entries : List (Key × Value)) :
    Key.lookup key (mergeEntries entries upper) =
      match Key.lookup key upper with
      | some v => some (putOver (Key.lookup key entries) v)
      | none => Key.lookup key entries := by
  induction upper generalizing entries with
  | nil => rw [mergeEntries, show Key.lookup key ([] : List (Key × Value)) = none from rfl]
  | cons entry rest ih =>
    obtain ⟨other, v⟩ := entry
    rw [mergeEntries, ih h.of_cons, Key.lookup_assign, Key.lookup_cons]
    by_cases hsame : other.same key = true
    · rw [h.lookup_eq_none hsame, if_pos hsame, if_pos hsame, Key.lookup_congr hsame]
    · rw [if_neg hsame, if_neg hsame]

/-- What is put over another value at a path. -/
theorem at?_putOver (hkeyed : v.Keyed) (h : v.at? path = some w) :
    (putOver base? v).at? path = some (putOver (base?.bind (at? path)) w) := by
  induction path generalizing base? v with
  | nil =>
    cases h
    cases base? <;> rfl
  | cons key path ih =>
    obtain ⟨upper, u, hover, hu, hw⟩ := at?_cons_eq_some h
    cases hbase : base?.bind entries? with
    | none =>
      have hnone : base?.bind (at? (key :: path)) = none := by
        cases base? with
        | none => rfl
        | some base => exact at?_cons_of_none hbase key path
      have hover : (none : Option Value).bind entries? = none := rfl
      rw [putOver_of_base_not_mapping hbase, hnone, h, putOver_of_base_not_mapping hover]
    | some entries =>
      have hbelow : base?.bind (at? (key :: path)) = (Key.lookup key entries).bind (at? path) := by
        cases base? with
        | none => cases hbase
        | some base => exact at?_cons hbase key path
      rw [at?_cons (entries?_putOver hbase hover), lookup_mergeEntries (hkeyed.distinct hover), hu,
        hbelow]
      exact ih (hkeyed.of_lookup hover hu) hw

/-- Where a key is not there, the other value shows through. -/
theorem at?_putOver_of_absent (hkeyed : v.Keyed) (h : v.at? first = some w)
    (hover : w.entries? = some upper) (hkey : Key.lookup key upper = none) :
    (putOver base? v).at? (first ++ key :: rest) = base?.bind (at? (first ++ key :: rest)) := by
  have hbelow : base?.bind (at? (first ++ key :: rest)) =
      (base?.bind (at? first)).bind (at? (key :: rest)) := by
    rw [Option.bind_assoc]
    congr 1
    funext base
    exact base.at?_append first (key :: rest)
  rw [at?_append, at?_putOver hkeyed h, Option.bind_some, hbelow]
  have hdistinct := hkeyed first w upper h hover
  generalize base?.bind (at? first) = inner?
  cases hinner : inner?.bind entries? with
  | none =>
    have hnone : inner?.bind (at? (key :: rest)) = none := by
      cases inner? with
      | none => rfl
      | some inner => exact at?_cons_of_none hinner key rest
    rw [putOver_of_base_not_mapping hinner, at?_cons hover, hkey, hnone, Option.bind_none]
  | some entries =>
    obtain ⟨inner, rfl, hentries⟩ := Option.bind_eq_some_iff.1 hinner
    rw [at?_cons (entries?_putOver hinner hover), lookup_mergeEntries hdistinct, hkey,
      Option.bind_some, at?_cons hentries]

/-- Nothing is left below what is no mapping. -/
theorem at?_putOver_of_blocked (hkeyed : v.Keyed) (h : v.at? first = some w)
    (hw : w.entries? = none) : (putOver base? v).at? (first ++ key :: rest) = none := by
  rw [at?_append, at?_putOver hkeyed h, Option.bind_some, putOver_of_not_mapping hw,
    at?_cons_of_none hw]

/-- What a merge has at a path: what was put over, if it is there and is no mapping or meets none;
the merge of both, if both are mappings; what was there before, where a key is not there; nothing
below what is no mapping. -/
structure MergedAt (base upper merged : Value) (path : List Key) : Prop where
  leaf : ∀ w, upper.at? path = some w → w.isMapping = false → merged.at? path = some w
  fresh : ∀ w, upper.at? path = some w → w.isMapping = true →
    (∀ b, base.at? path = some b → b.isMapping = false) → merged.at? path = some w
  both : ∀ w b, upper.at? path = some w → w.isMapping = true → base.at? path = some b →
    b.isMapping = true → merged.at? path = some (putOver (some b) w)
  absent : ∀ first w key rest, path = first ++ key :: rest → upper.at? first = some w →
    w.isMapping = true → w.at? [key] = none → merged.at? path = base.at? path
  blocked : ∀ first w key rest, path = first ++ key :: rest → upper.at? first = some w →
    w.isMapping = false → merged.at? path = none

theorem entries?_of_isMapping_eq_false (h : v.isMapping = false) : v.entries? = none :=
  Option.isSome_eq_false_iff.1 h |> Option.isNone_iff_eq_none.1

theorem mergedAt_putOver (hkeyed : v.Keyed) (base : Value) (path : List Key) :
    MergedAt base v (putOver (some base) v) path where
  leaf w hw hmapping := by
    rw [at?_putOver hkeyed hw, putOver_of_not_mapping (entries?_of_isMapping_eq_false hmapping)]
  fresh w hw _ hbase := by
    rw [at?_putOver hkeyed hw, Option.bind_some, putOver_of_base_not_mapping]
    cases hb : base.at? path with
    | none => rfl
    | some b => exact entries?_of_isMapping_eq_false (hbase b hb)
  both w b hw _ hb _ := by
    rw [at?_putOver hkeyed hw, Option.bind_some, hb]
  absent first w key rest hpath hw hmapping hkey := by
    obtain ⟨entries, hentries⟩ := Option.isSome_iff_exists.1 hmapping
    rw [at?_cons hentries] at hkey
    have hlookup : Key.lookup key entries = none := by
      cases h : Key.lookup key entries with
      | none => rfl
      | some u =>
        rw [h] at hkey
        cases hkey
    rw [hpath, at?_putOver_of_absent hkeyed hw hentries hlookup, Option.bind_some]
  blocked first w key rest hpath hw hmapping := by
    rw [hpath, at?_putOver_of_blocked hkeyed hw (entries?_of_isMapping_eq_false hmapping)]

/-- A path that leads to nothing leads on from what is no mapping, or to a key that is not there. -/
theorem at?_eq_none_cases (h : v.at? path = none) :
    ∃ first w key rest, path = first ++ key :: rest ∧ v.at? first = some w ∧
      (w.isMapping = false ∨
        ∃ entries, w.entries? = some entries ∧ Key.lookup key entries = none) := by
  induction path generalizing v with
  | nil => cases h
  | cons key path ih =>
    cases hentries : v.entries? with
    | none => exact ⟨[], v, key, path, rfl, rfl, .inl (by rw [isMapping, hentries]; rfl)⟩
    | some entries =>
      cases hlookup : Key.lookup key entries with
      | none => exact ⟨[], v, key, path, rfl, rfl, .inr ⟨entries, hentries, hlookup⟩⟩
      | some u =>
        rw [at?_cons hentries, hlookup, Option.bind_some] at h
        obtain ⟨first, w, other, rest, hpath, hfirst, hcases⟩ := ih h
        refine ⟨key :: first, w, other, rest, by rw [hpath]; rfl, ?_, hcases⟩
        rw [at?_cons hentries, hlookup, Option.bind_some, hfirst]

/-- Whether everything that a value has on the way along a path is a mapping. -/
def Open (v : Value) (path : List Key) : Prop :=
  ∀ first w key rest, path = first ++ key :: rest → v.at? first = some w → w.isMapping = true

theorem open_pair {outer inner : Key} (h : v.isMapping = true)
    (houter : ∀ w, v.at? [outer] = some w → w.isMapping = true) : v.Open [outer, inner] := by
  intro first w key rest hpath hw
  rcases first with _ | ⟨other, _ | ⟨next, first⟩⟩
  · cases hw
    exact h
  · cases hpath
    exact houter w hw
  · simp at hpath

/-- What there is of two values, of which one is put over the other. -/
def overlay (base? upper? : Option Value) : Option Value :=
  match upper? with
  | some w => some (putOver base? w)
  | none => base?

/-- Along a path that is open, the other value shows through wherever there is nothing. -/
theorem at?_putOver_of_open (hkeyed : v.Keyed) (hopen : v.Open path) :
    (putOver base? v).at? path = overlay (base?.bind (at? path)) (v.at? path) := by
  cases h : v.at? path with
  | some w => exact at?_putOver hkeyed h
  | none =>
    obtain ⟨first, w, key, rest, rfl, hfirst, hmapping | ⟨entries, hentries, hkey⟩⟩ :=
      at?_eq_none_cases h
    · rw [hopen first w key rest rfl hfirst] at hmapping
      contradiction
    · exact at?_putOver_of_absent hkeyed hfirst hentries hkey

theorem isMapping_putOver (base? : Option Value) (v : Value) :
    (putOver base? v).isMapping = v.isMapping := by
  unfold isMapping
  cases hv : v.entries? with
  | none => rw [putOver_of_not_mapping hv, hv]
  | some upper =>
    cases hbase : base?.bind entries? with
    | none => rw [putOver_of_base_not_mapping hbase, hv]
    | some entries => rw [entries?_putOver hbase hv]; rfl

end Pigeonhole.Value

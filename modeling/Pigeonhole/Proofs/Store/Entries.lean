import Pigeonhole.Proofs.Store.Ledger

/-!
# What stands in a store

The storage key of an entry, the id and the partition key value of its row and the document say the
same thing three times.  `entries_after` says that they agree for every entry after every run,
refused requests included, that no storage key stands twice, and what a read with a partition key
value therefore finds: the one document with that id and that value.
-/

namespace Pigeonhole

section Lookup

variable {κ α : Type} [DecidableEq κ]

theorem mem_of_lookup {entries : List (κ × α)} {key : κ} {value : α}
    (h : entries.lookup key = some value) : (key, value) ∈ entries := by
  obtain ⟨before, after, rfl, -⟩ := List.lookup_eq_some_iff.1 h
  simp

theorem lookup_eq_some_iff {entries : List (κ × α)} (hkeys : (entries.map (·.1)).Nodup) {key : κ}
    {value : α} : entries.lookup key = some value ↔ (key, value) ∈ entries := by
  refine ⟨mem_of_lookup, fun h => ?_⟩
  obtain ⟨before, after, rfl⟩ := List.append_of_mem h
  refine List.lookup_eq_some_iff.2 ⟨before, after, rfl, fun entry he => ?_⟩
  rw [List.map_append, List.map_cons, List.nodup_append] at hkeys
  have hne := hkeys.2.2 entry.1 (List.mem_map_of_mem he) key List.mem_cons_self
  simpa using Ne.symm hne

theorem lookup_eraseP_of_ne {key other : κ} (h : other ≠ key) (entries : List (κ × α)) :
    (entries.eraseP fun entry => entry.1 = key).lookup other = entries.lookup other := by
  have hother : (other == key) = false := by simpa using h
  induction entries with
  | nil => rfl
  | cons entry rest ih =>
    obtain ⟨k, v⟩ := entry
    by_cases hk : k = key
    · subst hk
      simp [List.lookup_cons, hother]
    · simp [hk, List.lookup_cons, ih]

theorem lookup_eraseP_self {entries : List (κ × α)} (hkeys : (entries.map (·.1)).Nodup) (key : κ) :
    (entries.eraseP fun entry => entry.1 = key).lookup key = none := by
  induction entries with
  | nil => rfl
  | cons entry rest ih =>
    obtain ⟨k, v⟩ := entry
    rw [List.map_cons, List.nodup_cons] at hkeys
    by_cases hk : k = key
    · subst hk
      rw [List.eraseP_cons_of_pos (by simp), Option.eq_none_iff_forall_not_mem]
      intro w hw
      exact hkeys.1 (List.mem_map.2 ⟨(k, w), mem_of_lookup hw, rfl⟩)
    · have hkey : (key == k) = false := by simpa using Ne.symm hk
      rw [List.eraseP_cons_of_neg (by simpa using hk), List.lookup_cons, hkey]
      exact ih hkeys.2

end Lookup

namespace Tree

theorem exists_obj_of_member? {α : Type} {v w : Tree α} {name : String}
    (h : v.member? name = some w) : ∃ ms, v = .obj ms ∧ ms.lookup name = some w := by
  cases v with
  | obj ms => exact ⟨ms, rfl, h⟩
  | _ => cases h

end Tree

namespace Store

variable {s : Store}

theorem step_upsert_of_ok {item : Value} {row : Row} (h : Row.ofValue s.field item = .ok row) :
    s.step (.upsert item) = (.document row.document, s.put row) := by
  simp only [step, upsert_eq_ok_iff.2 ⟨h, rfl⟩]

theorem step_upsert_of_error {item : Value} {e : Failure}
    (h : Row.ofValue s.field item = .error e) : s.step (.upsert item) = (.failed e, s) := by
  simp only [step, upsert, h, bind, Except.bind]

/-- Whether the documents of a scope are listed: its value can be written, or there are none to
compare it with. -/
def lists (s : Store) (scope : Option Json) : Bool := scope.all Tree.isWritable || s.rows.isEmpty

theorem list_of_lists {scope : Option Json} (h : s.lists scope = true) :
    s.list (scope.map Tree.ofJson) = .ok (scope.elim s.documents s.inPartition) := by
  rw [list, given_map_ofJson]
  cases scope with
  | none => rfl
  | some k =>
    simp only [Option.map_some, Json.written?_ofJson, Option.elim_some]
    cases hk : k.isWritable with
    | true => rw [Json.written_of_isWritable hk]
    | false =>
      rw [lists, Option.all_some, hk, Bool.false_or] at h
      have hnone : s.inPartition k = [] := by
        rw [inPartition, List.isEmpty_iff.1 h]
        rfl
      rw [Json.written_of_not hk, hnone]
      simp only [h, if_true]

theorem list_of_not_lists {scope : Option Json} (h : s.lists scope = false) :
    s.list (scope.map Tree.ofJson) = .error (.noText .longInteger) := by
  rw [lists, Bool.or_eq_false_iff] at h
  obtain ⟨k, rfl, hk⟩ := (Option.all_eq_false _ _).1 h.1
  simp only [list, Option.map_some, given_ofJson, Json.written?_ofJson, Json.written_of_not hk, h.2,
    Bool.false_eq_true, if_false]

theorem read_eq_of_given {address : Address} {v : Value}
    (hv : Value.given address.partitionKey = some v) {id : String} (hid : address.id = .str id)
    {k : Json} (hk : v.written? = .ok k) :
    s.read address = .ok ((s.rows.lookup (StorageKey.of id k)).map (·.document)) := by
  simp only [read, find, hv, hk, hid, lookup?, Option.map_map, bind, Except.bind, pure, Except.pure]
  rfl

/-- Only a string and a JSON value that can be written address a document. -/
theorem exists_of_read_eq_some {address : Address} {v : Value}
    (hv : Value.given address.partitionKey = some v) {d : Json}
    (h : s.read address = .ok (some d)) :
    ∃ id k, address.id = .str id ∧ v.written? = .ok k := by
  unfold read find at h
  rw [hv] at h
  cases hk : v.written? with
  | error fault => simp [hk, bind, Except.bind] at h
  | ok k =>
    cases hid : address.id with
    | str id => exact ⟨id, k, rfl, rfl⟩
    | _ => simp [hk, hid, bind, Except.bind, pure, Except.pure] at h

theorem Sound.read_eq_some_iff (h : s.Sound) {address : Address} {v : Value}
    (hv : Value.given address.partitionKey = some v) {d : Json} :
    s.read address = .ok (some d) ↔
      d ∈ s.documents ∧ ∃ id k k', address.id = .str id ∧ v.toJson? = some k ∧
        d.member? "id" = some (.str id) ∧ d.resolve s.field = some k' ∧
        Json.same k' k = true := by
  constructor
  · intro hread
    obtain ⟨id, k, hid, hk⟩ := exists_of_read_eq_some hv hread
    rw [read_eq_of_given hv hid hk, Except.ok.injEq, Option.map_eq_some_iff] at hread
    obtain ⟨row, hrow, rfl⟩ := hread
    obtain ⟨hjson, -⟩ := Value.written?_eq_ok_iff.1 hk
    have hmem := mem_of_lookup hrow
    have hsound : row.Sound s.field := h.row_sound _ hmem
    have hkey : row.key = StorageKey.of id k := (h.key_eq _ hmem).symm
    obtain ⟨rfl, hsame⟩ := (StorageKey.of_eq_of_iff _ _ _ _).1 hkey
    exact ⟨List.mem_map.2 ⟨_, hmem, rfl⟩, row.id, k, row.partitionKey, hid, hjson,
      hsound.member_id, hsound.resolve_field, hsame⟩
  · rintro ⟨hd, id, k, k', hid, hk, hmember, hfield, hsame⟩
    obtain ⟨⟨key, row⟩, hmem, rfl⟩ := List.mem_map.1 hd
    have hsound : row.Sound s.field := h.row_sound _ hmem
    obtain rfl : row.id = id := by
      rw [hsound.member_id] at hmember
      cases hmember
      rfl
    obtain rfl : row.partitionKey = k' := Option.some.inj (hsound.resolve_field.symm.trans hfield)
    have hkey : key = StorageKey.of row.id k :=
      (h.key_eq _ hmem).trans ((StorageKey.of_eq_of_iff _ _ _ _).2 ⟨rfl, hsame⟩)
    -- the value that is asked for has the canonical text of one that is stored, so it is written
    have hwritten : v.written? = .ok k :=
      Value.written?_eq_ok_iff.2 ⟨hk, (Json.isWritable_of_same hsame).symm.trans hsound.writable⟩
    rw [read_eq_of_given hv hid hwritten, ← hkey, (lookup_eq_some_iff h.keys_nodup).2 hmem]
    rfl

/-- After every run no storage key stands twice, and of every entry the storage key is that of its
row, whose id and partition key value are those of the document: an object with a text as its id and
with a partition key value that is no object.  So a read with a partition key value finds a document
exactly if it has the id and the partition key value that are asked for. -/
theorem entries_after (field : String) (calls : List Call) :
    let s := (empty field).after calls
    s.keys.Nodup ∧
    (∀ key row, (key, row) ∈ s.rows →
      (∃ ms, row.document = .obj ms ∧ ms.lookup "id" = some (.str row.id)) ∧ row.id ≠ "" ∧
      row.document.resolve field = some row.partitionKey ∧
      Json.isPartitionKey row.partitionKey = true ∧ key = StorageKey.of row.id row.partitionKey) ∧
    ∀ (address : Address) (v : Value) (d : Json), Value.given address.partitionKey = some v →
      (s.read address = .ok (some d) ↔
        d ∈ s.documents ∧ ∃ id k k', address.id = .str id ∧ v.toJson? = some k ∧
          d.member? "id" = some (.str id) ∧ d.resolve field = some k' ∧
          Json.same k' k = true) := by
  intro s
  have hsound : s.Sound := sound_after field calls
  have hfield : s.field = field := field_after _ _
  refine ⟨hsound.keys_nodup, fun key row hmem => ?_, fun address v d hv => ?_⟩
  · have hrow := hsound.row_sound _ hmem
    rw [hfield] at hrow
    exact ⟨Tree.exists_obj_of_member? hrow.member_id, hrow.id_ne, hrow.resolve_field, hrow.allowed,
      hsound.key_eq _ hmem⟩
  · have hread := hsound.read_eq_some_iff (d := d) hv
    rwa [hfield] at hread

/-- A document under a nested partition key path, stored between two refused ones, is found under the
double that is equal to its partition key value. -/
theorem entries_after_zip :
    let document : Json := .obj [("id", .str "a"), ("address", .obj [("zip", Tree.int 5)])]
    let row : Row := ⟨"a", Tree.int 5, document⟩
    let five : Value := Tree.double (Double.ofInt 5)
    let s := (empty "address.zip").after
      [.upsert (.obj [("id", .str "")]), .upsert (Tree.ofJson document),
        .upsert (.obj [("id", .str "b"), ("address", .obj [("zip", .obj [])])])]
    ((row.key, row) ∈ s.rows ∧
      (∃ ms, row.document = .obj ms ∧ ms.lookup "id" = some (.str row.id)) ∧
      row.document.resolve "address.zip" = some row.partitionKey) ∧
    Value.given (some five) = some five ∧ s.read ⟨.str "a", some five⟩ = .ok (some document) := by
  intro document row five s
  have hmem : (row.key, row) ∈ s.rows := by
    have hnoId : Row.ofValue "address.zip" (.obj [("id", .str "")]) = .error .noId := rfl
    have hwritable : (Tree.int 5 : Json).isWritable = true := by decide +kernel
    have hrow : Row.ofValue "address.zip" (Tree.ofJson document) = .ok row :=
      congrArg (Except.mapError Failure.noText) (Json.written_of_isWritable hwritable row)
    have hnoKey : Row.ofValue "address.zip"
        (.obj [("id", .str "b"), ("address", .obj [("zip", .obj [])])]) =
        .error (.noPartitionKey "address.zip") := rfl
    simp only [s, after]
    rw [step_upsert_of_error (s := empty "address.zip") hnoId,
      step_upsert_of_ok (s := empty "address.zip") hrow,
      step_upsert_of_error (s := (empty "address.zip").put row) hnoKey]
    exact List.mem_singleton.2 rfl
  obtain ⟨-, hentry, hread⟩ := entries_after "address.zip"
    [.upsert (.obj [("id", .str "")]), .upsert (Tree.ofJson document),
      .upsert (.obj [("id", .str "b"), ("address", .obj [("zip", .obj [])])])]
  obtain ⟨hdocument, -, hfield, -⟩ := hentry _ _ hmem
  refine ⟨⟨hmem, hdocument, hfield⟩, rfl, (hread ⟨.str "a", some five⟩ five document rfl).2 ?_⟩
  have hsame : Json.same (Tree.int 5) (Tree.double (Double.ofInt 5)) = true := by decide +kernel
  exact ⟨List.mem_map_of_mem hmem, "a", _, _, rfl, rfl, rfl, hfield, hsame⟩

end Store

end Pigeonhole

import Pigeonhole.Proofs.Json.Assign
import Pigeonhole.Proofs.Json.Written
import Pigeonhole.Store.Basic

/-!
# Runs of a store

A `Store.Call` is one request to a store with values of any kind, `Store.step` answers it, and
`Store.answers` and `Store.after` are the answers and the store of a whole run.  `Store.Sound` says
that the three copies of a document's identity agree (its storage key, its row and the document
itself) and that no storage key is there twice; it holds after every run (`sound_after`).
-/

namespace Pigeonhole

namespace Tree

variable {α : Type}

theorem lookup_membersToJson? {ms : List (String × Tree α)} {js : List (String × Json)}
    (h : membersToJson? ms = some js) (key : String) :
    js.lookup key = (ms.lookup key).bind toJson? := by
  induction ms generalizing js with
  | nil =>
    simp only [membersToJson?, Option.some.injEq] at h
    subst h
    rfl
  | cons m rest ih =>
    obtain ⟨k, v⟩ := m
    simp only [membersToJson?] at h
    split at h
    · rename_i j js' hv hrest
      obtain rfl := Option.some.inj h
      simp only [List.lookup_cons]
      cases key == k with
      | true => exact hv.symm
      | false => exact ih hrest
    · cases h

theorem member?_of_toJson? {ms : List (String × Tree α)} {document : Json}
    (h : (Tree.obj ms).toJson? = some document) (key : String) :
    document.member? key = (ms.lookup key).bind toJson? := by
  rw [toJson?, Option.map_eq_some_iff] at h
  obtain ⟨js, hjs, rfl⟩ := h
  exact lookup_membersToJson? hjs key

end Tree

/-! ## Requests and runs -/

namespace Store

/-- A request to a store. -/
inductive Call where
  | upsert (item : Value)
  | read (address : Address)
  | delete (address : Address)
  | list (scope : Option Value)
  | count
  | clear

/-- What a store answers. -/
inductive Answer where
  | document (d : Json)
  | found (d : Option Json)
  | listed (documents : List Json)
  | counted (n : Nat)
  | cleared
  | failed (e : Failure)

/-- The answer to a request, and the store afterwards. -/
def step (s : Store) : Call → Answer × Store
  | .upsert item =>
    match s.upsert item with
    | .ok (row, s') => (.document row.document, s')
    | .error e => (.failed e, s)
  | .read address =>
    match s.read address with
    | .ok d => (.found d, s)
    | .error e => (.failed e, s)
  | .delete address =>
    match s.delete address with
    | .ok (row, s') => (.document row.document, s')
    | .error e => (.failed e, s)
  | .list scope =>
    match s.list scope with
    | .ok documents => (.listed documents, s)
    | .error e => (.failed e, s)
  | .count => (.counted s.count, s)
  | .clear => (.cleared, s.clear)

/-- The answers of a run. -/
def answers (s : Store) : List Call → List Answer
  | [] => []
  | call :: calls => (s.step call).1 :: answers (s.step call).2 calls

/-- The store after a run. -/
def after (s : Store) : List Call → Store
  | [] => s
  | call :: calls => after (s.step call).2 calls

end Store

/-! ## What each operation does to the rows -/

/-- A row that is stored for a document: its id and its partition key value are those of the
document, and the text of the partition key value can be written. -/
structure Row.Sound (field : String) (row : Row) : Prop where
  member_id : row.document.member? "id" = some (.str row.id)
  id_ne : row.id ≠ ""
  resolve_field : row.document.resolve field = some row.partitionKey
  allowed : Json.isPartitionKey row.partitionKey = true
  writable : row.partitionKey.isWritable = true

namespace Row

theorem mapError_written_eq_ok_iff {α : Type} {j : Json} {a b : α} :
    (Json.written j a).mapError Failure.noText = .ok b ↔ j.isWritable = true ∧ a = b := by
  rw [Json.written]
  cases j.isWritable <;> simp [Except.mapError]

theorem toJson?_of_ofValue {field : String} {item : Value} {row : Row}
    (h : ofValue field item = .ok row) : item.toJson? = some row.document := by
  unfold ofValue at h
  split at h
  next =>
    split at h
    next =>
      split at h
      · cases h
      next =>
        split at h
        · cases h
        next document hdocument =>
          split at h
          next =>
            split at h
            next =>
              obtain ⟨-, rfl⟩ := mapError_written_eq_ok_iff.1 h
              exact hdocument
            · cases h
          · cases h
    · cases h
  · cases h

theorem sound_of_ofValue {field : String} {item : Value} {row : Row}
    (h : ofValue field item = .ok row) : row.Sound field := by
  unfold ofValue at h
  split at h
  next ms hms =>
    split at h
    next id hid =>
      split at h
      · cases h
      next hne =>
        split at h
        · cases h
        next document hdoc =>
          split at h
          next pk hpk =>
            split at h
            next hallowed =>
              obtain ⟨hwritable, rfl⟩ := mapError_written_eq_ok_iff.1 h
              have hobj : item = .obj ms := by
                cases item with
                | obj ms' => exact congrArg _ (Option.some.inj hms)
                | foreign leaf => simp [Tree.toJson?] at hdoc
                | _ => cases hms
              subst hobj
              refine ⟨?_, ?_, hpk, hallowed, hwritable⟩
              · rw [Tree.member?_of_toJson? hdoc, hid]
                rfl
              · rintro rfl
                exact hne rfl
            · cases h
          · cases h
    · cases h
  · cases h

end Row

namespace Store

variable {s s' : Store}

theorem upsert_eq_ok_iff {item : Value} {row : Row} :
    s.upsert item = .ok (row, s') ↔ Row.ofValue s.field item = .ok row ∧ s' = s.put row := by
  unfold upsert
  cases Row.ofValue s.field item with
  | error e => simp [bind, Except.bind]
  | ok r =>
    simp only [bind, Except.bind, pure, Except.pure, Except.ok.injEq, Prod.mk.injEq]
    constructor <;> rintro ⟨rfl, rfl⟩ <;> exact ⟨rfl, rfl⟩

theorem delete_eq_ok {address : Address} {row : Row} (h : s.delete address = .ok (row, s')) :
    ∃ key, s.find address = .ok (some (key, row)) ∧ s' = s.erase key := by
  unfold delete at h
  cases hf : s.find address with
  | error e => simp [hf, bind, Except.bind] at h
  | ok found =>
    cases found with
    | none => simp [hf, bind, Except.bind] at h
    | some entry =>
      obtain ⟨key, row'⟩ := entry
      simp only [hf, bind, Except.bind, pure, Except.pure, Except.ok.injEq, Prod.mk.injEq] at h
      obtain ⟨rfl, rfl⟩ := h
      exact ⟨key, rfl, rfl⟩

/-- A request leaves the store as it is, stores the row of an item, removes the entry of a key or
removes all entries. -/
theorem step_cases (s : Store) (call : Call) :
    (s.step call).2 = s ∨
    (∃ row : Row, row.Sound s.field ∧ (s.step call).2 = s.put row) ∨
    (∃ key, (s.step call).2 = s.erase key) ∨
    (s.step call).2 = s.clear := by
  cases call with
  | upsert item =>
    cases h : s.upsert item with
    | error e => exact .inl (by simp [step, h])
    | ok r =>
      obtain ⟨row, s'⟩ := r
      obtain ⟨hrow, rfl⟩ := upsert_eq_ok_iff.1 h
      exact .inr (.inl ⟨row, Row.sound_of_ofValue hrow, by simp [step, h]⟩)
  | delete address =>
    cases h : s.delete address with
    | error e => exact .inl (by simp [step, h])
    | ok r =>
      obtain ⟨row, s'⟩ := r
      obtain ⟨key, -, rfl⟩ := delete_eq_ok h
      exact .inr (.inr (.inl ⟨key, by simp [step, h]⟩))
  | read address =>
    left
    simp only [step]
    split <;> rfl
  | list scope =>
    left
    simp only [step]
    split <;> rfl
  | count => exact .inl rfl
  | clear => exact .inr (.inr (.inr rfl))

theorem field_step (s : Store) (call : Call) : (s.step call).2.field = s.field := by
  obtain h | ⟨row, -, h⟩ | ⟨key, h⟩ | h := s.step_cases call <;> rw [h] <;> rfl

theorem field_after (s : Store) (calls : List Call) : (s.after calls).field = s.field := by
  induction calls generalizing s with
  | nil => rfl
  | cons call calls ih => rw [after, ih, field_step]

/-! ## The invariant -/

/-- Every entry stands under the key of its row, every row is that of its document, and no key
stands twice. -/
structure Sound (s : Store) : Prop where
  key_eq : ∀ entry ∈ s.rows, entry.1 = entry.2.key
  row_sound : ∀ entry ∈ s.rows, entry.2.Sound s.field
  keys_nodup : s.keys.Nodup

theorem sound_empty (field : String) : (empty field).Sound where
  key_eq := fun _ h => absurd h List.not_mem_nil
  row_sound := fun _ h => absurd h List.not_mem_nil
  keys_nodup := List.nodup_nil

theorem sound_clear (s : Store) : s.clear.Sound where
  key_eq := fun _ hm => absurd hm List.not_mem_nil
  row_sound := fun _ hm => absurd hm List.not_mem_nil
  keys_nodup := List.nodup_nil

theorem Sound.erase (h : s.Sound) (key : StorageKey) : (s.erase key).Sound where
  key_eq := fun entry hm => h.key_eq entry (List.mem_of_mem_eraseP hm)
  row_sound := fun entry hm => h.row_sound entry (List.mem_of_mem_eraseP hm)
  keys_nodup := h.keys_nodup.sublist ((List.eraseP_sublist).map _)

variable {s : Store}

theorem Sound.put (h : s.Sound) {row : Row} (hrow : row.Sound s.field) : (s.put row).Sound where
  key_eq := fun entry hm => by
    rcases mem_assign hm with rfl | hm
    · rfl
    · exact h.key_eq entry hm
  row_sound := fun entry hm => by
    rcases mem_assign hm with rfl | hm
    · exact hrow
    · exact h.row_sound entry hm
  keys_nodup := nodup_map_fst_assign _ _ h.keys_nodup

theorem Sound.step (h : s.Sound) (call : Call) : (s.step call).2.Sound := by
  obtain hs | ⟨row, hrow, hs⟩ | ⟨key, hs⟩ | hs := s.step_cases call <;> rw [hs]
  · exact h
  · exact h.put hrow
  · exact h.erase key
  · exact sound_clear s

theorem Sound.after (h : s.Sound) (calls : List Call) : (s.after calls).Sound := by
  induction calls generalizing s with
  | nil => exact h
  | cons call calls ih => exact ih (h.step call)

/-- The invariant holds after every run from a store without documents. -/
theorem sound_after (field : String) (calls : List Call) : ((empty field).after calls).Sound :=
  (sound_empty field).after calls

end Store

end Pigeonhole

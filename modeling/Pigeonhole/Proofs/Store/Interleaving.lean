import Pigeonhole.Proofs.Store.Entries

/-!
# Steps of several writers

A `Store.Step` is an upsert, or a read or a removal with a partition key value, and addresses one
storage key at most: none if it is a refused upsert or its value cannot be written.  What happens
under a key is a run of a `cell`, which holds a row or nothing: the steps at the key are answered
from the cell alone (`filter_transcript`), and the other steps do not touch it.  So steps may be
interleaved in any way that keeps their order at each key (`transcript_interleave`): they are
answered alike, and leave the same entries in another order.
-/

namespace Pigeonhole.Store

/-- A request that addresses one entry. -/
inductive Step where
  | upsert (item : Value)
  | read (id : String) (partitionKey : Json)
  | delete (id : String) (partitionKey : Json)

namespace Step

/-- The request to a store. -/
def toCall : Step → Call
  | upsert item => .upsert item
  | read id k => .read ⟨.str id, some (Tree.ofJson k)⟩
  | delete id k => .delete ⟨.str id, some (Tree.ofJson k)⟩

/-- The storage key that a step addresses; a refused upsert addresses none, nor does a partition key
value that cannot be written. -/
def key? (field : String) : Step → Option StorageKey
  | upsert item => (Row.ofValue field item).toOption.map Row.key
  | read id k | delete id k => if k.isWritable then some (.of id k) else none

/-- What a step answers from the row under its key, and what it leaves there. -/
def act (field : String) (cell : Option Row) : Step → Answer × Option Row
  | upsert item =>
    match Row.ofValue field item with
    | .ok row => (.document row.document, some row)
    | .error e => (.failed e, cell)
  | read _ k =>
    if k.isWritable then (.found (cell.map (·.document)), cell)
    else (.failed (.noText .longInteger), cell)
  | delete id k =>
    if k.isWritable then
      match cell with
      | some row => (.document row.document, none)
      | none => (.failed (.notFound (.str id) (Json.text k)), none)
    else (.failed (.noText .longInteger), cell)

end Step

/-! ## One step -/

/-- The row under a storage key. -/
def row? (s : Store) (key : StorageKey) : Option Row := s.rows.lookup key

theorem row?_put_self (s : Store) (row : Row) : (s.put row).row? row.key = some row :=
  lookup_assign_self _ _ _

theorem row?_put_of_ne {row : Row} {key : StorageKey} (h : key ≠ row.key) (s : Store) :
    (s.put row).row? key = s.row? key :=
  lookup_assign_of_ne h _ _

theorem row?_erase_of_ne {key other : StorageKey} (h : other ≠ key) (s : Store) :
    (s.erase key).row? other = s.row? other :=
  lookup_eraseP_of_ne h _

variable {s : Store}

theorem Sound.row?_erase_self (h : s.Sound) (key : StorageKey) : (s.erase key).row? key = none :=
  lookup_eraseP_self h.keys_nodup key

theorem find_keyed (s : Store) (id : String) {k : Json} (hk : k.isWritable = true) :
    s.find ⟨.str id, some (Tree.ofJson k)⟩ =
      .ok ((s.row? (.of id k)).map fun row => (.of id k, row)) := by
  simp only [find, given_ofJson, Json.written?_ofJson, Json.written_of_isWritable hk, lookup?, row?]

theorem key_of_ite_eq_some {k : Json} {here key : StorageKey}
    (h : (if k.isWritable then some here else none) = some key) :
    k.isWritable = true ∧ here = key := by
  split at h
  next hk => exact ⟨hk, Option.some.inj h⟩
  next => cases h

/-- A step is answered from the row under its key, which it replaces. -/
theorem Sound.step_of_key? (h : s.Sound) {step : Step} {key : StorageKey}
    (hkey : step.key? s.field = some key) :
    (s.step step.toCall).1 = (step.act s.field (s.row? key)).1 ∧
      (s.step step.toCall).2.row? key = (step.act s.field (s.row? key)).2 := by
  cases step with
  | upsert item =>
    cases hrow : Row.ofValue s.field item with
    | error e => simp [Step.key?, hrow, Except.toOption] at hkey
    | ok row =>
      obtain rfl : row.key = key := by simpa [Step.key?, hrow, Except.toOption] using hkey
      simp only [Step.toCall, step_upsert_of_ok hrow, Step.act, hrow, row?_put_self, and_self]
  | read id k =>
    obtain ⟨hk, rfl⟩ := key_of_ite_eq_some hkey
    simp only [Step.toCall, Store.step, Store.read, find_keyed s id hk, Step.act, hk, if_true, bind,
      Except.bind, pure, Except.pure, Option.map_map, and_true]
    rfl
  | delete id k =>
    obtain ⟨hk, rfl⟩ := key_of_ite_eq_some hkey
    have hshown : shownKey (some (Tree.ofJson k)) = Json.text k :=
      shownKey_map_ofJson (k := some k) hk
    have hfind := find_keyed s id hk
    cases hrow : s.row? (.of id k) with
    | none =>
      simp [Step.toCall, Store.step, Store.delete, hfind, hrow, hshown, Step.act, hk, bind,
        Except.bind]
    | some row =>
      simp [Step.toCall, Store.step, Store.delete, hfind, hrow, Step.act, hk, bind, Except.bind,
        pure, Except.pure, h.row?_erase_self]

/-- A step leaves the row under every other key. -/
theorem row?_step_of_ne {step : Step} {key : StorageKey} (hkey : step.key? s.field ≠ some key) :
    (s.step step.toCall).2.row? key = s.row? key := by
  cases step with
  | upsert item =>
    cases hrow : Row.ofValue s.field item with
    | error e => rw [Step.toCall, step_upsert_of_error hrow]
    | ok row =>
      have hne : key ≠ row.key := by
        rintro rfl
        simp [Step.key?, hrow, Except.toOption] at hkey
      rw [Step.toCall, step_upsert_of_ok hrow, row?_put_of_ne hne]
  | read id k =>
    simp only [Step.toCall, Store.step]
    split <;> rfl
  | delete id k =>
    simp only [Step.toCall, Store.step]
    split
    next row s' hdelete =>
      obtain ⟨found, hfind, rfl⟩ := delete_eq_ok hdelete
      have hk : k.isWritable = true := by
        by_contra hk
        rw [find_of_not_isWritable (by simpa using hk)] at hfind
        cases hfind
      have hne : key ≠ StorageKey.of id k := by
        rintro rfl
        exact hkey (if_pos hk)
      rw [find_keyed s id hk] at hfind
      simp only [Except.ok.injEq, Option.map_eq_some_iff, Prod.mk.injEq] at hfind
      obtain ⟨_, -, rfl, -⟩ := hfind
      exact row?_erase_of_ne hne s
    next => rfl

/-- A step without a key is a refused upsert or has a value that cannot be written: its answer does
not depend on the store. -/
theorem step_of_key?_eq_none {step : Step} (hkey : step.key? s.field = none) (cell : Option Row) :
    (s.step step.toCall).1 = (step.act s.field cell).1 := by
  cases step with
  | upsert item =>
    cases hrow : Row.ofValue s.field item with
    | error e => simp only [Step.toCall, step_upsert_of_error hrow, Step.act, hrow]
    | ok row => simp [Step.key?, hrow, Except.toOption] at hkey
  | read id k =>
    have hk : k.isWritable = false := by simpa [Step.key?] using hkey
    simp [Step.toCall, Store.step, Store.read, find_of_not_isWritable hk, Step.act, hk, bind,
      Except.bind]
  | delete id k =>
    have hk : k.isWritable = false := by simpa [Step.key?] using hkey
    simp [Step.toCall, Store.step, Store.delete, find_of_not_isWritable hk, Step.act, hk, bind,
      Except.bind]

/-! ## Runs -/

section Runs

variable {ι : Type}

/-- The steps of a run, each with its label and its answer. -/
def transcript (s : Store) (steps : List (ι × Step)) : List ((ι × Step) × Answer) :=
  steps.zip (s.answers (steps.map (·.2.toCall)))

/-- The store after the steps of a run. -/
def afterSteps (s : Store) (steps : List (ι × Step)) : Store := s.after (steps.map (·.2.toCall))

/-- The steps at one key, each with the answer from what the steps before it have left there. -/
def cellTranscript (field : String) (cell : Option Row) :
    List (ι × Step) → List ((ι × Step) × Answer)
  | [] => []
  | x :: steps =>
    (x, (x.2.act field cell).1) :: cellTranscript field (x.2.act field cell).2 steps

/-- What the steps at one key leave there. -/
def cellAfter (field : String) (cell : Option Row) (steps : List (ι × Step)) : Option Row :=
  steps.foldl (fun cell x => (x.2.act field cell).2) cell

theorem transcript_cons (s : Store) (x : ι × Step) (steps : List (ι × Step)) :
    s.transcript (x :: steps) =
      (x, (s.step x.2.toCall).1) :: (s.step x.2.toCall).2.transcript steps := rfl

theorem afterSteps_cons (s : Store) (x : ι × Step) (steps : List (ι × Step)) :
    s.afterSteps (x :: steps) = (s.step x.2.toCall).2.afterSteps steps := rfl

/-- Within a run, the steps at a key are answered as if there were no others. -/
theorem Sound.filter_transcript (h : s.Sound) (key : StorageKey) (steps : List (ι × Step)) :
    (s.transcript steps).filter (fun r => r.1.2.key? s.field = some key) =
      cellTranscript s.field (s.row? key)
        (steps.filter fun x => x.2.key? s.field = some key) := by
  induction steps generalizing s with
  | nil => rfl
  | cons x steps ih =>
    have hrest := ih (h.step x.2.toCall)
    rw [field_step] at hrest
    by_cases hx : x.2.key? s.field = some key
    · obtain ⟨hanswer, hcell⟩ := h.step_of_key? hx
      simp only [transcript_cons, List.filter_cons, hx, decide_true, if_true, cellTranscript,
        hrest, hanswer, hcell]
    · rw [row?_step_of_ne hx] at hrest
      simpa only [transcript_cons, List.filter_cons, hx, decide_false, Bool.false_eq_true,
        if_false] using hrest

theorem Sound.row?_afterSteps (h : s.Sound) (key : StorageKey) (steps : List (ι × Step)) :
    (s.afterSteps steps).row? key =
      cellAfter s.field (s.row? key) (steps.filter fun x => x.2.key? s.field = some key) := by
  induction steps generalizing s with
  | nil => rfl
  | cons x steps ih =>
    have hrest := ih (h.step x.2.toCall)
    rw [field_step] at hrest
    by_cases hx : x.2.key? s.field = some key
    · obtain ⟨-, hcell⟩ := h.step_of_key? hx
      simp only [afterSteps_cons, hrest, hcell, List.filter_cons, hx, decide_true, if_true,
        cellAfter, List.foldl_cons]
    · rw [row?_step_of_ne hx] at hrest
      simpa only [afterSteps_cons, List.filter_cons, hx, decide_false, Bool.false_eq_true,
        if_false] using hrest

/-- Within a run, each step without a key has its own answer. -/
theorem filter_transcript_none (s : Store) (steps : List (ι × Step)) :
    (s.transcript steps).filter (fun r => r.1.2.key? s.field = none) =
      (steps.filter fun x => x.2.key? s.field = none).map
        fun x => (x, (x.2.act s.field none).1) := by
  induction steps generalizing s with
  | nil => rfl
  | cons x steps ih =>
    have hrest := ih (s.step x.2.toCall).2
    rw [field_step] at hrest
    by_cases hx : x.2.key? s.field = none
    · simp only [transcript_cons, List.filter_cons, hx, decide_true, if_true, List.map_cons, hrest,
        step_of_key?_eq_none hx none]
    · simpa only [transcript_cons, List.filter_cons, hx, decide_false, Bool.false_eq_true,
        if_false] using hrest

/-! ## Interleavings -/

variable {xs ys : List (ι × Step)}

/-- Steps in another order that keeps the order at each key have the same answers. -/
theorem Sound.transcript_perm (h : s.Sound) (hperm : xs.Perm ys)
    (horder : ∀ key, (xs.filter fun x => x.2.key? s.field = some key) =
      ys.filter fun x => x.2.key? s.field = some key) :
    (s.transcript xs).Perm (s.transcript ys) := by
  classical
  rw [List.perm_iff_count]
  intro r
  -- an entry is counted among those with its key
  have hcount : ∀ steps : List (ι × Step), (s.transcript steps).count r =
      ((s.transcript steps).filter fun r' => r'.1.2.key? s.field = r.1.2.key? s.field).count r :=
    fun steps => (List.count_filter (by simp)).symm
  rw [hcount, hcount]
  cases hkey : r.1.2.key? s.field with
  | some key => rw [h.filter_transcript, h.filter_transcript, horder]
  | none =>
    rw [filter_transcript_none, filter_transcript_none]
    exact ((hperm.filter _).map _).count_eq r

theorem Sound.rows_perm (h : s.Sound)
    (horder : ∀ key, (xs.filter fun x => x.2.key? s.field = some key) =
      ys.filter fun x => x.2.key? s.field = some key) :
    (s.afterSteps xs).rows.Perm (s.afterSteps ys).rows := by
  have hxs : (s.afterSteps xs).Sound := h.after _
  have hys : (s.afterSteps ys).Sound := h.after _
  rw [List.perm_ext_iff_of_nodup hxs.keys_nodup.of_map hys.keys_nodup.of_map]
  rintro ⟨key, row⟩
  rw [← lookup_eq_some_iff hxs.keys_nodup, ← lookup_eq_some_iff hys.keys_nodup]
  change (s.afterSteps xs).row? key = some row ↔ (s.afterSteps ys).row? key = some row
  rw [h.row?_afterSteps, h.row?_afterSteps, horder]

/-- Steps of several writers on a store that any run has left may be taken in every order that keeps
the order of the steps at each storage key: each step has the same answer, and the stores afterwards
have the same entries, as many and only in another order. -/
theorem transcript_interleave (field : String) (calls : List Call) (hperm : xs.Perm ys)
    (horder : ∀ key, (xs.filter fun x => x.2.key? field = some key) =
      ys.filter fun x => x.2.key? field = some key) :
    let s := (empty field).after calls
    (s.transcript xs).Perm (s.transcript ys) ∧
      (s.afterSteps xs).rows.Perm (s.afterSteps ys).rows ∧
      (s.afterSteps xs).count = (s.afterSteps ys).count := by
  intro s
  have hsound : s.Sound := sound_after field calls
  have hfield : s.field = field := field_after _ _
  rw [← hfield] at horder
  have hrows := hsound.rows_perm horder
  exact ⟨hsound.transcript_perm hperm horder, hrows, hrows.length_eq⟩

/-- Two writers on a store with one document: the one replaces the document and reads it, the other
one is refused an upsert and removes a document that is not there. -/
theorem transcript_interleave_two :
    let document : Json := .obj [("id", .str "a"), ("area", .str "x"), ("n", Tree.int 2)]
    let replace : (Bool × Nat) × Step := ((true, 0), .upsert (Tree.ofJson document))
    let fetch : (Bool × Nat) × Step := ((true, 1), .read "a" (.str "x"))
    let refused : (Bool × Nat) × Step := ((false, 0), .upsert (.obj [("id", .str "b")]))
    let remove : (Bool × Nat) × Step := ((false, 1), .delete "b" .null)
    let xs := [replace, fetch, refused, remove]
    let ys := [refused, replace, remove, fetch]
    let s := (empty "area").after [.upsert (.obj [("id", .str "a"), ("area", .str "x")])]
    xs.Perm ys ∧
    (∀ key, (xs.filter fun x => x.2.key? "area" = some key) =
      ys.filter fun x => x.2.key? "area" = some key) ∧
    (s.transcript xs).Perm (s.transcript ys) ∧
    (s.afterSteps xs).rows.Perm (s.afterSteps ys).rows ∧
    (s.afterSteps xs).count = (s.afterSteps ys).count := by
  intro document replace fetch refused remove xs ys s
  have hperm : xs.Perm ys :=
    ((List.Perm.swap refused fetch [remove]).cons replace).trans
      ((List.Perm.swap refused replace [fetch, remove]).trans
        (((List.Perm.swap remove fetch []).cons replace).cons refused))
  have horder : ∀ key, (xs.filter fun x => x.2.key? "area" = some key) =
      ys.filter fun x => x.2.key? "area" = some key := by
    intro key
    have hreplace : replace.2.key? "area" = some (.of "a" (.str "x")) := rfl
    have hfetch : fetch.2.key? "area" = some (.of "a" (.str "x")) := rfl
    have hrefused : refused.2.key? "area" = none := rfl
    have hremove : remove.2.key? "area" = some (.of "b" .null) := rfl
    have hne : StorageKey.of "a" (.str "x") ≠ StorageKey.of "b" .null := by simp [StorageKey.of]
    by_cases hkey : StorageKey.of "b" .null = key
    · subst hkey
      simp [xs, ys, hreplace, hfetch, hrefused, hremove, hne]
    · simp [xs, ys, List.filter_cons, hreplace, hfetch, hrefused, hremove, hkey]
  exact ⟨hperm, horder, transcript_interleave "area" _ hperm horder⟩

end Runs

end Pigeonhole.Store

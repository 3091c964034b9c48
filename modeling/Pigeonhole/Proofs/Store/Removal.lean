import Pigeonhole.Proofs.Store.Entries
import Pigeonhole.Proofs.Store.Partitions

/-!
# Removing an id

A removal without a partition key value takes the first entry with its id, and so does a read.  The
entries stand in the order in which their keys were inserted (`insertedBefore_keys`): a replacement
leaves a key where it is, and a key that was removed comes back at the end.  So repeated removals of
an id return its documents in that order and then fail, and leave the other entries as they are
(`removals_after`).
-/

namespace Pigeonhole

/-! ## The first of the entries that are looked for -/

section First

variable {α : Type} {p : α → Bool}

theorem filter_eraseP_self (l : List α) : (l.eraseP p).filter p = (l.filter p).tail := by
  induction l with
  | nil => rfl
  | cons a l ih =>
    cases hp : p a with
    | true => rw [List.eraseP_cons_of_pos hp, List.filter_cons_of_pos hp, List.tail_cons]
    | false =>
      rw [List.eraseP_cons_of_neg (by simp [hp]), List.filter_cons_of_neg (by simp [hp]),
        List.filter_cons_of_neg (by simp [hp]), ih]

theorem filter_eraseP_of_disjoint {q : α → Bool} (h : ∀ a, p a = true → q a = false) (l : List α) :
    (l.eraseP p).filter q = l.filter q := by
  induction l with
  | nil => rfl
  | cons a l ih =>
    cases hp : p a with
    | true => rw [List.eraseP_cons_of_pos hp, List.filter_cons_of_neg (by simp [h a hp])]
    | false => rw [List.eraseP_cons_of_neg (by simp [hp]), List.filter_cons, List.filter_cons, ih]

end First

namespace Store

/-! ## The order of insertion -/

theorem after_append (s : Store) (calls more : List Call) :
    s.after (calls ++ more) = (s.after calls).after more := by
  induction calls generalizing s with
  | nil => rfl
  | cons call calls ih => exact ih _

/-- Whether the key `a` was inserted before the key `b`: since some point of the run at which `b` was
not there, `a` has always been there. -/
def InsertedBefore (field : String) (calls : List Call) (a b : StorageKey) : Prop :=
  ∃ before rest, calls = before ++ rest ∧ b ∉ ((empty field).after before).keys ∧
    ∀ more, more <+: rest → a ∈ ((empty field).after (before ++ more)).keys

section Order

variable {field : String} {calls : List Call} {call : Call} {a b : StorageKey}

/-- A key that stays was inserted before the same keys as before. -/
theorem InsertedBefore.concat (h : InsertedBefore field calls a b)
    (ha : a ∈ ((empty field).after (calls ++ [call])).keys) :
    InsertedBefore field (calls ++ [call]) a b := by
  obtain ⟨before, rest, rfl, hb, hstay⟩ := h
  refine ⟨before, rest ++ [call], by rw [List.append_assoc], hb, fun more hmore => ?_⟩
  rcases List.prefix_concat_iff.1 hmore with rfl | hmore
  · rwa [← List.append_assoc]
  · exact hstay more hmore

/-- Every key that is there was inserted before a new one. -/
theorem insertedBefore_new (ha : a ∈ ((empty field).after calls).keys)
    (ha' : a ∈ ((empty field).after (calls ++ [call])).keys)
    (hb : b ∉ ((empty field).after calls).keys) : InsertedBefore field (calls ++ [call]) a b := by
  refine ⟨calls, [call], rfl, hb, fun more hmore => ?_⟩
  rcases List.prefix_concat_iff.1 (show more <+: [] ++ [call] from hmore) with rfl | hmore
  · exact ha'
  · rwa [List.prefix_nil.1 hmore, List.append_nil]

theorem keys_put (s : Store) (row : Row) :
    (s.put row).keys = if row.key ∈ s.keys then s.keys else s.keys ++ [row.key] :=
  map_fst_assign row.key row s.rows

theorem keys_erase_sublist (s : Store) (key : StorageKey) : (s.erase key).keys.Sublist s.keys :=
  List.eraseP_sublist.map _

/-- The keys of a store stand in the order of their insertion. -/
theorem insertedBefore_keys (field : String) (calls : List Call) :
    ((empty field).after calls).keys.Pairwise (InsertedBefore field calls) := by
  induction calls using List.reverseRecOn with
  | nil => exact List.Pairwise.nil
  | append_singleton calls call ih =>
    have hafter : (empty field).after (calls ++ [call]) =
        (((empty field).after calls).step call).2 := after_append _ _ _
    -- the order of keys that were there before and are there still
    have hkept : ∀ keys : List StorageKey, keys.Sublist ((empty field).after calls).keys →
        (∀ a ∈ keys, a ∈ ((empty field).after (calls ++ [call])).keys) →
        keys.Pairwise (InsertedBefore field (calls ++ [call])) := fun keys hsub hmem =>
      (ih.sublist hsub).imp_of_mem fun {a b} ha _ h => h.concat (hmem a ha)
    obtain hs | ⟨row, -, hs⟩ | ⟨key, hs⟩ | hs := ((empty field).after calls).step_cases call
    · rw [hafter, hs] at hkept ⊢
      exact hkept _ (List.Sublist.refl _) fun _ h => h
    · rw [hafter, hs, keys_put] at hkept ⊢
      by_cases hkey : row.key ∈ ((empty field).after calls).keys
      · rw [if_pos hkey] at hkept ⊢
        exact hkept _ (List.Sublist.refl _) fun _ h => h
      · rw [if_neg hkey] at hkept ⊢
        rw [List.pairwise_append]
        refine ⟨hkept _ (List.Sublist.refl _) fun _ h => List.mem_append_left _ h,
          List.pairwise_singleton _ _, fun a ha b hb => ?_⟩
        obtain rfl := List.mem_singleton.1 hb
        refine insertedBefore_new ha ?_ hkey
        rw [hafter, hs, keys_put, if_neg hkey]
        exact List.mem_append_left _ ha
    · rw [hafter, hs] at hkept ⊢
      exact hkept _ (keys_erase_sublist _ key) fun _ h => h
    · rw [hafter, hs]
      exact List.Pairwise.nil

end Order

/-! ## Removals of one id -/

/-- The address of an id without a partition key value. -/
def idAddress (id : String) : Address := ⟨.str id, none⟩

/-- Whether an entry has an id. -/
def hasId (id : String) (entry : StorageKey × Row) : Bool := entry.2.id = id

variable {s : Store} {id : String}

theorem find_idAddress (s : Store) (id : String) :
    s.find (idAddress id) = .ok (s.rows.filter (hasId id)).head? := by
  rw [List.head?_filter]
  rfl

theorem step_read_idAddress (s : Store) (id : String) :
    s.step (.read (idAddress id)) =
      (.found ((s.rows.filter (hasId id)).head?.map (·.2.document)), s) := by
  simp only [step, read, find_idAddress, bind, Except.bind, pure, Except.pure]

theorem step_delete_of_nil (h : s.rows.filter (hasId id) = []) :
    s.step (.delete (idAddress id)) = (.failed (.notFound (.str id) ""), s) := by
  simp only [step, delete, find_idAddress, h, List.head?_nil, bind, Except.bind]
  rfl

/-- A removal takes the first entry with the id. -/
theorem Sound.step_delete_of_cons (hs : s.Sound) {entry : StorageKey × Row}
    {rest : List (StorageKey × Row)} (h : s.rows.filter (hasId id) = entry :: rest) :
    s.step (.delete (idAddress id)) =
      (.document entry.2.document, { s with rows := s.rows.eraseP (hasId id) }) := by
  have hfirst : s.rows.find? (hasId id) = some entry := by
    rw [← List.head?_filter, h, List.head?_cons]
  have herase : s.rows.eraseP (fun e => e.1 = entry.1) = s.rows.eraseP (hasId id) := by
    refine eraseP_eq_of_find? hfirst (decide_eq_true rfl) fun other hother hkey => ?_
    -- entries under one key have one id
    have hkeys : other.2.key = entry.2.key := by
      rw [← hs.key_eq other hother, ← hs.key_eq entry (List.mem_of_find?_eq_some hfirst)]
      exact of_decide_eq_true hkey
    have hids : other.2.id = entry.2.id := congrArg StorageKey.id hkeys
    have hentry : hasId id entry = true := List.find?_some hfirst
    exact decide_eq_true (hids.trans (of_decide_eq_true hentry))
  simp only [Store.step, Store.delete, find_idAddress, h, List.head?_cons, bind, Except.bind, pure,
    Except.pure, Store.erase, herase]

/-- What removals of an id leave: of its entries all but the first, and the other entries. -/
theorem Sound.after_removals (hs : s.Sound) (id : String) (n : Nat) :
    let t := s.after (List.replicate n (.delete (idAddress id)))
    t.rows.filter (hasId id) = (s.rows.filter (hasId id)).drop n ∧
      t.rows.filter (!hasId id ·) = s.rows.filter (!hasId id ·) ∧ t.rows.Sublist s.rows := by
  induction n generalizing s with
  | zero => exact ⟨rfl, rfl, List.Sublist.refl _⟩
  | succ n ih =>
    intro t
    obtain ⟨hheld, hothers, hsub⟩ := ih (hs.step (.delete (idAddress id)))
    have ht : t = (s.step (.delete (idAddress id))).2.after
      (List.replicate n (.delete (idAddress id))) := rfl
    rw [← ht] at hheld hothers hsub
    cases h : s.rows.filter (hasId id) with
    | nil =>
      rw [step_delete_of_nil h] at hheld hothers hsub
      rw [hheld, h, List.drop_nil, List.drop_nil]
      exact ⟨rfl, hothers, hsub⟩
    | cons entry rest =>
      rw [hs.step_delete_of_cons h] at hheld hothers hsub
      rw [hheld, hothers, filter_eraseP_self, h, List.tail_cons, List.drop_succ_cons]
      refine ⟨rfl, filter_eraseP_of_disjoint (fun a ha => ?_) _, hsub.trans List.eraseP_sublist⟩
      rw [ha, Bool.not_true]

theorem Sound.answers_removals (hs : s.Sound) (id : String) :
    s.answers (List.replicate ((s.rows.filter (hasId id)).length + 1) (.delete (idAddress id))) =
      (s.rows.filter (hasId id)).map (fun entry => .document entry.2.document) ++
        [.failed (.notFound (.str id) "")] := by
  generalize hheld : s.rows.filter (hasId id) = held
  induction held generalizing s with
  | nil => simp [answers, step_delete_of_nil hheld]
  | cons entry held ih =>
    have hstep := hs.step_delete_of_cons hheld
    have hrest := ih (hs.step (.delete (idAddress id)))
      (by rw [hstep, filter_eraseP_self, hheld, List.tail_cons])
    rw [List.length_cons, List.replicate_succ, answers, hrest, hstep, List.map_cons,
      List.cons_append]

/-! ## Documents with one id -/

/-- The entries whose documents have an id. -/
def held (s : Store) (id : String) : List (StorageKey × Row) :=
  s.rows.filter fun entry => Ledger.id? entry.2.document = some id

/-- The entries whose documents have another id. -/
def others (s : Store) (id : String) : List (StorageKey × Row) :=
  s.rows.filter fun entry => Ledger.id? entry.2.document ≠ some id

theorem Sound.hasId_eq (hs : s.Sound) (id : String) {entry : StorageKey × Row}
    (hentry : entry ∈ s.rows) :
    hasId id entry = decide (Ledger.id? entry.2.document = some id) := by
  rw [(hs.row_sound entry hentry).id?_eq, hasId]
  simp only [Option.some.injEq]

theorem Sound.held_eq (hs : s.Sound) (id : String) : s.held id = s.rows.filter (hasId id) :=
  List.filter_congr fun _ hentry => (hs.hasId_eq id hentry).symm

theorem Sound.others_eq (hs : s.Sound) (id : String) : s.others id = s.rows.filter (!hasId id ·) :=
  List.filter_congr fun _ hentry => by rw [hs.hasId_eq id hentry, ← decide_not]

/-- Entries with one id are in different partitions. -/
theorem Sound.pairwise_apart_held (hs : s.Sound) (id : String) :
    (s.held id).Pairwise fun a b => a.2.partitionKey.Apart b.2.partitionKey := by
  rw [hs.held_eq]
  refine ((List.pairwise_map.1 hs.keys_nodup).filter _).imp_of_mem fun {a b} ha hb hne => ?_
  obtain ⟨hmem, hid⟩ := List.mem_filter.1 ha
  obtain ⟨hmem', hid'⟩ := List.mem_filter.1 hb
  by_contra hsame
  apply hne
  have hids : a.2.id = b.2.id := (of_decide_eq_true hid).trans (of_decide_eq_true hid').symm
  rw [hs.key_eq a hmem, hs.key_eq b hmem', Row.key, Row.key, StorageKey.of_eq_of_iff]
  exact ⟨hids, Json.not_apart_iff.1 hsame⟩

/-- After every run, the documents with one id are in different partitions and in the order in which
their keys were inserted.  Removals of the id return them one after the other, each of them the one
that a read finds before it, and then one fails since there is no such document.  All that the
removals take away are these documents, one each. -/
theorem removals_after (field : String) (calls : List Call) (id : String) :
    let s := (empty field).after calls
    let removals (n : Nat) : List Call := List.replicate n (.delete (idAddress id))
    let missing : Failure := .notFound (.str id) ""
    ((s.held id).Pairwise fun a b => a.2.partitionKey.Apart b.2.partitionKey) ∧
    ((s.held id).Pairwise fun a b => InsertedBefore field calls a.1 b.1) ∧
    s.answers (removals ((s.held id).length + 1)) =
      (s.held id).map (fun entry => .document entry.2.document) ++ [.failed missing] ∧
    missing.status? = some 404 ∧
    ∀ n, let t := s.after (removals n)
      t.step (.read (idAddress id)) = (.found ((s.held id)[n]?.map (·.2.document)), t) ∧
      t.held id = (s.held id).drop n ∧ t.others id = s.others id ∧ t.rows.Sublist s.rows := by
  intro s removals missing
  have hs : s.Sound := sound_after field calls
  refine ⟨hs.pairwise_apart_held id, ?_, ?_, rfl, fun n => ?_⟩
  · exact (List.pairwise_map.1 (insertedBefore_keys field calls)).filter _
  · rw [hs.held_eq]
    exact hs.answers_removals id
  · intro t
    have ht : t.Sound := hs.after _
    obtain ⟨hheld, hothers, hsub⟩ := hs.after_removals id n
    have hread := step_read_idAddress t id
    rw [hheld, List.head?_drop] at hread
    rw [ht.held_eq, hs.held_eq, ht.others_eq, hs.others_eq]
    exact ⟨hread, hheld, hothers, hsub⟩

end Store

end Pigeonhole

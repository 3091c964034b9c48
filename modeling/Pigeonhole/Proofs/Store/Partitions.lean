import Mathlib.Algebra.GroupWithZero.Nat
import Mathlib.Data.List.Pairwise
import Pigeonhole.Proofs.Store.Ledger

/-!
# Partitions of a store

Having one canonical text is an equivalence of partition key values, so one value of each class
(`Representatives`) puts every document into exactly one partition (`existsUnique_partition`), and
the sizes of the partitions add up to the number of documents (`length_eq_sum`).
-/

namespace Pigeonhole

/-! ## Values with one text -/

namespace Json

theorem same_refl (a : Json) : a.same a = true := by
  unfold same
  exact beq_self_eq_true _

theorem same_comm (a b : Json) : a.same b = b.same a := by
  rw [same, same, Bool.eq_iff_iff, beq_iff_eq, beq_iff_eq, eq_comm]

theorem same_trans {a b c : Json} (hab : a.same b = true) (hbc : b.same c = true) :
    a.same c = true := by
  unfold same at *
  rw [beq_iff_eq] at *
  exact hab.trans hbc

/-- Two values that do not have one canonical text. -/
def Apart (a b : Json) : Prop := a.same b = false

instance : DecidableRel Apart := fun a b => instDecidableEqBool (a.same b) false

instance : Std.Symm Apart where
  symm a b h := by rwa [Apart, same_comm]

theorem not_apart_iff {a b : Json} : ¬ a.Apart b ↔ a.same b = true := by
  rw [Apart, Bool.not_eq_false]

end Json

/-! ## Counting -/

section Counting

variable {α β : Type}

theorem countP_eq_one {p : α → Bool} {l : List α} (hex : ∃ a ∈ l, p a = true)
    (hone : l.Pairwise fun a b => p a = true → p b = false) : l.countP p = 1 := by
  induction l with
  | nil =>
    obtain ⟨a, ha, -⟩ := hex
    cases ha
  | cons a l ih =>
    obtain ⟨hothers, hone⟩ := List.pairwise_cons.1 hone
    cases hp : p a with
    | true =>
      have hnone : l.countP p = 0 := List.countP_eq_zero.2 fun b hb => by
        simp [hothers b hb hp]
      rw [List.countP_cons_of_pos hp, hnone]
    | false =>
      obtain ⟨b, hb, hpb⟩ := hex
      have hrest : b ∈ l := by
        rcases List.mem_cons.1 hb with rfl | hb
        · rw [hp] at hpb
          cases hpb
        · exact hb
      rw [List.countP_cons_of_neg (by simp [hp]), ih ⟨b, hrest, hpb⟩ hone]

/-- What every element counts among the keys adds up over the keys. -/
theorem sum_length_filter (q : β → α → Bool) (keys : List β) (l : List α) :
    (keys.map fun k => (l.filter (q k)).length).sum = (l.map fun a => keys.countP (q · a)).sum := by
  induction l with
  | nil => simp
  | cons a l ih =>
    have hcons : ∀ k, ((a :: l).filter (q k)).length =
        (if q k a then 1 else 0) + (l.filter (q k)).length := by
      intro k
      cases hq : q k a <;> simp [hq]
      omega
    have hkeys : (keys.map fun k => ((a :: l).filter (q k)).length).sum =
        keys.countP (q · a) + (keys.map fun k => (l.filter (q k)).length).sum := by
      clear ih
      induction keys with
      | nil => rfl
      | cons k keys ih =>
        rw [List.map_cons, List.sum_cons, ih, hcons, List.countP_cons, List.map_cons, List.sum_cons]
        omega
    rw [hkeys, ih, List.map_cons, List.sum_cons]

end Counting

/-! ## Representatives -/

/-- One value of each partition in which there are documents. -/
structure Representatives (field : String) (documents keys : List Json) : Prop where
  distinct : keys.Pairwise Json.Apart
  present : ∀ k ∈ keys, ∃ d ∈ documents, Ledger.inPartition field k d = true
  complete : ∀ d ∈ documents, ∃ k ∈ keys, Ledger.inPartition field k d = true

variable {field : String} {documents keys : List Json}

/-- The partition key values of the documents without those that are found already. -/
theorem exists_representatives (h : ∀ d ∈ documents, ∃ k, d.resolve field = some k) :
    ∃ keys, Representatives field documents keys := by
  let found := documents.filterMap (·.resolve field)
  have hneg : ∀ {x y z : Json}, x.Apart z → x.Apart y ∨ y.Apart z := by
    intro x y z hxz
    by_contra hnot
    simp only [not_or, Json.not_apart_iff] at hnot
    exact Json.not_apart_iff.2 (Json.same_trans hnot.1 hnot.2) hxz
  refine ⟨found.pwFilter Json.Apart, List.pairwise_pwFilter _, fun k hk => ?_, fun d hd => ?_⟩
  · obtain ⟨d, hd, hk⟩ := List.mem_filterMap.1 (List.pwFilter_subset _ hk)
    exact ⟨d, hd, by simp [Ledger.inPartition, hk, Json.same_refl]⟩
  · obtain ⟨k, hk⟩ := h d hd
    have hmem : k ∈ found := List.mem_filterMap.2 ⟨d, hd, hk⟩
    -- a value apart from all that are kept would be apart from all that were found, itself included
    by_contra hnone
    simp only [not_exists, not_and, Ledger.inPartition, hk, Option.any_some] at hnone
    have hapart : ∀ b ∈ found.pwFilter Json.Apart, Json.Apart k b := fun b hb =>
      Bool.eq_false_iff.2 (hnone b hb)
    have hall := (List.forall_mem_pwFilter (R := Json.Apart) hneg k found).1 hapart
    exact Json.not_apart_iff.2 (Json.same_refl k) (hall k hmem)

namespace Representatives

theorem same_of_inPartition {d a b : Json} (ha : Ledger.inPartition field a d = true)
    (hb : Ledger.inPartition field b d = true) : Json.same a b = true := by
  unfold Ledger.inPartition at ha hb
  obtain ⟨v, hv, ha⟩ := (Option.any_eq_true _ _).1 ha
  obtain ⟨w, hw, hb⟩ := (Option.any_eq_true _ _).1 hb
  obtain rfl : v = w := Option.some.inj (hv.symm.trans hw)
  rw [Json.same_comm] at ha
  exact Json.same_trans ha hb

theorem existsUnique_partition (h : Representatives field documents keys) {d : Json}
    (hd : d ∈ documents) : ∃! k, k ∈ keys ∧ Ledger.inPartition field k d = true := by
  obtain ⟨k, hk, hin⟩ := h.complete d hd
  refine ⟨k, ⟨hk, hin⟩, fun other ⟨hother, hin'⟩ => ?_⟩
  by_contra hne
  exact Json.not_apart_iff.2 (same_of_inPartition hin' hin) (h.distinct.forall hother hk hne)

theorem length_eq_sum (h : Representatives field documents keys) :
    documents.length =
      (keys.map fun k => (documents.filter (Ledger.inPartition field k)).length).sum := by
  have hone : ∀ d ∈ documents, keys.countP (Ledger.inPartition field · d) = 1 := by
    intro d hd
    refine countP_eq_one (h.complete d hd) (h.distinct.imp fun {a b} hab ha => ?_)
    rw [Bool.eq_false_iff]
    exact fun hb => Json.not_apart_iff.2 (same_of_inPartition ha hb) hab
  rw [sum_length_filter, List.map_congr_left hone]
  simp

end Representatives

end Pigeonhole

import Pigeonhole.Query.Form

/-!
# Characters of fragments

White space, word characters and the signs of the query language are apart: a word character is no
blank (`isBlank_of_isWord`), and blanks are only skipped by `stripLeft`, so that a text which begins
with anything else is left as it is.
-/

namespace Pigeonhole.Text

-- both with high priority, since another instance goes through all characters there are
instance (priority := high) decidableForallMem (p : Char → Prop) [DecidablePred p]
    (s : List Char) : Decidable (∀ c ∈ s, p c) :=
  List.decidableBAll p s

instance (priority := high) decidableForallMemOption (p : Char → Prop) [DecidablePred p]
    (o : Option Char) : Decidable (∀ c ∈ o, p c) :=
  Option.decidableForallMem o

/-- What holds of every character that the table of blanks lists holds of every blank. -/
theorem forall_of_isBlank {p : Char → Bool}
    (checked : ∀ r ∈ blankRanges, ∀ k < r.2 + 1 - r.1, p (Char.ofNat (r.1 + k)) = true) {c : Char}
    (h : isBlank c = true) : p c = true := by
  obtain ⟨r, hr, hfirst, hlast⟩ := exists_range_of_inRanges h
  have hchecked := checked r hr (c.toNat - r.1) (by omega)
  rwa [Nat.add_sub_cancel' hfirst, Char.ofNat_toNat] at hchecked

theorem forall_of_ascii {p : Char → Prop} (checked : ∀ n < 128, p (Char.ofNat n)) {c : Char}
    (h : c.toNat < 128) : p c := by
  have hc := checked c.toNat h
  rwa [Char.ofNat_toNat] at hc

/-- Blanks are not letters of any keyword. -/
theorem foldLetter_of_isBlank {c : Char} (h : isBlank c = true) : foldLetter c = c := by
  have hfold : (foldLetter c == c) = true :=
    forall_of_isBlank (p := fun c => foldLetter c == c) (by decide +kernel) h
  exact beq_iff_eq.1 hfold

theorem isBlank_of_isWord {c : Char} (h : isWord c = true) : isBlank c = false := by
  rw [Bool.eq_false_iff]
  intro hblank
  have hword : (!isWord c) = true :=
    forall_of_isBlank (p := fun c => !isWord c) (by decide +kernel) hblank
  rw [h] at hword
  cases hword

theorem isBlank_of_isPathChar {c : Char} (h : Query.isPathChar c = true) : isBlank c = false := by
  rw [Query.isPathChar, Bool.or_eq_true, decide_eq_true_iff] at h
  rcases h with h | rfl
  · exact isBlank_of_isWord h
  · decide

/-- A character that does not stand in a path is another one than every character of a path. -/
theorem ne_of_isPathChar {c d : Char} (h : Query.isPathChar c = true)
    (hd : Query.isPathChar d = false) : c ≠ d := by
  rintro rfl
  rw [h] at hd
  cases hd

theorem stripLeft_cons_of_not_isBlank {c : Char} (h : isBlank c = false) (s : List Char) :
    stripLeft (c :: s) = c :: s := List.dropWhile_cons_of_neg (by simp [h])

theorem stripLeft_eq_self {s : List Char} (h : ∀ c ∈ s.head?, isBlank c = false) :
    stripLeft s = s := by
  cases s with
  | nil => rfl
  | cons c s => exact stripLeft_cons_of_not_isBlank (h c rfl) s

theorem stripLeft_append_of_isBlank {blanks : List Char} (h : ∀ c ∈ blanks, isBlank c = true)
    (s : List Char) : stripLeft (blanks ++ s) = stripLeft s := List.dropWhile_append_of_pos h

theorem dropBlanks1_cons_of_isBlank {c : Char} (h : isBlank c = true) (s : List Char) :
    dropBlanks1 (c :: s) = some (stripLeft s) := if_pos h

theorem dropBlanks1_cons_of_not_isBlank {c : Char} (h : isBlank c = false) (s : List Char) :
    dropBlanks1 (c :: s) = none := if_neg (by simp [h])

end Pigeonhole.Text

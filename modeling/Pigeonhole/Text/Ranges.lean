/-!
# Sets of characters given by ranges

A character property is a table of ascending, disjoint ranges of code points; `inRanges` looks a
code point up in such a table.
-/

namespace Pigeonhole.Text

/-- Whether a code point lies in one of the ranges, which are ascending and include their ends. -/
def inRanges : List (Nat × Nat) → Nat → Bool
  | [], _ => false
  | (first, last) :: rest, n =>
    if n < first then false else if n ≤ last then true else inRanges rest n

@[simp] theorem inRanges_nil (n : Nat) : inRanges [] n = false := rfl

theorem inRanges_cons (first last n : Nat) (rest : List (Nat × Nat)) :
    inRanges ((first, last) :: rest) n =
      if n < first then false else if n ≤ last then true else inRanges rest n := rfl

theorem exists_range_of_inRanges {table : List (Nat × Nat)} {n : Nat}
    (h : inRanges table n = true) : ∃ r ∈ table, r.1 ≤ n ∧ n ≤ r.2 := by
  induction table with
  | nil => simp at h
  | cons r rest ih =>
    obtain ⟨first, last⟩ := r
    rw [inRanges_cons] at h
    split at h
    · simp at h
    · rename_i hfirst
      split at h
      · rename_i hlast
        exact ⟨_, List.mem_cons_self, Nat.le_of_not_lt hfirst, hlast⟩
      · obtain ⟨r, hr, hn⟩ := ih h
        exact ⟨r, List.mem_cons_of_mem _ hr, hn⟩

end Pigeonhole.Text

import Mathlib.Data.List.TakeWhile
import Pigeonhole.Proofs.Text.Class

/-!
# Keywords and blanks at the beginning of a text

What `dropKeyword` and `dropBlanks1` take from the beginning of a text, and what is left: a keyword is
taken exactly in letters that fold to its own (`exists_append_of_dropKeyword`, `dropKeyword_spelled`),
and not at all where a letter does not (`dropKeyword_of_clash`).
-/

namespace Pigeonhole.Text

/-! ## Keywords -/

/-- The text before the rest is the keyword up to letter case. -/
theorem exists_append_of_dropKeyword {w s rest : List Char} (h : dropKeyword w s = some rest) :
    ∃ token : List Char, s = token ++ rest ∧ token.map foldLetter = w := by
  induction w generalizing s with
  | nil => exact ⟨[], Option.some.inj h, rfl⟩
  | cons k w ih =>
    cases s with
    | nil => cases h
    | cons c s =>
      rw [dropKeyword] at h
      split at h
      · rename_i hfold
        obtain ⟨token, rfl, htoken⟩ := ih h
        exact ⟨c :: token, rfl, by rw [List.map_cons, hfold, htoken]⟩
      · cases h

theorem dropKeyword_spelled {w token : List Char} (h : token.map foldLetter = w) (s : List Char) :
    dropKeyword w (token ++ s) = some s := by
  subst h
  induction token with
  | nil => rfl
  | cons c token ih => rw [List.map_cons, List.cons_append, dropKeyword, if_pos rfl, ih]

/-- Whether two texts differ at a place that both of them have. -/
def clash : List Char → List Char → Bool
  | c :: s, d :: t => c != d || clash s t
  | _, _ => false

theorem dropKeyword_of_clash {w token : List Char} (h : clash w (token.map foldLetter) = true)
    (s : List Char) : dropKeyword w (token ++ s) = none := by
  induction token generalizing w with
  | nil => cases w <;> cases h
  | cons c token ih =>
    cases w with
    | nil => cases h
    | cons k w =>
      rw [List.map_cons, clash, Bool.or_eq_true, bne_iff_ne] at h
      rw [List.cons_append, dropKeyword]
      split
      next hfold => exact ih (h.resolve_left (Ne.symm · hfold))
      next => rfl

/-! ## Blanks -/

/-- White space that is not empty. -/
structure Blanks (s : List Char) : Prop where
  ne_nil : s ≠ []
  isBlank : ∀ c ∈ s, isBlank c = true

theorem stripLeft_stripLeft (s : List Char) : stripLeft (stripLeft s) = stripLeft s := by
  induction s with
  | nil => rfl
  | cons c s ih =>
    cases hc : isBlank c with
    | true =>
      have hdrop : stripLeft (c :: s) = stripLeft s := List.dropWhile_cons_of_pos hc
      rw [hdrop, ih]
    | false => rw [stripLeft_cons_of_not_isBlank hc, stripLeft_cons_of_not_isBlank hc]

theorem dropBlanks1_append {b : List Char} (h : Blanks b) (s : List Char) :
    dropBlanks1 (b ++ s) = some (stripLeft s) := by
  obtain ⟨c, b, rfl⟩ := List.exists_cons_of_ne_nil h.ne_nil
  obtain ⟨hc, hb⟩ := List.forall_mem_cons.1 h.isBlank
  rw [List.cons_append, dropBlanks1_cons_of_isBlank hc, stripLeft_append_of_isBlank hb]

theorem exists_blanks_of_dropBlanks1 {s rest : List Char} (h : dropBlanks1 s = some rest) :
    ∃ b, s = b ++ rest ∧ Blanks b ∧ stripLeft rest = rest := by
  cases s with
  | nil => cases h
  | cons c s =>
    rw [dropBlanks1] at h
    split at h
    next hc =>
      obtain rfl := Option.some.inj h
      refine ⟨c :: s.takeWhile isBlank, ?_, ⟨List.cons_ne_nil _ _, ?_⟩, stripLeft_stripLeft s⟩
      · rw [List.cons_append, stripLeft, List.takeWhile_append_dropWhile]
      · exact List.forall_mem_cons.2 ⟨hc, fun d hd => List.mem_takeWhile_imp hd⟩
    next => cases h

end Pigeonhole.Text

import Mathlib.Data.List.Infix
import Mathlib.Data.List.TakeWhile
import Pigeonhole.Text.Lowercase

/-!
# Lower case of parts

Only a capital sigma looks at the characters around it, for it takes its final form where it ends a
word (`endsWord`).  A part of a text becomes in lower case what it becomes by itself, if every sigma
in it ends a word of the text exactly if it ends one of the part (`Steady`, `exists_lower_of_steady`).

A sigma sees beyond the margins of the part only past characters that case ignores (`Exposed`).
A text with such a sigma stands in another one whose lower case does not hold the lower case of the
text (`exists_not_infix_of_exposed`): the one sigma that changes is missing when they are counted.
-/

namespace Pigeonhole.Text

/-! ## Sigmas -/

/-- Whether a sigma ends a word, by the characters before it, nearest first, and those after it. -/
def endsWord (before after : List Char) : Bool := nextIsCased before && !nextIsCased after

/-- What stands before and after each sigma of a text behind other characters, nearest first. -/
def sigmasAfter (before : List Char) : List Char → List (List Char × List Char)
  | [] => []
  | c :: s =>
    if c = 'Σ' then (before, s) :: sigmasAfter (c :: before) s else sigmasAfter (c :: before) s

/-- What stands before and after each sigma of a text. -/
def sigmas (s : List Char) : List (List Char × List Char) := sigmasAfter [] s

theorem exists_append_of_mem_sigmasAfter {before s : List Char} {p : List Char × List Char}
    (h : p ∈ sigmasAfter before s) : ∃ a, s = a ++ 'Σ' :: p.2 ∧ p.1 = a.reverse ++ before := by
  induction s generalizing before with
  | nil => cases h
  | cons c s ih =>
    have hlater : p ∈ sigmasAfter (c :: before) s →
        ∃ a, c :: s = a ++ 'Σ' :: p.2 ∧ p.1 = a.reverse ++ before := by
      intro hp
      obtain ⟨a, rfl, hbefore⟩ := ih hp
      refine ⟨c :: a, rfl, ?_⟩
      rw [hbefore, List.reverse_cons, List.append_assoc]
      rfl
    rw [sigmasAfter] at h
    split at h
    next hc =>
      rcases List.mem_cons.1 h with rfl | hp
      · exact ⟨[], by rw [hc]; rfl, rfl⟩
      · exact hlater hp
    next => exact hlater h

/-! ## What a sigma sees -/

theorem nextIsCased_of_ignorable {a : List Char} (h : a.all isCaseIgnorable = true)
    (x : List Char) : nextIsCased (a ++ x) = nextIsCased x := by
  rw [nextIsCased, List.dropWhile_append_of_pos (List.all_eq_true.1 h), nextIsCased]

/-- Past a character that case does not ignore nothing is seen. -/
theorem nextIsCased_of_not_ignorable {a : List Char} (h : a.all isCaseIgnorable = false)
    (x : List Char) : nextIsCased (a ++ x) = nextIsCased a := by
  have hne : a.dropWhile isCaseIgnorable ≠ [] := by
    rw [Ne, List.dropWhile_eq_nil_iff, ← List.all_eq_true, h]
    exact Bool.false_ne_true
  obtain ⟨c, rest, hrest⟩ := List.exists_cons_of_ne_nil hne
  have hdrop : (a ++ x).dropWhile isCaseIgnorable = c :: (rest ++ x) := by
    rw [List.dropWhile_append, hrest]
    rfl
  rw [nextIsCased, nextIsCased, hdrop, hrest]

theorem nextIsCased_eq_false {a : List Char} (h : a.all isCaseIgnorable = true) :
    nextIsCased a = false := by
  rw [← List.append_nil a, nextIsCased_of_ignorable h]
  rfl

/-- Nothing is seen past a sigma. -/
theorem nextIsCased_append_sigma (a x y : List Char) :
    nextIsCased (a ++ 'Σ' :: x) = nextIsCased (a ++ 'Σ' :: y) := by
  have hsigma : ∀ t, nextIsCased ('Σ' :: t) = true := by
    intro t
    have hignored : isCaseIgnorable 'Σ' = false := by decide
    have hcased : isCased 'Σ' = true := by decide
    rw [nextIsCased, List.dropWhile_cons_of_neg (by rw [hignored]; exact Bool.false_ne_true)]
    exact hcased
  cases ha : a.all isCaseIgnorable with
  | true => rw [nextIsCased_of_ignorable ha, nextIsCased_of_ignorable ha, hsigma, hsigma]
  | false => rw [nextIsCased_of_not_ignorable ha, nextIsCased_of_not_ignorable ha]

/-! ## Lower case in surroundings -/

/-- The lower case of a character in its surroundings. -/
def lowerAt (before : List Char) (c : Char) (after : List Char) : List Char :=
  if c = 'Σ' then [if endsWord before after then 'ς' else 'σ']
  else if c = 'İ' then ['i', '\u0307']
  else [lowerChar c]

/-- The lower case of a part of a text, given the characters before it, nearest first, and after
it. -/
def lowerBetween (before : List Char) : List Char → List Char → List Char
  | [], _ => []
  | c :: s, after => lowerAt before c (s ++ after) ++ lowerBetween (c :: before) s after

theorem lowerAfter_eq (before s : List Char) : lowerAfter before s = lowerBetween before s [] := by
  induction s generalizing before with
  | nil => rfl
  | cons c s ih =>
    rw [lowerAfter, lowerBetween, ih, List.append_nil]
    rfl

theorem lowerBetween_append (before s t after : List Char) :
    lowerBetween before (s ++ t) after =
      lowerBetween before s (t ++ after) ++ lowerBetween (s.reverse ++ before) t after := by
  induction s generalizing before with
  | nil => rfl
  | cons c s ih =>
    rw [List.cons_append, lowerBetween, lowerBetween, ih, List.append_assoc, List.append_assoc,
      List.reverse_cons, List.append_assoc]
    rfl

theorem lower_eq (s : List Char) : lower s = lowerBetween [] s [] := lowerAfter_eq [] s

theorem lower_append (u s w : List Char) :
    lower (u ++ s ++ w) =
      lowerBetween [] u (s ++ w) ++ lowerBetween u.reverse s w ++
        lowerBetween (s.reverse ++ u.reverse) w [] := by
  rw [lower_eq, lowerBetween_append, lowerBetween_append, List.reverse_append]
  simp only [List.append_nil]

/-- The lower case of a part depends on its surroundings only by its sigmas. -/
theorem lowerBetween_congr {before s x y x' y' : List Char}
    (h : ∀ p ∈ sigmasAfter before s,
      endsWord (p.1 ++ x) (p.2 ++ y) = endsWord (p.1 ++ x') (p.2 ++ y')) :
    lowerBetween (before ++ x) s y = lowerBetween (before ++ x') s y' := by
  induction s generalizing before with
  | nil => rfl
  | cons c s ih =>
    rw [sigmasAfter] at h
    by_cases hc : c = 'Σ'
    · rw [if_pos hc, List.forall_mem_cons] at h
      have hat : lowerAt (before ++ x) c (s ++ y) = lowerAt (before ++ x') c (s ++ y') := by
        rw [lowerAt, lowerAt, if_pos hc, if_pos hc, h.1]
      have hrest := ih h.2
      rw [lowerBetween, lowerBetween, hat]
      exact congrArg _ hrest
    · rw [if_neg hc] at h
      have hat : lowerAt (before ++ x) c (s ++ y) = lowerAt (before ++ x') c (s ++ y') := by
        rw [lowerAt, lowerAt, if_neg hc, if_neg hc]
      have hrest := ih h
      rw [lowerBetween, lowerBetween, hat]
      exact congrArg _ hrest

/-! ## Parts that stay what they are -/

/-- Every sigma of a part ends a word of the text exactly if it ends one of the part. -/
def Steady (u s w : List Char) : Prop :=
  ∀ p ∈ sigmas s, endsWord (p.1 ++ u.reverse) (p.2 ++ w) = endsWord p.1 p.2

instance (u s w : List Char) : Decidable (Steady u s w) :=
  inferInstanceAs (Decidable (∀ p ∈ sigmas s, _))

/-- Between two texts a steady part becomes what it becomes by itself. -/
theorem exists_lower_of_steady {u s w : List Char} (h : Steady u s w) :
    ∃ before after, lower (u ++ s ++ w) = before ++ lower s ++ after := by
  have hpart : lowerBetween u.reverse s w = lower s := by
    have hsame : ∀ p ∈ sigmasAfter [] s,
        endsWord (p.1 ++ u.reverse) (p.2 ++ w) = endsWord (p.1 ++ []) (p.2 ++ []) := by
      intro p hp
      rw [List.append_nil, List.append_nil]
      exact h p hp
    rw [lower_eq]
    exact lowerBetween_congr hsame
  rw [lower_append, hpart]
  exact ⟨_, _, rfl⟩

/-- A sigma sees beyond the beginning of a text, where only ignored characters stand before it, or
beyond the end, and what it sees there decides its form. -/
def Exposed (s : List Char) : Prop :=
  ∃ p ∈ sigmas s, (p.1.all isCaseIgnorable = true ∧ nextIsCased p.2 = false) ∨
    (nextIsCased p.1 = true ∧ p.2.all isCaseIgnorable = true)

instance (s : List Char) : Decidable (Exposed s) :=
  inferInstanceAs (Decidable (∃ p ∈ sigmas s, _))

theorem steady_of_not_exposed {s : List Char} (h : ¬ Exposed s) (u w : List Char) :
    Steady u s w := by
  intro p hp
  have hbegin : p.1.all isCaseIgnorable = true → nextIsCased p.2 ≠ false := fun hall hcased =>
    h ⟨p, hp, .inl ⟨hall, hcased⟩⟩
  have hend : nextIsCased p.1 = true → p.2.all isCaseIgnorable ≠ true := fun hcased hall =>
    h ⟨p, hp, .inr ⟨hcased, hall⟩⟩
  rw [endsWord, endsWord]
  cases hbefore : p.1.all isCaseIgnorable with
  | true =>
    have hcased : nextIsCased p.2 = true := Bool.of_not_eq_false (hbegin hbefore)
    have hall : p.2.all isCaseIgnorable = false := by
      rw [Bool.eq_false_iff]
      intro hall
      rw [nextIsCased_eq_false hall] at hcased
      cases hcased
    rw [nextIsCased_of_not_ignorable hall, hcased, Bool.not_true, Bool.and_false, Bool.and_false]
  | false =>
    rw [nextIsCased_of_not_ignorable hbefore]
    cases hcased : nextIsCased p.1 with
    | false => rw [Bool.false_and, Bool.false_and]
    | true =>
      have hall : p.2.all isCaseIgnorable = false := Bool.of_not_eq_true (hend hcased)
      rw [nextIsCased_of_not_ignorable hall]

example : Exposed ['Σ'] ∧ ¬ Steady ['Α'] ['Σ'] [] := by decide

/-! ## Parts that change -/

/-- A sigma keeps apart what is before it from what is after it. -/
theorem lowerBetween_before_sigma (before a x y : List Char) :
    lowerBetween before a ('Σ' :: x) = lowerBetween before a ('Σ' :: y) := by
  have hseen : ∀ p ∈ sigmasAfter [] a,
      endsWord (p.1 ++ before) (p.2 ++ 'Σ' :: x) = endsWord (p.1 ++ before) (p.2 ++ 'Σ' :: y) := by
    intro p _
    rw [endsWord, endsWord, nextIsCased_append_sigma p.2 x y]
  exact lowerBetween_congr hseen

theorem lowerBetween_after_sigma (x y b after : List Char) :
    lowerBetween ('Σ' :: x) b after = lowerBetween ('Σ' :: y) b after := by
  have hseen : ∀ p ∈ sigmasAfter [] b,
      endsWord (p.1 ++ 'Σ' :: x) (p.2 ++ after) = endsWord (p.1 ++ 'Σ' :: y) (p.2 ++ after) := by
    intro p _
    rw [endsWord, endsWord, nextIsCased_append_sigma p.1 x y]
  exact lowerBetween_congr hseen

/-- There is no sigma among characters that case ignores. -/
theorem lowerBetween_of_ignorable {a : List Char} (h : a.all isCaseIgnorable = true)
    (x y x' y' : List Char) : lowerBetween x a y = lowerBetween x' a y' := by
  have hseen : ∀ p ∈ sigmasAfter [] a,
      endsWord (p.1 ++ x) (p.2 ++ y) = endsWord (p.1 ++ x') (p.2 ++ y') := by
    intro p hp
    obtain ⟨t, rfl, -⟩ := exists_append_of_mem_sigmasAfter hp
    have hsigma := List.all_eq_true.1 h 'Σ' (List.mem_append_right _ List.mem_cons_self)
    exact absurd hsigma (by decide)
  exact lowerBetween_congr hseen

theorem lowerBetween_sigma (before a b after : List Char) :
    lowerBetween before (a ++ 'Σ' :: b) after =
      lowerBetween before a ('Σ' :: b) ++
        (if endsWord (a.reverse ++ before) (b ++ after) then 'ς' else 'σ') ::
          lowerBetween ['Σ'] b after := by
  rw [lowerBetween_append, lowerBetween, lowerAt, if_pos rfl, List.cons_append,
    lowerBetween_before_sigma before a (b ++ after) b, lowerBetween_after_sigma _ []]
  rfl

/-- A text with one character replaced does not hold the text. -/
theorem not_infix_of_ne {c d : Char} (hne : c ≠ d) (x y : List Char) {before after : List Char}
    (hbefore : c ∉ before) (hafter : c ∉ after) :
    ¬ x ++ c :: y <:+: before ++ (x ++ d :: y) ++ after := by
  intro h
  have hcount := h.sublist.count_le c
  simp only [List.count_append, List.count_cons_self, List.count_cons_of_ne hne.symm,
    List.count_eq_zero_of_not_mem hbefore, List.count_eq_zero_of_not_mem hafter] at hcount
  omega

/-- A text with an exposed sigma stands in another text that does not hold it in lower case. -/
theorem exists_not_infix_of_exposed {s : List Char} (h : Exposed s) :
    ∃ u w, ¬ lower s <:+: lower (u ++ s ++ w) := by
  obtain ⟨⟨p, b⟩, hp, hor⟩ := h
  obtain ⟨a, hs, hpa⟩ := exists_append_of_mem_sigmasAfter hp
  simp only [List.append_nil] at hs hpa hor
  subst hs hpa
  have hletter : ∀ before after, lowerBetween before ['a'] after = ['a'] := by
    intro before after
    have hsmall : lowerChar 'a' = 'a' := by decide
    rw [lowerBetween, lowerBetween, lowerAt, if_neg (by decide), if_neg (by decide), hsmall]
    rfl
  have hcased : nextIsCased ['a'] = true := by decide
  rcases hor with ⟨ha, hb⟩ | ⟨ha, hb⟩
  · -- a letter before the text makes the sigma end a word
    have halone : endsWord (a.reverse ++ []) (b ++ []) = false := by
      rw [endsWord, List.append_nil, nextIsCased_eq_false ha, Bool.false_and]
    have hbehind : endsWord (a.reverse ++ ['a']) (b ++ []) = true := by
      rw [endsWord, nextIsCased_of_ignorable ha, hcased, List.append_nil, hb]
      rfl
    have hsame := lowerBetween_of_ignorable (by rwa [List.all_reverse] at ha) ['a'] ('Σ' :: b) []
      ('Σ' :: b)
    have hs : lower (a ++ 'Σ' :: b) =
        lowerBetween [] a ('Σ' :: b) ++ 'σ' :: lowerBetween ['Σ'] b [] := by
      rw [lower_eq, lowerBetween_sigma, halone]
      rfl
    have ht : lower (['a'] ++ (a ++ 'Σ' :: b) ++ []) =
        ['a'] ++ (lowerBetween [] a ('Σ' :: b) ++ 'ς' :: lowerBetween ['Σ'] b []) ++ [] := by
      rw [lower_append, hletter, lowerBetween_sigma, List.reverse_singleton, hsame, hbehind]
      rfl
    refine ⟨['a'], [], ?_⟩
    rw [hs, ht]
    exact not_infix_of_ne (by decide) _ _ (by decide) List.not_mem_nil
  · -- a letter behind the text makes the sigma end no word
    have halone : endsWord (a.reverse ++ []) (b ++ []) = true := by
      rw [endsWord, List.append_nil, List.append_nil, ha, nextIsCased_eq_false hb]
      rfl
    have hbefore : endsWord (a.reverse ++ []) (b ++ ['a']) = false := by
      rw [endsWord, nextIsCased_of_ignorable hb, hcased, Bool.not_true, Bool.and_false]
    have hsame := lowerBetween_of_ignorable hb ['Σ'] ['a'] ['Σ'] []
    have hs : lower (a ++ 'Σ' :: b) =
        lowerBetween [] a ('Σ' :: b) ++ 'ς' :: lowerBetween ['Σ'] b [] := by
      rw [lower_eq, lowerBetween_sigma, halone]
      rfl
    have ht : lower ([] ++ (a ++ 'Σ' :: b) ++ ['a']) =
        [] ++ (lowerBetween [] a ('Σ' :: b) ++ 'σ' :: lowerBetween ['Σ'] b []) ++ ['a'] := by
      rw [lower_append, hletter, List.reverse_nil, lowerBetween_sigma, hbefore, hsame]
      rfl
    refine ⟨[], ['a'], ?_⟩
    rw [hs, ht]
    exact not_infix_of_ne (by decide) _ _ List.not_mem_nil (by decide)

end Pigeonhole.Text

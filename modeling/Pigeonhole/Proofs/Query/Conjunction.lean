import Pigeonhole.Proofs.Query.Composition
import Pigeonhole.Proofs.Query.Inline

/-!
# Conjunctions in any spelling

Texts that hold no parenthesis and no `AND` of their own (`Whole`) may be joined to a condition by
any spelling of `AND`, with any blanks, and each of them may be put in parentheses before.  Either
way the fragments of the condition are these texts (`fragments_joined`), whichever of the two cuts is
made: the one between parentheses is made as soon as a single joint is written as in `groupMark`, and
then it cuts at the other joints as well.
-/

namespace Pigeonhole.Query

open Text

/-- A text without parentheses, without blanks at its ends and without the word `AND`, where words
are what blanks delimit. -/
structure Whole (s : List Char) : Prop where
  ne_nil : s ≠ []
  ne_parenthesis : ∀ c ∈ s, c ≠ '(' ∧ c ≠ ')'
  first_not_blank : ∀ c ∈ s.head?, isBlank c = false
  last_not_blank : ∀ c ∈ s.getLast?, isBlank c = false
  ne_and : ∀ word ∈ s.splitOnP isBlank, word.map foldLetter ≠ "and".toList

instance (s : List Char) : Decidable (Whole s) :=
  decidable_of_iff
    (s ≠ [] ∧ (∀ c ∈ s, c ≠ '(' ∧ c ≠ ')') ∧ (∀ c ∈ s.head?, isBlank c = false) ∧
      (∀ c ∈ s.getLast?, isBlank c = false) ∧
      ∀ word ∈ s.splitOnP isBlank, word.map foldLetter ≠ "and".toList)
    ⟨fun ⟨hne, hparenthesis, hfirst, hlast, hand⟩ => ⟨hne, hparenthesis, hfirst, hlast, hand⟩,
      fun h => ⟨h.ne_nil, h.ne_parenthesis, h.first_not_blank, h.last_not_blank, h.ne_and⟩⟩

/-- A text in a pair of parentheses. -/
def enclosed (s : List Char) : List Char := '(' :: (s ++ [')'])

/-! ## Words -/

/-- A word between blanks, or between a blank and the end of the text, is one of its words. -/
theorem mem_splitOnP_of_append {before word after : List Char} {b : Char} (hb : isBlank b = true)
    (hword : ∀ c ∈ word, isBlank c = false) (hafter : ∀ c ∈ after.head?, isBlank c = true) :
    word ∈ (before ++ b :: (word ++ after)).splitOnP isBlank := by
  have hself : word.splitOnP isBlank = [word] := List.splitOnP_eq_singleton hword
  rw [List.splitOnP_append_cons _ _ hb, List.mem_append]
  right
  cases after with
  | nil => rw [List.append_nil, hself, List.mem_singleton]
  | cons c after =>
    rw [List.splitOnP_append_cons _ _ (hafter c rfl), hself]
    exact List.mem_cons_self

theorem Joint.isBlank_of_mem_word (j : Joint) : ∀ c ∈ j.word, isBlank c = false := by
  intro c hc
  have hletter : foldLetter c ∈ "and".toList := j.map_word ▸ List.mem_map_of_mem hc
  have checked : ∀ k ∈ "and".toList, k ∈ "acdn".toList := by decide
  exact isBlank_of_foldLetter (checked _ hletter) rfl

/-- A text that ends, or goes on with a blank or a closing parenthesis. -/
def Closes (tail : List Char) : Prop := ∀ c ∈ tail.head?, isBlank c = true ∨ c = ')'

theorem closes_nil : Closes [] := fun c hc => absurd hc (Option.not_mem_none c)

theorem Joint.closes (j : Joint) (s : List Char) : Closes (j.text ++ s) := by
  obtain ⟨b, before, hbefore⟩ := List.exists_cons_of_ne_nil j.before_ne
  intro c hc
  rw [text, hbefore] at hc
  obtain rfl := Option.some.inj hc
  exact .inl (j.before_blank b (hbefore ▸ List.mem_cons_self))

/-- No word `AND` begins inside a text and ends behind it. -/
theorem Joint.not_mem_of_closes (j : Joint) {c : Char} {s : List Char} (h : Closes (c :: s)) :
    c ∉ j.word := by
  intro hc
  rcases h c rfl with hblank | rfl
  · rw [j.isBlank_of_mem_word c hc] at hblank
    cases hblank
  · have hletter : foldLetter ')' ∈ "and".toList := j.map_word ▸ List.mem_map_of_mem hc
    exact absurd hletter (by decide)

namespace Whole

variable {s : List Char}

theorem neat (h : Whole s) : Neat s where
  first_not_blank := h.first_not_blank
  first_ne hc := (h.ne_parenthesis _ (List.mem_of_mem_head? hc)).1 rfl
  last_not_blank := h.last_not_blank

theorem getLast?_ne (h : Whole s) : s.getLast? ≠ some ')' := fun hc =>
  (h.ne_parenthesis _ (List.mem_of_getLast? hc)).2 rfl

/-- The word of a joint does not stand behind a blank of the text, up to its end or to a blank. -/
theorem not_joint (h : Whole s) (j : Joint) {before after : List Char}
    (hafter : ∀ c ∈ after.head?, isBlank c = true) :
    s ≠ before ++ (j.before ++ (j.word ++ after)) := by
  rintro rfl
  have hjoint : j.before = j.before.dropLast ++ [j.before.getLast j.before_ne] :=
    (List.dropLast_append_getLast j.before_ne).symm
  have hb := j.before_blank _ (List.getLast_mem j.before_ne)
  have hmem : j.word ∈ ((before ++ j.before.dropLast) ++
      j.before.getLast j.before_ne :: (j.word ++ after)).splitOnP isBlank :=
    mem_splitOnP_of_append hb j.isBlank_of_mem_word hafter
  refine h.ne_and j.word ?_ j.map_word
  rw [hjoint]
  simpa only [List.append_assoc, List.singleton_append] using hmem

theorem uncut_plainAnd (h : Whole s) {tail : List Char} (htail : Closes tail) :
    Uncut plainAnd s tail := by
  refine uncut_of_forall_suffix fun before c after hs => ?_
  by_contra hcut
  obtain ⟨rest, hrest⟩ := Option.ne_none_iff_exists'.1 hcut
  obtain ⟨j, hj⟩ := exists_joint_of_plainAnd hrest
  have htext : (c :: after) ++ tail = j.before ++ (j.word ++ (j.after ++ rest)) := by
    rw [List.cons_append, hj, Joint.text]
    simp only [List.append_assoc]
  rcases List.append_eq_append_iff.1 htext with ⟨more, hbefore, -⟩ | ⟨more, hmore, hword⟩
  · -- the text would end with a blank of the joint
    obtain ⟨d, hd⟩ : ∃ d, (c :: after).getLast? = some d := ⟨_, List.getLast?_cons⟩
    have hlast : s.getLast? = some d := by
      rw [hs, List.getLast?_append_of_ne_nil _ (List.cons_ne_nil c after), hd]
    have hmem : d ∈ j.before := hbefore ▸ List.mem_append_left more (List.mem_of_getLast? hd)
    have hblank := h.last_not_blank d hlast
    rw [j.before_blank d hmem] at hblank
    cases hblank
  · rw [hmore] at hs
    rcases List.append_eq_append_iff.1 hword with ⟨behind, rfl, hbehind⟩ | ⟨cut, hcut, htail'⟩
    · refine h.not_joint j (fun d hd => ?_) hs
      obtain ⟨e, jafter, hjafter⟩ := List.exists_cons_of_ne_nil j.after_ne
      obtain ⟨behind, rfl⟩ : ∃ t, behind = d :: t := by
        cases behind with
        | nil => cases hd
        | cons d' t => exact ⟨t, by rw [Option.some.inj hd]⟩
      rw [hjafter, List.cons_append, List.cons_append] at hbehind
      rw [← (List.cons.inj hbehind).1]
      exact j.after_blank e (hjafter ▸ List.mem_cons_self)
    · cases cut with
      | nil =>
        have hnot : s ≠ before ++ (j.before ++ (j.word ++ [])) :=
          h.not_joint j fun d hd => absurd hd (Option.not_mem_none d)
        exact hnot (by rw [hs, hcut, List.append_nil, List.append_nil])
      | cons d cut =>
        rw [htail'] at htail
        exact j.not_mem_of_closes htail (hcut ▸ List.mem_append_right more List.mem_cons_self)

/-- A parenthesis in front of a text is removed. -/
theorem unwrap_open (h : Whole s) {opening : List Char}
    (hopening : opening = [] ∨ opening = ['(']) : unwrap (opening ++ s) = s := by
  have hnone : ∀ c ∈ ([] : List Char), isBlank c = true := List.forall_mem_nil _
  have hunwrap := Query.unwrap_open hopening hnone hnone h.neat h.ne_nil h.getLast?_ne
  rwa [List.nil_append, List.append_nil] at hunwrap

theorem unwrap_closed (h : Whole s) {opening : List Char}
    (hopening : opening = [] ∨ opening = ['(']) : unwrap (opening ++ (s ++ [')'])) = s := by
  have hnone : ∀ c ∈ ([] : List Char), isBlank c = true := List.forall_mem_nil _
  have hunwrap := Query.unwrap_closed hopening hnone hnone h.neat h.ne_nil
  rwa [List.nil_append, List.nil_append] at hunwrap

theorem unwrap_enclosed (h : Whole s) : unwrap (enclosed s) = s := by
  have hunwrap : unwrap (['('] ++ (s ++ [')'])) = s := h.unwrap_closed (.inr rfl)
  rwa [List.singleton_append] at hunwrap

theorem uncut_plainAnd_enclosed (h : Whole s) (tail : List Char) :
    Uncut plainAnd (enclosed s) tail := by
  have hclosing : Closes ([')'] ++ tail) := fun c hc => .inr (Option.some.inj hc).symm
  refine ⟨plainAnd_of_not_isBlank (by decide) _, uncut_append.2 ⟨h.uncut_plainAnd hclosing, ?_⟩⟩
  exact uncut_plainAnd_of_not_isBlank (by decide) tail

/-- No cut between parentheses begins inside a text. -/
theorem uncut_groupedAnd (h : Whole s) {opening : List Char}
    (hopening : opening = [] ∨ opening = ['(']) (tail : List Char) :
    Uncut groupedAnd (opening ++ s) tail := by
  have hne : ∀ c ∈ opening ++ s, c ≠ ')' := by
    rw [List.forall_mem_append]
    refine ⟨?_, fun c hc => (h.ne_parenthesis c hc).2⟩
    rcases hopening with rfl | rfl <;> decide
  exact uncut_of_forall (fun c hc rest => groupedAnd_of_ne (hne c hc) rest) tail

end Whole

/-! ## Joined texts -/

section Joined

variable {first : List Char} {more : List (Joint × List Char)}

/-- Texts that begin with no blank are cut at every joint. -/
theorem splitBy_plainAnd_joined
    (huncut : ∀ s ∈ first :: more.map (·.2), ∀ tail, Closes tail → Uncut plainAnd s tail)
    (hhead : ∀ s ∈ more.map (·.2), s ≠ [] ∧ ∀ c ∈ s.head?, isBlank c = false) :
    splitBy plainAnd (joined Joint.text first more) = first :: more.map (·.2) := by
  refine splitBy_joined closes_nil Joint.closes Joint.text_ne_nil huncut fun s hs j tail => ?_
  refine j.plainAnd_append fun c hc => ?_
  rw [List.head?_append_of_ne_nil _ (hhead s hs).1] at hc
  exact (hhead s hs).2 c hc

theorem neat_joined (hne : ∀ s ∈ first :: more.map (·.2), s ≠ [])
    (hneat : ∀ s ∈ first :: more.map (·.2), Neat s) : Neat (joined Joint.text first more) := by
  have hfirst := hneat first List.mem_cons_self
  have hhead : (joined Joint.text first more).head? = first.head? :=
    head?_joined (hne first List.mem_cons_self) more
  obtain ⟨last, hmem, hlast⟩ : ∃ last ∈ first :: more.map (·.2),
      (joined Joint.text first more).getLast? = last.getLast? := getLast?_joined hne
  refine ⟨?_, ?_, ?_⟩
  · rw [hhead]
    exact hfirst.first_not_blank
  · rw [hhead]
    exact hfirst.first_ne
  · rw [hlast]
    exact (hneat last hmem).last_not_blank

/-! ### Without parentheses -/

/-- Bare texts hold no parenthesis, so they are cut at every joint. -/
theorem fragments_bare (h : ∀ s ∈ first :: more.map (·.2), Whole s) :
    fragments (joined Joint.text first more) = first :: more.map (·.2) := by
  have hne : ∀ c ∈ joined Joint.text first more, c ≠ ')' :=
    forall_mem_joined (fun s hs c hc => ((h s hs).ne_parenthesis c hc).2)
      fun j c hc => (j.ne_parenthesis c hc).2
  have hmark : contains groupMark (joined Joint.text first more) = false :=
    contains_groupMark_eq_false (uncut_of_forall (fun c hc s => groupedAnd_of_ne (hne c hc) s) [])
  have hmore : ∀ s ∈ more.map (·.2), Whole s := fun s hs => h s (List.mem_cons_of_mem first hs)
  have hcut : splitBy plainAnd (joined Joint.text first more) = first :: more.map (·.2) :=
    splitBy_plainAnd_joined (fun s hs _ => (h s hs).uncut_plainAnd)
      fun s hs => ⟨(hmore s hs).ne_nil, (hmore s hs).first_not_blank⟩
  have hunwrap : (first :: more.map (·.2)).map unwrap = first :: more.map (·.2) :=
    (List.map_congr_left fun s hs => (h s hs).unwrap_open (.inl rfl)).trans (List.map_id _)
  refine fragments_of_map_unwrap ?_ fun s hs => (h s hs).ne_nil
  have hneat : Neat (joined Joint.text first more) :=
    neat_joined (fun s hs => (h s hs).ne_nil) fun s hs => (h s hs).neat
  rw [conjuncts, hneat.strip_eq, hmark, if_neg Bool.false_ne_true, hcut, hunwrap]

/-! ### With parentheses -/

/-- A joint between two texts in parentheses. -/
def Joint.grouped (j : Joint) : List Char := ')' :: (j.text ++ ['('])

theorem Joint.groupedAnd_append (j : Joint) (rest : List Char) :
    groupedAnd (j.grouped ++ rest) = some rest := by
  have hplain : plainAnd (j.text ++ '(' :: rest) = some ('(' :: rest) := by
    refine j.plainAnd_append fun c hc => ?_
    obtain rfl := Option.some.inj hc
    decide
  rw [grouped, List.cons_append, List.append_assoc, List.singleton_append, groupedAnd, hplain]
  rfl

/-- The parentheses of two texts may be counted to the joint between them. -/
theorem joined_enclosed (first : List Char) (more : List (Joint × List Char)) :
    joined Joint.text (enclosed first) (more.map fun e => (e.1, enclosed e.2)) =
      '(' :: (joined Joint.grouped first more ++ [')']) := by
  induction more generalizing first with
  | nil => rfl
  | cons entry more ih =>
    obtain ⟨j, next⟩ := entry
    rw [List.map_cons, joined, ih, joined, enclosed, Joint.grouped]
    simp only [List.cons_append, List.append_assoc, List.nil_append]

/-- Between parentheses each joint is cut, and each piece loses the parenthesis that it has. -/
theorem map_unwrap_splitBy_groupedAnd (h : ∀ s ∈ first :: more.map (·.2), Whole s)
    {opening : List Char} (hopening : opening = [] ∨ opening = ['(']) :
    (splitBy groupedAnd (opening ++ (joined Joint.grouped first more ++ [')']))).map unwrap =
      first :: more.map (·.2) := by
  induction more generalizing first opening with
  | nil =>
    have hfirst := h first List.mem_cons_self
    have huncut : Uncut groupedAnd (opening ++ (first ++ [')'])) [] := by
      rw [← List.append_assoc, uncut_append]
      exact ⟨hfirst.uncut_groupedAnd hopening _,
        groupedAnd_closing fun c hc => absurd hc (Option.not_mem_none c), trivial⟩
    rw [joined, splitBy_of_uncut huncut, List.map_singleton, hfirst.unwrap_closed hopening,
      List.map_nil]
  | cons entry more ih =>
    obtain ⟨j, next⟩ := entry
    rw [List.map_cons, List.forall_mem_cons] at h
    obtain ⟨hfirst, hmore⟩ := h
    have hcut := splitBy_piece (hfirst.uncut_groupedAnd hopening _)
      (j.groupedAnd_append (joined Joint.grouped next more ++ [')'])) (List.cons_ne_nil _ _)
    have htext : opening ++ (joined Joint.grouped first ((j, next) :: more) ++ [')']) =
        (opening ++ first) ++ (j.grouped ++ (joined Joint.grouped next more ++ [')'])) := by
      simp only [joined, List.append_assoc]
    rw [htext, hcut, List.map_cons, hfirst.unwrap_open hopening, List.map_cons]
    exact congrArg (first :: ·) (ih hmore (.inl rfl))

/-- Texts in parentheses are cut at every joint, whichever of the two cuts is made. -/
theorem fragments_enclosed (h : ∀ s ∈ first :: more.map (·.2), Whole s) :
    fragments (joined Joint.text (enclosed first) (more.map fun e => (e.1, enclosed e.2))) =
      first :: more.map (·.2) := by
  have hstrip : strip ('(' :: (joined Joint.grouped first more ++ [')'])) =
      '(' :: (joined Joint.grouped first more ++ [')']) :=
    strip_cons_concat (by decide) (by decide) _
  refine fragments_of_map_unwrap ?_ fun s hs => (h s hs).ne_nil
  rw [conjuncts, joined_enclosed, hstrip]
  split
  · exact map_unwrap_splitBy_groupedAnd h (.inr rfl)
  · have hpieces : enclosed first :: (more.map fun e => (e.1, enclosed e.2)).map (·.2) =
        (first :: more.map (·.2)).map enclosed := by
      rw [List.map_cons, List.map_map, List.map_map]
      rfl
    have huncut : ∀ s ∈ (first :: more.map (·.2)).map enclosed, ∀ tail, Closes tail →
        Uncut plainAnd s tail :=
      List.forall_mem_map.2 fun s hs tail _ => (h s hs).uncut_plainAnd_enclosed tail
    have hhead : ∀ s ∈ (more.map fun e => (e.1, enclosed e.2)).map (·.2),
        s ≠ [] ∧ ∀ c ∈ s.head?, isBlank c = false := by
      rw [List.map_map, List.forall_mem_map]
      refine fun e _ => ⟨List.cons_ne_nil _ _, fun c hc => ?_⟩
      obtain rfl := Option.some.inj hc
      decide
    rw [← hpieces] at huncut
    rw [← joined_enclosed, splitBy_plainAnd_joined huncut hhead, hpieces, List.map_map]
    have hunwrap : ∀ s ∈ first :: more.map (·.2), (unwrap ∘ enclosed) s = s := fun s hs =>
      (h s hs).unwrap_enclosed
    rw [List.map_congr_left hunwrap]
    exact List.map_id _

/-- Texts that are joined by `AND` in any letter case and with any blanks, a spelling of its own in
each gap, are the fragments of the condition, bare or each in a pair of parentheses. -/
theorem fragments_joined (h : ∀ s ∈ first :: more.map (·.2), Whole s) :
    fragments (joined Joint.text first more) = first :: more.map (·.2) ∧
    fragments (joined Joint.text (enclosed first) (more.map fun e => (e.1, enclosed e.2))) =
      first :: more.map (·.2) :=
  ⟨fragments_bare h, fragments_enclosed h⟩

/-- One joint is the one that is looked for, the other is not, and the letters of `AND` stand in the
texts as well. -/
theorem fragments_joined_mixed :
    let texts := ["c.band = 'ANDY'".toList, "and/or".toList, "x OR y".toList]
    (∀ s ∈ texts, Whole s) ∧
    fragments "c.band = 'ANDY' AND and/or\taNd\n x OR y".toList = texts ∧
    fragments "(c.band = 'ANDY') AND (and/or)\taNd\n (x OR y)".toList = texts := by
  intro texts
  have htexts : ∀ s ∈ texts, Whole s := by decide +kernel
  let other : Joint :=
    ⟨['\t'], "aNd".toList, ['\n', ' '], by decide, by decide, by decide, by decide, rfl⟩
  let more := [(Joint.and, "and/or".toList), (other, "x OR y".toList)]
  have hbare : joined Joint.text "c.band = 'ANDY'".toList more =
      "c.band = 'ANDY' AND and/or\taNd\n x OR y".toList := by decide +kernel
  have henclosed : joined Joint.text (enclosed "c.band = 'ANDY'".toList)
      (more.map fun e => (e.1, enclosed e.2)) =
        "(c.band = 'ANDY') AND (and/or)\taNd\n (x OR y)".toList := by decide +kernel
  obtain ⟨hjoined, hgrouped⟩ := @fragments_joined "c.band = 'ANDY'".toList more htexts
  rw [hbare] at hjoined
  rw [henclosed] at hgrouped
  exact ⟨htexts, hjoined, hgrouped⟩

end Joined

end Pigeonhole.Query

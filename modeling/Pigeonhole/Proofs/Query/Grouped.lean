import Mathlib.Data.List.Basic
import Pigeonhole.Proofs.Query.Statement

/-!
# Clauses in parentheses

How the condition of a builder is cut into fragments.  Two clauses or more are cut between their
parentheses (`conjuncts_groupedText`), so a clause that is a conjunction itself stays whole, while a
single clause is cut at every `AND` (`conjuncts_groupedText_singleton`).  Each piece then loses one
parenthesis at each end, whether that is one of the builder or its own (`unwrap_closed`,
`unwrap_open`).
-/

namespace Pigeonhole.Query

open Text

/-! ## Cutting between parentheses -/

theorem plainAnd_of_not_isBlank {c : Char} (h : isBlank c = false) (s : List Char) :
    plainAnd (c :: s) = none := by
  rw [plainAnd, dropBlanks1_cons_of_not_isBlank h]
  rfl

theorem groupedAnd_of_ne {c : Char} (h : c ≠ ')') (s : List Char) : groupedAnd (c :: s) = none := by
  unfold groupedAnd
  split
  · rename_i heq
    exact absurd (List.cons.inj heq).1 h
  · rfl

theorem uncut_plainAnd_of_not_isBlank {piece : List Char} (h : ∀ c ∈ piece, isBlank c = false)
    (tail : List Char) : Uncut plainAnd piece tail :=
  uncut_of_forall (fun c hc s => plainAnd_of_not_isBlank (h c hc) s) tail

/-- A space before a word that does not begin as `AND` does is no place to cut. -/
theorem uncut_plainAnd_space {word : List Char} (hne : word ≠ [])
    (hfirst : ∀ c ∈ word.head?, foldLetter c ≠ 'a') (hword : ∀ c ∈ word, isBlank c = false)
    (tail : List Char) : Uncut plainAnd (' ' :: word) tail := by
  refine ⟨?_, uncut_plainAnd_of_not_isBlank hword tail⟩
  obtain ⟨c, word, rfl⟩ := List.exists_cons_of_ne_nil hne
  have hkeyword : dropKeyword "and".toList (c :: (word ++ tail)) = none := if_neg (hfirst c rfl)
  rw [List.cons_append, plainAnd, dropBlanks1_cons_of_isBlank (by decide),
    stripLeft_cons_of_not_isBlank (hword c List.mem_cons_self), Option.bind_some, hkeyword]
  rfl

/-- A parenthesis ends a group only if a blank follows. -/
theorem groupedAnd_closing {s : List Char} (h : ∀ c ∈ s.head?, isBlank c = false) :
    groupedAnd (')' :: s) = none := by
  have hplain : plainAnd s = none := by
    cases s with
    | nil => rfl
    | cons c s => exact plainAnd_of_not_isBlank (h c rfl) s
  rw [groupedAnd, hplain]

/-- A text inside which no group ends, unless a blank follows it. -/
def Tight (piece : List Char) : Prop :=
  ∀ tail : List Char, (∀ c ∈ tail.head?, isBlank c = false) → Uncut groupedAnd piece tail

theorem tight_of_forall_ne {piece : List Char} (h : ∀ c ∈ piece, c ≠ ')') : Tight piece :=
  fun tail _ => uncut_of_forall (fun c hc s => groupedAnd_of_ne (h c hc) s) tail

theorem Tight.cons_opening {piece : List Char} (h : Tight piece) : Tight ('(' :: piece) :=
  fun tail htail => ⟨groupedAnd_of_ne (by decide) _, h tail htail⟩

theorem Tight.append_closing {piece : List Char} (h : Tight piece) : Tight (piece ++ [')']) := by
  intro tail htail
  rw [uncut_append]
  refine ⟨h ([')'] ++ tail) ?_, groupedAnd_closing htail, trivial⟩
  intro c hc
  obtain rfl := Option.some.inj hc
  decide

theorem splitBy_joinWith {first : List Char} {rest : List (List Char)}
    (h : ∀ piece ∈ first :: rest, Tight piece) :
    splitBy groupedAnd (joinWith groupMark (first :: rest)) = first :: rest := by
  let mark : Unit → List Char := fun _ => groupMark
  have hrest : (rest.map fun s => ((), s)).map (·.2) = rest := map_snd_marked () rest
  have hpieces : ∀ piece ∈ first :: (rest.map fun s => ((), s)).map (·.2), Tight piece := by
    rwa [hrest]
  have hsplit : splitBy groupedAnd (joined mark first (rest.map fun s => ((), s))) =
      first :: (rest.map fun s => ((), s)).map (·.2) := by
    refine splitBy_joined ?_ ?_ (fun _ => List.cons_ne_nil _ _) hpieces fun _ _ _ _ => rfl
    · exact fun c hc => absurd hc (Option.not_mem_none c)
    · intro _ s c hc
      obtain rfl := Option.some.inj hc
      decide
  rwa [← joinWith_eq_joined mark () first rest, hrest] at hsplit

/-! ## The pieces of a condition -/

theorem joinWith_concat (mark last : List Char) {init : List (List Char)} (hne : init ≠ []) :
    joinWith mark (init ++ [last]) = joinWith mark init ++ mark ++ last := by
  induction init with
  | nil => exact absurd rfl hne
  | cons piece rest ih =>
    cases rest with
    | nil => rfl
    | cons next rest =>
      have hrest := ih (List.cons_ne_nil next rest)
      rw [List.cons_append] at hrest
      rw [List.cons_append, List.cons_append, joinWith, hrest]
      · simp only [joinWith, List.append_assoc]
      · exact List.cons_ne_nil _ _

theorem joinWith_cons_cons (mark : List Char) (c : Char) (piece : List Char)
    (rest : List (List Char)) :
    joinWith mark ((c :: piece) :: rest) = c :: joinWith mark (piece :: rest) := by
  cases rest <;> rfl

theorem strip_groupedText (clauses : List (List Char)) :
    strip (groupedText clauses) = groupedText clauses :=
  strip_cons_concat (by decide) (by decide) _

/-- Two clauses or more are cut between their parentheses; the outermost ones stay. -/
theorem conjuncts_groupedText {first last : List Char} {middle : List (List Char)}
    (hfirst : Tight first) (hmiddle : ∀ piece ∈ middle, Tight piece) (hlast : Tight last) :
    conjuncts (groupedText (first :: (middle ++ [last]))) =
      ('(' :: first) :: (middle ++ [last ++ [')']]) := by
  have hopened : groupedText (first :: (middle ++ [last])) =
      joinWith groupMark (('(' :: first) :: (middle ++ [last ++ [')']])) := by
    have hlasts : ∀ before : List Char,
        joinWith groupMark (before :: (middle ++ [last])) ++ [')'] =
          joinWith groupMark (before :: (middle ++ [last ++ [')']])) := fun before => by
      rw [← List.cons_append, ← List.cons_append, joinWith_concat _ _ (List.cons_ne_nil _ _),
        joinWith_concat _ _ (List.cons_ne_nil _ _), List.append_assoc]
    rw [groupedText, hlasts, joinWith_cons_cons]
  have hmark : contains groupMark (groupedText (first :: (middle ++ [last]))) = true := by
    rw [hopened, ← List.cons_append, joinWith_concat _ _ (List.cons_ne_nil _ _), List.append_assoc]
    exact contains_append groupMark _ _
  rw [conjuncts, strip_groupedText, if_pos hmark, hopened]
  refine splitBy_joinWith fun piece hpiece => ?_
  rcases List.mem_cons.1 hpiece with rfl | hpiece
  · exact hfirst.cons_opening
  · rcases List.mem_append.1 hpiece with hpiece | hpiece
    · exact hmiddle piece hpiece
    · rw [List.mem_singleton.1 hpiece]
      exact hlast.append_closing

theorem contains_groupMark_eq_false {s : List Char} (h : Uncut groupedAnd s []) :
    contains groupMark s = false := by
  have hbegins : ∀ rest, groupedAnd (groupMark ++ rest) ≠ none := fun rest => Option.some_ne_none rest
  exact contains_eq_false (List.cons_ne_nil _ _) hbegins h

/-- A single clause is cut at every `AND`. -/
theorem conjuncts_groupedText_singleton {clause : List Char} (h : Tight clause) :
    conjuncts (groupedText [clause]) = splitBy plainAnd (groupedText [clause]) := by
  have huncut : Uncut groupedAnd (groupedText [clause]) [] :=
    h.append_closing.cons_opening [] fun c hc => absurd hc (Option.not_mem_none c)
  rw [conjuncts, strip_groupedText, contains_groupMark_eq_false huncut]
  rfl

/-! ## One pair of parentheses -/

/-- A text that neither begins nor ends with a blank and does not begin with a parenthesis. -/
structure Neat (core : List Char) : Prop where
  first_not_blank : ∀ c ∈ core.head?, isBlank c = false
  first_ne : core.head? ≠ some '('
  last_not_blank : ∀ c ∈ core.getLast?, isBlank c = false

theorem Neat.strip_eq {core : List Char} (h : Neat core) : strip core = core := by
  rw [strip, stripLeft_eq_self h.first_not_blank, stripRight_eq_self h.last_not_blank]

theorem Neat.append_closing {core : List Char} (h : Neat core) (hne : core ≠ [])
    (after : List Char) : Neat (core ++ (after ++ [')'])) := by
  refine ⟨?_, ?_, ?_⟩
  · rw [List.head?_append_of_ne_nil _ hne]
    exact h.first_not_blank
  · rw [List.head?_append_of_ne_nil _ hne]
    exact h.first_ne
  · intro c hc
    rw [← List.append_assoc, List.getLast?_concat] at hc
    obtain rfl := Option.some.inj hc
    decide

theorem dropOpening_of_ne {s : List Char} (h : s.head? ≠ some '(') : dropOpening s = s := by
  unfold dropOpening
  split
  · exact absurd rfl h
  · rfl

theorem dropClosing_of_ne {s : List Char} (h : s.getLast? ≠ some ')') : dropClosing s = s := if_neg h

theorem dropClosing_concat (s : List Char) : dropClosing (s ++ [')']) = s := by
  rw [dropClosing, if_pos List.getLast?_concat, List.dropLast_concat]

section Unwrap

variable {opening before core after : List Char}

/-- The blanks behind a piece are removed, and those in front of it unless a parenthesis stands
there; then one such parenthesis is removed. -/
theorem dropOpening_strip (hopening : opening = [] ∨ opening = ['('])
    (hbefore : ∀ c ∈ before, isBlank c = true) (hafter : ∀ c ∈ after, isBlank c = true)
    (hcore : Neat core) (hne : core ≠ []) :
    ∃ blanks : List Char, (∀ c ∈ blanks, isBlank c = true) ∧
      dropOpening (strip (opening ++ (before ++ (core ++ after)))) = blanks ++ core := by
  rcases hopening with rfl | rfl
  · refine ⟨[], List.forall_mem_nil _, ?_⟩
    rw [List.nil_append, strip_append hbefore hafter hcore.first_not_blank hcore.last_not_blank,
      dropOpening_of_ne hcore.first_ne, List.nil_append]
  · refine ⟨before, hbefore, ?_⟩
    have hstrip : strip ([] ++ ('(' :: (before ++ core) ++ after)) = '(' :: (before ++ core) := by
      refine strip_append (List.forall_mem_nil _) hafter ?_ ?_
      · intro c hc
        obtain rfl := Option.some.inj hc
        decide
      · intro c hc
        rw [← List.cons_append, List.getLast?_append_of_ne_nil _ hne] at hc
        exact hcore.last_not_blank c hc
    rw [List.nil_append, List.cons_append, List.append_assoc] at hstrip
    rw [List.singleton_append, hstrip]
    rfl

/-- A piece without a parenthesis at its end. -/
theorem unwrap_open (hopening : opening = [] ∨ opening = ['('])
    (hbefore : ∀ c ∈ before, isBlank c = true) (hafter : ∀ c ∈ after, isBlank c = true)
    (hcore : Neat core) (hne : core ≠ []) (hlast : core.getLast? ≠ some ')') :
    unwrap (opening ++ (before ++ (core ++ after))) = core := by
  obtain ⟨blanks, hblanks, hopen⟩ := dropOpening_strip hopening hbefore hafter hcore hne
  have hend : (blanks ++ core).getLast? ≠ some ')' := by
    rwa [List.getLast?_append_of_ne_nil _ hne]
  have hstrip := strip_append hblanks (List.forall_mem_nil _) hcore.first_not_blank
    hcore.last_not_blank
  rw [List.append_nil] at hstrip
  rw [unwrap, hopen, dropClosing_of_ne hend, hstrip]

/-- A piece with a parenthesis at its end loses it, also one of its own. -/
theorem unwrap_closed (hopening : opening = [] ∨ opening = ['('])
    (hbefore : ∀ c ∈ before, isBlank c = true) (hafter : ∀ c ∈ after, isBlank c = true)
    (hcore : Neat core) (hne : core ≠ []) :
    unwrap (opening ++ (before ++ (core ++ (after ++ [')'])))) = core := by
  have hcloses : core ++ (after ++ [')']) ≠ [] := List.append_ne_nil_of_left_ne_nil hne _
  obtain ⟨blanks, hblanks, hopen⟩ :=
    dropOpening_strip hopening hbefore (List.forall_mem_nil _) (hcore.append_closing hne after) hcloses
  rw [List.append_nil] at hopen
  have hpiece : blanks ++ (core ++ (after ++ [')'])) = (blanks ++ (core ++ after)) ++ [')'] := by
    simp only [List.append_assoc]
  rw [unwrap, hopen, hpiece, dropClosing_concat,
    strip_append hblanks hafter hcore.first_not_blank hcore.last_not_blank]

end Unwrap

/-! ## Several clauses -/

/-- Pieces of which something is left are the fragments. -/
theorem fragments_of_map_unwrap {clause : List Char} {cores : List (List Char)}
    (hcores : (conjuncts clause).map unwrap = cores) (hfilled : ∀ core ∈ cores, core ≠ []) :
    fragments clause = cores := by
  rw [fragments, hcores, List.filter_eq_self]
  intro core hcore
  rw [Bool.not_eq_true', List.isEmpty_eq_false_iff]
  exact hfilled core hcore

/-- Of two clauses or more each becomes one fragment; only the last one has its closing parenthesis
still. -/
theorem map_unwrap_groupedText {σ : Type} {text core : σ → List Char} {first last : σ}
    {middle : List σ} {closed : List Char}
    (htight : ∀ x ∈ first :: (middle ++ [last]), Tight (text x))
    (hopened : ∀ x ∈ first :: middle, ∀ opening, opening = [] ∨ opening = ['('] →
      unwrap (opening ++ text x) = core x)
    (hclosed : unwrap (text last ++ [')']) = closed) :
    (conjuncts (groupedText ((first :: (middle ++ [last])).map text))).map unwrap =
      (first :: middle).map core ++ [closed] := by
  rw [List.forall_mem_cons, List.forall_mem_append, List.forall_mem_singleton] at htight
  obtain ⟨hfirst, hmiddle, hlast⟩ := htight
  have hpieces : ∀ piece ∈ middle.map text, Tight piece := List.forall_mem_map.2 hmiddle
  have hunwrap : unwrap ('(' :: text first) = core first :=
    hopened first List.mem_cons_self ['('] (.inr rfl)
  have hunwraps : (middle.map text).map unwrap = middle.map core := by
    rw [List.map_map]
    exact List.map_congr_left fun x hx => hopened x (List.mem_cons_of_mem _ hx) [] (.inl rfl)
  rw [List.map_cons, List.map_append, List.map_singleton, conjuncts_groupedText hfirst hpieces hlast,
    List.map_cons, List.map_append, List.map_singleton, hunwrap, hunwraps, hclosed, List.map_cons,
    List.cons_append]

end Pigeonhole.Query

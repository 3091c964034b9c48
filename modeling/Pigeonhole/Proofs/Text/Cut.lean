import Mathlib.Data.List.Basic
import Mathlib.Data.List.Infix
import Mathlib.Data.List.TakeWhile
import Pigeonhole.Proofs.Text.Class
import Pigeonhole.Text.Split

/-!
# Cutting and trimming texts

`Uncut separator piece tail` says that no separator begins inside `piece` when `tail` follows it.
It goes along the characters of the piece (`uncut_append`), so that a piece is checked part by part,
and it is what `splitBy` needs to return the piece whole (`splitBy_append`).  So pieces with
separators between them, each separator written in its own way, are cut exactly there
(`splitBy_joined`).  Besides there are the laws of `contains` and of `strip` on joined texts.
-/

namespace Pigeonhole.Text

/-! ## Pieces -/

/-- No separator begins inside a piece that a text follows. -/
def Uncut (separator : List Char → Option (List Char)) : List Char → List Char → Prop
  | [], _ => True
  | c :: piece, tail => separator (c :: (piece ++ tail)) = none ∧ Uncut separator piece tail

instance decidableUncut (separator : List Char → Option (List Char)) :
    (piece tail : List Char) → Decidable (Uncut separator piece tail)
  | [], _ => .isTrue trivial
  | _ :: piece, tail =>
    have := decidableUncut separator piece tail
    inferInstanceAs (Decidable (_ ∧ _))

section Pieces

variable {separator : List Char → Option (List Char)}

theorem uncut_append {a b tail : List Char} :
    Uncut separator (a ++ b) tail ↔ Uncut separator a (b ++ tail) ∧ Uncut separator b tail := by
  induction a with
  | nil => simp only [List.nil_append, Uncut, true_and]
  | cons c a ih => simp only [List.cons_append, Uncut, ih, List.append_assoc, and_assoc]

/-- Characters that begin no separator are no place for one. -/
theorem uncut_of_forall {piece : List Char}
    (h : ∀ c ∈ piece, ∀ s, separator (c :: s) = none) (tail : List Char) :
    Uncut separator piece tail := by
  induction piece with
  | nil => trivial
  | cons c piece ih =>
    exact ⟨h c List.mem_cons_self _, ih fun d hd => h d (List.mem_cons_of_mem c hd)⟩

theorem splitBy_cons_of_none {c : Char} {s : List Char} (h : separator (c :: s) = none) :
    splitBy separator (c :: s) = consHead c (splitBy separator s) := by
  rw [splitBy, h]

theorem splitBy_append {piece tail first : List Char} {rest : List (List Char)}
    (h : Uncut separator piece tail) (htail : splitBy separator tail = first :: rest) :
    splitBy separator (piece ++ tail) = (piece ++ first) :: rest := by
  induction piece with
  | nil => exact htail
  | cons c piece ih => rw [List.cons_append, splitBy_cons_of_none h.1, ih h.2]; rfl

theorem splitBy_of_uncut {piece : List Char} (h : Uncut separator piece []) :
    splitBy separator piece = [piece] := by
  have hnil : splitBy separator [] = [[]] := by rw [splitBy]
  have hsplit := splitBy_append h hnil
  rwa [List.append_nil] at hsplit

/-- A piece is cut off at the separator after it. -/
theorem splitBy_piece {piece joint rest : List Char} (h : Uncut separator piece (joint ++ rest))
    (hjoint : separator (joint ++ rest) = some rest) (hne : joint ≠ []) :
    splitBy separator (piece ++ (joint ++ rest)) = piece :: splitBy separator rest := by
  obtain ⟨c, joint, rfl⟩ := List.exists_cons_of_ne_nil hne
  have hlength : rest.length < (c :: joint ++ rest).length := by
    rw [List.length_append, List.length_cons]
    omega
  have hcut : splitBy separator (c :: joint ++ rest) = [] :: splitBy separator rest := by
    rw [List.cons_append] at hjoint hlength ⊢
    rw [splitBy, hjoint]
    exact if_pos hlength
  rw [splitBy_append h hcut, List.append_nil]

/-- A piece that is not whole has a first place where a separator begins. -/
theorem exists_cut {piece tail : List Char} (h : ¬ Uncut separator piece tail) :
    ∃ before after rest, piece = before ++ after ∧ Uncut separator before (after ++ tail) ∧
      separator (after ++ tail) = some rest := by
  induction piece with
  | nil => exact absurd trivial h
  | cons c piece ih =>
    cases hc : separator (c :: (piece ++ tail)) with
    | some rest => exact ⟨[], c :: piece, rest, rfl, trivial, hc⟩
    | none =>
      have hpiece : ¬ Uncut separator piece tail := fun huncut => h ⟨hc, huncut⟩
      obtain ⟨before, after, rest, rfl, huncut, hrest⟩ := ih hpiece
      rw [List.append_assoc] at hc
      exact ⟨c :: before, after, rest, rfl, ⟨hc, huncut⟩, hrest⟩

/-- What stands in front of the first separator is the first piece. -/
theorem exists_splitBy {piece after rest : List Char} (h : Uncut separator piece after)
    (hafter : separator after = some rest) (hlength : rest.length < after.length) :
    ∃ more, splitBy separator (piece ++ after) = piece :: more := by
  have hcut : splitBy separator after = [] :: splitBy separator rest := by
    cases after with
    | nil => exact absurd hlength (Nat.not_lt_zero _)
    | cons c after =>
      rw [splitBy, hafter]
      exact if_pos hlength
  rw [splitBy_append h hcut, List.append_nil]
  exact ⟨_, rfl⟩

/-- A piece is whole if no separator begins at any of its characters. -/
theorem uncut_of_forall_suffix {piece tail : List Char}
    (h : ∀ before c after, piece = before ++ c :: after → separator (c :: (after ++ tail)) = none) :
    Uncut separator piece tail := by
  induction piece with
  | nil => trivial
  | cons c piece ih =>
    exact ⟨h [] c piece rfl, ih fun before d after heq => h (c :: before) d after (by rw [heq]; rfl)⟩

end Pieces

/-! ## Joined pieces -/

section Joined

variable {σ : Type} {write : σ → List Char}

/-- Pieces with a separator in front of each but the first. -/
def joined (write : σ → List Char) (first : List Char) : List (σ × List Char) → List Char
  | [] => first
  | (mark, next) :: rest => first ++ (write mark ++ joined write next rest)

/-- Pieces with one separator between them. -/
theorem joinWith_eq_joined (write : σ → List Char) (mark : σ) (first : List Char)
    (rest : List (List Char)) :
    joinWith (write mark) (first :: rest) = joined write first (rest.map fun s => (mark, s)) := by
  induction rest generalizing first with
  | nil => rfl
  | cons next rest ih =>
    rw [joinWith, ih, List.map_cons, joined, List.append_assoc]
    exact List.cons_ne_nil next rest

theorem map_snd_marked (mark : σ) (pieces : List (List Char)) :
    (pieces.map fun s => (mark, s)).map (·.2) = pieces := by
  rw [List.map_map]
  exact List.map_id _

/-- Pieces are told apart by separators of any kind if none begins inside a piece and each is read up
to the next piece. -/
theorem splitBy_joined {separator : List Char → Option (List Char)} {follows : List Char → Prop}
    (hend : follows []) (hfollows : ∀ mark s, follows (write mark ++ s))
    (hne : ∀ mark, write mark ≠ []) {first : List Char} {rest : List (σ × List Char)}
    (hpieces : ∀ piece ∈ first :: rest.map (·.2), ∀ tail, follows tail → Uncut separator piece tail)
    (hcut : ∀ piece ∈ rest.map (·.2), ∀ mark tail,
      separator (write mark ++ (piece ++ tail)) = some (piece ++ tail)) :
    splitBy separator (joined write first rest) = first :: rest.map (·.2) := by
  induction rest generalizing first with
  | nil => exact splitBy_of_uncut (hpieces first List.mem_cons_self [] hend)
  | cons entry rest ih =>
    obtain ⟨mark, next⟩ := entry
    rw [List.map_cons, List.forall_mem_cons] at hpieces hcut
    have hrest := ih hpieces.2 hcut.2
    have htail : ∃ tail, joined write next rest = next ++ tail := by
      cases rest with
      | nil => exact ⟨[], (List.append_nil next).symm⟩
      | cons entry rest => exact ⟨_, rfl⟩
    obtain ⟨tail, htail⟩ := htail
    have hmark : separator (write mark ++ joined write next rest) = some (joined write next rest) := by
      rw [htail]
      exact hcut.1 mark tail
    rw [joined, splitBy_piece (hpieces.1 _ (hfollows mark _)) hmark (hne mark), hrest, List.map_cons]

theorem forall_mem_joined {p : Char → Prop} {first : List Char} {rest : List (σ × List Char)}
    (hpieces : ∀ piece ∈ first :: rest.map (·.2), ∀ c ∈ piece, p c)
    (hmarks : ∀ mark, ∀ c ∈ write mark, p c) : ∀ c ∈ joined write first rest, p c := by
  induction rest generalizing first with
  | nil => exact hpieces first List.mem_cons_self
  | cons entry rest ih =>
    rw [List.map_cons, List.forall_mem_cons] at hpieces
    rw [joined, List.forall_mem_append, List.forall_mem_append]
    exact ⟨hpieces.1, hmarks entry.1, ih hpieces.2⟩

theorem head?_joined {first : List Char} (hne : first ≠ []) (rest : List (σ × List Char)) :
    (joined write first rest).head? = first.head? := by
  cases rest with
  | nil => rfl
  | cons entry rest => rw [joined, List.head?_append_of_ne_nil _ hne]

/-- Joined pieces end as the last of them does. -/
theorem getLast?_joined {first : List Char} {rest : List (σ × List Char)}
    (hne : ∀ piece ∈ first :: rest.map (·.2), piece ≠ []) :
    ∃ last ∈ first :: rest.map (·.2), (joined write first rest).getLast? = last.getLast? := by
  induction rest generalizing first with
  | nil => exact ⟨first, List.mem_cons_self, rfl⟩
  | cons entry rest ih =>
    rw [List.map_cons, List.forall_mem_cons] at hne
    obtain ⟨last, hmem, hlast⟩ := ih hne.2
    refine ⟨last, List.mem_cons_of_mem first hmem, ?_⟩
    have hfilled : joined write entry.2 rest ≠ [] := by
      intro hnil
      rw [hnil, List.getLast?_nil, eq_comm, List.getLast?_eq_none_iff] at hlast
      exact hne.2 last hmem hlast
    rw [joined, ← List.append_assoc, List.getLast?_append_of_ne_nil _ hfilled, hlast]

end Joined

/-! ## Parts -/

theorem contains_iff {part s : List Char} : contains part s = true ↔ part <:+: s := by
  induction s with
  | nil => rw [contains, List.isEmpty_iff, List.infix_nil]
  | cons c s ih =>
    rw [contains, Bool.or_eq_true, List.isPrefixOf_iff_prefix, ih, List.infix_cons_iff]

theorem contains_append (part before rest : List Char) :
    contains part (before ++ (part ++ rest)) = true :=
  contains_iff.2 ⟨before, rest, List.append_assoc before part rest⟩

/-- A part with which a separator begins is not in an uncut text. -/
theorem contains_eq_false {part s : List Char} {separator : List Char → Option (List Char)}
    (hpart : part ≠ []) (hbegins : ∀ rest, separator (part ++ rest) ≠ none)
    (h : Uncut separator s []) : contains part s = false := by
  induction s with
  | nil =>
    rw [contains, List.isEmpty_eq_false_iff]
    exact hpart
  | cons c s ih =>
    have hnot : part.isPrefixOf (c :: s) = false := by
      rw [Bool.eq_false_iff, Ne, List.isPrefixOf_iff_prefix]
      rintro ⟨rest, hrest⟩
      refine hbegins rest ?_
      rw [hrest]
      simpa only [List.append_nil] using h.1
    rw [contains, hnot, ih h.2, Bool.or_false]

/-! ## Ends -/

theorem stripRight_append_of_isBlank (s : List Char) {blanks : List Char}
    (h : ∀ c ∈ blanks, isBlank c = true) : stripRight (s ++ blanks) = stripRight s := by
  have hreverse : ∀ c ∈ blanks.reverse, isBlank c = true := fun c hc => h c (List.mem_reverse.1 hc)
  rw [stripRight, List.reverse_append, List.dropWhile_append_of_pos hreverse, stripRight]

/-- What is dropped from the beginning of a text leaves the other characters. -/
theorem mem_dropWhile {p : Char → Bool} {c : Char} (hc : p c = false) {s : List Char} (h : c ∈ s) :
    c ∈ s.dropWhile p := by
  rw [← List.takeWhile_append_dropWhile (p := p) (l := s), List.mem_append] at h
  refine h.resolve_left fun htake => ?_
  rw [List.mem_takeWhile_imp htake] at hc
  cases hc

theorem mem_stripLeft {c : Char} (hc : isBlank c = false) {s : List Char} (h : c ∈ s) :
    c ∈ stripLeft s := mem_dropWhile hc h

theorem mem_stripRight {c : Char} (hc : isBlank c = false) {s : List Char} (h : c ∈ s) :
    c ∈ stripRight s :=
  List.mem_reverse.2 (mem_stripLeft hc (List.mem_reverse.2 h))

/-- The blanks at the end of a text that is not blank do not go on before it. -/
theorem stripRight_append {c : Char} (hc : isBlank c = false) {s : List Char} (h : c ∈ s)
    (before : List Char) : stripRight (before ++ s) = before ++ stripRight s := by
  have hne : stripLeft s.reverse ≠ [] :=
    List.ne_nil_of_mem (mem_stripLeft hc (List.mem_reverse.2 h))
  have hempty : (s.reverse.dropWhile isBlank).isEmpty = false := List.isEmpty_eq_false_iff.2 hne
  simp only [stripRight, List.reverse_append, List.dropWhile_append, hempty, Bool.false_eq_true,
    if_false, List.reverse_reverse]

theorem stripRight_eq_self {s : List Char} (h : ∀ c ∈ s.getLast?, isBlank c = false) :
    stripRight s = s := by
  rw [stripRight, List.reverse_eq_iff]
  rw [← List.head?_reverse] at h
  cases hs : s.reverse with
  | nil => rfl
  | cons c rest =>
    rw [hs, List.head?_cons] at h
    exact List.dropWhile_cons_of_neg (by rw [h c rfl]; exact Bool.false_ne_true)

/-- Blanks around a text that neither begins nor ends with one are what `strip` removes. -/
theorem strip_append {before s after : List Char} (hbefore : ∀ c ∈ before, isBlank c = true)
    (hafter : ∀ c ∈ after, isBlank c = true) (hfirst : ∀ c ∈ s.head?, isBlank c = false)
    (hlast : ∀ c ∈ s.getLast?, isBlank c = false) : strip (before ++ (s ++ after)) = s := by
  rw [strip, stripLeft_append_of_isBlank hbefore]
  cases s with
  | nil =>
    have hall : stripLeft after = [] := by
      have hdrop := stripLeft_append_of_isBlank hafter []
      rwa [List.append_nil] at hdrop
    rw [List.nil_append, hall]
    rfl
  | cons c s =>
    rw [List.cons_append, stripLeft_cons_of_not_isBlank (hfirst c rfl), ← List.cons_append,
      stripRight_append_of_isBlank _ hafter, stripRight_eq_self hlast]

theorem strip_cons_concat_append {c d : Char} (hc : isBlank c = false) (hd : isBlank d = false)
    (s : List Char) {after : List Char} (hafter : ∀ e ∈ after, isBlank e = true) :
    strip (c :: (s ++ [d]) ++ after) = c :: (s ++ [d]) := by
  rw [← List.nil_append (c :: (s ++ [d]) ++ after)]
  refine strip_append (List.forall_mem_nil _) hafter ?_ ?_
  · intro e he
    obtain rfl := Option.some.inj he
    exact hc
  · intro e he
    rw [← List.cons_append, List.getLast?_concat] at he
    obtain rfl := Option.some.inj he
    exact hd

theorem strip_cons_concat {c d : Char} (hc : isBlank c = false) (hd : isBlank d = false)
    (s : List Char) : strip (c :: (s ++ [d])) = c :: (s ++ [d]) := by
  have hstrip := strip_cons_concat_append hc hd s (List.forall_mem_nil _)
  rwa [List.append_nil] at hstrip

end Pigeonhole.Text

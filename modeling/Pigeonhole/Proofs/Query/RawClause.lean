import Pigeonhole.Proofs.Query.Fragment
import Pigeonhole.Proofs.Query.Grouped
import Pigeonhole.Proofs.Query.Literal

/-!
# Clauses as they are written

A `RawClause` is a clause given as text: comparisons of fields with literals, with the word `AND`
between them, in any letter case and with any blanks.  Its parts carry their own well-formedness.
Parentheses do not occur, and a quoted text holds no quotes and no place to cut.  `map_unwrap_single`
and `map_unwrap_grouped` say what becomes of such clauses in a condition: alone, a clause is cut into
its comparisons; beside others it stays in one piece.
-/

namespace Pigeonhole.Query

open Text

/-- An operand that is written out. -/
inductive Literal where
  | quoted (quote : Char) (body : List Char) (hquote : isQuote quote = true)
      (hbody : ∀ c ∈ body, isQuote c = false ∧ c ≠ '(' ∧ c ≠ ')') (huncut : Uncut plainAnd body [])
  | bare (token : List Char) (hliteral : isBareLiteral token = true)
      (hblank : ∀ c ∈ token, isBlank c = false)

/-- A literal as it is written. -/
def Literal.text : Literal → List Char
  | quoted quote body .. => quote :: (body ++ [quote])
  | bare token .. => token

/-- The comparison of a field with a literal. -/
structure Comparison where
  /-- The letter for the document. -/
  head : Char
  path : List Char
  before : List Char
  relation : Relation
  after : List Char
  literal : Literal
  head_eq : foldLetter head = 'c'
  path_ne : path ≠ []
  path_char : ∀ c ∈ path, isPathChar c = true
  before_blank : ∀ c ∈ before, isBlank c = true
  after_blank : ∀ c ∈ after, isBlank c = true

/-- The word `AND` with the blanks around it. -/
structure Joint where
  before : List Char
  word : List Char
  after : List Char
  before_ne : before ≠ []
  after_ne : after ≠ []
  before_blank : ∀ c ∈ before, isBlank c = true
  after_blank : ∀ c ∈ after, isBlank c = true
  word_eq : dropKeyword "and".toList word = some []

/-- Comparisons with `AND` between them, and blanks around all. -/
structure RawClause where
  left : List Char
  first : Comparison
  more : List (Joint × Comparison)
  right : List Char
  left_blank : ∀ c ∈ left, isBlank c = true
  right_blank : ∀ c ∈ right, isBlank c = true

namespace Comparison

/-- The text in front of the literal. -/
def lead (c : Comparison) : List Char :=
  c.head :: '.' :: (c.path ++ (c.before ++ (c.relation.symbol.toList ++ c.after)))

/-- A comparison as it is written. -/
def text (c : Comparison) : List Char := c.lead ++ c.literal.text

end Comparison

/-- The word as it is written. -/
def Joint.text (j : Joint) : List Char := j.before ++ (j.word ++ j.after)

/-- The text of further comparisons. -/
def moreText : List (Joint × Comparison) → List Char
  | [] => []
  | (j, c) :: more => j.text ++ (c.text ++ moreText more)

namespace RawClause

/-- The comparisons of a clause. -/
def comparisons (k : RawClause) : List Comparison := k.first :: k.more.map (·.2)

/-- A clause without the blanks around it. -/
def core (k : RawClause) : List Char := k.first.text ++ moreText k.more

/-- A clause as it is written. -/
def text (k : RawClause) : List Char := k.left ++ (k.core ++ k.right)

/-- All that follows the sign of the first comparison. -/
def operand (k : RawClause) : List Char := k.first.literal.text ++ moreText k.more

end RawClause

/-! ## Characters of clauses -/

/-- A text that goes on neither with a blank nor as `AND` does. -/
def GoesOn (s : List Char) : Prop := ∀ c ∈ s.head?, isBlank c = false ∧ foldLetter c ≠ 'a'

theorem plainAnd_of_goesOn {c : Char} (hc : isBlank c = true) {blanks tail : List Char}
    (hblanks : ∀ d ∈ blanks, isBlank d = true) (htail : GoesOn tail) :
    plainAnd (c :: (blanks ++ tail)) = none := by
  have hkeyword : dropKeyword "and".toList (stripLeft (blanks ++ tail)) = none := by
    rw [stripLeft_append_of_isBlank hblanks]
    cases tail with
    | nil => rfl
    | cons d tail =>
      rw [stripLeft_cons_of_not_isBlank (htail d rfl).1]
      exact if_neg (htail d rfl).2
  rw [plainAnd, dropBlanks1_cons_of_isBlank hc, Option.bind_some, hkeyword]
  rfl

/-- Blanks are no place to cut if the text goes on otherwise. -/
theorem uncut_blanks {blanks tail : List Char} (hblanks : ∀ c ∈ blanks, isBlank c = true)
    (htail : GoesOn tail) : Uncut plainAnd blanks tail := by
  induction blanks with
  | nil => trivial
  | cons c blanks ih =>
    rw [List.forall_mem_cons] at hblanks
    exact ⟨plainAnd_of_goesOn hblanks.1 hblanks.2 htail, ih hblanks.2⟩

theorem dropKeyword_append {q : Char} {w : List Char} (hq : foldLetter q ∉ w) (s tail : List Char) :
    dropKeyword w (s ++ q :: tail) = (dropKeyword w s).map (· ++ q :: tail) := by
  induction w generalizing s with
  | nil => rfl
  | cons k w ih =>
    rw [List.mem_cons, not_or] at hq
    cases s with
    | nil => exact if_neg hq.1
    | cons c s =>
      rw [List.cons_append, dropKeyword, dropKeyword, ih hq.2]
      split <;> rfl

theorem dropKeyword_append_of_eq_some {w s rest : List Char} (h : dropKeyword w s = some rest)
    (tail : List Char) : dropKeyword w (s ++ tail) = some (rest ++ tail) := by
  induction w generalizing s with
  | nil =>
    obtain rfl := Option.some.inj h
    rfl
  | cons k w ih =>
    cases s with
    | nil => cases h
    | cons c s =>
      rw [dropKeyword] at h
      rw [List.cons_append, dropKeyword]
      split at h
      · rename_i hfold
        rw [if_pos hfold, ih h]
      · cases h

theorem forall_ne_parenthesis_of_isBlank {blanks : List Char}
    (h : ∀ c ∈ blanks, isBlank c = true) : ∀ c ∈ blanks, c ≠ '(' ∧ c ≠ ')' := by
  intro c hc
  constructor <;> rintro rfl <;> exact absurd (h _ hc) (by decide)

theorem stripLeft_append_cons {q : Char} (hblank : isBlank q = false) (s tail : List Char) :
    stripLeft (s ++ q :: tail) = stripLeft s ++ q :: tail := by
  rw [stripLeft, List.dropWhile_append]
  split
  · rename_i hempty
    rw [List.isEmpty_iff] at hempty
    rw [stripLeft, hempty, List.nil_append]
    exact stripLeft_cons_of_not_isBlank hblank tail
  · rfl

/-- What stands behind a quote does not matter to a cut before it. -/
theorem plainAnd_append_quote {q : Char} (hblank : isBlank q = false)
    (hq : foldLetter q ∉ "and".toList) {c : Char} {s : List Char} (h : plainAnd (c :: s) = none)
    (tail : List Char) : plainAnd (c :: (s ++ q :: tail)) = none := by
  by_cases hc : isBlank c = true
  · rw [plainAnd, dropBlanks1_cons_of_isBlank hc, Option.bind_some] at h ⊢
    rw [stripLeft_append_cons hblank, dropKeyword_append hq]
    cases hkeyword : dropKeyword "and".toList (stripLeft s) with
    | none => rfl
    | some rest =>
      rw [hkeyword, Option.bind_some] at h
      rw [Option.map_some, Option.bind_some]
      cases rest with
      | nil => exact dropBlanks1_cons_of_not_isBlank hblank tail
      | cons d rest =>
        by_cases hd : isBlank d = true
        · rw [dropBlanks1_cons_of_isBlank hd] at h
          cases h
        · exact dropBlanks1_cons_of_not_isBlank (Bool.eq_false_iff.2 hd) _
  · exact plainAnd_of_not_isBlank (Bool.eq_false_iff.2 hc) _

theorem uncut_append_quote {q : Char} (hquote : isQuote q = true) {body : List Char}
    (h : Uncut plainAnd body []) (tail : List Char) : Uncut plainAnd body (q :: tail) := by
  have hblank := isBlank_of_isQuote hquote
  have hletter : foldLetter q ∉ "and".toList := by
    rcases isQuote_iff.1 hquote with rfl | rfl <;> decide
  induction body with
  | nil => trivial
  | cons c body ih =>
    obtain ⟨hc, hbody⟩ := h
    rw [List.append_nil] at hc
    exact ⟨plainAnd_append_quote hblank hletter hc tail, ih hbody⟩

namespace Literal

variable (l : Literal)

theorem text_ne_nil : l.text ≠ [] := by
  cases l with
  | quoted => exact List.cons_ne_nil _ _
  | bare token hliteral =>
    rintro rfl
    cases hliteral

/-- A literal begins neither with a blank, nor with an equals sign, nor as `AND` does. -/
theorem head?_text : ∀ c ∈ l.text.head?, isBlank c = false ∧ c ≠ '=' ∧ foldLetter c ≠ 'a' := by
  intro c hc
  cases l with
  | quoted quote body hquote =>
    obtain rfl := Option.some.inj hc
    rcases isQuote_iff.1 hquote with rfl | rfl <;> decide
  | bare token hliteral hblank =>
    have htoken := isBareToken_of_isBareLiteral hliteral hblank
    have hmem := List.mem_of_mem_head? hc
    exact ⟨hblank c hmem, ne_of_isBareChar (htoken.chars c hmem) (by decide),
      foldLetter_ne_of_isBareStart (htoken.start c hc)⟩

/-- A literal does not end with a blank. -/
theorem getLast?_text : ∀ c ∈ l.text.getLast?, isBlank c = false := by
  intro c hc
  cases l with
  | quoted quote body hquote =>
    rw [text, ← List.cons_append, List.getLast?_concat] at hc
    obtain rfl := Option.some.inj hc
    exact isBlank_of_isQuote hquote
  | bare token hliteral hblank => exact hblank c (List.mem_of_getLast? hc)

theorem ne_parenthesis : ∀ c ∈ l.text, c ≠ '(' ∧ c ≠ ')' := by
  cases l with
  | quoted quote body hquote hbody =>
    have hends : quote ≠ '(' ∧ quote ≠ ')' := by
      rcases isQuote_iff.1 hquote with rfl | rfl <;> decide
    simp only [text, List.forall_mem_cons, List.forall_mem_append]
    exact ⟨hends, fun c hc => (hbody c hc).2, hends, List.forall_mem_nil _⟩
  | bare token hliteral hblank =>
    intro c hc
    have hbare := (isBareToken_of_isBareLiteral hliteral hblank).chars c hc
    exact ⟨ne_of_isBareChar hbare (by decide), ne_of_isBareChar hbare (by decide)⟩

/-- No cut begins inside a literal. -/
theorem uncut_text (tail : List Char) : Uncut plainAnd l.text tail := by
  cases l with
  | quoted quote body hquote hbody huncut =>
    have hblank := isBlank_of_isQuote hquote
    refine ⟨plainAnd_of_not_isBlank hblank _, uncut_append.2 ⟨?_, ?_⟩⟩
    · exact uncut_append_quote hquote huncut tail
    · exact ⟨plainAnd_of_not_isBlank hblank _, trivial⟩
  | bare token hliteral hblank => exact uncut_plainAnd_of_not_isBlank hblank tail

end Literal

/-- A letter of a keyword is no blank, however it is written. -/
theorem isBlank_of_foldLetter {c k : Char} (hk : k ∈ "acdn".toList) (h : foldLetter c = k) :
    isBlank c = false := by
  have checked : ∀ k ∈ "acdn".toList, isBlank k = false := by decide
  rw [Bool.eq_false_iff]
  intro hblank
  rw [foldLetter_of_isBlank hblank] at h
  rw [h, checked k hk] at hblank
  cases hblank

namespace Comparison

variable (c : Comparison)

theorem text_eq : c.text = [c.head, '.'] ++ (c.path ++ (c.before ++
    (c.relation.symbol.toList ++ (c.after ++ c.literal.text)))) := by
  simp only [text, lead, List.cons_append, List.append_assoc, List.nil_append]

theorem text_ne_nil : c.text ≠ [] := List.cons_ne_nil _ _

theorem goesOn_text (tail : List Char) : GoesOn (c.text ++ tail) := by
  intro d hd
  obtain rfl := Option.some.inj hd
  refine ⟨isBlank_of_foldLetter (by decide) c.head_eq, ?_⟩
  rw [c.head_eq]
  decide

theorem ne_parenthesis : ∀ d ∈ c.text, d ≠ '(' ∧ d ≠ ')' := by
  have hhead : c.head ≠ '(' ∧ c.head ≠ ')' := by
    constructor <;> intro h <;> have heq := c.head_eq <;> rw [h] at heq <;>
      exact absurd heq (by decide)
  have hpath : ∀ d ∈ c.path, d ≠ '(' ∧ d ≠ ')' := fun d hd =>
    ⟨ne_of_isPathChar (c.path_char d hd) (by decide),
      ne_of_isPathChar (c.path_char d hd) (by decide)⟩
  have hsymbol : ∀ d ∈ c.relation.symbol.toList, d ≠ '(' ∧ d ≠ ')' := by
    cases c.relation <;> decide
  rw [text_eq]
  simp only [List.forall_mem_append, List.forall_mem_cons]
  exact ⟨⟨hhead, by decide, List.forall_mem_nil _⟩, hpath,
    forall_ne_parenthesis_of_isBlank c.before_blank, hsymbol,
    forall_ne_parenthesis_of_isBlank c.after_blank, c.literal.ne_parenthesis⟩

theorem getLast?_text : ∀ d ∈ c.text.getLast?, isBlank d = false := by
  rw [text, List.getLast?_append_of_ne_nil _ c.literal.text_ne_nil]
  exact c.literal.getLast?_text

/-- No cut begins inside a comparison. -/
theorem uncut_text (tail : List Char) : Uncut plainAnd c.text tail := by
  have hhead : ∀ d ∈ [c.head, '.'], isBlank d = false := by
    rw [List.forall_mem_cons]
    exact ⟨isBlank_of_foldLetter (by decide) c.head_eq, by decide⟩
  have hsymbol : ∀ d ∈ c.relation.symbol.toList, isBlank d = false := by
    cases c.relation <;> decide
  have hbefore : ∀ s, GoesOn (c.relation.symbol.toList ++ s) := by
    intro s
    cases c.relation <;> intro d hd <;> obtain rfl := Option.some.inj hd <;> decide
  have hafter : ∀ s, GoesOn (c.literal.text ++ s) := by
    intro s d hd
    rw [List.head?_append_of_ne_nil _ c.literal.text_ne_nil] at hd
    obtain ⟨hblank, -, hletter⟩ := c.literal.head?_text d hd
    exact ⟨hblank, hletter⟩
  rw [text_eq, uncut_append, uncut_append, uncut_append, uncut_append, uncut_append]
  refine ⟨uncut_plainAnd_of_not_isBlank hhead _, uncut_plainAnd_of_not_isBlank ?_ _,
    uncut_blanks c.before_blank ?_, uncut_plainAnd_of_not_isBlank hsymbol _,
    uncut_blanks c.after_blank (hafter tail), c.literal.uncut_text tail⟩
  · exact fun d hd => isBlank_of_isPathChar (c.path_char d hd)
  · rw [List.append_assoc]
    exact hbefore _

end Comparison

/-! ## Cutting between comparisons -/

namespace Joint

variable (j : Joint)

theorem text_ne_nil : j.text ≠ [] := List.append_ne_nil_of_left_ne_nil j.before_ne _

theorem map_word : j.word.map foldLetter = "and".toList := by
  obtain ⟨token, hword, htoken⟩ := exists_append_of_dropKeyword j.word_eq
  rw [List.append_nil] at hword
  rw [hword, htoken]

theorem word_ne_nil : j.word ≠ [] := by
  intro h
  have hmap := j.map_word
  rw [h] at hmap
  cases hmap

theorem ne_parenthesis : ∀ d ∈ j.text, d ≠ '(' ∧ d ≠ ')' := by
  have hword : ∀ d ∈ j.word, d ≠ '(' ∧ d ≠ ')' := by
    intro d hd
    have hfold : foldLetter d ∈ "and".toList := j.map_word ▸ List.mem_map_of_mem hd
    constructor <;> rintro rfl <;> exact absurd hfold (by decide)
  simp only [text, List.forall_mem_append]
  exact ⟨forall_ne_parenthesis_of_isBlank j.before_blank, hword,
    forall_ne_parenthesis_of_isBlank j.after_blank⟩

/-- A joint is cut out with all its blanks. -/
theorem plainAnd_append {rest : List Char} (hrest : ∀ c ∈ rest.head?, isBlank c = false) :
    plainAnd (j.text ++ rest) = some rest := by
  obtain ⟨b, before, hbefore⟩ := List.exists_cons_of_ne_nil j.before_ne
  obtain ⟨e, after, hafter⟩ := List.exists_cons_of_ne_nil j.after_ne
  have hblanks := j.before_blank
  rw [hbefore, List.forall_mem_cons] at hblanks
  have hblanks' := j.after_blank
  rw [hafter, List.forall_mem_cons] at hblanks'
  have hword : stripLeft (j.word ++ (j.after ++ rest)) = j.word ++ (j.after ++ rest) := by
    refine stripLeft_eq_self fun d hd => ?_
    rw [List.head?_append_of_ne_nil _ j.word_ne_nil] at hd
    have hfold : foldLetter d ∈ (j.word.map foldLetter).head? := by
      rw [List.head?_map]
      exact Option.mem_map_of_mem foldLetter hd
    rw [j.map_word] at hfold
    exact isBlank_of_foldLetter (by decide) (Option.some.inj hfold).symm
  have hkeyword : dropKeyword "and".toList (j.word ++ (j.after ++ rest)) = some (j.after ++ rest) :=
    dropKeyword_append_of_eq_some j.word_eq _
  have hend : dropBlanks1 (j.after ++ rest) = some rest := by
    rw [hafter, List.cons_append, dropBlanks1_cons_of_isBlank hblanks'.1,
      stripLeft_append_of_isBlank hblanks'.2, stripLeft_eq_self hrest]
  rw [text, hbefore, List.cons_append, List.cons_append, List.append_assoc, List.append_assoc,
    plainAnd, dropBlanks1_cons_of_isBlank hblanks.1, Option.bind_some,
    stripLeft_append_of_isBlank hblanks.2, hword, hkeyword, Option.bind_some, hend]

end Joint

/-- The pieces of comparisons: the first with the text in front of it, the last with that behind
it. -/
def pieces (start : List Char) (c : Comparison) (more : List (Joint × Comparison))
    (ending : List Char) : List (List Char) :=
  match more with
  | [] => [start ++ (c.text ++ ending)]
  | (_, next) :: more => (start ++ c.text) :: pieces [] next more ending

/-- Comparisons are cut exactly at their joints. -/
theorem splitBy_comparisons {start ending : List Char} {c : Comparison}
    (hstart : ∀ tail, Uncut plainAnd start (c.text ++ tail)) (hending : Uncut plainAnd ending [])
    (more : List (Joint × Comparison)) :
    splitBy plainAnd (start ++ (c.text ++ (moreText more ++ ending))) = pieces start c more ending := by
  induction more generalizing start c with
  | nil =>
    have huncut : Uncut plainAnd (start ++ (c.text ++ ending)) [] := by
      rw [uncut_append, uncut_append, List.append_nil]
      exact ⟨hstart _, c.uncut_text _, hending⟩
    exact splitBy_of_uncut huncut
  | cons entry more ih =>
    obtain ⟨j, next⟩ := entry
    have hnext : splitBy plainAnd ([] ++ (next.text ++ (moreText more ++ ending))) =
        pieces [] next more ending := ih fun _ => trivial
    have hhead : ∀ d ∈ (next.text ++ (moreText more ++ ending)).head?, isBlank d = false :=
      fun d hd => (next.goesOn_text _ d hd).1
    have huncut : Uncut plainAnd (start ++ c.text) (j.text ++ (next.text ++ (moreText more ++ ending))) :=
      uncut_append.2 ⟨hstart _, c.uncut_text _⟩
    have hcut := splitBy_piece huncut (j.plainAnd_append hhead) j.text_ne_nil
    rw [List.nil_append] at hnext
    rw [hnext] at hcut
    rw [moreText, pieces, ← hcut]
    simp only [List.append_assoc]

/-! ## One clause and several -/

theorem Comparison.neat_text (c : Comparison) : Neat c.text where
  first_not_blank := fun d hd => by
    have hgoes := c.goesOn_text [] d
    rw [List.append_nil] at hgoes
    exact (hgoes hd).1
  first_ne := fun h => (c.ne_parenthesis '(' (List.mem_of_mem_head? h)).1 rfl
  last_not_blank := c.getLast?_text

/-- Each piece becomes its comparison again. -/
theorem map_unwrap_pieces {opening before right : List Char}
    (hopening : opening = [] ∨ opening = ['(']) (hbefore : ∀ d ∈ before, isBlank d = true)
    (hright : ∀ d ∈ right, isBlank d = true) (c : Comparison) (more : List (Joint × Comparison)) :
    (pieces (opening ++ before) c more (right ++ [')'])).map unwrap =
      (c :: more.map (·.2)).map Comparison.text := by
  induction more generalizing opening before c with
  | nil =>
    have hunwrap := unwrap_closed hopening hbefore hright c.neat_text c.text_ne_nil
    rw [pieces, List.map_singleton, List.append_assoc, hunwrap]
    rfl
  | cons entry more ih =>
    obtain ⟨j, next⟩ := entry
    have hlast : c.text.getLast? ≠ some ')' := fun h =>
      (c.ne_parenthesis ')' (List.mem_of_getLast? h)).2 rfl
    have hunwrap := unwrap_open hopening hbefore (List.forall_mem_nil _) c.neat_text c.text_ne_nil
      hlast
    rw [List.append_nil] at hunwrap
    have hnext := ih (.inl rfl) (List.forall_mem_nil _) next
    rw [List.nil_append] at hnext
    rw [pieces, List.map_cons, List.append_assoc, hunwrap, hnext]
    rfl

theorem moreText_ne_parenthesis (more : List (Joint × Comparison)) :
    ∀ d ∈ moreText more, d ≠ '(' ∧ d ≠ ')' := by
  induction more with
  | nil => exact List.forall_mem_nil _
  | cons entry more ih =>
    obtain ⟨j, c⟩ := entry
    simp only [moreText, List.forall_mem_append]
    exact ⟨j.ne_parenthesis, c.ne_parenthesis, ih⟩

theorem getLast?_append_moreText (c : Comparison) (more : List (Joint × Comparison)) :
    ∃ last ∈ c :: more.map (·.2), (c.text ++ moreText more).getLast? = last.text.getLast? := by
  induction more generalizing c with
  | nil => exact ⟨c, List.mem_cons_self, by rw [moreText, List.append_nil]⟩
  | cons entry more ih =>
    obtain ⟨j, next⟩ := entry
    obtain ⟨last, hmem, hlast⟩ := ih next
    refine ⟨last, List.mem_cons_of_mem c hmem, ?_⟩
    have hne : next.text ++ moreText more ≠ [] := List.append_ne_nil_of_left_ne_nil next.text_ne_nil _
    rw [moreText, ← List.append_assoc, List.getLast?_append_of_ne_nil _ hne, hlast]

namespace RawClause

variable (k : RawClause)

theorem core_ne_nil : k.core ≠ [] := List.append_ne_nil_of_left_ne_nil k.first.text_ne_nil _

theorem core_ne_parenthesis : ∀ d ∈ k.core, d ≠ '(' ∧ d ≠ ')' := by
  rw [core, List.forall_mem_append]
  exact ⟨k.first.ne_parenthesis, moreText_ne_parenthesis k.more⟩

theorem neat_core : Neat k.core where
  first_not_blank := fun d hd => (k.first.goesOn_text _ d hd).1
  first_ne := fun h => (k.core_ne_parenthesis '(' (List.mem_of_mem_head? h)).1 rfl
  last_not_blank := by
    obtain ⟨last, -, hlast⟩ := getLast?_append_moreText k.first k.more
    rw [core, hlast]
    exact last.getLast?_text

theorem tight_text : Tight k.text := by
  refine tight_of_forall_ne ?_
  simp only [text, List.forall_mem_append]
  exact ⟨fun d hd => (forall_ne_parenthesis_of_isBlank k.left_blank d hd).2,
    fun d hd => (k.core_ne_parenthesis d hd).2,
    fun d hd => (forall_ne_parenthesis_of_isBlank k.right_blank d hd).2⟩

/-- A clause that is the only one is cut into its comparisons. -/
theorem map_unwrap_single :
    (conjuncts (groupedText [k.text])).map unwrap = k.comparisons.map Comparison.text := by
  have hstart : ∀ tail, Uncut plainAnd ('(' :: k.left) (k.first.text ++ tail) := fun tail =>
    ⟨plainAnd_of_not_isBlank (by decide) _, uncut_blanks k.left_blank (k.first.goesOn_text tail)⟩
  have hclosing : GoesOn [')'] := by
    intro d hd
    obtain rfl := Option.some.inj hd
    decide
  have hending : Uncut plainAnd (k.right ++ [')']) [] := by
    rw [uncut_append]
    exact ⟨uncut_blanks k.right_blank hclosing, uncut_plainAnd_of_not_isBlank (by decide) []⟩
  have htext : groupedText [k.text] =
      ('(' :: k.left) ++ (k.first.text ++ (moreText k.more ++ (k.right ++ [')']))) := by
    simp only [groupedText, joinWith, text, core, List.append_assoc, List.cons_append]
  rw [conjuncts_groupedText_singleton k.tight_text, htext, splitBy_comparisons hstart hending]
  exact map_unwrap_pieces (.inr rfl) k.left_blank k.right_blank k.first k.more

/-- A clause beside others stays in one piece. -/
theorem unwrap_text {opening : List Char} (hopening : opening = [] ∨ opening = ['(']) :
    unwrap (opening ++ k.text) = k.core :=
  unwrap_open hopening k.left_blank k.right_blank k.neat_core k.core_ne_nil fun h =>
    (k.core_ne_parenthesis ')' (List.mem_of_getLast? h)).2 rfl

theorem unwrap_text_closing : unwrap (k.text ++ [')']) = k.core := by
  have hunwrap := unwrap_closed (.inl rfl) k.left_blank k.right_blank k.neat_core k.core_ne_nil
  rw [List.nil_append] at hunwrap
  rw [text, List.append_assoc, List.append_assoc, hunwrap]

end RawClause

/-- Of two clauses or more each stays in one piece. -/
theorem map_unwrap_grouped (first last : RawClause) (middle : List RawClause) :
    (conjuncts (groupedText ((first :: (middle ++ [last])).map RawClause.text))).map unwrap =
      (first :: (middle ++ [last])).map RawClause.core := by
  have hunwraps := map_unwrap_groupedText (fun k _ => k.tight_text)
    (fun k (_ : k ∈ first :: middle) _ => k.unwrap_text) last.unwrap_text_closing
  rw [hunwraps, List.map_cons, List.map_cons, List.map_append, List.map_singleton, List.cons_append]

end Pigeonhole.Query

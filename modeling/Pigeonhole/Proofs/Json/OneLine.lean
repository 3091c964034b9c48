import Pigeonhole.Proofs.Json.Quoted
import Pigeonhole.Proofs.Number.Text

/-!
# Texts of one line determine their values

A JSON value written on one line is known from its text, and so is the place where the text ends if
a comma, a closing bracket or nothing follows (`print_append_inj`).  Only blanks may stand after the
commas and colons.  The first character tells strings, arrays and objects from the values that are
written as one word, and such a word ends where a mark stands.
-/

namespace Pigeonhole

namespace JsonFormat

/-- A format writes every value on one line, with nothing but blanks after commas and colons. -/
class OneLine (f : JsonFormat) : Prop where
  indent_eq : f.indent = none
  comma_eq : f.comma = ',' :: f.comma.tail
  comma_blank : ∀ c ∈ f.comma.tail, Json.isSpace c = true
  colon_eq : f.colon = ':' :: f.colon.tail
  colon_blank : ∀ c ∈ f.colon.tail, Json.isSpace c = true

instance : OneLine compact := ⟨rfl, rfl, by decide, rfl, by decide⟩

instance : OneLine line := ⟨rfl, rfl, by decide, rfl, by decide⟩

theorem OneLine.lineBreak_eq {f : JsonFormat} [f.OneLine] (depth : Nat) : f.lineBreak depth = [] := by
  rw [lineBreak, OneLine.indent_eq]

end JsonFormat

namespace Json

/-! ## Equations -/

section Equations

variable {α : Type} (f : JsonFormat) (leaf : α → List Char)

/-- The text between the brackets of an array. -/
def elements (depth : Nat) : List (Tree α) → List Char
  | [] => []
  | v :: items => v.print f leaf depth ++ Tree.printItems f leaf depth items

/-- The text between the braces of an object. -/
def fields (depth : Nat) : List (String × Tree α) → List Char
  | [] => []
  | (key, v) :: members =>
    Quoted.quote f.ascii key.toList ++ (f.colon ++ (v.print f leaf depth ++
      Tree.printMembers f leaf depth members))

/-- What follows a first part: nothing, or a comma and the text of the other parts. -/
def afterComma {β : Type} (parts : List β) (text : List Char) : List Char :=
  if parts.isEmpty then [] else f.comma ++ text

theorem afterComma_of_ne {β : Type} {parts : List β} (h : parts ≠ []) (text : List Char) :
    afterComma f parts text = f.comma ++ text := by
  rw [afterComma, if_neg (by simpa using h)]

variable [f.OneLine]

theorem print_arr (depth : Nat) (items : List (Tree α)) :
    (Tree.arr items).print f leaf depth = '[' :: (elements f leaf (depth + 1) items ++ [']']) := by
  cases items <;> simp [Tree.print, elements, JsonFormat.OneLine.lineBreak_eq]

theorem print_obj (depth : Nat) (members : List (String × Tree α)) :
    (Tree.obj members).print f leaf depth =
      '\x7b' :: (fields f leaf (depth + 1) members ++ ['\x7d']) := by
  cases members <;> simp [Tree.print, fields, JsonFormat.OneLine.lineBreak_eq]

theorem printItems_eq (depth : Nat) (items : List (Tree α)) :
    Tree.printItems f leaf depth items = afterComma f items (elements f leaf depth items) := by
  cases items <;> simp [Tree.printItems, elements, afterComma, JsonFormat.OneLine.lineBreak_eq]

theorem printMembers_eq (depth : Nat) (members : List (String × Tree α)) :
    Tree.printMembers f leaf depth members =
      afterComma f members (fields f leaf depth members) := by
  cases members <;> simp [Tree.printMembers, fields, afterComma, JsonFormat.OneLine.lineBreak_eq]

-- On one line the depth of a value does not show.
mutual

theorem print_depth (v : Tree α) (d e : Nat) : v.print f leaf d = v.print f leaf e := by
  cases v with
  | bool b => cases b <;> rfl
  | arr items => rw [print_arr, print_arr, elements_depth items]
  | obj members => rw [print_obj, print_obj, fields_depth members]
  | _ => rfl

theorem elements_depth (items : List (Tree α)) (d e : Nat) :
    elements f leaf d items = elements f leaf e items := by
  cases items with
  | nil => rfl
  | cons v rest =>
    rw [elements, elements, printItems_eq, printItems_eq, print_depth v d e,
      elements_depth rest d e]

theorem fields_depth (members : List (String × Tree α)) (d e : Nat) :
    fields f leaf d members = fields f leaf e members := by
  cases members with
  | nil => rfl
  | cons m rest =>
    obtain ⟨key, v⟩ := m
    rw [fields, fields, printMembers_eq, printMembers_eq, print_depth v d e, fields_depth rest d e]

end

end Equations

/-! ## Words -/

/-- The characters that do not belong to a word. -/
def isMark (c : Char) : Bool := c ∈ ['\x22', '[', ']', '\x7b', '\x7d', ',']

/-- A value is over: nothing follows, or a mark that goes on after it. -/
def Ends (s : List Char) : Prop := ∀ c ∈ s.head?, c = ',' ∨ c = ']' ∨ c = '\x7d'

theorem ends_nil : Ends [] := by simp [Ends]

theorem ends_cons {c : Char} (h : c = ',' ∨ c = ']' ∨ c = '\x7d') (s : List Char) :
    Ends (c :: s) := by
  intro d hd
  cases hd
  exact h

theorem isMark_of_ends {c : Char} {s : List Char} (h : Ends (c :: s)) : isMark c = true := by
  rcases h c rfl with rfl | rfl | rfl <;> decide

/-- Words that no mark stands in are known with what follows them. -/
theorem word_append_inj {v w s t : List Char} (hv : ∀ c ∈ v, isMark c = false)
    (hw : ∀ c ∈ w, isMark c = false) (hs : Ends s) (ht : Ends t) (h : v ++ s = w ++ t) :
    v = w ∧ s = t := by
  induction v generalizing w with
  | nil =>
    cases w with
    | nil => exact ⟨rfl, h⟩
    | cons c w =>
      have hs' : s = c :: (w ++ t) := h
      have hmark := isMark_of_ends (hs' ▸ hs)
      rw [hw c List.mem_cons_self] at hmark
      cases hmark
  | cons c v ih =>
    cases w with
    | nil =>
      have ht' : t = c :: (v ++ s) := h.symm
      have hmark := isMark_of_ends (ht' ▸ ht)
      rw [hv c List.mem_cons_self] at hmark
      cases hmark
    | cons d w =>
      obtain ⟨rfl, hrest⟩ := List.cons.inj h
      obtain ⟨rfl, hst⟩ := ih (fun e he => hv e (List.mem_cons_of_mem c he))
        (fun e he => hw e (List.mem_cons_of_mem c he)) hrest
      exact ⟨rfl, hst⟩

section Parts

variable (f : JsonFormat) [f.OneLine]

theorem length_comma_pos : 0 < f.comma.length := by
  rw [JsonFormat.OneLine.comma_eq]
  exact Nat.succ_pos _

theorem ends_afterComma {β : Type} (parts : List β) (text : List Char) {c : Char}
    (hc : c = ']' ∨ c = '\x7d') (s : List Char) : Ends (afterComma f parts text ++ c :: s) := by
  by_cases h : parts = []
  · subst h
    exact ends_cons (.inr hc) s
  · rw [afterComma_of_ne f h, JsonFormat.OneLine.comma_eq]
    exact ends_cons (.inl rfl) _

variable {f}

/-- Two texts that go on alike after a first part both have a comma there, or both are over. -/
theorem append_of_afterComma {β : Type} {xs ys : List β} {x y s t : List Char} {c : Char}
    (hc : c ≠ ',') (hx : xs = [] → x = []) (hy : ys = [] → y = [])
    (h : afterComma f xs x ++ c :: s = afterComma f ys y ++ c :: t) :
    x ++ c :: s = y ++ c :: t := by
  have hcomma : ∀ u v : List Char, c :: u ≠ f.comma ++ v := by
    intro u v heq
    rw [JsonFormat.OneLine.comma_eq] at heq
    exact hc (List.cons.inj heq).1
  cases xs with
  | nil =>
    cases ys with
    | nil =>
      rw [hx rfl, hy rfl]
      exact h
    | cons b bs =>
      rw [afterComma_of_ne f (List.cons_ne_nil b bs), List.append_assoc] at h
      exact absurd h (hcomma _ _)
  | cons a as =>
    rw [afterComma_of_ne f (List.cons_ne_nil a as), List.append_assoc] at h
    cases ys with
    | nil => exact absurd h.symm (hcomma _ _)
    | cons b bs =>
      rw [afterComma_of_ne f (List.cons_ne_nil b bs), List.append_assoc] at h
      exact List.append_cancel_left h

end Parts

/-! ## Kinds of values -/

/-- What the first character of a text tells about the value. -/
inductive Kind where
  | word
  | text
  | array
  | object
deriving DecidableEq

/-- The kind of a value. -/
def kind : Json → Kind
  | .str _ => .text
  | .arr _ => .array
  | .obj _ => .object
  | _ => .word

/-- The kind of the values whose text begins with a character. -/
def Kind.ofChar (c : Char) : Kind :=
  if c = '\x22' then .text else if c = '[' then .array else if c = '\x7b' then .object else .word

theorem Kind.ofChar_of_not_isMark {c : Char} (h : isMark c = false) : Kind.ofChar c = .word := by
  simp only [isMark, decide_eq_false_iff_not, List.mem_cons, List.not_mem_nil, or_false, not_or] at h
  rw [ofChar, if_neg h.1, if_neg h.2.1, if_neg h.2.2.2.1]

theorem isMark_of_isNumberChar {c : Char} (h : Numeral.isNumberChar c = true) :
    isMark c = false := by
  by_contra hmark
  simp only [isMark, Bool.not_eq_false, decide_eq_true_eq] at hmark
  have checked : ∀ c ∈ ['\x22', '[', ']', '\x7b', '\x7d', ','],
      Numeral.isNumberChar c = false := by decide
  rw [checked c hmark] at h
  cases h

variable {f : JsonFormat} {leaf : Empty → List Char}

theorem isMark_of_mem_word {a : Json} (ha : a.kind = .word) {depth : Nat} {c : Char}
    (hc : c ∈ a.print f leaf depth) : isMark c = false := by
  cases a with
  | null =>
    have checked : ∀ c ∈ ['n', 'u', 'l', 'l'], isMark c = false := by decide
    rw [Tree.print] at hc
    exact checked c hc
  | bool b =>
    have checked : ∀ c ∈ ['t', 'r', 'u', 'e'] ++ ['f', 'a', 'l', 's', 'e'], isMark c = false := by
      decide
    cases b <;> rw [Tree.print] at hc <;> exact checked c (by simp at hc ⊢; tauto)
  | num n =>
    rw [Tree.print] at hc
    exact isMark_of_isNumberChar (Number.isNumberChar_of_mem_text hc)
  | foreign e => cases e
  | str => cases ha
  | arr => cases ha
  | obj => cases ha

/-- No number is written as a constant. -/
theorem text_num_ne (n : Number) : n.text Double.jsonLayout ≠ ['n', 'u', 'l', 'l'] ∧
    n.text Double.jsonLayout ≠ ['t', 'r', 'u', 'e'] ∧
    n.text Double.jsonLayout ≠ ['f', 'a', 'l', 's', 'e'] := by
  have hchars : ∀ w, n.text Double.jsonLayout = w → ∀ c ∈ w, Numeral.isNumberChar c = true := by
    rintro w rfl c
    exact Number.isNumberChar_of_mem_text
  refine ⟨fun h => ?_, fun h => ?_, fun h => ?_⟩
  · exact absurd (hchars _ h 'u' (by decide)) (by decide)
  · exact absurd (hchars _ h 'u' (by decide)) (by decide)
  · exact absurd (hchars _ h 's' (by decide)) (by decide)

/-- Values that are written as one word have words of their own. -/
theorem eq_of_word {a b : Json} (ha : a.kind = .word) (hb : b.kind = .word) {d e : Nat}
    (h : a.print f leaf d = b.print f leaf e) : a = b := by
  cases a with
  | null =>
    cases b with
    | null => rfl
    | bool b => cases b <;> simp [Tree.print] at h
    | num n => exact absurd h.symm (text_num_ne n).1
    | foreign e => cases e
    | _ => cases hb
  | bool a =>
    cases b with
    | null => cases a <;> simp [Tree.print] at h
    | bool b => cases a <;> cases b <;> first | rfl | simp [Tree.print] at h
    | num n =>
      cases a with
      | true => exact absurd h.symm (text_num_ne n).2.1
      | false => exact absurd h.symm (text_num_ne n).2.2
    | foreign e => cases e
    | _ => cases hb
  | num m =>
    cases b with
    | null => exact absurd h (text_num_ne m).1
    | bool b =>
      cases b with
      | true => exact absurd h (text_num_ne m).2.1
      | false => exact absurd h (text_num_ne m).2.2
    | num n => exact congrArg Tree.num (Number.text_inj h)
    | foreign e => cases e
    | _ => cases hb
  | foreign e => cases e
  | _ => cases ha

variable [f.OneLine]

/-- The first character of a text tells the kind of the value. -/
theorem exists_first (a : Json) (depth : Nat) :
    ∃ c s, a.print f leaf depth = c :: s ∧ Kind.ofChar c = a.kind := by
  cases a with
  | str s => exact ⟨_, _, rfl, rfl⟩
  | arr items => exact ⟨_, _, print_arr f leaf depth items, rfl⟩
  | obj members => exact ⟨_, _, print_obj f leaf depth members, rfl⟩
  | foreign e => cases e
  | null => exact ⟨_, _, rfl, rfl⟩
  | bool b => cases b <;> exact ⟨_, _, rfl, rfl⟩
  | num n =>
    obtain ⟨c, s, h⟩ := List.exists_cons_of_ne_nil (Number.text_ne_nil n)
    refine ⟨c, s, h, Kind.ofChar_of_not_isMark (isMark_of_isNumberChar ?_)⟩
    exact Number.isNumberChar_of_mem_text (n := n) (by rw [h]; exact List.mem_cons_self)

theorem kind_eq {a b : Json} {d e : Nat} {s t : List Char}
    (h : a.print f leaf d ++ s = b.print f leaf e ++ t) : a.kind = b.kind := by
  obtain ⟨c, u, hc, ha⟩ := @exists_first f leaf _ a d
  obtain ⟨c', u', hc', hb⟩ := @exists_first f leaf _ b e
  rw [hc, hc'] at h
  rw [← ha, ← hb, (List.cons.inj h).1]

/-! ## Values -/

variable {depth depth' : Nat} {s t : List Char}

/-- The text of a value does not begin with a closing bracket. -/
theorem print_append_ne (a : Json) : ']' :: s ≠ a.print f leaf depth ++ t := by
  intro h
  obtain ⟨c, u, hc, hkind⟩ := @exists_first f leaf _ a depth
  rw [hc] at h
  obtain ⟨rfl, -⟩ := List.cons.inj h
  have hmem : ']' ∈ a.print f leaf depth := by simp [hc]
  exact absurd (isMark_of_mem_word hkind.symm hmem) (by decide)

mutual

/-- A value and the end of its text are known from the text. -/
theorem print_append_inj (a b : Json) {depth depth' : Nat} {s t : List Char} (hs : Ends s)
    (ht : Ends t) (h : a.print f leaf depth ++ s = b.print f leaf depth' ++ t) :
    a = b ∧ s = t := by
  have hkind := kind_eq h
  by_cases hword : a.kind = .word
  · have hword' : b.kind = .word := hkind ▸ hword
    obtain ⟨hab, hst⟩ := word_append_inj (fun c => isMark_of_mem_word hword)
      (fun c => isMark_of_mem_word hword') hs ht h
    exact ⟨eq_of_word hword hword' hab, hst⟩
  · cases a with
    | str a =>
      cases b with
      | str b =>
        obtain ⟨hab, hst⟩ := Quoted.quote_append_inj h
        exact ⟨congrArg Tree.str (String.toList_inj.1 hab), hst⟩
      | _ => cases hkind
    | arr items =>
      cases b with
      | arr items' =>
        rw [print_arr, print_arr, List.cons_append, List.cons_append, List.append_assoc,
          List.append_assoc] at h
        obtain ⟨rfl, hst⟩ := elements_append_inj items items' (List.cons.inj h).2
        exact ⟨rfl, hst⟩
      | _ => cases hkind
    | obj members =>
      cases b with
      | obj members' =>
        rw [print_obj, print_obj, List.cons_append, List.cons_append, List.append_assoc,
          List.append_assoc] at h
        obtain ⟨rfl, hst⟩ := fields_append_inj members members' (List.cons.inj h).2
        exact ⟨rfl, hst⟩
      | _ => cases hkind
    | _ => exact absurd rfl hword

theorem elements_append_inj (as bs : List Json) {depth depth' : Nat} {s t : List Char}
    (h : elements f leaf depth as ++ ']' :: s = elements f leaf depth' bs ++ ']' :: t) :
    as = bs ∧ s = t := by
  cases as with
  | nil =>
    cases bs with
    | nil => exact ⟨rfl, (List.cons.inj h).2⟩
    | cons b bs =>
      rw [elements, elements, List.append_assoc] at h
      exact absurd h (print_append_ne b)
  | cons a as =>
    cases bs with
    | nil =>
      rw [elements, elements, List.append_assoc] at h
      exact absurd h.symm (print_append_ne a)
    | cons b bs =>
      rw [elements, elements, List.append_assoc, List.append_assoc] at h
      rw [printItems_eq, printItems_eq] at h
      obtain ⟨rfl, hitems⟩ := print_append_inj a b (ends_afterComma f as _ (.inl rfl) s)
        (ends_afterComma f bs _ (.inl rfl) t) h
      obtain ⟨rfl, hst⟩ := elements_append_inj as bs (append_of_afterComma (by decide)
        (by rintro rfl; rfl) (by rintro rfl; rfl) hitems)
      exact ⟨rfl, hst⟩

theorem fields_append_inj (ms ns : List (String × Json)) {depth depth' : Nat} {s t : List Char}
    (h : fields f leaf depth ms ++ '\x7d' :: s = fields f leaf depth' ns ++ '\x7d' :: t) :
    ms = ns ∧ s = t := by
  cases ms with
  | nil =>
    cases ns with
    | nil => exact ⟨rfl, (List.cons.inj h).2⟩
    | cons n ns => exact absurd (List.cons.inj h).1 (by decide)
  | cons m ms =>
    cases ns with
    | nil => exact absurd (List.cons.inj h).1 (by decide)
    | cons n ns =>
      obtain ⟨key, v⟩ := m
      obtain ⟨key', v'⟩ := n
      simp only [fields, List.append_assoc] at h
      obtain ⟨hkey, hcolon⟩ := Quoted.quote_append_inj h
      have hvalue := List.append_cancel_left hcolon
      rw [printMembers_eq, printMembers_eq] at hvalue
      obtain ⟨rfl, hmembers⟩ := print_append_inj v v' (ends_afterComma f ms _ (.inr rfl) s)
        (ends_afterComma f ns _ (.inr rfl) t) hvalue
      obtain ⟨rfl, hst⟩ := fields_append_inj ms ns (append_of_afterComma (by decide)
        (by rintro rfl; rfl) (by rintro rfl; rfl) hmembers)
      exact ⟨by rw [String.toList_inj.1 hkey], hst⟩

end

variable (f) in
/-- Different values have different texts of one line. -/
theorem write_inj {a b : Json} (h : write f a = write f b) : a = b := by
  have happend : write f a ++ [] = write f b ++ [] := by rw [h]
  exact (print_append_inj a b ends_nil ends_nil happend).1

end Json

end Pigeonhole

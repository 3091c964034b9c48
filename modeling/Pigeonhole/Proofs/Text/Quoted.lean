import Mathlib.Algebra.Group.Nat.Defs
import Pigeonhole.Proofs.Json.Quoted
import Pigeonhole.Text.Quoted

/-!
# Quoted texts in messages

A text between the quotes of a message is known from what is written, and so is the place where it
ends (`quoted_append_inj`).  The first character is the quote that ends it; inside, every character
is read back by `unquoteChar`, which needs not know the quote.
-/

namespace Pigeonhole.Text

/-! ## Hexadecimal numbers -/

/-- The number of so many hexadecimal digits after those read before, and what follows them. -/
def readHex : Nat → Nat → List Char → Option (Nat × List Char)
  | 0, n, s => some (n, s)
  | _ + 1, _, [] => none
  | width + 1, n, c :: s => (Json.hexValue? c).bind fun d => readHex width (16 * n + d) s

/-- Digits that were written are read back; the digits after them are read on. -/
theorem readHex_hexDigits (width more before n : Nat) (s : List Char) :
    readHex (width + more) before (hexDigits width n ++ s) =
      readHex more (16 ^ width * before + n % 16 ^ width) s := by
  induction width generalizing more n s with
  | zero => simp [hexDigits, Nat.mod_one]
  | succ width ih =>
    have hlast : 16 * (16 ^ width * before + n / 16 % 16 ^ width) + n % 16 =
        16 ^ (width + 1) * before + n % 16 ^ (width + 1) := by
      rw [Nat.pow_succ', Nat.mod_mul, Nat.mul_add, Nat.mul_assoc]
      omega
    rw [hexDigits, List.append_assoc, List.singleton_append, Nat.succ_add_eq_add_succ, ih, readHex,
      Quoted.hexValue?_hexDigit (Nat.mod_lt n (by decide)), Option.bind_some, hlast]

theorem readHex_of_lt {width n : Nat} (h : n < 16 ^ width) (s : List Char) :
    readHex width 0 (hexDigits width n ++ s) = some (n, s) := by
  have hread := readHex_hexDigits width 0 0 n s
  rwa [Nat.mod_eq_of_lt h, Nat.mul_zero, Nat.zero_add] at hread

/-! ## Characters -/

/-- The character of an escape by its number, and what follows. -/
def unquoteNumber (width : Nat) (s : List Char) : Option (Char × List Char) :=
  (readHex width 0 s).map fun (n, rest) => (Char.ofNat n, rest)

/-- The character at the beginning of what stands between quotes, and what follows it. -/
def unquoteChar : List Char → Option (Char × List Char)
  | [] => none
  | '\\' :: 'n' :: s => some ('\n', s)
  | '\\' :: 'r' :: s => some ('\r', s)
  | '\\' :: 't' :: s => some ('\t', s)
  | '\\' :: 'x' :: s => unquoteNumber 2 s
  | '\\' :: 'u' :: s => unquoteNumber 4 s
  | '\\' :: 'U' :: s => unquoteNumber 8 s
  | '\\' :: c :: s => some (c, s)
  | c :: s => some (c, s)

theorem unquoteNumber_hexDigits {width : Nat} {c : Char} (h : c.toNat < 16 ^ width)
    (s : List Char) : unquoteNumber width (hexDigits width c.toNat ++ s) = some (c, s) := by
  rw [unquoteNumber, readHex_of_lt h]
  exact congrArg (fun c => some (c, s)) (Char.ofNat_toNat c)

theorem unquoteChar_of_ne {c : Char} (h : c ≠ '\\') (s : List Char) :
    unquoteChar (c :: s) = some (c, s) := by
  rw [unquoteChar.eq_def]
  split <;> simp_all

/-- A text in a message stands between quotes of one of two kinds. -/
def IsQuote (quote : Char) : Prop := quote = '\x27' ∨ quote = '\x22'

variable {quote : Char} (hquote : IsQuote quote)

include hquote in
theorem unquoteChar_quotedChar (c : Char) (s : List Char) :
    unquoteChar (quotedChar quote c ++ s) = some (c, s) := by
  rw [quotedChar]
  split
  · rename_i hself
    have hmark : c = '\x27' ∨ c = '\x22' ∨ c = '\\' := by
      rcases hself with rfl | rfl
      · exact hquote.imp_right .inl
      · exact .inr (.inr rfl)
    rcases hmark with rfl | rfl | rfl <;> rfl
  · rename_i hself
    have hslash : c ≠ '\\' := fun h => hself (.inr h)
    split
    · rename_i h
      rw [h]
      rfl
    split
    · rename_i h
      rw [h]
      rfl
    split
    · rename_i h
      rw [h]
      rfl
    split
    · exact unquoteChar_of_ne hslash s
    split
    · rename_i h
      exact unquoteNumber_hexDigits h s
    split
    · rename_i h
      exact unquoteNumber_hexDigits h s
    · have hvalid := Quoted.valid_toNat c
      exact unquoteNumber_hexDigits (by omega) s

include hquote in
/-- The quote that ends a text does not begin a character of it. -/
theorem ne_quotedChar (c : Char) (s t : List Char) : quote :: s ≠ quotedChar quote c ++ t := by
  intro h
  have hread := congrArg unquoteChar h
  have hslash : quote ≠ '\\' := by rcases hquote with rfl | rfl <;> decide
  rw [unquoteChar_quotedChar hquote, unquoteChar_of_ne hslash] at hread
  obtain rfl : quote = c := (Prod.mk.inj (Option.some.inj hread)).1
  rw [quotedChar, if_pos (.inl rfl)] at h
  exact hslash (List.cons.inj h).1

/-! ## Texts -/

include hquote in
theorem flatMap_quotedChar_inj (a b : List Char) {s t : List Char}
    (h : a.flatMap (quotedChar quote) ++ quote :: s = b.flatMap (quotedChar quote) ++ quote :: t) :
    a = b ∧ s = t := by
  induction a generalizing b with
  | nil =>
    cases b with
    | nil => exact ⟨rfl, (List.cons.inj h).2⟩
    | cons d b =>
      rw [List.flatMap_cons, List.append_assoc] at h
      exact absurd h (ne_quotedChar hquote d s _)
  | cons c a ih =>
    rw [List.flatMap_cons, List.append_assoc] at h
    cases b with
    | nil => exact absurd h.symm (ne_quotedChar hquote c t _)
    | cons d b =>
      rw [List.flatMap_cons, List.append_assoc] at h
      have hread := congrArg unquoteChar h
      rw [unquoteChar_quotedChar hquote, unquoteChar_quotedChar hquote] at hread
      obtain ⟨rfl, hrest⟩ := Prod.mk.inj (Option.some.inj hread)
      obtain ⟨rfl, hst⟩ := ih b hrest
      exact ⟨rfl, hst⟩

theorem isQuote_quoteFor (s : List Char) : IsQuote (quoteFor s) := by
  rw [quoteFor]
  split
  · exact .inr rfl
  · exact .inl rfl

/-- A quoted text is known with what follows it. -/
theorem quoted_append_inj {a b s t : List Char} (h : quoted a ++ s = quoted b ++ t) :
    a = b ∧ s = t := by
  rw [quoted, quoted, List.cons_append, List.cons_append, List.cons_append, List.cons_append,
    List.append_assoc, List.append_assoc] at h
  obtain ⟨hsame, hrest⟩ := List.cons.inj h
  rw [← hsame] at hrest
  exact flatMap_quotedChar_inj (isQuote_quoteFor a) a b hrest

end Pigeonhole.Text

import Pigeonhole.Proofs.Json.OneLine

/-!
# Texts in plain ASCII

A format that escapes what lies outside ASCII and puts everything on one line writes nothing but the
characters from the blank to the tilde (`isPlain_of_mem_print`), so its texts hold no line break of
any kind.
-/

namespace Pigeonhole

/-- A character from the blank to the tilde. -/
def IsPlain (c : Char) : Prop := 0x20 ≤ c.toNat ∧ c.toNat ≤ 0x7e

instance : DecidablePred IsPlain := fun _ => inferInstanceAs (Decidable (_ ∧ _))

/-! ## Quoted texts -/

namespace Quoted

theorem isPlain_hexDigit (n : Nat) : IsPlain (Text.hexDigit (n % 16)) := by
  have checked : ∀ k < 16, IsPlain (Text.hexDigit k) := by decide
  exact checked _ (Nat.mod_lt n (by decide))

theorem isPlain_of_mem_unitEscape (n : Nat) : ∀ c ∈ unitEscape n, IsPlain c := by
  have hmarks : IsPlain '\\' ∧ IsPlain 'u' := by decide
  simp only [unitEscape, Text.hexDigits, List.nil_append, List.cons_append, List.forall_mem_cons,
    isPlain_hexDigit, hmarks, true_and]
  exact List.forall_mem_nil _

theorem isPlain_of_mem_charEscape (c : Char) : ∀ d ∈ charEscape c, IsPlain d := by
  rw [charEscape]
  split
  · exact isPlain_of_mem_unitEscape _
  · exact List.forall_mem_append.2 ⟨isPlain_of_mem_unitEscape _, isPlain_of_mem_unitEscape _⟩

theorem isPlain_of_mem_encodeChar (c : Char) : ∀ d ∈ encodeChar true c, IsPlain d := by
  by_cases hshort : c ∈ ['\x22', '\\', '\n', '\r', '\t', '\x08', '\x0c']
  · have checked : ∀ c ∈ ['\x22', '\\', '\n', '\r', '\t', '\x08', '\x0c'],
        ∀ d ∈ encodeChar true c, IsPlain d := by decide
    exact checked c hshort
  · simp only [List.mem_cons, List.not_mem_nil, or_false, not_or] at hshort
    obtain ⟨hquote, hslash, hn, hr, ht, hb, hf⟩ := hshort
    rw [encodeChar, if_neg hquote, if_neg hslash, if_neg hn, if_neg hr, if_neg ht, if_neg hb,
      if_neg hf, Bool.true_and]
    split
    · exact isPlain_of_mem_unitEscape _
    · rename_i hcontrol
      split
      · exact isPlain_of_mem_charEscape c
      · rename_i hhigh
        rw [decide_eq_true_iff] at hhigh
        exact List.forall_mem_singleton.2 ⟨by omega, by omega⟩

theorem isPlain_of_mem_quote (s : List Char) : ∀ c ∈ quote true s, IsPlain c := by
  have hmark : ∀ c ∈ ['\x22'], IsPlain c := by decide
  refine List.forall_mem_append.2 ⟨List.forall_mem_cons.2 ⟨by decide, fun c hc => ?_⟩, hmark⟩
  obtain ⟨d, -, hd⟩ := List.mem_flatMap.1 hc
  exact isPlain_of_mem_encodeChar d c hd

end Quoted

/-! ## Values -/

namespace Json

variable {α : Type} {leaf : α → List Char}

theorem isPlain_of_isNumberChar {c : Char} (h : Numeral.isNumberChar c = true) : IsPlain c := by
  rw [Numeral.isNumberChar, Bool.or_eq_true] at h
  rcases h with hdigit | hmark
  · rw [Text.isAsciiDigit, Bool.and_eq_true, decide_eq_true_iff, decide_eq_true_iff] at hdigit
    exact ⟨Nat.le_trans (by decide) hdigit.1, Nat.le_trans hdigit.2 (by decide)⟩
  · have checked : ∀ c ∈ "+-.eNaInfity".toList, IsPlain c := by decide
    exact checked c (of_decide_eq_true hmark)

-- By induction on the value, one lemma for every part of its text.
mutual

/-- The line of a value is written in plain ASCII if its foreign leaves are. -/
theorem isPlain_of_mem_print (hleaf : ∀ a, ∀ c ∈ leaf a, IsPlain c) (v : Tree α) (depth : Nat) :
    ∀ c ∈ v.print .line leaf depth, IsPlain c := by
  cases v with
  | null =>
    rw [Tree.print]
    decide
  | bool b => cases b <;> rw [Tree.print] <;> decide
  | num n => exact fun c hc => isPlain_of_isNumberChar (Number.isNumberChar_of_mem_text hc)
  | str s => exact Quoted.isPlain_of_mem_quote s.toList
  | foreign a => exact hleaf a
  | arr items =>
    rw [print_arr, List.forall_mem_cons, List.forall_mem_append]
    exact ⟨by decide, isPlain_of_mem_elements hleaf items (depth + 1), by decide⟩
  | obj members =>
    rw [print_obj, List.forall_mem_cons, List.forall_mem_append]
    exact ⟨by decide, isPlain_of_mem_fields hleaf members (depth + 1), by decide⟩

theorem isPlain_of_mem_elements (hleaf : ∀ a, ∀ c ∈ leaf a, IsPlain c)
    (items : List (Tree α)) (depth : Nat) :
    ∀ c ∈ elements .line leaf depth items, IsPlain c := by
  cases items with
  | nil => exact List.forall_mem_nil _
  | cons v rest =>
    rw [elements, printItems_eq, List.forall_mem_append]
    refine ⟨isPlain_of_mem_print hleaf v depth, ?_⟩
    by_cases hrest : rest = []
    · subst hrest
      exact List.forall_mem_nil _
    · rw [afterComma_of_ne _ hrest, List.forall_mem_append]
      exact ⟨by decide, isPlain_of_mem_elements hleaf rest depth⟩

theorem isPlain_of_mem_fields (hleaf : ∀ a, ∀ c ∈ leaf a, IsPlain c)
    (members : List (String × Tree α)) (depth : Nat) :
    ∀ c ∈ fields .line leaf depth members, IsPlain c := by
  cases members with
  | nil => exact List.forall_mem_nil _
  | cons m rest =>
    obtain ⟨key, v⟩ := m
    rw [fields, printMembers_eq, List.forall_mem_append, List.forall_mem_append,
      List.forall_mem_append]
    refine ⟨Quoted.isPlain_of_mem_quote key.toList, by decide, isPlain_of_mem_print hleaf v depth, ?_⟩
    by_cases hrest : rest = []
    · subst hrest
      exact List.forall_mem_nil _
    · rw [afterComma_of_ne _ hrest, List.forall_mem_append]
      exact ⟨by decide, isPlain_of_mem_fields hleaf rest depth⟩

end

end Json

end Pigeonhole

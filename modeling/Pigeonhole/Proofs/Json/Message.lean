import Pigeonhole.Proofs.Json.Ascii
import Pigeonhole.Proofs.Json.Writing

/-!
# Values in messages stay on one line

Strings inside arrays and objects stand between quotes, with escapes for every end of line, and no
other part of a nested value has one (`isLineEnd_of_mem_nestedMessage`).  A value in a message ends
a line only if it is a string that does (`mem_display_iff`).
-/

namespace Pigeonhole

/-! ## Quoted texts -/

namespace Text

theorem hidden_of_isLineEnd {c : Char} (h : isLineEnd c = true) :
    isPrintable c = false ∧ ¬ IsPlain c := by
  have checked : ∀ c ∈ ['\n', '\r', '\x0b', '\x0c', '\x1c', '\x1d', '\x1e', '\u0085', '\u2028',
      '\u2029'], isPrintable c = false ∧ ¬ IsPlain c := by decide +kernel
  exact checked c (of_decide_eq_true h)

theorem isLineEnd_of_isPlain {c : Char} (h : IsPlain c) : isLineEnd c = false :=
  Bool.eq_false_iff.2 fun hend => (hidden_of_isLineEnd hend).2 h

theorem isLineEnd_of_isPrintable {c : Char} (h : isPrintable c = true) : isLineEnd c = false :=
  Bool.eq_false_iff.2 fun hend => Bool.eq_false_iff.1 (hidden_of_isLineEnd hend).1 h

theorem isPlain_of_mem_hexDigits (width n : Nat) : ∀ c ∈ hexDigits width n, IsPlain c := by
  induction width generalizing n with
  | zero => exact List.forall_mem_nil _
  | succ width ih =>
    exact List.forall_mem_append.2
      ⟨ih (n / 16), List.forall_mem_singleton.2 (Quoted.isPlain_hexDigit n)⟩

variable {quote : Char}

theorem isLineEnd_of_mem_quotedChar (hquote : IsQuote quote) (c : Char) :
    ∀ d ∈ quotedChar quote c, isLineEnd d = false := by
  have hescape : ∀ (mark : Char) (width n : Nat), IsPlain mark →
      ∀ d ∈ '\\' :: mark :: hexDigits width n, isLineEnd d = false := by
    intro mark width n hmark d hd
    refine isLineEnd_of_isPlain ?_
    rcases List.mem_cons.1 hd with rfl | hd
    · decide
    · rcases List.mem_cons.1 hd with rfl | hd
      · exact hmark
      · exact isPlain_of_mem_hexDigits width n d hd
  rw [quotedChar]
  split
  · rename_i hself
    have hc : isLineEnd c = false := by
      rcases hself with rfl | rfl
      · rcases hquote with rfl | rfl <;> decide
      · decide
    exact List.forall_mem_cons.2 ⟨by decide, List.forall_mem_singleton.2 hc⟩
  split
  · decide
  split
  · decide
  split
  · decide
  split
  · rename_i hprintable
    exact List.forall_mem_singleton.2 (isLineEnd_of_isPrintable hprintable)
  split
  · exact hescape 'x' 2 _ (by decide)
  split
  · exact hescape 'u' 4 _ (by decide)
  · exact hescape 'U' 8 _ (by decide)

theorem isLineEnd_of_isQuote (h : IsQuote quote) : isLineEnd quote = false := by
  rcases h with rfl | rfl <;> decide

/-- A text between quotes has no end of line. -/
theorem isLineEnd_of_mem_quoted (s : List Char) : ∀ c ∈ quoted s, isLineEnd c = false := by
  have hquote := isQuote_quoteFor s
  have hmark := isLineEnd_of_isQuote hquote
  rw [quoted, List.cons_append, List.forall_mem_cons, List.forall_mem_append]
  refine ⟨hmark, fun c hc => ?_, List.forall_mem_singleton.2 hmark⟩
  obtain ⟨d, -, hd⟩ := List.mem_flatMap.1 hc
  exact isLineEnd_of_mem_quotedChar hquote d c hd

/-- A character that is not in the separator is in a joined text if it is in one of the parts. -/
theorem mem_joinWith_iff {separator : List Char} {c : Char} (h : c ∉ separator)
    (parts : List (List Char)) : c ∈ joinWith separator parts ↔ ∃ part ∈ parts, c ∈ part := by
  induction parts with
  | nil => simp [joinWith]
  | cons part rest ih =>
    cases rest with
    | nil => simp [joinWith]
    | cons next rest =>
      have hjoin : joinWith separator (part :: next :: rest) =
          part ++ separator ++ joinWith separator (next :: rest) := rfl
      rw [hjoin, List.mem_append, List.mem_append, ih, or_iff_left h]
      simp

end Text

/-! ## Numbers -/

theorem Number.isLineEnd_of_mem_text (n : Number) :
    ∀ c ∈ n.text Double.messageLayout, Text.isLineEnd c = false := by
  have hjson : ∀ n : Number, ∀ c ∈ n.text Double.jsonLayout, Text.isLineEnd c = false :=
    fun n c hc => Text.isLineEnd_of_isPlain
      (Json.isPlain_of_isNumberChar (isNumberChar_of_mem_text hc))
  cases n with
  | int n => exact hjson (.int n)
  | double x =>
    cases x with
    | nan => decide
    | infinite negative => cases negative <;> decide
    -- the two layouts differ in the names of values that are not finite
    | finite negative biased fraction => exact hjson (.double (.finite negative biased fraction))

/-! ## Values -/

namespace Tree

variable {α : Type} {leaf : α → List Char}

-- By induction on the value, one lemma for every part of its text.
mutual

/-- A value inside another one has no end of line if its foreign leaves have none. -/
theorem isLineEnd_of_mem_nestedMessage (hleaf : ∀ a, ∀ c ∈ leaf a, Text.isLineEnd c = false)
    (v : Tree α) : ∀ c ∈ v.nestedMessage leaf, Text.isLineEnd c = false := by
  cases v with
  | null =>
    rw [nestedMessage]
    decide
  | bool b => cases b <;> rw [nestedMessage] <;> decide
  | num n => exact Number.isLineEnd_of_mem_text n
  | str s => exact Text.isLineEnd_of_mem_quoted s.toList
  | foreign a => exact hleaf a
  | arr items =>
    cases items with
    | nil =>
      rw [nestedMessage]
      decide
    | cons v rest =>
      rw [nestedMessage, List.cons_append, List.forall_mem_cons, List.forall_mem_append,
        List.forall_mem_append]
      exact ⟨by decide, isLineEnd_of_mem_nestedMessage hleaf v,
        isLineEnd_of_mem_itemsMessage hleaf rest, by decide⟩
  | obj members =>
    cases members with
    | nil =>
      rw [nestedMessage]
      decide
    | cons m rest =>
      obtain ⟨key, v⟩ := m
      rw [nestedMessage, List.cons_append, List.cons_append, List.forall_mem_cons,
        List.forall_mem_append, List.forall_mem_append, List.forall_mem_append,
        List.forall_mem_append]
      exact ⟨by decide, ⟨Text.isLineEnd_of_mem_quoted key.toList, by decide,
        isLineEnd_of_mem_nestedMessage hleaf v⟩, isLineEnd_of_mem_membersMessage hleaf rest,
        by decide⟩

theorem isLineEnd_of_mem_itemsMessage (hleaf : ∀ a, ∀ c ∈ leaf a, Text.isLineEnd c = false)
    (items : List (Tree α)) : ∀ c ∈ itemsMessage leaf items, Text.isLineEnd c = false := by
  cases items with
  | nil => exact List.forall_mem_nil _
  | cons v rest =>
    rw [itemsMessage, List.forall_mem_append, List.forall_mem_append]
    exact ⟨⟨by decide, isLineEnd_of_mem_nestedMessage hleaf v⟩,
      isLineEnd_of_mem_itemsMessage hleaf rest⟩

theorem isLineEnd_of_mem_membersMessage (hleaf : ∀ a, ∀ c ∈ leaf a, Text.isLineEnd c = false)
    (members : List (String × Tree α)) :
    ∀ c ∈ membersMessage leaf members, Text.isLineEnd c = false := by
  cases members with
  | nil => exact List.forall_mem_nil _
  | cons m rest =>
    obtain ⟨key, v⟩ := m
    rw [membersMessage, List.forall_mem_append, List.forall_mem_append, List.forall_mem_append,
      List.forall_mem_append]
    exact ⟨⟨⟨⟨by decide, Text.isLineEnd_of_mem_quoted key.toList⟩, by decide⟩,
      isLineEnd_of_mem_nestedMessage hleaf v⟩, isLineEnd_of_mem_membersMessage hleaf rest⟩

end

end Tree

theorem Foreign.isLineEnd_of_mem_message (a : Foreign) :
    ∀ c ∈ a.message, Text.isLineEnd c = false := by
  have hmissing : ∀ c ∈ "MISSING".toList, Text.isLineEnd c = false := by decide
  have hobject : ∀ c ∈ "<object>".toList, Text.isLineEnd c = false := by decide
  cases a with
  | missing => exact hmissing
  | object => exact hobject
  | mapping entries => exact hobject

/-- A value in a message ends a line only if it is a string that does. -/
theorem Value.mem_display_iff {c : Char} (h : Text.isLineEnd c = true) (v : Value) :
    c ∈ v.display.toList ↔ ∃ s, v = .str s ∧ c ∈ s.toList := by
  rw [display, String.toList_ofList]
  by_cases hstr : ∃ s, v = .str s
  · obtain ⟨s, rfl⟩ := hstr
    simp [Tree.message]
  · have hv : v.message Foreign.message = v.nestedMessage Foreign.message := by
      cases v with
      | str s => exact absurd ⟨s, rfl⟩ hstr
      | _ => rfl
    rw [hv]
    refine iff_of_false (fun hc => ?_) fun ⟨s, hs, _⟩ => hstr ⟨s, hs⟩
    rw [Tree.isLineEnd_of_mem_nestedMessage Foreign.isLineEnd_of_mem_message v c hc] at h
    cases h

end Pigeonhole

import Pigeonhole.Proofs.Json.OneLine

/-!
# Sizes of payloads

The size of a payload is the number of bytes of its canonical text.  A value takes as many bytes
inside an array as alone, and an array takes the bytes of its items, one for every comma and two for
the brackets (`payloadLength_arr`).
-/

namespace Pigeonhole

/-! ## Bytes -/

theorem utf8Length_eq (s : List Char) : utf8Length s = (String.ofList s).utf8ByteSize := by
  induction s with
  | nil => rfl
  | cons c s ih =>
    rw [utf8Length, ih, String.ofList_cons, String.utf8ByteSize_append,
      String.utf8ByteSize_singleton]

theorem utf8Length_append (s t : List Char) : utf8Length (s ++ t) = utf8Length s + utf8Length t := by
  rw [utf8Length_eq, utf8Length_eq, utf8Length_eq, String.ofList_append, String.utf8ByteSize_append]

namespace Json

/-! ## Arrays -/

section Arrays

variable (leaf : Empty → List Char)

theorem utf8Length_elements (depth : Nat) (items : List Json) :
    utf8Length (elements .compact leaf depth items) =
      items.length - 1 + (items.map fun v => utf8Length (v.print .compact leaf 0)).sum := by
  induction items with
  | nil => rfl
  | cons v rest ih =>
    rw [elements, utf8Length_append, printItems_eq, print_depth .compact leaf v depth 0,
      List.map_cons, List.sum_cons, List.length_cons, Nat.add_sub_cancel]
    cases rest with
    | nil => exact Nat.add_comm _ _
    | cons w rest =>
      have hcomma : utf8Length JsonFormat.compact.comma = 1 := rfl
      rw [afterComma_of_ne .compact (List.cons_ne_nil w rest), utf8Length_append, hcomma, ih,
        List.length_cons, Nat.add_sub_cancel]
      omega

end Arrays

theorem normalizeItems_eq_map (items : List Json) :
    Tree.normalizeItems items = items.map Tree.normalize := by
  induction items with
  | nil => rfl
  | cons v rest ih => rw [Tree.normalizeItems, ih, List.map_cons]

theorem payloadLength_of_ne_null {v : Json} (h : v ≠ .null) :
    payloadLength v = (text v).utf8ByteSize := by
  cases v with
  | null => exact absurd rfl h
  | _ => exact utf8Length_eq _

theorem utf8Length_write_arr (items : List Json) :
    utf8Length (write .compact (.arr items)) =
      2 + (items.length - 1) + (items.map fun v => utf8Length (write .compact v)).sum := by
  have hbrackets : utf8Length ['['] = 1 ∧ utf8Length [']'] = 1 := ⟨rfl, rfl⟩
  simp only [write]
  rw [print_arr, ← List.singleton_append, utf8Length_append, utf8Length_append, hbrackets.1,
    hbrackets.2, utf8Length_elements]
  omega

/-- Items take in an array the bytes that they take alone. -/
theorem payloadLength_arr (items : List Json) :
    payloadLength (.arr items) =
      2 + (items.length - 1) + (items.map fun v => (text v).utf8ByteSize).sum := by
  have hitem : ∀ v : Json, utf8Length (write .compact v.normalize) = (text v).utf8ByteSize :=
    fun v => utf8Length_eq _
  change utf8Length (write .compact (.arr (Tree.normalizeItems items))) = _
  rw [utf8Length_write_arr, normalizeItems_eq_map, List.length_map, List.map_map]
  simp only [Function.comp_def, hitem]

end Json

end Pigeonhole

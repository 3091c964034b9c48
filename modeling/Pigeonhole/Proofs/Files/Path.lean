import Pigeonhole.Files.Basic

/-!
# Paths and their texts

The text of a path is read back as the path (`Path.ofText_text`), so a path that is remembered by its
text leads to the same file (`Files.pathOf_remembered`).
-/

namespace Pigeonhole

namespace Text

variable {mark : Char} {piece s : List Char} {pieces : List (List Char)}

theorem splitOnChar_of_not_mem (h : mark ∉ piece) : splitOnChar mark piece = [piece] := by
  induction piece with
  | nil => rfl
  | cons c piece ih =>
    rw [List.mem_cons, not_or] at h
    rw [splitOnChar, if_neg (Ne.symm h.1), ih h.2]
    rfl

theorem splitOnChar_append (h : mark ∉ piece) (s : List Char) :
    splitOnChar mark (piece ++ mark :: s) = piece :: splitOnChar mark s := by
  induction piece with
  | nil => rw [List.nil_append, splitOnChar, if_pos rfl]
  | cons c piece ih =>
    rw [List.mem_cons, not_or] at h
    rw [List.cons_append, splitOnChar, if_neg (Ne.symm h.1), ih h.2]
    rfl

theorem splitOnChar_joinWith (hne : pieces ≠ []) (h : ∀ piece ∈ pieces, mark ∉ piece) :
    splitOnChar mark (joinWith [mark] pieces) = pieces := by
  induction pieces with
  | nil => contradiction
  | cons piece rest ih =>
    have hpiece := h piece List.mem_cons_self
    cases rest with
    | nil => exact splitOnChar_of_not_mem hpiece
    | cons next rest =>
      rw [joinWith, List.append_assoc, List.singleton_append, splitOnChar_append hpiece,
        ih (List.cons_ne_nil _ _) fun p hp => h p (List.mem_cons_of_mem _ hp)]
      exact List.cons_ne_nil _ _

theorem not_mem_of_mem_splitOnChar (h : piece ∈ splitOnChar mark s) : mark ∉ piece := by
  induction s generalizing piece with
  | nil =>
    rw [List.mem_singleton.1 h]
    exact List.not_mem_nil
  | cons c s ih =>
    rw [splitOnChar] at h
    split at h
    · rcases List.mem_cons.1 h with rfl | h
      · exact List.not_mem_nil
      · exact ih h
    · rename_i hc
      cases hs : splitOnChar mark s with
      | nil => exact absurd hs (splitOnChar_ne_nil mark s)
      | cons first rest =>
        rw [hs, consHead, List.mem_cons] at h
        rcases h with rfl | h
        · rw [List.mem_cons, not_or]
          exact ⟨Ne.symm hc, ih (hs ▸ List.mem_cons_self)⟩
        · exact ih (hs ▸ List.mem_cons_of_mem _ h)

end Text

namespace Path

variable {p : Path} {s : List Char}

/-- A path as it is read from a text: two slashes in front at most, and parts that mean something
with no slash in them. -/
structure Plain (p : Path) : Prop where
  root : p.root = [] ∨ p.root = ['/'] ∨ p.root = ['/', '/']
  part : ∀ part ∈ p.parts, isPart part = true
  slash : ∀ part ∈ p.parts, '/' ∉ part

theorem plain_ofText (s : List Char) : (ofText s).Plain where
  root := by
    show rootOf s = [] ∨ rootOf s = ['/'] ∨ rootOf s = ['/', '/']
    unfold rootOf
    split
    · exact .inl rfl
    · exact .inr (.inr rfl)
    · exact .inr (.inl rfl)
  part part h := (List.mem_filter.1 h).2
  slash part h := Text.not_mem_of_mem_splitOnChar (List.mem_filter.1 h).1

theorem Plain.takeWhile_join (h : p.Plain) :
    (Text.joinWith ['/'] p.parts).takeWhile (· = '/') = [] := by
  cases hparts : p.parts with
  | nil => rfl
  | cons part rest =>
    have hmem : part ∈ p.parts := hparts ▸ List.mem_cons_self
    have hpart := h.part part hmem
    have hslash := h.slash part hmem
    cases part with
    | nil => cases hpart
    | cons c part =>
      rw [List.mem_cons, not_or] at hslash
      have hjoin : ∃ tail, Text.joinWith ['/'] ((c :: part) :: rest) = c :: tail := by
        cases rest with
        | nil => exact ⟨part, rfl⟩
        | cons next rest => exact ⟨_, rfl⟩
      obtain ⟨tail, htail⟩ := hjoin
      rw [htail, List.takeWhile_cons, if_neg (by simpa using Ne.symm hslash.1)]

theorem Plain.rootOf_append (h : p.Plain) :
    rootOf (p.root ++ Text.joinWith ['/'] p.parts) = p.root := by
  have hjoin := h.takeWhile_join
  rcases h.root with hroot | hroot | hroot
  · rw [hroot, List.nil_append, rootOf, hjoin]
    rfl
  · rw [hroot, rootOf, List.singleton_append, List.takeWhile_cons, if_pos (by decide), hjoin]
    rfl
  · rw [hroot, rootOf, List.cons_append, List.singleton_append, List.takeWhile_cons,
      if_pos (by decide), List.takeWhile_cons, if_pos (by decide), hjoin]
    rfl

theorem Plain.filter_join (h : p.Plain) :
    (Text.splitOnChar '/' (Text.joinWith ['/'] p.parts)).filter isPart = p.parts := by
  by_cases hparts : p.parts = []
  · rw [hparts]
    rfl
  · rw [Text.splitOnChar_joinWith hparts h.slash]
    exact List.filter_eq_self.2 h.part

/-- The text of a path is read back as the path. -/
theorem Plain.ofText_text (h : p.Plain) : ofText p.text = p := by
  have hparts : (Text.splitOnChar '/' (p.root ++ Text.joinWith ['/'] p.parts)).filter isPart =
      p.parts := by
    rcases h.root with hroot | hroot | hroot
    · rw [hroot, List.nil_append, h.filter_join]
    · rw [hroot, List.singleton_append, Text.splitOnChar, if_pos rfl, List.filter_cons_of_neg,
        h.filter_join]
      decide
    · rw [hroot, List.cons_append, List.singleton_append, Text.splitOnChar, if_pos rfl,
        Text.splitOnChar, if_pos rfl, List.filter_cons_of_neg, List.filter_cons_of_neg,
        h.filter_join]
      · decide
      · decide
  unfold text
  simp only
  split
  · rename_i hempty
    obtain ⟨hroot, hjoin⟩ := List.append_eq_nil_iff.1 (List.isEmpty_iff.1 hempty)
    rw [hroot, hjoin] at hparts
    rw [show p = ⟨p.root, p.parts⟩ from rfl, ← hparts, hroot]
    rfl
  · rw [ofText, h.rootOf_append, hparts]

theorem text_ne_nil (p : Path) : p.text ≠ [] := by
  unfold text
  simp only
  split
  · exact List.cons_ne_nil _ _
  · rename_i h
    rwa [List.isEmpty_iff] at h

end Path

namespace Files

/-- The text by which a path is remembered. -/
def remembered (name : String) : String := String.ofList (pathOf name).text

theorem pathOf_remembered (name : String) : pathOf (remembered name) = pathOf name := by
  rw [pathOf, remembered, String.toList_ofList]
  exact (Path.plain_ofText name.toList).ofText_text

theorem remembered_remembered (name : String) : remembered (remembered name) = remembered name := by
  rw [remembered, pathOf_remembered]
  rfl

theorem remembered_ne_empty (name : String) : remembered name ≠ "" := by
  intro h
  apply (pathOf name).text_ne_nil
  rw [← String.toList_ofList (l := (pathOf name).text)]
  exact congrArg String.toList h

end Files

end Pigeonhole

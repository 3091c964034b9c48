import Pigeonhole.Proofs.Text.Cut
import Pigeonhole.Proofs.Text.Lowercase
import Pigeonhole.Query.Condition

/-!
# Parts of texts

A condition that a field contains a text is to hold of every document whose field has the text as a
part.  It compares the lower case of both, so it does if the text stays in lower case what it is by
itself: always, if no sigma of the text is exposed, and only then (`holds_contains`).
-/

namespace Pigeonhole.Query

open Text

/-! ## Documents with a given field -/

/-- Objects within objects under the given names. -/
def nest : List String → Json → Json
  | [], v => v
  | name :: names, v => .obj [(name, nest names v)]

theorem descend_nest (names : List String) (v : Json) : (nest names v).descend names = some v := by
  induction names with
  | nil => rfl
  | cons name names ih =>
    have hmember : (nest (name :: names) v).member? name = some (nest names v) :=
      List.lookup_cons_self
    rw [Tree.descend_cons, hmember, Option.bind_some, ih]

/-! ## Contained texts -/

/-- The condition holds exactly if the lower case of the field holds the lower case of the text. -/
theorem holds_contains_iff {path s text : String} {document : Json}
    (h : document.resolve path = some (.str text)) :
    (Condition.contains path (.str s)).holds document = true ↔
      lower s.toList <:+: lower text.toList := by
  rw [Condition.holds, h, Condition.containsText, contains_iff]

theorem holds_contains_of_steady {path u s w : String} {document : Json}
    (h : document.resolve path = some (.str (u ++ s ++ w)))
    (hsteady : Steady u.toList s.toList w.toList) :
    (Condition.contains path (.str s)).holds document = true := by
  obtain ⟨before, after, hlower⟩ := exists_lower_of_steady hsteady
  rw [holds_contains_iff h, String.toList_append, String.toList_append, hlower]
  exact ⟨before, after, rfl⟩

/-- A text is found in every text with it as a part in which its sigmas keep their form, and in every
text with it as a part at all exactly if none of its sigmas is exposed. -/
theorem holds_contains (path s : String) :
    (∀ (document : Json) (u w : String), document.resolve path = some (.str (u ++ s ++ w)) →
      Steady u.toList s.toList w.toList →
      (Condition.contains path (.str s)).holds document = true) ∧
    ((∀ (document : Json) (u w : String), document.resolve path = some (.str (u ++ s ++ w)) →
      (Condition.contains path (.str s)).holds document = true) ↔ ¬ Exposed s.toList) := by
  refine ⟨fun document u w h hsteady => holds_contains_of_steady h hsteady, ?_, ?_⟩
  · intro hall hexposed
    obtain ⟨u, w, hnot⟩ := exists_not_infix_of_exposed hexposed
    -- a document that has the text between `u` and `w` at the path, whatever the path is
    have htext : (nest (Tree.segments path) (.str (String.ofList u ++ s ++ String.ofList w))).resolve
        path = some (.str (String.ofList u ++ s ++ String.ofList w)) := descend_nest _ _
    have hholds := hall _ _ _ htext
    rw [holds_contains_iff htext] at hholds
    simp only [String.toList_append, String.toList_ofList] at hholds
    exact hnot hholds
  · intro hexposed document u w h
    exact holds_contains_of_steady h (steady_of_not_exposed hexposed _ _)

/-- A name with sigmas inside, within other letters. -/
theorem holds_contains_inner :
    (Condition.contains "a.b" (.str "ΟΣΑ")).holds
      (.obj [("a", .obj [("b", .str "ΜΟΣΑΪΚΟ")])]) = true :=
  ((holds_contains "a.b" "ΟΣΑ").2.2 (by decide))
    (.obj [("a", .obj [("b", .str "ΜΟΣΑΪΚΟ")])]) "Μ" "ΪΚΟ" rfl

/-- A sigma alone is not found where it ends a word. -/
theorem final_sigma_missed :
    let document : Json := .obj [("id", .str "1"), ("s", .str "ΑΣ")]
    document.resolve "s" = some (.str ("Α" ++ "Σ" ++ "")) ∧
      (Condition.contains "s" (.str "Σ")).holds document = false :=
  ⟨rfl, by decide⟩

end Pigeonhole.Query

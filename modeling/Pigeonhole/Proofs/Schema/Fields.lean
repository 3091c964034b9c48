import Pigeonhole.Schema.Checked

/-!
# Fields of checked values

What a field of a model is read from, once its key has been looked up, and lists whose items are each
read back.  A check of several fields passes exactly if all of them pass, so a field with a default
is read from what is found under its key (`Field.optional_plain_iff`).
-/

namespace Pigeonhole

theorem Checked.items_map {α : Type} {check : Value → Checked α} {write : α → Value}
    (h : ∀ a, check (write a) = .ok a) (i : Nat) (l : List α) :
    Checked.items check i (l.map write) = .ok l := by
  induction l generalizing i with
  | nil => rfl
  | cons a l ih =>
    rw [List.map_cons, Checked.items, h, ih]
    rfl

namespace Checked

variable {α β : Type} {b : β}

theorem map_eq_ok {f : α → β} {a : Checked α} : f <$> a = .ok b ↔ ∃ x, a = .ok x ∧ f x = b := by
  show a.map f = .ok b ↔ _
  cases a <;> simp [map]

theorem seq_eq_ok {f : Checked (α → β)} {a : Checked α} :
    f <*> a = .ok b ↔ ∃ g x, f = .ok g ∧ a = .ok x ∧ g x = b := by
  show f.apply a = .ok b ↔ _
  cases f <;> cases a <;> simp [apply]

theorem under_eq_ok {step : Step} {a : Checked β} : a.under step = .ok b ↔ a = .ok b := by
  cases a <;> simp [under]

theorem rule_eq_ok {holds : β → Bool} {message : String} {a : Checked β} :
    a.rule holds message = .ok b ↔ a = .ok b ∧ holds b = true := by
  cases a with
  | issues list => simp [rule, andThen]
  | ok x =>
    simp only [rule, andThen, fail, ok.injEq]
    constructor
    · intro h
      split at h
      · rename_i hx
        cases h
        exact ⟨rfl, hx⟩
      · cases h
    · rintro ⟨rfl, hx⟩
      rw [if_pos hx]

/-- A field with a default has been read from what was found for it. -/
def Reads (default : β) (check : Value → Checked β) (found : Option Value) (b : β) : Prop :=
  found.elim (.ok default) check = .ok b

theorem reads_none {default : β} {check : Value → Checked β} :
    Reads default check none b ↔ b = default := by
  simp [Reads, eq_comm]

theorem reads_some {default : β} {check : Value → Checked β} {v : Value} :
    Reads default check (some v) b ↔ check v = .ok b :=
  Iff.rfl

end Checked

namespace Field

variable {α : Type} {f : Field} {ms : List (String × Value)} {v : Value}

theorem required_of_lookup (h : ms.lookup f.key = some v) (check : Value → Checked α) :
    f.required check ms = (check v).under (.key f.key) := by
  simp only [required, find?, h]

/-- A required field that passes has been read from a value. -/
theorem exists_of_required {a : α} {check : Value → Checked α} (h : f.required check ms = .ok a) :
    ∃ v, check v = .ok a := by
  unfold required at h
  split at h
  · exact ⟨_, Checked.under_eq_ok.1 h⟩
  · contradiction

/-- A required field is read from what is found under its key. -/
theorem required_plain_iff {key : String} {a : α} {check : Value → Checked α} :
    (plain key).required check ms = .ok a ↔ ∃ v, ms.lookup key = some v ∧ check v = .ok a := by
  cases h : ms.lookup key with
  | none => simp [required, find?, plain, h]
  | some v => rw [required_of_lookup h, Checked.under_eq_ok]; simp

theorem optional_of_lookup (h : ms.lookup f.key = some v) (default : α)
    (check : Value → Checked α) : f.optional default check ms = (check v).under (.key f.key) := by
  simp only [optional, find?, h]

theorem optional_of_none (h : ms.lookup f.key = none) (hsecond : ms.lookup f.secondKey = none)
    (default : α) (check : Value → Checked α) : f.optional default check ms = .ok default := by
  simp only [optional, find?, h, hsecond, Option.map_none]

theorem optional_plain_iff {key : String} {default a : α} {check : Value → Checked α} :
    (plain key).optional default check ms = .ok a ↔
      Checked.Reads default check (ms.lookup key) a := by
  cases h : ms.lookup key with
  | none =>
    rw [optional_of_none h h, Checked.reads_none, Checked.ok.injEq, eq_comm]
  | some v =>
    rw [optional_of_lookup h, Checked.under_eq_ok, Checked.reads_some]

end Field

end Pigeonhole

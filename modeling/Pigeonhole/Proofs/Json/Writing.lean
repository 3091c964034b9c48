import Mathlib.Data.List.Forall2
import Pigeonhole.Json.Display
import Pigeonhole.Proofs.Json.OneLine
import Pigeonhole.Proofs.Text.Quoted

/-!
# Values that differ in their strings

Two values are related if they differ in nothing but strings, keys among them, and these are
related.  A way of writing values in which every string stands between quotes tells such values
apart, and where their texts end (`Writing.tellsApart`).  JSON on one line is written in such a way,
and so are values inside messages.  Nothing is asked of the words and foreign leaves: where they
stand, related values are equal.
-/

namespace Pigeonhole

/-! ## Texts that tell things apart -/

section TellsApart

variable {β : Type} {g : β → List Char}

/-- Two things are told apart by their texts, whatever follows; so is where the texts end. -/
def TellsApart (g : β → List Char) (a b : β) : Prop :=
  ∀ s t, g a ++ s = g b ++ t → a = b ∧ s = t

theorem TellsApart.refl (a : β) : TellsApart g a a := fun _ _ h => ⟨rfl, List.append_cancel_left h⟩

theorem TellsApart.eq {a b : β} (h : TellsApart g a b) (htext : g a = g b) : a = b :=
  (h [] [] (by rw [htext])).1

/-- Lists are told apart if their elements are, pair by pair. -/
theorem TellsApart.joinWith (separator : List Char) {as bs : List β}
    (h : List.Forall₂ (TellsApart g) as bs) :
    TellsApart (fun l => Text.joinWith separator (l.map g)) as bs := by
  induction h with
  | nil => exact fun s t hst => ⟨rfl, hst⟩
  | @cons a b as bs hab hrest ih =>
    intro s t hst
    cases hrest with
    | nil =>
      obtain ⟨rfl, hend⟩ := hab s t hst
      exact ⟨rfl, hend⟩
    | @cons a' b' as bs ha' hrest =>
      simp only [List.map_cons, Text.joinWith, List.append_assoc] at hst
      obtain ⟨rfl, hmore⟩ := hab _ _ hst
      obtain ⟨heq, hend⟩ := ih s t (List.append_cancel_left hmore)
      exact ⟨congrArg (a :: ·) heq, hend⟩

end TellsApart

variable {α : Type}

/-! ## Related values -/

namespace Tree

mutual

/-- Whether values differ in nothing but strings that are related. -/
def Related (R : String → String → Prop) : Tree α → Tree α → Prop
  | .null, .null => True
  | .bool a, .bool b => a = b
  | .num m, .num n => m = n
  | .str s, .str t => R s t
  | .arr as, .arr bs => ItemsRelated R as bs
  | .obj ms, .obj ns => MembersRelated R ms ns
  | .foreign a, .foreign b => a = b
  | _, _ => False

/-- Whether arrays have related items. -/
def ItemsRelated (R : String → String → Prop) : List (Tree α) → List (Tree α) → Prop
  | [], [] => True
  | a :: as, b :: bs => Related R a b ∧ ItemsRelated R as bs
  | _, _ => False

/-- Whether objects have related members in one order. -/
def MembersRelated (R : String → String → Prop) :
    List (String × Tree α) → List (String × Tree α) → Prop
  | [], [] => True
  | (key, a) :: ms, (key', b) :: ns => R key key' ∧ Related R a b ∧ MembersRelated R ms ns
  | _, _ => False

end

variable {R : String → String → Prop}

mutual

theorem Related.refl (hR : ∀ s, R s s) (v : Tree α) : Related R v v := by
  cases v with
  | null => trivial
  | str s => exact hR s
  | arr items => exact ItemsRelated.refl hR items
  | obj members => exact MembersRelated.refl hR members
  | _ => exact rfl

theorem ItemsRelated.refl (hR : ∀ s, R s s) (vs : List (Tree α)) : ItemsRelated R vs vs := by
  cases vs with
  | nil => trivial
  | cons v vs => exact ⟨Related.refl hR v, ItemsRelated.refl hR vs⟩

theorem MembersRelated.refl (hR : ∀ s, R s s) (ms : List (String × Tree α)) :
    MembersRelated R ms ms := by
  cases ms with
  | nil => trivial
  | cons m ms => exact ⟨hR m.1, Related.refl hR m.2, MembersRelated.refl hR ms⟩

end

theorem MembersRelated.append {ms ns ms' ns' : List (String × Tree α)}
    (h : MembersRelated R ms ns) (h' : MembersRelated R ms' ns') :
    MembersRelated R (ms ++ ms') (ns ++ ns') := by
  induction ms generalizing ns with
  | nil =>
    cases ns with
    | nil => exact h'
    | cons => exact h.elim
  | cons m ms ih =>
    cases ns with
    | nil => exact h.elim
    | cons n ns => exact ⟨h.1, h.2.1, ih h.2.2⟩

end Tree

/-! ## Ways of writing values -/

/-- A way of writing values: strings between quotes, and the items of arrays and the members of
objects one after the other with commas between them. -/
structure Writing (α : Type) where
  write : Tree α → List Char
  quote : List Char → List Char
  comma : List Char
  colon : List Char
  quote_inj : ∀ {a b s t}, quote a ++ s = quote b ++ t → a = b ∧ s = t
  write_str : ∀ s, write (.str s) = quote s.toList
  write_arr : ∀ items,
    write (.arr items) = '[' :: (Text.joinWith comma (items.map write) ++ [']'])
  write_obj : ∀ members,
    write (.obj members) =
      '\x7b' :: (Text.joinWith comma
        (members.map fun m => quote m.1.toList ++ (colon ++ write m.2)) ++ ['\x7d'])

namespace Writing

variable {R : String → String → Prop} (w : Writing α)

/-- A member of an object. -/
def member (m : String × Tree α) : List Char := w.quote m.1.toList ++ (w.colon ++ w.write m.2)

-- By induction on the first value; the relation says that the other one has the same parts.
mutual

/-- Related values are told apart by what is written. -/
theorem tellsApart (a b : Tree α) (h : a.Related R b) : TellsApart w.write a b := by
  cases a with
  | str s =>
    cases b with
    | str s' =>
      intro u t hst
      rw [w.write_str, w.write_str] at hst
      obtain ⟨htext, hend⟩ := w.quote_inj hst
      exact ⟨congrArg Tree.str (String.toList_inj.1 htext), hend⟩
    | _ => exact h.elim
  | arr as =>
    cases b with
    | arr bs =>
      intro s t hst
      rw [w.write_arr, w.write_arr, List.cons_append, List.cons_append, List.append_assoc,
        List.append_assoc] at hst
      obtain ⟨rfl, hend⟩ := TellsApart.joinWith w.comma (items_tellsApart as bs h) _ _
        (List.cons.inj hst).2
      exact ⟨rfl, (List.cons.inj hend).2⟩
    | _ => exact h.elim
  | obj ms =>
    cases b with
    | obj ns =>
      intro s t hst
      rw [w.write_obj, w.write_obj, List.cons_append, List.cons_append, List.append_assoc,
        List.append_assoc] at hst
      obtain ⟨rfl, hend⟩ := TellsApart.joinWith w.comma (members_tellsApart ms ns h) _ _
        (List.cons.inj hst).2
      exact ⟨rfl, (List.cons.inj hend).2⟩
    | _ => exact h.elim
  | _ =>
    cases b <;> first
      | exact h.elim
      | exact TellsApart.refl _
      | exact (show _ = _ from h) ▸ TellsApart.refl _

theorem items_tellsApart (as bs : List (Tree α)) (h : Tree.ItemsRelated R as bs) :
    List.Forall₂ (TellsApart w.write) as bs := by
  cases as with
  | nil =>
    cases bs with
    | nil => exact .nil
    | cons => exact h.elim
  | cons a as =>
    cases bs with
    | nil => exact h.elim
    | cons b bs => exact .cons (tellsApart a b h.1) (items_tellsApart as bs h.2)

theorem members_tellsApart (ms ns : List (String × Tree α)) (h : Tree.MembersRelated R ms ns) :
    List.Forall₂ (TellsApart w.member) ms ns := by
  cases ms with
  | nil =>
    cases ns with
    | nil => exact .nil
    | cons => exact h.elim
  | cons m ms =>
    cases ns with
    | nil => exact h.elim
    | cons n ns =>
      obtain ⟨key, a⟩ := m
      obtain ⟨key', b⟩ := n
      refine .cons (fun s t hst => ?_) (members_tellsApart ms ns h.2.2)
      simp only [member, List.append_assoc] at hst
      obtain ⟨hkey, hcolon⟩ := w.quote_inj hst
      obtain ⟨rfl, hend⟩ := tellsApart a b h.2.1 _ _ (List.append_cancel_left hcolon)
      exact ⟨by rw [String.toList_inj.1 hkey], hend⟩

end

end Writing

/-! ## JSON on one line -/

section OneLine

variable (f : JsonFormat) [f.OneLine] (leaf : α → List Char)

theorem elements_eq_joinWith (items : List (Tree α)) :
    Json.elements f leaf 1 items = Text.joinWith f.comma (items.map (Tree.print f leaf 0)) := by
  induction items with
  | nil => rfl
  | cons v rest ih =>
    rw [Json.elements, Json.printItems_eq, ih, Json.print_depth f leaf v 1 0]
    cases rest with
    | nil => simp [Json.afterComma, Text.joinWith]
    | cons => simp [Json.afterComma, Text.joinWith]

theorem fields_eq_joinWith (members : List (String × Tree α)) :
    Json.fields f leaf 1 members = Text.joinWith f.comma
      (members.map fun m => Quoted.quote f.ascii m.1.toList ++ (f.colon ++ m.2.print f leaf 0)) := by
  induction members with
  | nil => rfl
  | cons m rest ih =>
    obtain ⟨key, v⟩ := m
    rw [Json.fields, Json.printMembers_eq, ih, Json.print_depth f leaf v 1 0]
    cases rest with
    | nil => simp [Json.afterComma, Text.joinWith]
    | cons => simp [Json.afterComma, Text.joinWith]

/-- JSON on one line. -/
def Writing.oneLine : Writing α where
  write := Tree.print f leaf 0
  quote := Quoted.quote f.ascii
  comma := f.comma
  colon := f.colon
  quote_inj := Quoted.quote_append_inj
  write_str _ := rfl
  write_arr items := by rw [Json.print_arr, elements_eq_joinWith]
  write_obj members := by rw [Json.print_obj, fields_eq_joinWith]

end OneLine

/-! ## Values inside messages -/

section Message

variable (leaf : α → List Char)

theorem nestedMessage_arr (items : List (Tree α)) :
    (Tree.arr items).nestedMessage leaf =
      '[' :: (Text.joinWith ", ".toList (items.map (Tree.nestedMessage leaf)) ++ [']']) := by
  cases items with
  | nil => rfl
  | cons v rest =>
    induction rest generalizing v with
    | nil => simp [Tree.nestedMessage, Tree.itemsMessage, Text.joinWith]
    | cons v' rest ih =>
      have hrest := ih v'
      simp only [Tree.nestedMessage, Tree.itemsMessage, List.map_cons, List.cons_append,
        List.append_assoc, List.cons.injEq, true_and, Text.joinWith] at hrest ⊢
      rw [hrest]

theorem nestedMessage_obj (members : List (String × Tree α)) :
    (Tree.obj members).nestedMessage leaf =
      '\x7b' :: (Text.joinWith ", ".toList
        (members.map fun m =>
          Text.quoted m.1.toList ++ (": ".toList ++ m.2.nestedMessage leaf)) ++ ['\x7d']) := by
  cases members with
  | nil => rfl
  | cons m rest =>
    induction rest generalizing m with
    | nil => simp [Tree.nestedMessage, Tree.membersMessage, Text.joinWith]
    | cons m' rest ih =>
      have hrest := ih m'
      simp only [Tree.nestedMessage, Tree.membersMessage, List.map_cons, List.cons_append,
        List.append_assoc, List.cons.injEq, true_and, Text.joinWith] at hrest ⊢
      rw [hrest]

/-- Values inside messages. -/
def Writing.message : Writing α where
  write := Tree.nestedMessage leaf
  quote := Text.quoted
  comma := ", ".toList
  colon := ": ".toList
  quote_inj := Text.quoted_append_inj
  write_str _ := rfl
  write_arr := nestedMessage_arr leaf
  write_obj := nestedMessage_obj leaf

end Message

end Pigeonhole

import Mathlib.Logic.Relation
import Pigeonhole.Log.Format
import Pigeonhole.Proofs.Json.Writing
import Pigeonhole.Proofs.Json.Written
import Pigeonhole.Proofs.Log.Redaction

/-!
# What lines tell about account keys

The strings of a message and of a context are redacted, but not the strings inside an array or an
object of the context.  Two records that differ only in account keys therefore have the same line
exactly if no account key inside an array or object differs (`line_eq_iff`): every line, of either
format, tells the values in the context that are not strings.
-/

namespace Pigeonhole.Log

/-! ## Records that differ in account keys -/

/-- In a text an account key is replaced by another. -/
inductive ChangesKey : List Char → List Char → Prop
  | replace {mark first second rest : List Char} (before : List Char)
      (hmark : IsAccountKeyMark mark) (hfirst : IsAccountKey first)
      (hsecond : IsAccountKey second) (hrest : ∀ c ∈ rest.head?, c = ';') :
      ChangesKey (before ++ (mark ++ (first ++ rest))) (before ++ (mark ++ (second ++ rest)))

/-- Strings that differ only in account keys. -/
def SameButKeys (a b : String) : Prop := Relation.ReflTransGen ChangesKey a.toList b.toList

theorem SameButKeys.refl (a : String) : SameButKeys a a := Relation.ReflTransGen.refl

theorem SameButKeys.replace (before mark first second rest : String)
    (hmark : IsAccountKeyMark mark.toList) (hfirst : IsAccountKey first.toList)
    (hsecond : IsAccountKey second.toList) (hrest : ∀ c ∈ rest.toList.head?, c = ';') :
    SameButKeys (before ++ mark ++ first ++ rest) (before ++ mark ++ second ++ rest) := by
  simp only [SameButKeys, String.toList_append, List.append_assoc]
  exact .single (.replace before.toList hmark hfirst hsecond hrest)

theorem redact_eq_of_changesKey {s t : List Char} (h : ChangesKey s t) : redact s = redact t := by
  cases h with
  | replace before hmark hfirst hsecond hrest =>
    exact redact_congr hmark hfirst hsecond hrest before

theorem SameButKeys.redactText_eq {a b : String} (h : SameButKeys a b) :
    redactText a = redactText b := by
  have hredact : ∀ {s t}, Relation.ReflTransGen ChangesKey s t → redact s = redact t := by
    intro s t hst
    induction hst with
    | refl => rfl
    | tail _ hstep ih => rw [ih, redact_eq_of_changesKey hstep]
  rw [redactText, redactText, hredact h]

/-- Members of a context that differ only in account keys, at any depth of their values. -/
def MemberSameButKeys (m n : String × Value) : Prop := m.1 = n.1 ∧ m.2.Related SameButKeys n.2

/-- Records that differ only in account keys, in the message or in the values of the context. -/
structure Record.SameButKeys (r₁ r₂ : Record) : Prop where
  message : r₁.message = r₂.message ∨
    ∃ a b, r₁.message = .str a ∧ r₂.message = .str b ∧ Log.SameButKeys a b
  context : List.Forall₂ MemberSameButKeys r₁.context r₂.context
  others : { r₁ with message := r₂.message, context := r₂.context } = r₂

/-- Contexts that agree in every value but strings. -/
def AgreeInside (ms ns : List (String × Value)) : Prop :=
  List.Forall₂ (fun m n => (∃ s, m.2 = .str s) ∨ m.2 = n.2) ms ns

/-! ## Redacted contexts -/

/-- The members of a context with the strings among their values redacted. -/
def redactMembers (ms : List (String × Value)) : List (String × Value) :=
  ms.map fun (key, v) => (key, redactValue v)

/-- Members of redacted contexts: equal, or different in an array or object only. -/
def MemberAlike (m n : String × Value) : Prop :=
  m = n ∨ m.1 = n.1 ∧ (∀ s, m.2 ≠ .str s) ∧ m.2.Related SameButKeys n.2

theorem redactValue_of_ne {v : Value} (h : ∀ s, v ≠ .str s) : redactValue v = v := by
  cases v with
  | str s => exact absurd rfl (h s)
  | _ => rfl

variable {m n : String × Value} {ms ns : List (String × Value)}

/-- Contexts that are alike are written both or not at all. -/
theorem all_isWritable_of_alike (h : List.Forall₂ MemberAlike ms ns) :
    (ms.all fun m => m.2.isWritable) = ns.all fun m => m.2.isWritable := by
  induction h with
  | nil => rfl
  | @cons m n ms ns hmn hrest ih =>
    have hvalue : m.2.isWritable = n.2.isWritable := by
      rcases hmn with rfl | ⟨-, -, hrelated⟩
      · rfl
      · exact hrelated.isWritable_eq
    rw [List.all_cons, List.all_cons, hvalue, ih]

theorem ne_str_of_related {v w : Value} (h : v.Related SameButKeys w) (hv : ∀ s, v ≠ .str s) :
    ∀ s, w ≠ .str s := by
  rintro s rfl
  cases v with
  | str t => exact hv t rfl
  | _ => exact h

/-- A value is redacted to the same as another one that differs in account keys exactly if it is a
string or the same value. -/
theorem redactValue_eq_iff {v w : Value} (h : v.Related SameButKeys w) :
    redactValue v = redactValue w ↔ (∃ s, v = .str s) ∨ v = w := by
  by_cases hstr : ∃ s, v = .str s
  · obtain ⟨s, rfl⟩ := hstr
    refine iff_of_true ?_ (.inl ⟨s, rfl⟩)
    cases w with
    | str t => exact congrArg Tree.str (SameButKeys.redactText_eq h)
    | _ => exact h.elim
  · have hv : ∀ s, v ≠ .str s := fun s hs => hstr ⟨s, hs⟩
    rw [redactValue_of_ne hv, redactValue_of_ne (ne_str_of_related h hv)]
    exact ⟨.inr, fun h => h.resolve_left hstr⟩

theorem redactMembers_eq_iff (h : List.Forall₂ MemberSameButKeys ms ns) :
    redactMembers ms = redactMembers ns ↔ AgreeInside ms ns := by
  induction h with
  | nil => exact iff_of_true rfl .nil
  | @cons m n ms ns hmn hrest ih =>
    obtain ⟨key, v⟩ := m
    obtain ⟨key', w⟩ := n
    obtain ⟨rfl, hvalue⟩ : key = key' ∧ v.Related SameButKeys w := hmn
    rw [AgreeInside, List.forall₂_cons, ← redactValue_eq_iff hvalue, redactMembers, redactMembers,
      List.map_cons, List.map_cons, List.cons.injEq, Prod.mk.injEq]
    exact and_congr (and_iff_right rfl) ih

theorem memberAlike_redactMembers (h : List.Forall₂ MemberSameButKeys ms ns) :
    List.Forall₂ MemberAlike (redactMembers ms) (redactMembers ns) := by
  rw [redactMembers, redactMembers, List.forall₂_map_left_iff, List.forall₂_map_right_iff]
  refine h.imp fun m n hmn => ?_
  obtain ⟨key, v⟩ := m
  obtain ⟨key', w⟩ := n
  obtain ⟨rfl, hvalue⟩ : key = key' ∧ v.Related SameButKeys w := hmn
  by_cases hstr : ∃ s, v = .str s
  · exact .inl (congrArg (Prod.mk key) ((redactValue_eq_iff hvalue).2 (.inl hstr)))
  · have hv : ∀ s, v ≠ .str s := fun s hs => hstr ⟨s, hs⟩
    refine .inr ⟨rfl, ?_⟩
    show (∀ s, redactValue v ≠ .str s) ∧ (redactValue v).Related SameButKeys (redactValue w)
    rw [redactValue_of_ne hv, redactValue_of_ne (ne_str_of_related hvalue hv)]
    exact ⟨hv, hvalue⟩

theorem redacted_eq {r₁ r₂ : Record} (h : r₁.SameButKeys r₂) :
    r₂.redacted = { r₁.redacted with context := redactMembers r₂.context } := by
  have hmessage : redactValue r₁.message = redactValue r₂.message := by
    rcases h.message with heq | ⟨a, b, ha, hb, hab⟩
    · rw [heq]
    · rw [ha, hb, redactValue, redactValue, hab.redactText_eq]
  rw [← h.others]
  simp only [Record.redacted, redactMembers, hmessage]

/-! ## What a line tells -/

/-- A text made from a context tells the contexts apart that differ in arrays and objects only. -/
def TellsInside (render : List (String × Value) → List Char) : Prop :=
  ∀ ms ns, List.Forall₂ MemberAlike ms ns → render ms = render ns → ms = ns

section Text

/-- A field of a line of text. -/
def fieldText (m : String × Value) : List Char := m.1.toList ++ '=' :: (Value.display m.2).toList

theorem display_of_ne {v : Value} (h : ∀ s, v ≠ .str s) :
    (Value.display v).toList = (Writing.message Foreign.message).write v := by
  rw [Value.display, String.toList_ofList]
  cases v with
  | str s => exact absurd rfl (h s)
  | _ => rfl

theorem tellsApart_fieldText (h : MemberAlike m n) : TellsApart fieldText m n := by
  rcases h with rfl | ⟨hkey, hstr, hvalue⟩
  · exact TellsApart.refl _
  · obtain ⟨key, v⟩ := m
    obtain ⟨key', w⟩ := n
    obtain rfl : key = key' := hkey
    intro s t hst
    rw [fieldText, fieldText, display_of_ne hstr, display_of_ne (ne_str_of_related hvalue hstr),
      List.append_assoc, List.append_assoc] at hst
    have hvalues := (List.cons.inj (List.append_cancel_left hst)).2
    obtain ⟨rfl, hend⟩ := (Writing.message Foreign.message).tellsApart v w hvalue s t hvalues
    exact ⟨rfl, hend⟩

theorem insertFields_inj {text : List Char} (h : List.Forall₂ (TellsApart fieldText) ms ns)
    (heq : insertFields text (ms.map fieldText) = insertFields text (ns.map fieldText)) :
    ms = ns := by
  cases h with
  | nil => rfl
  | cons hmn hrest =>
    simp only [insertFields, List.map_cons, List.isEmpty_cons, List.append_assoc] at heq
    have hjoined := List.append_cancel_left (List.append_cancel_left heq)
    exact (TellsApart.joinWith [' '] (.cons hmn hrest) _ _ hjoined).1

theorem tellsInside_insertFields (text : List Char) (before : List (String × Value)) :
    TellsInside fun ms => insertFields text ((before ++ ms).map fieldText) := by
  intro ms ns h heq
  have hfields : List.Forall₂ (TellsApart fieldText) (before ++ ms) (before ++ ns) :=
    List.rel_append (List.forall₂_same.2 fun m _ => TellsApart.refl m)
      (h.imp fun m n => tellsApart_fieldText)
  exact List.append_cancel_left (insertFields_inj hfields heq)

/-- The correlation id as a field. -/
theorem fields_eq (r : Record) : r.fields =
    ((r.correlationId.toList.map fun id => ("corr", Tree.str id)) ++ r.context).map fieldText := by
  have hcorr : ∀ id : String, "corr=".toList ++ id.toList = fieldText ("corr", .str id) := by
    intro id
    have hdisplay : (Value.display (.str id)).toList = id.toList := String.toList_ofList
    have hmark : "corr=".toList = "corr".toList ++ ['='] := by decide
    rw [fieldText, hdisplay, hmark, List.append_assoc, List.singleton_append]
  rw [Record.fields, List.map_append, List.map_map]
  simp only [hcorr]
  rfl

end Text

section Json

/-- The member of a context that is not empty. -/
def contextPart (ms : List (String × Value)) : List (String × Value) :=
  if ms.isEmpty then [] else [("context", .obj ms)]

theorem contextPart_inj (h : contextPart ms = contextPart ns) : ms = ns := by
  cases ms <;> cases ns <;> simp_all [contextPart]

theorem membersRelated_of_alike (h : List.Forall₂ MemberAlike ms ns) :
    Tree.MembersRelated SameButKeys ms ns := by
  induction h with
  | nil => trivial
  | @cons m n ms ns hmn hrest ih =>
    rcases hmn with rfl | ⟨hkey, -, hvalue⟩
    · exact ⟨SameButKeys.refl m.1, Tree.Related.refl SameButKeys.refl m.2, ih⟩
    · exact ⟨hkey ▸ SameButKeys.refl m.1, hvalue, ih⟩

theorem contextPart_related (h : List.Forall₂ MemberAlike ms ns) :
    Tree.MembersRelated SameButKeys (contextPart ms) (contextPart ns) := by
  cases h with
  | nil => trivial
  | cons hmn hrest =>
    exact ⟨SameButKeys.refl "context", membersRelated_of_alike (.cons hmn hrest), trivial⟩

/-- What stands around the context in the object of a record. -/
theorem exists_members_eq (r : Record) (time message : List Char) :
    ∃ before after, ∀ ms, { r with context := ms }.members time message =
      before ++ (contextPart ms ++ after) := by
  refine ⟨[("timestamp", Tree.ofString time), ("level", .str r.level.name),
      ("logger", .str r.logger), ("message", Tree.ofString message)] ++
        r.correlationId.toList.map fun id => ("correlation_id", .str id),
    r.exception.toList.map fun text => ("exception", .str text), fun ms => ?_⟩
  rw [Record.members, List.append_assoc]
  rfl

theorem tellsInside_print (before after : List (String × Value)) :
    TellsInside fun ms =>
      Tree.print .line foreignText 0 (.obj (before ++ (contextPart ms ++ after))) := by
  intro ms ns h heq
  have hrelated : Tree.MembersRelated SameButKeys (before ++ (contextPart ms ++ after))
      (before ++ (contextPart ns ++ after)) :=
    (Tree.MembersRelated.refl SameButKeys.refl before).append
      ((contextPart_related h).append (Tree.MembersRelated.refl SameButKeys.refl after))
  have hobjects := ((Writing.oneLine .line foreignText).tellsApart _ _
    (show (Tree.obj _).Related SameButKeys (.obj _) from hrelated)).eq heq
  exact contextPart_inj
    (List.append_cancel_right (List.append_cancel_left (Tree.obj.inj hobjects)))

end Json

/-! ## Lines -/

/-- A record with another context is refused whatever it is, or for a long integer only, and else
its line tells what is inside the context. -/
theorem line_cases (f : Format) (r : Record) :
    (∃ e, ∀ ms, f.line { r with context := ms } = .error e) ∨
      ∃ render, TellsInside render ∧ ∀ ms, f.line { r with context := ms } =
        if ms.all (·.2.isWritable) then .ok (render ms) else .error .longInteger := by
  have htext : ∀ ms, { r with context := ms }.text = r.text := fun _ => rfl
  cases f with
  | json =>
    simp only [Format.line, Record.jsonLine, htext]
    cases isoTime r.created with
    | error e => exact .inl ⟨_, fun _ => rfl⟩
    | ok time =>
      cases r.text with
      | error e => exact .inl ⟨_, fun _ => rfl⟩
      | ok message =>
        obtain ⟨before, after, hmembers⟩ := exists_members_eq r time message
        refine .inr ⟨_, tellsInside_print before after, fun ms => ?_⟩
        rw [← hmembers ms]
        rfl
  | text =>
    simp only [Format.line, Record.textLine, htext]
    cases r.text with
    | error e => exact .inl ⟨_, fun _ => rfl⟩
    | ok message =>
      cases plainTime r.created with
      | error e => exact .inl ⟨_, fun _ => rfl⟩
      | ok time =>
        refine .inr ⟨_, tellsInside_insertFields
          (withException (r.heading time ++ message) r.exception)
          (r.correlationId.toList.map fun id => ("corr", Tree.str id)), fun ms => ?_⟩
        simp only [fields_eq]
        rfl

/-- Two records that differ only in account keys have the same line after redaction exactly if they
are refused, or agree inside the arrays and objects of their contexts. -/
theorem line_eq_iff {r₁ r₂ : Record} (h : r₁.SameButKeys r₂) (f : Format)
    (current : Option String) :
    f.line (Filter.secrets.apply current r₁) = f.line (Filter.secrets.apply current r₂) ↔
      (∃ e, f.line (Filter.secrets.apply current r₁) = .error e) ∨
        AgreeInside r₁.context r₂.context := by
  rw [← redactMembers_eq_iff h.context]
  show f.line r₁.redacted = f.line r₂.redacted ↔ (∃ e, f.line r₁.redacted = .error e) ∨ _
  have hself : r₁.redacted = { r₁.redacted with context := redactMembers r₁.context } := rfl
  rw [redacted_eq h, hself]
  have halike := memberAlike_redactMembers h.context
  rcases line_cases f r₁.redacted with ⟨e, hrefused⟩ | ⟨render, htells, hline⟩
  · rw [hrefused, hrefused]
    exact iff_of_true rfl (.inl ⟨e, rfl⟩)
  rw [hline, hline, ← all_isWritable_of_alike halike]
  split
  · rw [Except.ok.injEq]
    constructor
    · exact fun heq => .inr (htells _ _ halike heq)
    · rintro (⟨e, he⟩ | heq)
      · cases he
      · rw [heq]
  · exact iff_of_true rfl (.inl ⟨_, rfl⟩)

/-- A record with an account key in the message, in a string and in an array of the context. -/
def keyed (shown hidden : String) : Record where
  level := .info
  logger := "client"
  message := .str ("READ " ++ "AccountKey=" ++ hidden ++ ";")
  context :=
    [("conn", .str ("" ++ "accountkey=" ++ hidden ++ "")),
      ("pkey", .arr [.str ("" ++ "AccountKey=" ++ shown ++ "")])]

theorem sameButKeys_keyed {shown shown' hidden hidden' : String}
    (hshown : IsAccountKey shown.toList) (hshown' : IsAccountKey shown'.toList)
    (hhidden : IsAccountKey hidden.toList) (hhidden' : IsAccountKey hidden'.toList) :
    (keyed shown hidden).SameButKeys (keyed shown' hidden') where
  message := .inr ⟨_, _, rfl, rfl,
    .replace "READ " "AccountKey=" hidden hidden' ";" (by decide) hhidden hhidden' (by decide)⟩
  context := .cons
    ⟨rfl, .replace "" "accountkey=" hidden hidden' "" (by decide) hhidden hhidden' (by decide)⟩ <|
    .cons
      ⟨rfl, .replace "" "AccountKey=" shown shown' "" (by decide) hshown hshown' (by decide),
        trivial⟩ .nil
  others := rfl

/-- With the same key in the array the lines are the same. -/
theorem line_eq_iff_keyed :
    (keyed "abc" "abc").SameButKeys (keyed "abc" "xyz") ∧
      ∀ f : Format, f.line (Filter.secrets.apply none (keyed "abc" "abc")) =
        f.line (Filter.secrets.apply none (keyed "abc" "xyz")) := by
  have hsame : (keyed "abc" "abc").SameButKeys (keyed "abc" "xyz") :=
    sameButKeys_keyed ⟨by decide, by decide⟩ ⟨by decide, by decide⟩ ⟨by decide, by decide⟩
      ⟨by decide, by decide⟩
  refine ⟨hsame, fun f => (line_eq_iff hsame f none).2 (.inr ?_)⟩
  exact .cons (.inl ⟨_, rfl⟩) (.cons (.inr rfl) .nil)

/-- The key in the array stands in the lines. -/
theorem line_tells_key :
    (keyed "abc" "abc").SameButKeys (keyed "xyz" "abc") ∧
      ∀ f : Format, f.line (Filter.secrets.apply none (keyed "abc" "abc")) ≠
        f.line (Filter.secrets.apply none (keyed "xyz" "abc")) := by
  refine ⟨sameButKeys_keyed ⟨by decide, by decide⟩ ⟨by decide, by decide⟩ ⟨by decide, by decide⟩
    ⟨by decide, by decide⟩, fun f => ?_⟩
  cases f <;> decide +kernel

end Pigeonhole.Log

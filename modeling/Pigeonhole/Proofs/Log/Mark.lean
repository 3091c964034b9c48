import Pigeonhole.Log.Redaction
import Pigeonhole.Proofs.Text.Cut
import Pigeonhole.Proofs.Text.Keyword

/-!
# Marks of secrets

A secret follows the mark that announces it, and `Secret.mask` goes from one such mark to the next
(`Secret.mask_induct`).  A text is `Secret.Clean` if nothing but the mask follows its marks; masking
changes nothing in such a text (`Secret.mask_of_clean`).

A mark is a word with blanks, quotes and signs behind it, and what it announces depends on no more of
the text behind it than the first character (`SecretKind.exists_mark`).  Marks of two kinds do not
overlap, and no mark begins inside a mask (`SecretKind.uncut_mark`, `SecretKind.uncut_redacted`).
-/

namespace Pigeonhole.Log

open Text

/-! ## From mark to mark -/

namespace Secret

variable {p : Secret}

/-- No secret is announced at the beginning of a text. -/
def Open (p : Secret) (s : List Char) : Prop :=
  ∀ rest, p.lead s = some rest → ∀ c ∈ rest.head?, p.holds c = false

/-- The secret, where a mark announces one: all characters that belong to it, and at least one. -/
structure Announced (p : Secret) (mark secret rest : List Char) : Prop where
  lead_eq : p.lead (mark ++ (secret ++ rest)) = some (secret ++ rest)
  mark_ne : mark ≠ []
  secret_ne : secret ≠ []
  holds : ∀ c ∈ secret, p.holds c = true
  ends : ∀ c ∈ rest.head?, p.holds c = false

/-- Whether every announcement is a text in front of what it leaves. -/
def Leads (p : Secret) : Prop :=
  ∀ s rest, p.lead s = some rest → ∃ mark, s = mark ++ rest ∧ mark ≠ []

theorem mask_of_open {c : Char} {s : List Char} (h : p.Open (c :: s)) :
    p.mask (c :: s) = c :: p.mask s := by
  have hat : p.at? (c :: s) = none := by
    unfold at?
    split
    next rest hlead =>
      have hnil : rest.takeWhile p.holds = [] := by
        cases rest with
        | nil => rfl
        | cons d rest => exact List.takeWhile_cons_of_neg (by rw [h _ hlead d rfl]; decide)
      rw [hnil, if_pos List.isEmpty_nil]
    next => rfl
  rw [mask, hat]

theorem takeWhile_append_of_ends {q : Char → Bool} {s rest : List Char} (hs : ∀ c ∈ s, q c = true)
    (hrest : ∀ c ∈ rest.head?, q c = false) :
    (s ++ rest).takeWhile q = s ∧ (s ++ rest).dropWhile q = rest := by
  rw [List.takeWhile_append_of_pos hs, List.dropWhile_append_of_pos hs]
  cases rest with
  | nil => exact ⟨List.append_nil s, rfl⟩
  | cons c rest =>
    have hc : ¬ q c = true := by rw [hrest c rfl]; decide
    rw [List.takeWhile_cons_of_neg hc, List.dropWhile_cons_of_neg hc, List.append_nil]
    exact ⟨rfl, rfl⟩

theorem Announced.mask_eq {mark secret rest : List Char} (h : p.Announced mark secret rest) :
    p.mask (mark ++ (secret ++ rest)) = mark ++ (redacted ++ p.mask rest) := by
  obtain ⟨htake, hdrop⟩ := takeWhile_append_of_ends h.holds h.ends
  have hempty : secret.isEmpty = false := List.isEmpty_eq_false_iff.2 h.secret_ne
  have hlength : (mark ++ (secret ++ rest)).length - (secret ++ rest).length = mark.length := by
    rw [List.length_append, Nat.add_sub_cancel]
  have hat : p.at? (mark ++ (secret ++ rest)) = some (mark, rest) := by
    simp only [at?, h.lead_eq, htake, hdrop, hempty, hlength, List.take_left, Bool.false_eq_true,
      if_false]
  have hshort : rest.length < (mark ++ (secret ++ rest)).length := by
    have hmark := List.length_pos_iff.2 h.mark_ne
    simp only [List.length_append]
    omega
  obtain ⟨c, s, hcons⟩ := List.exists_cons_of_ne_nil (List.append_ne_nil_of_left_ne_nil h.mark_ne
    (secret ++ rest))
  rw [hcons] at hat hshort ⊢
  rw [mask, hat]
  simp only [hshort, if_true, List.append_assoc]

/-- A text is over, or its first character is kept, or a secret is announced at its beginning. -/
theorem cases_of_leads (hp : p.Leads) (s : List Char) :
    s = [] ∨ (∃ c t, s = c :: t ∧ p.Open (c :: t)) ∨
      ∃ mark secret rest, s = mark ++ (secret ++ rest) ∧ p.Announced mark secret rest := by
  cases s with
  | nil => exact .inl rfl
  | cons c t =>
    right
    by_cases hopen : p.Open (c :: t)
    · exact .inl ⟨c, t, rfl, hopen⟩
    · right
      simp only [Open, not_forall] at hopen
      obtain ⟨rest, hlead, d, hd, hholds⟩ := hopen
      obtain ⟨mark, hmark, hne⟩ := hp _ _ hlead
      have hsplit := List.takeWhile_append_dropWhile (p := p.holds) (l := rest)
      refine ⟨mark, rest.takeWhile p.holds, rest.dropWhile p.holds, by rw [hsplit, hmark], ?_⟩
      refine ⟨by rw [hsplit, ← hmark, hlead], hne, ?_, fun e he => List.mem_takeWhile_imp he, ?_⟩
      · cases rest with
        | nil => cases hd
        | cons e rest =>
          obtain rfl := Option.some.inj hd
          rw [List.takeWhile_cons_of_pos (by simpa using hholds)]
          exact List.cons_ne_nil _ _
      · intro e he
        have hnot := List.head?_dropWhile_not p.holds rest
        rw [Option.mem_def] at he
        rw [he] at hnot
        exact hnot

/-- Masking goes along a text: a character is kept where no secret is announced, and a secret is passed
over as a whole. -/
theorem mask_induct (hp : p.Leads) {motive : List Char → Prop} (nil : motive [])
    (keep : ∀ c s, p.Open (c :: s) → motive s → motive (c :: s))
    (hide : ∀ mark secret rest, p.Announced mark secret rest → motive rest →
      motive (mark ++ (secret ++ rest))) (s : List Char) : motive s := by
  rcases cases_of_leads hp s with rfl | ⟨c, t, rfl, hopen⟩ | ⟨mark, secret, rest, rfl, h⟩
  · exact nil
  · exact keep c t hopen (mask_induct hp nil keep hide t)
  · have := List.length_pos_iff.2 h.mark_ne
    exact hide mark secret rest h (mask_induct hp nil keep hide rest)
termination_by s.length
decreasing_by
  all_goals subst_vars; simp only [List.length_cons, List.length_append]; omega

@[simp] theorem mask_nil : p.mask [] = [] := by rw [mask]

theorem head?_mask (hp : p.Leads) (s : List Char) : (p.mask s).head? = s.head? := by
  rcases cases_of_leads hp s with rfl | ⟨c, t, rfl, hopen⟩ | ⟨mark, secret, rest, rfl, h⟩
  · rw [mask_nil]
  · rw [mask_of_open hopen, List.head?_cons, List.head?_cons]
  · obtain ⟨c, mark, rfl⟩ := List.exists_cons_of_ne_nil h.mark_ne
    rw [h.mask_eq]
    rfl

/-- A piece in which no mark begins is kept. -/
theorem mask_append_of_uncut {piece tail : List Char} (h : Uncut p.lead piece tail) :
    p.mask (piece ++ tail) = piece ++ p.mask tail := by
  induction piece with
  | nil => rfl
  | cons c piece ih =>
    have hopen : p.Open (c :: (piece ++ tail)) := fun rest hlead => by
      rw [h.1] at hlead
      cases hlead
    rw [List.cons_append, mask_of_open hopen, ih h.2, List.cons_append]

/-! ## Clean texts -/

/-- Whether nothing but the mask follows any mark in a text. -/
def Clean (p : Secret) (s : List Char) : Prop :=
  ∀ mark rest, (mark ++ rest) <:+ s → p.lead (mark ++ rest) = some rest →
    (∀ c ∈ rest.head?, p.holds c = false) ∨
      ∃ after, rest = redacted ++ after ∧ ∀ c ∈ after.head?, p.holds c = false

theorem Clean.suffix {s t : List Char} (h : p.Clean s) (ht : t <:+ s) : p.Clean t :=
  fun mark rest hrest => h mark rest (hrest.trans ht)

/-- Masking changes nothing in a clean text. -/
theorem mask_of_clean (hp : p.Leads) (hmask : ∀ c ∈ redacted, p.holds c = true) {s : List Char}
    (h : p.Clean s) : p.mask s = s := by
  induction s using mask_induct hp with
  | nil => exact mask_nil
  | keep c s hopen ih => rw [mask_of_open hopen, ih (h.suffix (List.suffix_cons c s))]
  | hide mark secret rest hsecret ih =>
    have hrest : rest <:+ mark ++ (secret ++ rest) :=
      (List.suffix_append secret rest).trans (List.suffix_append mark _)
    have hsame : secret = redacted := by
      rcases h mark (secret ++ rest) (List.suffix_refl _) hsecret.lead_eq with hopen | ⟨after, heq, hafter⟩
      · obtain ⟨c, secret, rfl⟩ := List.exists_cons_of_ne_nil hsecret.secret_ne
        have hc := hopen c rfl
        rw [hsecret.holds c List.mem_cons_self] at hc
        cases hc
      · have htake := (takeWhile_append_of_ends hsecret.holds hsecret.ends).1
        rw [heq, (takeWhile_append_of_ends hmask hafter).1] at htake
        exact htake.symm
    rw [hsecret.mask_eq, ih (h.suffix hrest), hsame]

end Secret

/-! ## Fillers -/

/-- Blanks and quotes. -/
def isFiller (c : Char) : Bool := isBlank c || c = '\x22' || c = '\x27'

/-- Whether a function drops nothing but fillers from the beginning of a text, and drops the same if
another text follows that begins as the rest does, or with no filler. -/
def Drops (f : List Char → List Char) : Prop :=
  ∀ s, ∃ fillers, s = fillers ++ f s ∧ (∀ c ∈ fillers, isFiller c = true) ∧
    ∀ other, (∀ c ∈ other.head?, c ∈ (f s).head? ∨ isFiller c = false) →
      f (fillers ++ other) = other

theorem Drops.comp {f g : List Char → List Char} (hg : Drops g) (hf : Drops f) :
    Drops fun s => g (f s) := by
  intro s
  obtain ⟨first, hs, hfirst, hdrop⟩ := hf s
  obtain ⟨second, hfs, hsecond, hdrop'⟩ := hg (f s)
  refine ⟨first ++ second, by rw [List.append_assoc, ← hfs, ← hs],
    List.forall_mem_append.2 ⟨hfirst, hsecond⟩, fun other hother => ?_⟩
  have hhead : ∀ c ∈ (second ++ other).head?, c ∈ (f s).head? ∨ isFiller c = false := by
    intro c hc
    cases second with
    | nil => rw [hfs]; exact hother c hc
    | cons d second => rw [hfs]; exact .inl hc
  show g (f (first ++ second ++ other)) = other
  rw [List.append_assoc, hdrop _ hhead, hdrop' other hother]

theorem drops_stripLeft : Drops stripLeft := by
  intro s
  refine ⟨s.takeWhile isBlank, (List.takeWhile_append_dropWhile).symm, fun c hc => ?_,
    fun other hother => ?_⟩
  · rw [isFiller, List.mem_takeWhile_imp hc]
    rfl
  · rw [stripLeft_append_of_isBlank fun c hc => List.mem_takeWhile_imp hc]
    refine stripLeft_eq_self fun c hc => ?_
    rcases hother c hc with hhead | hfiller
    · have hnot := List.head?_dropWhile_not isBlank s
      rw [stripLeft, Option.mem_def] at hhead
      rw [hhead] at hnot
      exact hnot
    · rw [isFiller, Bool.or_assoc, Bool.or_eq_false_iff] at hfiller
      exact hfiller.1

theorem dropQuote_of_not {s : List Char} (h : ∀ c ∈ s.head?, ¬ (c = '\x22' ∨ c = '\x27')) :
    dropQuote s = s := by
  cases s with
  | nil => rfl
  | cons c s => exact if_neg (h c rfl)

theorem drops_dropQuote : Drops dropQuote := by
  have hquote : ∀ c, isFiller c = false → ¬ (c = '\x22' ∨ c = '\x27') := by
    rintro c hc (rfl | rfl) <;> revert hc <;> decide
  intro s
  cases s with
  | nil =>
    exact ⟨[], rfl, fun c hc => absurd hc List.not_mem_nil, fun other hother =>
      dropQuote_of_not fun c hc => hquote c ((hother c hc).resolve_left (by simp [dropQuote]))⟩
  | cons c s =>
    by_cases hc : c = '\x22' ∨ c = '\x27'
    · refine ⟨[c], by rw [dropQuote, if_pos hc]; rfl, fun d hd => ?_, fun other _ => if_pos hc⟩
      obtain rfl := List.mem_singleton.1 hd
      rcases hc with rfl | rfl <;> decide
    · refine ⟨[], by rw [dropQuote, if_neg hc]; rfl, fun d hd => absurd hd List.not_mem_nil,
        fun other hother => dropQuote_of_not fun d hd => ?_⟩
      rcases hother d hd with hhead | hfiller
      · rw [dropQuote, if_neg hc] at hhead
        obtain rfl := Option.some.inj hhead
        exact hc
      · exact hquote d hfiller

/-! ## Marks -/

/-- The kinds of secrets, in the order in which they are masked. -/
inductive SecretKind where
  | accountKey
  | masterKey
  | authorization
deriving DecidableEq

namespace SecretKind

/-- The secrets of a kind. -/
def secret : SecretKind → Secret
  | accountKey => Log.accountKey
  | masterKey => Log.masterKey
  | authorization => Log.authorization

/-- The word of the marks of a kind, in small letters. -/
def word : SecretKind → List Char
  | accountKey => "accountkey=".toList
  | masterKey => "masterkey".toList
  | authorization => "authorization:".toList

/-- The characters of marks after their words. -/
def isJoint (c : Char) : Bool := isFiller c || c = ':' || c = '='

variable {i j : SecretKind}

theorem lead_eq_none {s : List Char} (h : dropKeyword i.word s = none) : i.secret.lead s = none := by
  cases i with
  | accountKey => exact h
  | masterKey => exact congrArg (Option.bind · _) h
  | authorization => exact congrArg (Option.bind · _) h

/-- Whether a word with joints behind it is the mark in front of a rest.  It announces as much if
another text follows that begins as the rest does, or with a character of secrets. -/
structure Mark (i : SecretKind) (token joints rest : List Char) : Prop where
  word_eq : token.map foldLetter = i.word
  isJoint : ∀ c ∈ joints, isJoint c = true
  lead_eq : ∀ other, (∀ c ∈ other.head?, c ∈ rest.head? ∨ i.secret.holds c = true) →
    i.secret.lead (token ++ (joints ++ other)) = some other

theorem isJoint_of_isFiller {c : Char} (h : isFiller c = true) : isJoint c = true := by
  rw [isJoint, h]
  rfl

theorem exists_of_dropAssignment {s value : List Char} (h : dropAssignment s = some value) :
    ∃ sign, (sign = ':' ∨ sign = '=') ∧ s = sign :: value := by
  cases s with
  | nil => cases h
  | cons sign more =>
    rw [dropAssignment] at h
    split at h
    next hsign => exact ⟨sign, hsign, by rw [Option.some.inj h]⟩
    next => cases h

theorem exists_mark_masterKey {s rest : List Char} (h : Log.masterKey.lead s = some rest) :
    ∃ token joints, s = token ++ (joints ++ rest) ∧ Mark .masterKey token joints rest := by
  obtain ⟨behind, hword, hassigned⟩ := Option.bind_eq_some_iff.1 h
  obtain ⟨token, rfl, htoken⟩ := exists_append_of_dropKeyword hword
  obtain ⟨value, hvalue, rfl⟩ := Option.map_eq_some_iff.1 hassigned
  obtain ⟨first, hbehind, hfirst, hdrop⟩ := (drops_stripLeft.comp drops_dropQuote) behind
  obtain ⟨second, hsecond, hfillers, hdrop'⟩ := (drops_dropQuote.comp drops_stripLeft) value
  obtain ⟨sign, hsign, hcut⟩ := exists_of_dropAssignment hvalue
  beta_reduce at hbehind hdrop hsecond hdrop'
  rw [hcut] at hbehind hdrop
  refine ⟨token, first ++ sign :: second, ?_, htoken, ?_, fun other hother => ?_⟩
  · rw [List.append_assoc, List.cons_append, ← hsecond, ← hbehind]
  · refine List.forall_mem_append.2 ⟨fun c hc => isJoint_of_isFiller (hfirst c hc),
      List.forall_mem_cons.2 ⟨?_, fun c hc => isJoint_of_isFiller (hfillers c hc)⟩⟩
    rcases hsign with rfl | rfl <;> decide
  · have hother' : ∀ c ∈ other.head?, c ∈ (dropQuote (stripLeft value)).head? ∨
        isFiller c = false := by
      intro c hc
      refine (hother c hc).imp_right fun hholds => ?_
      simp only [secret, Log.masterKey, Bool.not_eq_true', Bool.or_eq_false_iff] at hholds
      simp only [isFiller, hholds, Bool.or_self]
    have hlead : dropKeyword "masterkey".toList (token ++ (first ++ sign :: second ++ other)) =
        some (first ++ sign :: (second ++ other)) := by
      rw [List.append_assoc, List.cons_append]
      exact dropKeyword_spelled htoken _
    have hfound : stripLeft (dropQuote (first ++ sign :: (second ++ other))) =
        sign :: (second ++ other) := hdrop _ fun c hc => .inl hc
    simp only [secret, Log.masterKey, hlead, Option.bind_some, hfound, dropAssignment, hsign,
      if_true, Option.map_some, hdrop' other hother']

theorem exists_mark_authorization {s rest : List Char} (h : Log.authorization.lead s = some rest) :
    ∃ token joints, s = token ++ (joints ++ rest) ∧ Mark .authorization token joints rest := by
  obtain ⟨behind, hword, hblanks⟩ := Option.bind_eq_some_iff.1 h
  obtain ⟨token, rfl, htoken⟩ := exists_append_of_dropKeyword hword
  obtain ⟨blanks, rfl, hb, hrest⟩ := exists_blanks_of_dropBlanks1 hblanks
  refine ⟨token, blanks, rfl, htoken, fun c hc => isJoint_of_isFiller ?_, fun other hother => ?_⟩
  · rw [isFiller, hb.isBlank c hc]
    rfl
  · have hstrip : stripLeft other = other := by
      refine stripLeft_eq_self fun c hc => ?_
      rcases hother c hc with hhead | hholds
      · have hnot := List.head?_dropWhile_not isBlank rest
        rw [← stripLeft, hrest, hhead] at hnot
        exact hnot
      · simp only [secret, Log.authorization, Bool.not_eq_true'] at hholds
        exact hholds
    have hlead : dropKeyword "authorization:".toList (token ++ (blanks ++ other)) =
        some (blanks ++ other) := dropKeyword_spelled htoken _
    simp only [secret, Log.authorization, hlead, Option.bind_some, dropBlanks1_append hb, hstrip]

/-- Where a secret is announced, a mark stands in front of it. -/
theorem exists_mark {s rest : List Char} (h : i.secret.lead s = some rest) :
    ∃ token joints, s = token ++ (joints ++ rest) ∧ i.Mark token joints rest := by
  cases i with
  | accountKey =>
    obtain ⟨token, rfl, htoken⟩ := exists_append_of_dropKeyword h
    exact ⟨token, [], rfl, htoken, fun c hc => absurd hc List.not_mem_nil,
      fun other _ => dropKeyword_spelled htoken other⟩
  | masterKey => exact exists_mark_masterKey h
  | authorization => exact exists_mark_authorization h

theorem leads (i : SecretKind) : i.secret.Leads := by
  intro s rest h
  obtain ⟨token, joints, rfl, htoken, -, -⟩ := exists_mark h
  refine ⟨token ++ joints, (List.append_assoc _ _ _).symm, ?_⟩
  rintro hnil
  rw [(List.append_eq_nil_iff.1 hnil).1] at htoken
  cases i <;> cases htoken

/-- A piece that ends with joints holds no mark if none begins in its word. -/
theorem uncut_of_clash {token joints : List Char} (hjoints : ∀ c ∈ joints, isJoint c = true)
    (h : ∀ w ∈ (token.map foldLetter).tails, w ≠ [] → clash j.word w = true) (tail : List Char) :
    Uncut j.secret.lead (token ++ joints) tail := by
  have hletter : ∀ c, isJoint c = true → clash j.word [foldLetter c] = true := by
    intro c hc
    simp only [isJoint, isFiller, Bool.or_eq_true, decide_eq_true_iff] at hc
    rcases hc with (((hblank | rfl) | rfl) | rfl) | rfl
    · have hchecked : (clash j.word [c]) = true :=
        forall_of_isBlank (p := fun c => clash j.word [c]) (by cases j <;> decide +kernel) hblank
      rwa [foldLetter_of_isBlank hblank]
    all_goals cases j <;> decide
  refine uncut_append.2 ⟨uncut_of_forall_suffix fun before c after heq => ?_,
    uncut_of_forall (fun c hc s => lead_eq_none ?_) tail⟩
  · have hsuffix : (c :: after).map foldLetter <:+ token.map foldLetter :=
      List.IsSuffix.map _ ⟨before, heq.symm⟩
    have hclash := h _ ((List.mem_tails _ _).2 hsuffix) (List.cons_ne_nil _ _)
    exact lead_eq_none (dropKeyword_of_clash hclash _)
  · have hclash : clash j.word ([c].map foldLetter) = true := hletter c (hjoints c hc)
    exact dropKeyword_of_clash hclash s

/-- No mark begins in a mask. -/
theorem uncut_redacted (j : SecretKind) (tail : List Char) : Uncut j.secret.lead redacted tail := by
  have hchecked : ∀ w ∈ (redacted.map foldLetter).tails, w ≠ [] → clash j.word w = true := by
    cases j <;> decide
  have hnone : ∀ c ∈ ([] : List Char), isJoint c = true := fun c hc => absurd hc List.not_mem_nil
  have huncut := uncut_of_clash hnone hchecked tail
  rwa [List.append_nil] at huncut

/-- No mark begins in another one, except that a mark of the same kind begins where it does itself. -/
theorem uncut_mark {mark rest : List Char} (h : i.secret.lead (mark ++ rest) = some rest)
    (j : SecretKind) : ∃ c more, mark = c :: more ∧ (∀ tail, Uncut j.secret.lead more tail) ∧
      (i ≠ j → ∀ tail, j.secret.lead (mark ++ tail) = none) ∧ '*' ∉ mark := by
  obtain ⟨token, joints, heq, htoken, hjoints, -⟩ := exists_mark h
  rw [← List.append_assoc] at heq
  obtain rfl := List.append_cancel_right heq
  obtain ⟨k, w, hword⟩ : ∃ k w, i.word = k :: w := by cases i <;> exact ⟨_, _, rfl⟩
  rw [hword] at htoken
  obtain ⟨c, more, rfl⟩ : ∃ c more, token = c :: more := by
    cases token with
    | nil => cases htoken
    | cons c more => exact ⟨c, more, rfl⟩
  have hmore : more.map foldLetter = w := (List.cons.inj htoken).2
  refine ⟨c, more ++ joints, rfl, fun tail => uncut_of_clash hjoints ?_ tail, fun hij tail => ?_, ?_⟩
  · rw [hmore]
    cases i <;> obtain ⟨rfl, rfl⟩ := List.cons.inj hword <;> cases j <;> decide
  · have hclash : clash j.word ((c :: more).map foldLetter) = true := by
      rw [htoken, ← hword]
      revert hij
      cases i <;> cases j <;> decide
    rw [List.append_assoc]
    exact lead_eq_none (dropKeyword_of_clash hclash _)
  · intro hstar
    rcases List.mem_append.1 hstar with hstar | hstar
    · have hmem : foldLetter '*' ∈ i.word := by
        rw [hword, ← htoken]
        exact List.mem_map_of_mem hstar
      revert hmem
      cases i <;> decide
    · exact absurd (hjoints _ hstar) (by decide)

end SecretKind

end Pigeonhole.Log

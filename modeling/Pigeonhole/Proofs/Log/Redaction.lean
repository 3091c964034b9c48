import Pigeonhole.Proofs.Log.Mark

/-!
# Redaction

Three kinds of secrets are masked one after the other.  A mark in a masked text was there before, or a
mask was put behind it (`SecretKind.lead_mask`), so masking makes a text clean of its kind
(`SecretKind.clean_mask`) and leaves it clean of another (`SecretKind.clean_mask_of_clean`).  Hence
redaction changes nothing the second time, and what it makes of a text does not depend on an account
key in it (`redactText_settles`).
-/

namespace Pigeonhole.Log

open Text

namespace SecretKind

variable {i j : SecretKind}

/-! ## Masked texts -/

/-- A piece of a masked text that holds no star, and in which no mark begins, was there before. -/
theorem exists_of_mask_eq {piece rest : List Char} (hpiece : ∀ tail, Uncut i.secret.lead piece tail)
    (hstar : '*' ∉ piece) {s : List Char} (h : i.secret.mask s = piece ++ rest) :
    ∃ before, s = piece ++ before ∧ i.secret.mask before = rest := by
  induction piece generalizing s with
  | nil => exact ⟨s, rfl, h⟩
  | cons c piece ih =>
    rcases Secret.cases_of_leads i.leads s with rfl | ⟨d, t, rfl, hopen⟩ | ⟨mark, secret, after, rfl, hs⟩
    · rw [Secret.mask_nil] at h
      cases h
    · rw [Secret.mask_of_open hopen, List.cons_append] at h
      obtain ⟨rfl, hrest⟩ := List.cons.inj h
      obtain ⟨before, rfl, hbefore⟩ := ih (fun tail => (hpiece tail).2)
        (fun hmem => hstar (List.mem_cons_of_mem _ hmem)) hrest
      exact ⟨before, rfl, hbefore⟩
    · exfalso
      rw [hs.mask_eq] at h
      rcases List.append_eq_append_iff.1 h with ⟨more, hmore, hrest⟩ | ⟨more, hmark, -⟩
      · cases more with
        | nil =>
          have hnone := (hpiece (secret ++ after)).1
          rw [← List.cons_append, hmore, List.append_nil, hs.lead_eq] at hnone
          cases hnone
        | cons e more =>
          obtain rfl : '*' = e := (List.cons.inj hrest).1
          exact hstar (by rw [hmore]; simp)
      · have hnone := (hpiece (more ++ (secret ++ after))).1
        rw [← List.cons_append, ← List.append_assoc, ← hmark, hs.lead_eq] at hnone
        cases hnone

theorem eq_none_of_uncut {separator : List Char → Option (List Char)} {piece tail part : List Char}
    (h : Uncut separator piece tail) (hpart : part <:+ piece) (hne : part ≠ []) :
    separator (part ++ tail) = none := by
  obtain ⟨before, rfl⟩ := hpart
  obtain ⟨c, part, rfl⟩ := List.exists_cons_of_ne_nil hne
  exact (uncut_append.1 h).2.1

theorem suffix_append_cases {u a b : List Char} (h : u <:+ a ++ b) :
    u <:+ b ∨ ∃ part, part <:+ a ∧ part ≠ [] ∧ u = part ++ b := by
  obtain ⟨before, heq⟩ := h
  rcases List.append_eq_append_iff.1 heq with ⟨part, ha, hu⟩ | ⟨more, -, hb⟩
  · cases part with
    | nil => exact .inl (by rw [hu]; exact List.suffix_refl b)
    | cons c part => exact .inr ⟨c :: part, ⟨before, ha.symm⟩, List.cons_ne_nil _ _, hu⟩
  · exact .inl ⟨more, hb.symm⟩

theorem holds_redacted (i : SecretKind) : ∀ c ∈ redacted, i.secret.holds c = true := by
  cases i <;> decide +kernel

/-- A mark announces a mask in place of what it announces. -/
theorem lead_redacted {mark rest : List Char} (h : i.secret.lead (mark ++ rest) = some rest)
    (tail : List Char) :
    i.secret.lead (mark ++ (redacted ++ tail)) = some (redacted ++ tail) := by
  obtain ⟨token, joints, heq, hmark⟩ := exists_mark h
  rw [← List.append_assoc] at heq
  rw [List.append_cancel_right heq, List.append_assoc]
  refine hmark.lead_eq _ fun c hc => .inr (holds_redacted i c ?_)
  obtain rfl := Option.some.inj hc
  decide

/-- A mark in a text that begins with a mark and a mask stands behind the mask, or it is that mark. -/
theorem cases_of_suffix_hidden {token secret after mark rest tail : List Char}
    (hsecret : i.secret.Announced token secret after)
    (hsuffix : (mark ++ rest) <:+ token ++ (redacted ++ tail))
    (h : j.secret.lead (mark ++ rest) = some rest) :
    (mark ++ rest) <:+ tail ∨ i = j ∧ rest = redacted ++ tail := by
  obtain ⟨d, others, rfl, hothers, hnot, -⟩ := uncut_mark hsecret.lead_eq j
  rcases suffix_append_cases hsuffix with hsuffix | ⟨part, hpart, hne, heq⟩
  · rcases suffix_append_cases hsuffix with hsuffix | ⟨part, hpart, hne, heq⟩
    · exact .inl hsuffix
    · have hnone := eq_none_of_uncut (uncut_redacted j tail) hpart hne
      rw [← heq, h] at hnone
      cases hnone
  · rcases List.suffix_cons_iff.1 hpart with rfl | hpart
    · by_cases hij : i = j
      · subst hij
        have hlead := lead_redacted hsecret.lead_eq tail
        rw [← heq, h] at hlead
        exact .inr ⟨rfl, Option.some.inj hlead⟩
      · have hnone := hnot hij (redacted ++ tail)
        rw [← heq, h] at hnone
        cases hnone
    · have hnone := eq_none_of_uncut (hothers (redacted ++ tail)) hpart hne
      rw [← heq, h] at hnone
      cases hnone

/-- A mark in a masked text was there before and announced no secret of the kind, or it is one that a
mask was put behind. -/
theorem lead_mask {mark rest : List Char} (s : List Char)
    (hsuffix : (mark ++ rest) <:+ i.secret.mask s)
    (h : j.secret.lead (mark ++ rest) = some rest) :
    (∃ before, (mark ++ before) <:+ s ∧ j.secret.lead (mark ++ before) = some before ∧
        i.secret.mask before = rest ∧ (i = j → ∀ c ∈ before.head?, j.secret.holds c = false)) ∨
      i = j ∧ ∃ after, rest = redacted ++ after ∧ ∀ c ∈ after.head?, j.secret.holds c = false := by
  obtain ⟨c, more, rfl, hmore, -, hstar⟩ := uncut_mark h i
  induction s using Secret.mask_induct i.leads with
  | nil =>
    rw [Secret.mask_nil, List.suffix_nil] at hsuffix
    cases hsuffix
  | keep d s hopen ih =>
    rw [Secret.mask_of_open hopen] at hsuffix
    rcases List.suffix_cons_iff.1 hsuffix with heq | hsuffix
    · obtain ⟨rfl, hmask⟩ := List.cons.inj heq
      have hnostar : '*' ∉ more := fun hmem => hstar (List.mem_cons_of_mem _ hmem)
      obtain ⟨before, rfl, hbefore⟩ := exists_of_mask_eq hmore hnostar hmask.symm
      have hhead : before.head? = rest.head? := by rw [← hbefore, Secret.head?_mask i.leads]
      have hlead : j.secret.lead (c :: more ++ before) = some before := by
        obtain ⟨token, joints, heq, hmark⟩ := exists_mark h
        rw [← List.append_assoc] at heq
        have hread := hmark.lead_eq before fun e he => .inl (hhead ▸ he)
        rwa [← List.append_assoc, ← List.append_cancel_right heq] at hread
      refine .inl ⟨before, List.suffix_refl _, hlead, hbefore, ?_⟩
      rintro rfl
      exact hopen before hlead
    · rcases ih hsuffix with ⟨before, hbefore, hrest⟩ | hhidden
      · exact .inl ⟨before, hbefore.trans (List.suffix_cons d s), hrest⟩
      · exact .inr hhidden
  | hide token secret after hsecret ih =>
    rw [hsecret.mask_eq] at hsuffix
    rcases cases_of_suffix_hidden hsecret hsuffix h with hsuffix | ⟨rfl, rfl⟩
    · rcases ih hsuffix with ⟨before, hbefore, hrest⟩ | hhidden
      · have hafter : after <:+ token ++ (secret ++ after) :=
          (List.suffix_append secret after).trans (List.suffix_append token _)
        exact .inl ⟨before, hbefore.trans hafter, hrest⟩
      · exact .inr hhidden
    · refine .inr ⟨rfl, _, rfl, ?_⟩
      rw [Secret.head?_mask i.leads]
      exact hsecret.ends

/-- Masked texts are clean. -/
theorem clean_mask (i : SecretKind) (s : List Char) : i.secret.Clean (i.secret.mask s) := by
  intro mark rest hsuffix h
  rcases lead_mask s hsuffix h with ⟨before, -, -, rfl, hends⟩ | ⟨-, hhidden⟩
  · rw [Secret.head?_mask i.leads]
    exact .inl (hends rfl)
  · exact .inr hhidden

/-- Masking secrets of one kind leaves a text clean of another. -/
theorem clean_mask_of_clean (hij : i ≠ j) {s : List Char} (hs : j.secret.Clean s) :
    j.secret.Clean (i.secret.mask s) := by
  intro mark rest hsuffix h
  rcases lead_mask s hsuffix h with ⟨before, hbefore, hlead, rfl, -⟩ | ⟨rfl, -⟩
  · rcases hs mark before hbefore hlead with hends | ⟨after, rfl, hends⟩
    · rw [Secret.head?_mask i.leads]
      exact .inl hends
    · refine .inr ⟨i.secret.mask after, Secret.mask_append_of_uncut (uncut_redacted i after), ?_⟩
      rw [Secret.head?_mask i.leads]
      exact hends
  · exact absurd rfl hij

end SecretKind

open SecretKind in
theorem redact_redact (s : List Char) : redact (redact s) = redact s := by
  have haccount : SecretKind.accountKey.secret.Clean (redact s) :=
    clean_mask_of_clean (i := .authorization) (by decide)
      (clean_mask_of_clean (i := .masterKey) (by decide) (clean_mask .accountKey s))
  have hmaster : SecretKind.masterKey.secret.Clean (redact s) :=
    clean_mask_of_clean (i := .authorization) (by decide) (clean_mask .masterKey _)
  have hauthorization : SecretKind.authorization.secret.Clean (redact s) :=
    clean_mask .authorization _
  have hsame : ∀ i : SecretKind, i.secret.Clean (redact s) → i.secret.mask (redact s) = redact s :=
    fun i => Secret.mask_of_clean i.leads (holds_redacted i)
  have haccount' : accountKey.mask (redact s) = redact s := hsame _ haccount
  have hmaster' : masterKey.mask (redact s) = redact s := hsame _ hmaster
  rw [redact, haccount', hmaster']
  exact hsame _ hauthorization

/-! ## Account keys -/

section AccountKey

variable {mark first second rest : List Char}

/-- Whether a text is the mark of account keys, in letters of any case. -/
def IsAccountKeyMark (mark : List Char) : Prop := mark.map foldLetter = "accountkey=".toList

instance : DecidablePred IsAccountKeyMark := fun _ => inferInstanceAs (Decidable (_ = _))

/-- Whether a text can be an account key: all up to a semicolon, and something. -/
structure IsAccountKey (key : List Char) : Prop where
  ne_nil : key ≠ []
  not_mem : ';' ∉ key

/-- No mark begins in front of another one and ends in it. -/
theorem dropKeyword_append_mark (hmark : IsAccountKeyMark mark) {before : List Char}
    (hbefore : before ≠ []) (tail : List Char) :
    dropKeyword "accountkey=".toList (before ++ (mark ++ tail)) =
      (dropKeyword "accountkey=".toList before).map (· ++ (mark ++ tail)) := by
  -- behind its first letter no end of the word begins as the word does
  have hinner : ∀ w, w <:+ "ccountkey=".toList → ∀ before,
      dropKeyword w (before ++ (mark ++ tail)) = (dropKeyword w before).map (· ++ (mark ++ tail)) := by
    intro w hw before
    have hchecked : ∀ w ∈ "ccountkey=".toList.tails, w = [] ∨ clash w "accountkey=".toList = true := by
      decide
    induction before generalizing w with
    | nil =>
      rcases hchecked w ((List.mem_tails _ _).2 hw) with rfl | hclash
      · rfl
      · obtain ⟨k, w, rfl⟩ : ∃ k v, w = k :: v := List.exists_cons_of_ne_nil (by rintro rfl; cases hclash)
        rw [List.nil_append, dropKeyword_of_clash (by rwa [hmark])]
        rfl
    | cons c before ih =>
      cases w with
      | nil => rfl
      | cons k w =>
        rw [List.cons_append, dropKeyword, dropKeyword]
        split
        · exact ih w ((List.suffix_cons k w).trans hw)
        · rfl
  obtain ⟨c, before, rfl⟩ := List.exists_cons_of_ne_nil hbefore
  show dropKeyword ('a' :: "ccountkey=".toList) _ = (dropKeyword ('a' :: "ccountkey=".toList) _).map _
  rw [List.cons_append, dropKeyword, dropKeyword]
  split
  · exact hinner _ (List.suffix_refl _) before
  · rfl

theorem announced_accountKey (hmark : IsAccountKeyMark mark) (hfirst : IsAccountKey first)
    (hrest : ∀ c ∈ rest.head?, c = ';') : accountKey.Announced mark first rest where
  lead_eq := dropKeyword_spelled hmark _
  mark_ne := by
    rintro rfl
    cases hmark
  secret_ne := hfirst.ne_nil
  holds c hc := bne_iff_ne.2 fun heq => hfirst.not_mem (heq ▸ hc)
  ends c hc := by
    rw [hrest c hc]
    rfl

theorem not_mem_mark (hmark : IsAccountKeyMark mark) : ';' ∉ mark := by
  intro hmem
  have hword : foldLetter ';' ∈ "accountkey=".toList := hmark ▸ List.mem_map_of_mem hmem
  exact absurd hword (by decide)

/-- An account key goes on through a mark behind it, to the end of the key that follows. -/
theorem mask_marked_key {token behind key : List Char} (htoken : IsAccountKeyMark token)
    (hbehind : ';' ∉ behind) (hmark : IsAccountKeyMark mark) (hkey : IsAccountKey key)
    (hrest : ∀ c ∈ rest.head?, c = ';') :
    accountKey.mask (token ++ (behind ++ (mark ++ (key ++ rest)))) =
      token ++ (redacted ++ accountKey.mask rest) := by
  have hjoined : IsAccountKey (behind ++ (mark ++ key)) := by
    refine ⟨fun h => hkey.ne_nil (List.append_eq_nil_iff.1 (List.append_eq_nil_iff.1 h).2).2, ?_⟩
    simp only [List.mem_append, not_or]
    exact ⟨hbehind, not_mem_mark hmark, hkey.not_mem⟩
  rw [← (announced_accountKey htoken hjoined hrest).mask_eq]
  simp only [List.append_assoc]

/-- What is made of a text does not depend on the account key in it. -/
theorem mask_accountKey_congr (hmark : IsAccountKeyMark mark) (hfirst : IsAccountKey first)
    (hsecond : IsAccountKey second) (hrest : ∀ c ∈ rest.head?, c = ';') (before : List Char) :
    accountKey.mask (before ++ (mark ++ (first ++ rest))) =
      accountKey.mask (before ++ (mark ++ (second ++ rest))) := by
  cases before with
  | nil =>
    rw [List.nil_append, List.nil_append, (announced_accountKey hmark hfirst hrest).mask_eq,
      (announced_accountKey hmark hsecond hrest).mask_eq]
  | cons c before =>
    have hlead : ∀ tail, accountKey.lead (c :: (before ++ (mark ++ tail))) =
        (dropKeyword "accountkey=".toList (c :: before)).map (· ++ (mark ++ tail)) :=
      dropKeyword_append_mark hmark (List.cons_ne_nil c before)
    -- where no secret is announced now, one character is kept
    have hkeep : (∀ tail, accountKey.Open (c :: (before ++ (mark ++ tail)))) →
        accountKey.mask (c :: before ++ (mark ++ (first ++ rest))) =
          accountKey.mask (c :: before ++ (mark ++ (second ++ rest))) := by
      intro hopen
      rw [List.cons_append, List.cons_append, Secret.mask_of_open (hopen _),
        Secret.mask_of_open (hopen _), mask_accountKey_congr hmark hfirst hsecond hrest before]
    cases hdrop : dropKeyword "accountkey=".toList (c :: before) with
    | none =>
      refine hkeep fun tail after hafter => ?_
      rw [hlead, hdrop] at hafter
      cases hafter
    | some behind =>
      obtain ⟨token, htoken, hword⟩ := exists_append_of_dropKeyword hdrop
      by_cases hmem : ';' ∈ behind
      · obtain ⟨hidden, more, rfl, hhidden⟩ := List.eq_append_cons_of_mem hmem
        by_cases hnil : hidden = []
        · subst hnil
          refine hkeep fun tail after hafter d hd => ?_
          rw [hlead, hdrop] at hafter
          obtain rfl := Option.some.inj hafter
          obtain rfl := Option.some.inj hd
          rfl
        · -- an earlier account key ends before the mark
          have hannounced : ∀ tail, accountKey.Announced token hidden (';' :: (more ++ tail)) :=
            fun tail => announced_accountKey hword ⟨hnil, hhidden⟩ fun d hd => (Option.some.inj hd).symm
          have hlength : more.length < before.length := by
            have hparts := congrArg List.length htoken
            have hhere := List.length_pos_iff.2 hnil
            simp only [List.length_append, List.length_cons] at hparts
            omega
          have hshorter := mask_accountKey_congr hmark hfirst hsecond hrest (';' :: more)
          rw [List.cons_append, List.cons_append] at hshorter
          rw [htoken]
          simp only [List.append_assoc, List.cons_append, (hannounced _).mask_eq, hshorter]
      · rw [htoken, List.append_assoc, List.append_assoc, mask_marked_key hword hmem hmark hfirst hrest,
          mask_marked_key hword hmem hmark hsecond hrest]
termination_by before.length

theorem redact_congr (hmark : IsAccountKeyMark mark) (hfirst : IsAccountKey first)
    (hsecond : IsAccountKey second) (hrest : ∀ c ∈ rest.head?, c = ';') (before : List Char) :
    redact (before ++ (mark ++ (first ++ rest))) =
      redact (before ++ (mark ++ (second ++ rest))) := by
  rw [redact, redact, mask_accountKey_congr hmark hfirst hsecond hrest before]

end AccountKey

/-- A text with an account key in it is redacted as it is with any other account key in its place, and
what is redacted stays the same when it is redacted again. -/
theorem redactText_settles :
    (∀ before mark first second rest : String, IsAccountKeyMark mark.toList →
      IsAccountKey first.toList → IsAccountKey second.toList →
      (∀ c ∈ rest.toList.head?, c = ';') →
        redactText (before ++ mark ++ first ++ rest) =
          redactText (before ++ mark ++ second ++ rest)) ∧
    ∀ text, redactText (redactText text) = redactText text := by
  refine ⟨fun before mark first second rest hmark hfirst hsecond hrest => ?_, fun text => ?_⟩
  · simp only [redactText, String.toList_append, List.append_assoc]
    rw [redact_congr hmark hfirst hsecond hrest before.toList]
  · rw [redactText, redactText, String.toList_ofList, redact_redact]

/-- The key of a connection string, with an authorization header in front of it. -/
theorem redactText_settles_connection :
    let mark := "ACCOUNTKEY="
    let first := "masterKey=Authorization: x"
    IsAccountKeyMark mark.toList ∧ IsAccountKey first.toList ∧
      redactText ("Authorization:\tAccountKey=;" ++ mark ++ first ++ ";Database=d") =
        redactText ("Authorization:\tAccountKey=;" ++ mark ++ "0" ++ ";Database=d") ∧
      redactText (redactText "Authorization: masterKey = 'a") =
        redactText "Authorization: masterKey = 'a" := by
  intro mark first
  have hmark : IsAccountKeyMark mark.toList := by decide
  have hfirst : IsAccountKey first.toList := ⟨by decide, by decide⟩
  obtain ⟨hhides, hagain⟩ := redactText_settles
  exact ⟨hmark, hfirst, hhides _ mark first "0" ";Database=d" hmark hfirst ⟨by decide, by decide⟩
    (by decide), hagain _⟩

end Pigeonhole.Log

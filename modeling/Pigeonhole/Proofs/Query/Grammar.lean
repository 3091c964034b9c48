import Pigeonhole.Proofs.Query.Shapes
import Pigeonhole.Proofs.Query.Words

/-!
# The grammar of statements

A statement is `SELECT`, the words of an `Opening` with blanks before each of them, and a condition
after `WHERE` or nothing (`Reads`).  A trimmed text is read if and only if it is one
(`ofTrimmed?_of_reads`, `reads_of_ofTrimmed?`): the openings differ in the first letter of a word, so
at most one of them fits.  The same condition is found by a search for the first `WHERE`
(`search?_of_reads`), since no word in front of it begins with its first letter.
-/

namespace Pigeonhole.Query

open Text

/-! ## Openings -/

/-- What stands between `SELECT` and the condition. -/
inductive Opening where
  | count
  | ids
  | all
  | top (digits : List Nat)

namespace Opening

/-- The words after `SELECT`. -/
def words : Opening → List Token
  | count => [.word "value", .word "count(1)", .word "from", .word "c"]
  | ids => [.word "c.id", .word "from", .word "c"]
  | all => [.word "*", .word "from", .word "c"]
  | top digits => [.word "top", .digits digits, .word "*", .word "from", .word "c"]

/-- What is selected. -/
def shape : Opening → Shape
  | count => .count
  | ids => .ids
  | all => .all none
  | top digits => .all (some (digitsValue digits))

/-- The number of digits of the limit. -/
def limitDigits : Opening → Nat
  | top digits => digits.length
  | _ => 0

end Opening

/-- What follows the opening: nothing, or `WHERE` and a text that is not empty. -/
inductive Ending : Option (List Char) → List Char → Prop
  | bare : Ending none []
  | condition {blanks s more t : List Char} (hblanks : Blanks blanks)
      (hs : (Token.word "where").Spelled s) (hmore : Blanks more) (ht : t ≠ []) :
      Ending (some t) (blanks ++ (s ++ (more ++ t)))

/-- The statements with an opening and with the text of a condition or none. -/
inductive Reads (opening : Opening) (clause : Option (List Char)) : List Char → Prop
  | intro {select words ending : List Char} (hselect : (Token.word "select").Spelled select)
      (hwords : Words opening.words words) (hending : Ending clause ending) :
      Reads opening clause (select ++ (words ++ ending))

/-! ## After the opening -/

/-- The condition after `WHERE` at the beginning of a text. -/
def whereHere? (s : List Char) : Option (List Char) :=
  match (dropWord "where" s).bind dropBlanks1 with
  | some (c :: rest) => some (c :: rest)
  | _ => none

theorem clause?_of_ne_nil {s : List Char} (h : s ≠ []) : clause? s = (whereHere? s).map some := by
  unfold clause? whereHere?
  rw [List.isEmpty_eq_false_iff.2 h]
  cases (dropWord "where" s).bind dropBlanks1 with
  | none => rfl
  | some t => cases t <;> rfl

theorem whereHere?_append {blanks s more t : List Char} (hblanks : Blanks blanks)
    (hs : (Token.word "where").Spelled s) (hmore : Blanks more) (ht : stripLeft t ≠ []) :
    whereHere? (blanks ++ (s ++ (more ++ t))) = some (stripLeft t) := by
  have hword : IsKeyword "where" := by decide
  obtain ⟨c, rest, hrest⟩ := List.exists_cons_of_ne_nil ht
  rw [whereHere?, dropWord_append hword hblanks hs, Option.bind_some, dropBlanks1_append hmore, hrest]

theorem exists_of_whereHere? {s t : List Char} (h : whereHere? s = some t) :
    Ending (some t) s ∧ stripLeft t = t := by
  unfold whereHere? at h
  split at h
  next c rest hbind =>
    obtain rfl := Option.some.inj h
    obtain ⟨u, hu, hmore⟩ := Option.bind_eq_some_iff.1 hbind
    obtain ⟨b, w, rfl, hb, hw⟩ := exists_of_dropWord hu
    obtain ⟨more, rfl, hmore, hleft⟩ := exists_blanks_of_dropBlanks1 hmore
    exact ⟨.condition hb hw hmore (List.cons_ne_nil _ _), hleft⟩
  next => cases h

/-- A condition of which not only blanks are left. -/
def Solid (clause : Option (List Char)) : Prop := ∀ t ∈ clause, stripLeft t ≠ []

theorem clause?_of_ending {clause : Option (List Char)} (hsolid : Solid clause) {s : List Char}
    (h : Ending clause s) : clause? s = some (clause.map stripLeft) := by
  cases h with
  | bare => rfl
  | @condition blanks w more t hblanks hs hmore ht =>
    have hne : blanks ++ (w ++ (more ++ t)) ≠ [] :=
      List.append_ne_nil_of_left_ne_nil hblanks.ne_nil _
    rw [clause?_of_ne_nil hne, whereHere?_append hblanks hs hmore (hsolid t rfl)]
    rfl

theorem ending_of_clause? {s : List Char} {clause : Option (List Char)}
    (h : clause? s = some clause) : Ending clause s ∧ clause.map stripLeft = clause := by
  by_cases hs : s = []
  · subst hs
    obtain rfl := Option.some.inj h
    exact ⟨.bare, rfl⟩
  · rw [clause?_of_ne_nil hs] at h
    obtain ⟨t, ht, rfl⟩ := Option.map_eq_some_iff.1 h
    obtain ⟨hending, hleft⟩ := exists_of_whereHere? ht
    exact ⟨hending, congrArg some hleft⟩

/-! ## Limits -/

theorem limit?_append {digits : List Nat} {p : List Char}
    (hp : Words [.word "top", .digits digits] p) {rest : List Char}
    (hrest : ∀ c ∈ rest.head?, digitValue? c = none) :
    limit? (p ++ rest) = some (digits, rest) := by
  cases hp with
  | @cons _ _ blanks s _ hblanks hs hp =>
  cases hp with
  | @cons _ _ more t _ hmore ht hp =>
  cases hp
  have htop : IsKeyword "top" := by decide
  have hleft : stripLeft (t ++ rest) = t ++ rest := by
    have hblank := isBlank_of_spelled_digits ht
    obtain ⟨d, t, rfl⟩ := exists_cons_of_spelled_digits ht
    exact stripLeft_cons_of_not_isBlank (hblank d List.mem_cons_self) _
  obtain ⟨hvalues, hne⟩ := ht
  obtain ⟨v, values, rfl⟩ := List.exists_cons_of_ne_nil hne
  rw [List.append_assoc, List.append_assoc, List.append_nil, limit?, dropWord_append htop hblanks hs,
    Option.bind_some, List.append_assoc, dropBlanks1_append hmore, hleft, Option.map_some,
    spanDecimals_append_of_values hvalues hrest]

theorem exists_of_limit? {s rest : List Char} {digits : List Nat}
    (h : limit? s = some (digits, rest)) :
    ∃ p, s = p ++ rest ∧ Words [.word "top", .digits digits] p := by
  unfold limit? at h
  split at h
  next d ds rest' hread =>
    obtain ⟨rfl, rfl⟩ := Prod.mk.inj (Option.some.inj h)
    obtain ⟨t, ht, hspan⟩ := Option.map_eq_some_iff.1 hread
    obtain ⟨u, hu, hmore⟩ := Option.bind_eq_some_iff.1 ht
    obtain ⟨b, w, rfl, hb, hw⟩ := exists_of_dropWord hu
    obtain ⟨more, rfl, hmore, -⟩ := exists_blanks_of_dropBlanks1 hmore
    obtain ⟨digits, hsplit, hdigits⟩ := exists_of_spanDecimals t
    rw [hspan] at hsplit hdigits
    refine ⟨b ++ (w ++ (more ++ (digits ++ []))), ?_,
      .cons hb hw (.cons hmore ⟨hdigits, List.cons_ne_nil _ _⟩ .nil)⟩
    rw [hsplit]
    simp only [List.append_assoc, List.append_nil]
  next => cases h

/-! ## Statements -/

theorem bind_clause?_append {texts : List String} (h : ∀ text ∈ texts, IsKeyword text)
    {p : List Char} (hp : Words (texts.map .word) p) {clause : Option (List Char)}
    (hsolid : Solid clause) {ending : List Char} (hending : Ending clause ending) :
    (dropWords texts (p ++ ending)).bind clause? = some (clause.map stripLeft) := by
  rw [dropWords_append h hp, Option.bind_some, clause?_of_ending hsolid hending]

theorem exists_of_bind_clause? {texts : List String} {s : List Char} {clause : Option (List Char)}
    (h : (dropWords texts s).bind clause? = some clause) :
    ∃ p ending, s = p ++ ending ∧ Words (texts.map .word) p ∧ Ending clause ending ∧
      clause.map stripLeft = clause := by
  obtain ⟨rest, hrest, hclause⟩ := Option.bind_eq_some_iff.1 h
  obtain ⟨p, rfl, hp⟩ := exists_of_dropWords hrest
  obtain ⟨hending, hleft⟩ := ending_of_clause? hclause
  exact ⟨p, rest, rfl, hp, hending, hleft⟩

theorem ofSource?_eq (shape : Shape) (s : List Char) :
    Statement.ofSource? shape s =
      ((dropWords ["from", "c"] s).bind clause?).map fun clause => { shape, clause } := by
  unfold Statement.ofSource? dropSource
  rw [dropWords_cons]
  cases dropWord "from" s with
  | none => rfl
  | some t =>
    simp only [Option.bind_some, dropWords_cons]
    cases dropWord "c" t <;> rfl

theorem bind_ofSource? (texts : List String) (shape : Shape) (s : List Char) :
    (dropWords texts s).bind (Statement.ofSource? shape) =
      ((dropWords (texts ++ ["from", "c"]) s).bind clause?).map fun clause => { shape, clause } := by
  induction texts generalizing s with
  | nil => exact ofSource?_eq shape s
  | cons text texts ih =>
    rw [List.cons_append, dropWords_cons, dropWords_cons]
    cases dropWord text s with
    | none => rfl
    | some t => exact ih t

theorem countTail?_eq (s : List Char) :
    countTail? s = ((dropWords ["value", "count(1)", "from", "c"] s).bind clause?).map
      fun clause => { shape := .count, clause } := by
  refine Eq.trans ?_ (bind_ofSource? ["value", "count(1)"] .count s)
  rw [countTail?, dropWords_cons]
  cases dropWord "value" s with
  | none => rfl
  | some t =>
    simp only [Option.bind_some, dropWords_cons]
    cases dropWord "count(1)" t <;> rfl

theorem bind_dropWord (text : String) (shape : Shape) (s : List Char) :
    (dropWord text s).bind (Statement.ofSource? shape) =
      ((dropWords [text, "from", "c"] s).bind clause?).map fun clause => { shape, clause } := by
  refine Eq.trans ?_ (bind_ofSource? [text] shape s)
  rw [dropWords_cons]
  cases dropWord text s <;> rfl

/-- A statement as it is read. -/
def Opening.statement (opening : Opening) (clause : Option (List Char)) : Statement where
  shape := opening.shape
  clause := clause.map stripLeft
  limitDigits := opening.limitDigits

section Reading

variable {clause : Option (List Char)} {p ending : List Char}

theorem countTail?_append (hp : Words Opening.count.words p) (hsolid : Solid clause)
    (hending : Ending clause ending) :
    countTail? (p ++ ending) = some (Opening.count.statement clause) := by
  have hwords : Words (["value", "count(1)", "from", "c"].map .word) p := hp
  rw [countTail?_eq, bind_clause?_append (by decide) hwords hsolid hending]
  rfl

theorem idsTail?_append (hp : Words Opening.ids.words p) (hsolid : Solid clause)
    (hending : Ending clause ending) :
    idsTail? (p ++ ending) = some (Opening.ids.statement clause) := by
  have hwords : Words (["c.id", "from", "c"].map .word) p := hp
  rw [idsTail?, bind_dropWord, bind_clause?_append (by decide) hwords hsolid hending]
  rfl

theorem allTail?_append (hp : Words Opening.all.words p) (hsolid : Solid clause)
    (hending : Ending clause ending) :
    allTail? (p ++ ending) = some (Opening.all.statement clause) := by
  have hwords : Words (["*", "from", "c"].map .word) p := hp
  have hlimit : limit? (p ++ ending) = none := by
    rw [limit?, dropWord_words_of_ne (by decide) (by decide) (by decide) hp]
    rfl
  rw [allTail?, hlimit]
  simp only
  rw [bind_dropWord, bind_clause?_append (by decide) hwords hsolid hending]
  rfl

theorem allTail?_append_top {digits : List Nat} (hp : Words (Opening.top digits).words p)
    (hsolid : Solid clause) (hending : Ending clause ending) :
    allTail? (p ++ ending) = some ((Opening.top digits).statement clause) := by
  have hparts : Words ([.word "top", .digits digits] ++ ["*", "from", "c"].map .word) p := hp
  obtain ⟨q, r, rfl, hq, hr⟩ := hparts.split
  have hhead : ∀ c ∈ (r ++ ending).head?, digitValue? c = none := fun c hc =>
    digitValue?_of_isBlank (hr.head?_isBlank ending c hc)
  rw [List.append_assoc, allTail?, limit?_append hq hhead]
  simp only
  rw [bind_dropWord, bind_clause?_append (by decide) hr hsolid hending]
  rfl

end Reading

theorem ofTrimmed?_of_reads {opening : Opening} {clause : Option (List Char)} {s : List Char}
    (h : Reads opening clause s) (hsolid : Solid clause) :
    Statement.ofTrimmed? s = some (opening.statement clause) := by
  cases h with
  | @intro select words ending hselect hwords hending =>
  rw [Statement.ofTrimmed?, dropKeyword_spelled hselect]
  simp only
  -- the word after `SELECT` begins with another letter in each opening
  cases opening with
  | count => rw [countTail?_append hwords hsolid hending, Option.some_or]
  | ids =>
    rw [countTail?, dropWord_words_of_ne (by decide) (by decide) (by decide) hwords,
      Option.bind_none, Option.bind_none, Option.none_or, idsTail?_append hwords hsolid hending,
      Option.some_or]
  | all =>
    rw [countTail?, dropWord_words_of_ne (by decide) (by decide) (by decide) hwords,
      Option.bind_none, Option.bind_none, Option.none_or, idsTail?,
      dropWord_words_of_ne (by decide) (by decide) (by decide) hwords, Option.bind_none,
      Option.none_or, allTail?_append hwords hsolid hending]
  | top digits =>
    rw [countTail?, dropWord_words_of_ne (by decide) (by decide) (by decide) hwords,
      Option.bind_none, Option.bind_none, Option.none_or, idsTail?,
      dropWord_words_of_ne (by decide) (by decide) (by decide) hwords, Option.bind_none,
      Option.none_or, allTail?_append_top hwords hsolid hending]

/-! ## Reading backwards -/

section Backwards

variable {s : List Char} {statement : Statement}

/-- A tail that is read is that of a statement with this opening. -/
def ReadsTail (opening : Opening) (statement : Statement) (s : List Char) : Prop :=
  ∃ clause p ending, s = p ++ ending ∧ Words opening.words p ∧ Ending clause ending ∧
    statement = opening.statement clause

theorem readsTail_of_map {texts : List String} {opening : Opening}
    (hwords : opening.words = texts.map .word) (hlimit : opening.limitDigits = 0)
    (h : ((dropWords texts s).bind clause?).map (fun clause =>
      ({ shape := opening.shape, clause } : Statement)) = some statement) :
    ReadsTail opening statement s := by
  obtain ⟨clause, hclause, rfl⟩ := Option.map_eq_some_iff.1 h
  obtain ⟨p, ending, rfl, hp, hending, hleft⟩ := exists_of_bind_clause? hclause
  refine ⟨clause, p, ending, rfl, hwords ▸ hp, hending, ?_⟩
  rw [Opening.statement, hleft, hlimit]

theorem readsTail_of_countTail? (h : countTail? s = some statement) :
    ReadsTail .count statement s := by
  rw [countTail?_eq] at h
  exact readsTail_of_map rfl rfl h

theorem readsTail_of_idsTail? (h : idsTail? s = some statement) : ReadsTail .ids statement s := by
  rw [idsTail?, bind_dropWord] at h
  exact readsTail_of_map rfl rfl h

theorem readsTail_of_allTail? (h : allTail? s = some statement) :
    ∃ opening, ReadsTail opening statement s := by
  unfold allTail? at h
  split at h
  next digits rest hlimit =>
    obtain ⟨q, rfl, hq⟩ := exists_of_limit? hlimit
    rw [bind_dropWord] at h
    obtain ⟨read, hread, rfl⟩ := Option.map_eq_some_iff.1 h
    obtain ⟨clause, hclause, rfl⟩ := Option.map_eq_some_iff.1 hread
    obtain ⟨p, ending, rfl, hp, hending, hleft⟩ := exists_of_bind_clause? hclause
    refine ⟨.top digits, clause, q ++ p, ending, (List.append_assoc _ _ _).symm, hq.append hp,
      hending, ?_⟩
    rw [Opening.statement, hleft]
    rfl
  next =>
    rw [bind_dropWord] at h
    exact ⟨.all, readsTail_of_map rfl rfl h⟩

theorem reads_of_ofTrimmed? (h : Statement.ofTrimmed? s = some statement) :
    ∃ opening clause, Reads opening clause s ∧ statement = opening.statement clause := by
  unfold Statement.ofTrimmed? at h
  split at h
  next rest hselect =>
    obtain ⟨select, rfl, hspelled⟩ := exists_append_of_dropKeyword hselect
    have htail : ∃ opening, ReadsTail opening statement rest := by
      rcases Option.or_eq_some_iff.1 h with h | ⟨-, h⟩
      · exact ⟨_, readsTail_of_countTail? h⟩
      · rcases Option.or_eq_some_iff.1 h with h | ⟨-, h⟩
        · exact ⟨_, readsTail_of_idsTail? h⟩
        · exact readsTail_of_allTail? h
    obtain ⟨opening, clause, p, ending, rfl, hp, hending, hstatement⟩ := htail
    exact ⟨opening, clause, .intro hspelled hp hending, hstatement⟩
  next => cases h

end Backwards

/-! ## The first `WHERE` -/

/-- The condition after the first `WHERE` that has blanks around it and a condition after it. -/
def search? : List Char → Option (List Char)
  | [] => none
  | c :: s => (whereHere? (c :: s)).or (search? s)

theorem whereHere?_of_not_isBlank {c : Char} (h : isBlank c = false) (s : List Char) :
    whereHere? (c :: s) = none := by
  rw [whereHere?, dropWord, dropBlanks1_cons_of_not_isBlank h]
  rfl

theorem search?_append {w : List Char} (h : ∀ c ∈ w, isBlank c = false) (rest : List Char) :
    search? (w ++ rest) = search? rest := by
  induction w with
  | nil => rfl
  | cons c w ih =>
    obtain ⟨hc, hw⟩ := List.forall_mem_cons.1 h
    rw [List.cons_append, search?, whereHere?_of_not_isBlank hc, Option.none_or, ih hw]

/-- Blanks in front of a word that does not begin as `WHERE` does are passed over. -/
theorem search?_blanks {b : List Char} (hb : ∀ c ∈ b, isBlank c = true) {c : Char}
    (hc : isBlank c = false) (hfold : foldLetter c ≠ 'w') (s : List Char) :
    search? (b ++ c :: s) = search? (c :: s) := by
  induction b with
  | nil => rfl
  | cons d b ih =>
    obtain ⟨hd, hb⟩ := List.forall_mem_cons.1 hb
    -- `WHERE` would have to begin with `c`, the first character that is no blank
    have hhere : whereHere? (d :: (b ++ c :: s)) = none := by
      have hword : "where".toList = ['w', 'h', 'e', 'r', 'e'] := rfl
      rw [whereHere?, dropWord, dropBlanks1_cons_of_isBlank hd, stripLeft_append_of_isBlank hb,
        stripLeft_cons_of_not_isBlank hc, Option.bind_some, hword, dropKeyword, if_neg hfold]
      rfl
    rw [List.cons_append, search?, hhere, Option.none_or, ih hb]

/-- A word without blanks that does not begin as `WHERE` does. -/
def Token.Plain : Token → Prop
  | word text => first text ≠ 'w' ∧ IsKeyword text ∧ ∀ k ∈ text.toList, isBlank k = false
  | digits _ => True

theorem isBlank_of_spelled {text : String} (h : ∀ k ∈ text.toList, isBlank k = false)
    {s : List Char} (hs : (Token.word text).Spelled s) : ∀ c ∈ s, isBlank c = false := by
  intro c hc
  rw [Bool.eq_false_iff]
  intro hblank
  have hmem : foldLetter c ∈ s.map foldLetter := List.mem_map_of_mem hc
  rw [foldLetter_of_isBlank hblank, hs] at hmem
  rw [h c hmem] at hblank
  cases hblank

theorem Token.Plain.spelled {token : Token} (h : token.Plain) {s : List Char}
    (hs : token.Spelled s) :
    (∀ c ∈ s, isBlank c = false) ∧ ∃ c rest, s = c :: rest ∧ foldLetter c ≠ 'w' := by
  cases token with
  | word text =>
    obtain ⟨hfirst, hkeyword, hblanks⟩ := h
    obtain ⟨c, rest, rfl, hfold, -⟩ := hkeyword.cons_of_spelled hs
    exact ⟨isBlank_of_spelled hblanks hs, c, rest, rfl, hfold ▸ hfirst⟩
  | digits values =>
    obtain ⟨c, rest, rfl⟩ := exists_cons_of_spelled_digits hs
    have hfold : (foldLetter c != 'w') = true :=
      forall_of_isDecimal (p := fun c => foldLetter c != 'w') (by decide +kernel)
        (isDecimal_of_spelled hs c List.mem_cons_self)
    exact ⟨isBlank_of_spelled_digits hs, c, rest, rfl, bne_iff_ne.1 hfold⟩

theorem search?_words {tokens : List Token} (h : ∀ token ∈ tokens, token.Plain) {p : List Char}
    (hp : Words tokens p) (rest : List Char) : search? (p ++ rest) = search? rest := by
  induction hp with
  | nil => rfl
  | @cons token tokens blanks s more hblanks hs _ ih =>
    obtain ⟨htoken, htokens⟩ := List.forall_mem_cons.1 h
    obtain ⟨hchars, c, t, rfl, hfold⟩ := htoken.spelled hs
    rw [List.append_assoc, List.append_assoc, List.cons_append,
      search?_blanks hblanks.isBlank (hchars c List.mem_cons_self) hfold, ← List.cons_append,
      search?_append hchars, ih htokens]

theorem plain_word {text : String}
    (h : text ∈ ["value", "count(1)", "c.id", "top", "*", "from", "c"]) :
    (Token.word text).Plain := by
  have checked : ∀ text ∈ ["value", "count(1)", "c.id", "top", "*", "from", "c"],
      first text ≠ 'w' ∧ IsKeyword text ∧ ∀ k ∈ text.toList, isBlank k = false := by decide
  exact checked text h

theorem Opening.plain (opening : Opening) : ∀ token ∈ opening.words, token.Plain := by
  have hwords : ∀ token ∈ opening.words, (∃ values, token = .digits values) ∨
      ∃ text ∈ ["value", "count(1)", "c.id", "top", "*", "from", "c"], token = .word text := by
    cases opening <;> simp [words]
  intro token htoken
  obtain ⟨values, rfl⟩ | ⟨text, htext, rfl⟩ := hwords token htoken
  · trivial
  · exact plain_word htext

/-- The first `WHERE` of a statement is the one after its opening. -/
theorem search?_of_reads {opening : Opening} {clause : Option (List Char)} {s : List Char}
    (h : Reads opening clause s) (hsolid : Solid clause) : search? s = clause.map stripLeft := by
  cases h with
  | @intro select words ending hselect hwords hending =>
  rw [search?_append (isBlank_of_spelled (by decide) hselect), search?_words opening.plain hwords]
  cases hending with
  | bare => rfl
  | @condition blanks w more t hblanks hs hmore ht =>
    have hhere := whereHere?_append hblanks hs hmore (hsolid t rfl)
    obtain ⟨c, b, rfl⟩ := List.exists_cons_of_ne_nil hblanks.ne_nil
    rw [List.cons_append] at hhere ⊢
    rw [search?, hhere, Option.some_or]
    rfl

/-! ## Trimmed texts -/

theorem isBlank_of_mem_getLast?_strip {s : List Char} :
    ∀ c ∈ (strip s).getLast?, isBlank c = false := by
  intro c hc
  rw [strip, stripRight, List.getLast?_reverse] at hc
  have hnot := List.head?_dropWhile_not isBlank (stripLeft s).reverse
  rw [hc] at hnot
  exact hnot

theorem solid_of_reads {opening : Opening} {clause : Option (List Char)} {s : List Char}
    (h : Reads opening clause s) (hlast : ∀ c ∈ s.getLast?, isBlank c = false) : Solid clause := by
  cases h with
  | @intro select words ending hselect hwords hending =>
  cases hending with
  | bare => exact fun t ht => nomatch ht
  | @condition blanks w more t hblanks hw hmore ht =>
    rintro _ ⟨⟩
    obtain ⟨u, d, rfl⟩ : ∃ u d, t = u ++ [d] :=
      ⟨t.dropLast, t.getLast ht, (List.dropLast_append_getLast ht).symm⟩
    have hend : (select ++ (words ++ (blanks ++ (w ++ (more ++ (u ++ [d])))))).getLast? = some d := by
      simp only [← List.append_assoc, List.getLast?_concat]
    have hmem : d ∈ stripLeft (u ++ [d]) := mem_stripLeft (hlast d hend) (by simp)
    exact List.ne_nil_of_mem hmem

/-! ## Reading queries -/

theorem lt_of_reads {digits : List Nat} {clause : Option (List Char)} {s : List Char}
    (h : Reads (.top digits) clause s) : ∀ d ∈ digits, d < 10 := by
  cases h with
  | intro hselect hwords hending =>
  cases hwords with
  | cons _ _ hrest =>
  cases hrest with
  | cons _ hs _ => exact lt_of_spelled hs

theorem opening_inj {opening other : Opening} {clause clause' : Option (List Char)} {s : List Char}
    (h : Reads opening clause s) (h' : Reads other clause' s) (hshape : opening.shape = other.shape)
    (hlimit : opening.limitDigits = other.limitDigits) : opening = other := by
  cases opening with
  | count => cases other <;> first | rfl | cases hshape
  | ids => cases other <;> first | rfl | cases hshape
  | all => cases other <;> first | rfl | cases hshape
  | top digits =>
    cases other with
    | top digits' =>
      have hvalue : digitsValue digits = digitsValue digits' := by
        simpa only [Opening.shape, Shape.all.injEq, Option.some.injEq] using hshape
      rw [digitsValue_inj (lt_of_reads h) (lt_of_reads h') hlimit hvalue]
    | count | ids | all => cases hshape

theorem fragments_stripLeft (clause : List Char) : fragments (stripLeft clause) = fragments clause := by
  rw [fragments, conjuncts, strip, stripLeft_stripLeft]
  rfl

theorem ofSpec_of_reads (spec : Spec) {opening : Opening} {clause : Option (List Char)}
    (h : Reads opening clause (strip spec.text.toList)) :
    Parsed.ofSpec spec = if opening.limitDigits ≤ Numeral.maxDigits then
        .ok { text := spec.text
              shape := opening.shape
              fragments := (clause.map fragments).getD []
              bindings := spec.bindings }
      else .error (.longInteger opening.limitDigits) := by
  have hparse : Statement.parse? spec.text.toList = some (opening.statement clause) :=
    ofTrimmed?_of_reads h (solid_of_reads h isBlank_of_mem_getLast?_strip)
  have hfragments : (opening.statement clause).fragments = (clause.map fragments).getD [] := by
    cases clause with
    | none => rfl
    | some t => exact fragments_stripLeft t
  rw [Parsed.ofSpec, hparse, ← hfragments]
  rfl

/-- A query is read if and only if its trimmed text is a statement, but for limits with more digits
than integers are read with.  Its reading is unique, up to the blanks in front of the condition, and
its condition is what follows the first `WHERE`. -/
theorem ofSpec_grammar (spec : Spec) :
    let s := strip spec.text.toList
    (∀ opening clause, Reads opening clause s →
      (Parsed.ofSpec spec = if opening.limitDigits ≤ Numeral.maxDigits then
          .ok { text := spec.text
                shape := opening.shape
                fragments := (clause.map fragments).getD []
                bindings := spec.bindings }
        else .error (.longInteger opening.limitDigits)) ∧
      search? s = clause.map stripLeft ∧
      ∀ other clause', Reads other clause' s →
        opening = other ∧ clause.map stripLeft = clause'.map stripLeft) ∧
    ((∀ opening clause, ¬ Reads opening clause s) →
      Parsed.ofSpec spec = .error (.unsupportedQuery spec.text)) := by
  intro s
  have hsolid : ∀ {opening clause}, Reads opening clause s → Solid clause := fun h =>
    solid_of_reads h isBlank_of_mem_getLast?_strip
  refine ⟨fun opening clause h => ⟨ofSpec_of_reads spec h, search?_of_reads h (hsolid h), ?_⟩,
    fun hnone => ?_⟩
  · intro other clause' h'
    -- one text has one statement, and a statement gives its opening back
    have hread := ofTrimmed?_of_reads h (hsolid h)
    rw [ofTrimmed?_of_reads h' (hsolid h'), Option.some.injEq] at hread
    exact ⟨opening_inj h h' (congrArg Statement.shape hread.symm)
      (congrArg Statement.limitDigits hread.symm), congrArg Statement.clause hread.symm⟩
  · cases hstatement : Statement.ofTrimmed? s with
    | none =>
      have hparse : Statement.parse? spec.text.toList = none := hstatement
      rw [Parsed.ofSpec, hparse]
    | some statement =>
      obtain ⟨opening, clause, h, -⟩ := reads_of_ofTrimmed? hstatement
      exact absurd h (hnone opening clause)

/-- A limit in digits of another script, and blanks of several kinds. -/
theorem ofSpec_grammar_top :
    let spec : Spec := { text := " select Top ١٢ *\nFROM c where  c.a = 1" }
    Reads (.top [1, 2]) (some "c.a = 1".toList) (strip spec.text.toList) ∧
      Parsed.ofSpec spec = .ok { text := spec.text
                                 shape := .all (some 12)
                                 fragments := ["c.a = 1".toList]
                                 bindings := [] } := by
  intro spec
  have htext : strip spec.text.toList = "select".toList ++
      ((" ".toList ++ ("Top".toList ++ (" ".toList ++ ("١٢".toList ++ (" ".toList ++ ("*".toList ++
        ("\n".toList ++ ("FROM".toList ++ (" ".toList ++ ("c".toList ++ [])))))))))) ++
        (" ".toList ++ ("where".toList ++ ("  ".toList ++ "c.a = 1".toList)))) := by decide +kernel
  have hspace : Blanks " ".toList := ⟨by decide, by decide⟩
  have hspaces : Blanks "  ".toList := ⟨by decide, by decide⟩
  have hline : Blanks "\n".toList := ⟨by decide, by decide⟩
  have hdigits : (Token.digits [1, 2]).Spelled "١٢".toList := ⟨by decide +kernel, by decide⟩
  have hreads : Reads (.top [1, 2]) (some "c.a = 1".toList) (strip spec.text.toList) := by
    rw [htext]
    refine .intro rfl (.cons hspace rfl (.cons hspace hdigits (.cons hspace rfl (.cons hline rfl
      (.cons hspace rfl .nil))))) (.condition hspace rfl hspaces ?_)
    decide
  refine ⟨hreads, ?_⟩
  obtain ⟨hread, -, -⟩ := (ofSpec_grammar spec).1 _ _ hreads
  have hfragments : fragments "c.a = 1".toList = ["c.a = 1".toList] := by decide +kernel
  rw [hread, if_pos (by decide), Option.map_some, hfragments]
  rfl

/-! ## Limits that are not read -/

theorem reads_source (n : Nat) :
    ∃ digits, digits.length = (natDigits n).length ∧
      Reads (.top digits) none (strip (Shape.all (some n)).source.toList) := by
  obtain ⟨ds, hds, hlt, hne, -⟩ := exists_digits n
  have hspelled : (Token.digits ds).Spelled (natDigits n) := by
    refine ⟨?_, hne⟩
    rw [hds, List.map_map]
    exact List.map_congr_left fun d hd => digitValue?_digitChar (hlt d hd)
  have hblanks : Blanks [' '] := ⟨List.cons_ne_nil _ _, by decide⟩
  have htext : (Shape.all (some n)).source.toList =
      'S' :: (("ELECT TOP ".toList ++ (natDigits n ++ " * FROM ".toList)) ++ ['c']) := by
    simp [Shape.source]
  have hwords : Words (Opening.top ds).words
      ([' '] ++ ("TOP".toList ++ ([' '] ++ (natDigits n ++ ([' '] ++ (['*'] ++ ([' '] ++
        ("FROM".toList ++ ([' '] ++ (['c'] ++ [])))))))))) :=
    .cons hblanks rfl (.cons hblanks hspelled (.cons hblanks rfl (.cons hblanks rfl
      (.cons hblanks rfl .nil))))
  refine ⟨ds, by rw [hds, List.length_map], ?_⟩
  have hselect : (Token.word "select").Spelled "SELECT".toList := rfl
  have hreads := Reads.intro hselect hwords .bare
  rw [htext, strip_cons_concat (by decide) (by decide)]
  simpa using hreads

theorem ofSpec_source_of_long {n : Nat} (hlong : Numeral.maxDigits < (natDigits n).length) :
    let spec : Spec := { text := (Shape.all (some n)).source }
    (∃ opening, Reads opening none (strip spec.text.toList)) ∧
      Parsed.ofSpec spec = .error (.longInteger (natDigits n).length) := by
  intro spec
  obtain ⟨digits, hlength, hreads⟩ := reads_source n
  refine ⟨⟨_, hreads⟩, ?_⟩
  rw [ofSpec_of_reads spec hreads, Opening.limitDigits, hlength, if_neg (Nat.not_le.2 hlong)]

/-- A statement whose limit has one digit more than are read is refused. -/
theorem long_limit_unread :
    let spec : Spec := { text := (Shape.all (some (tenPow Numeral.maxDigits))).source }
    (∃ opening, Reads opening none (strip spec.text.toList)) ∧
      Parsed.ofSpec spec =
        .error (.longInteger (natDigits (tenPow Numeral.maxDigits)).length) :=
  ofSpec_source_of_long (lt_length_natDigits_tenPow Numeral.maxDigits)

end Pigeonhole.Query

import Pigeonhole.Proofs.Json.Assign
import Pigeonhole.Proofs.Json.OneLine
import Pigeonhole.Proofs.Json.Fault

/-!
# Texts of one line are read back

The reader gets a value back from its text of one line if there is no fault in the value, and the
fault otherwise (`value_print`, `parse_write`).  A numeral ends where a comma, a closing bracket or nothing
follows, its first character tells it from the constants, and the double that is read is the one
whose shortest digits were written (`number_text`).
-/

namespace Pigeonhole

namespace Json

open Text Numeral

/-! ## Numbers -/

theorem Ends.stops {s : List Char} (h : Ends s) : Stops s := by
  intro c hc
  rcases h c hc with rfl | rfl | rfl <;> decide

/-- What is read of a number after its digits in front of a point. -/
def afterWhole (negative : Bool) (whole : List Nat) (rest : List Char) :
    Except JsonError (Number × List Char) :=
  let (fraction, afterPoint) := match rest with
    | '.' :: t => spanDigits t
    | _ => ([], rest)
  let rest := if fraction.isEmpty then rest else afterPoint
  let (exponent, tail) := takeExponent rest
  if fraction.isEmpty ∧ tail.length = rest.length then
    match ofDigits whole with
    | .ok n => .ok (.int (if negative then -n else n), rest)
    | .error _ => .error .longInteger
  else .ok (.double (DecimalText.toDouble negative { whole, fraction, exponent }), tail)

/-- Digits without a zero in front are read whole. -/
theorem unsigned_digits {ds : List Nat} (hlt : ∀ d ∈ ds, d < 10) (hne : ds ≠ [])
    (hlead : ds.head? = some 0 → ds = [0]) {rest : List Char}
    (hrest : ∀ c ∈ rest.head?, isAsciiDigit c = false) (negative : Bool) :
    unsigned negative (ds.map digitChar ++ rest) = afterWhole negative ds rest := by
  have hspan := spanDigits_append hlt hrest
  obtain ⟨d, more, rfl⟩ := List.exists_cons_of_ne_nil hne
  by_cases hd : d = 0
  · obtain rfl : more = [] := by
      subst hd
      exact (List.cons.inj (hlead rfl)).2
    subst hd
    rfl
  · have hchar : digitChar d ≠ '0' := by
      have checked : ∀ d < 10, d ≠ 0 → digitChar d ≠ '0' := by decide
      exact checked d (hlt d List.mem_cons_self) hd
    rw [List.map_cons, List.cons_append] at hspan ⊢
    unfold unsigned
    split
    rename_i whole after hmatch
    have hparts : (whole, after) = (d :: more, rest) := by
      rw [← hspan, ← hmatch]
      split
      · rename_i t heq
        exact absurd (List.cons.inj heq).1 hchar
      · rfl
    obtain ⟨rfl, rfl⟩ := Prod.mk.inj hparts
    rfl

/-- Without a point an exponent is looked for at once; without an exponent the number is an
integer. -/
theorem afterWhole_of_ne {rest : List Char} (h : ∀ c ∈ rest.head?, c ≠ '.') (negative : Bool)
    (whole : List Nat) :
    afterWhole negative whole rest =
      if (takeExponent rest).2.length = rest.length then
        match ofDigits whole with
        | .ok n => .ok (.int (if negative then -n else n), rest)
        | .error _ => .error .longInteger
      else .ok (.double (DecimalText.toDouble negative
        { whole, exponent := (takeExponent rest).1 }), (takeExponent rest).2) := by
  cases rest with
  | nil => simp [afterWhole]
  | cons c rest => simp [afterWhole, h c rfl]

theorem afterWhole_of_stops {rest : List Char} (h : Stops rest) (negative : Bool)
    (whole : List Nat) :
    afterWhole negative whole rest =
      match ofDigits whole with
      | .ok n => .ok (.int (if negative then -n else n), rest)
      | .error _ => .error .longInteger := by
  rw [afterWhole_of_ne (fun c hc => (h c hc).2.1), h.takeExponent, if_pos rfl]

theorem afterWhole_point {t : DecimalText} (ht : t.IsDecimal) (hne : t.fraction ≠ [])
    {mark rest : List Char} (hmark : ExponentMark t.exponent mark) (hrest : Stops rest)
    (negative : Bool) :
    afterWhole negative t.whole ('.' :: (t.fraction.map digitChar ++ (mark ++ rest))) =
      .ok (.double (t.toDouble negative), rest) := by
  have hhead : ∀ c ∈ (mark ++ rest).head?, isAsciiDigit c = false := by
    cases mark with
    | nil => exact hrest.head?
    | cons c mark => exact fun d hd => isAsciiDigit_head?_of_exponentMark hmark d hd
  have hspan := spanDigits_append ht.fraction_lt hhead
  have hexponent := takeExponent_of_exponentMark hmark hrest
  have hempty : t.fraction.isEmpty = false := by simp [hne]
  simp [afterWhole, hspan, hexponent, hempty]

theorem afterWhole_mark {t : DecimalText} (hnil : t.fraction = []) (width : Nat) {rest : List Char}
    (hrest : Stops rest) (negative : Bool) :
    afterWhole negative t.whole ('e' :: (Double.exponentText width t.exponent ++ rest)) =
      .ok (.double (t.toDouble negative), rest) := by
  have hexponent := takeExponent_exponentText width t.exponent hrest.head?
  have hlength : ¬ rest.length = ('e' :: (Double.exponentText width t.exponent ++ rest)).length := by
    rw [List.length_cons, List.length_append]
    omega
  have htext : t = ⟨t.whole, [], t.exponent⟩ := by rw [← hnil]
  rw [afterWhole_of_ne (by simp), hexponent, if_neg hlength, ← htext]

/-- A written decimal is read as its double. -/
theorem unsigned_of_written {t : DecimalText} (ht : t.IsDecimal) {s rest : List Char}
    (h : Written t s) (hrest : Stops rest) (negative : Bool) :
    unsigned negative (s ++ rest) = .ok (.double (t.toDouble negative), rest) := by
  cases h with
  | point hne hmark =>
    rw [List.append_assoc, List.cons_append, List.append_assoc,
      unsigned_digits ht.whole_lt ht.whole_ne ht.whole_lead (by simp; decide),
      afterWhole_point ht hne hmark hrest]
  | whole width hnil =>
    rw [List.append_assoc, List.cons_append,
      unsigned_digits ht.whole_lt ht.whole_ne ht.whole_lead (by simp; decide),
      afterWhole_mark hnil width hrest]

theorem unsigned_natDigits (n : Nat) {rest : List Char} (hrest : Stops rest) (negative : Bool) :
    unsigned negative (natDigits n ++ rest) =
      orFault (Number.fault? (.int n)) (.int (if negative then -n else n), rest) := by
  obtain ⟨ds, hds, hlt, hne, hvalue⟩ := exists_digits n
  have hlength : (natDigits n).length = ds.length := by rw [hds, List.length_map]
  rw [Number.fault?, Int.natAbs_natCast, hlength, hds,
    unsigned_digits hlt hne (eq_zero_of_natDigits hds) hrest.head?, afterWhole_of_stops hrest,
    ofDigits, hvalue]
  by_cases hlong : maxDigits < ds.length
  · rw [if_pos hlong, if_neg (by omega)]
    rfl
  · rw [if_neg hlong, if_pos (by omega)]
    rfl

theorem dropExact_of_ne {c d : Char} (h : d ≠ c) (w s : List Char) :
    dropExact (c :: w) (d :: s) = none := if_neg h

/-- What begins with a digit has no name. -/
theorem number_of_isAsciiDigit {c : Char} (hc : isAsciiDigit c = true) (s : List Char) :
    number (c :: s) = unsigned false (c :: s) ∧
      number ('-' :: c :: s) = unsigned true (c :: s) := by
  have hne : ∀ d, isAsciiDigit d = false → c ≠ d := by
    rintro d hd rfl
    rw [hc] at hd
    cases hd
  have hnan : dropExact "NaN".toList (c :: s) = none := dropExact_of_ne (hne 'N' (by decide)) _ s
  have hinfinity : dropExact "Infinity".toList (c :: s) = none :=
    dropExact_of_ne (hne 'I' (by decide)) _ s
  constructor
  · have hminus : c ≠ '-' := hne '-' (by decide)
    unfold number
    split
    · rename_i t heq
      exact absurd (List.cons.inj heq).1 hminus
    · rw [hnan, hinfinity]
  · rw [number, hinfinity]

theorem number_sign {s : List Char} (h : ∃ c t, s = c :: t ∧ isAsciiDigit c = true)
    (negative : Bool) (rest : List Char) :
    number ((if negative then ['-'] else []) ++ s ++ rest) = unsigned negative (s ++ rest) := by
  obtain ⟨c, t, rfl, hc⟩ := h
  cases negative with
  | false => exact (number_of_isAsciiDigit hc (t ++ rest)).1
  | true => exact (number_of_isAsciiDigit hc (t ++ rest)).2

/-- The text of a number is read back, unless it is an integer with too many digits. -/
theorem number_text (n : Number) {rest : List Char} (hrest : Ends rest) :
    number (n.text Double.jsonLayout ++ rest) = orFault n.fault? (n, rest) := by
  rw [Number.text_eq]
  cases n with
  | int n =>
    have hsign : (if n < 0 then -(n.natAbs : Int) else n.natAbs) = n := by split <;> omega
    have hread := unsigned_natDigits n.natAbs hrest.stops (decide (n < 0))
    simp only [decide_eq_true_eq, hsign] at hread
    rw [Number.hasMinus, Number.body, number_sign (exists_digit_natDigits n.natAbs), hread,
      Number.fault?, Number.fault?, Int.natAbs_natCast]
  | double x =>
    show number ((if x.hasMinus then ['-'] else []) ++ x.body ++ rest) = .ok (.double x, rest)
    cases x with
    | nan =>
      rw [Double.body_nan]
      rfl
    | infinite negative =>
      rw [Double.body_infinite]
      cases negative <;> rfl
    | finite negative biased fraction =>
      obtain ⟨t, ht, hwritten, hvalue⟩ := Double.written_body negative biased fraction
      rw [number_sign (exists_digit_of_written ht hwritten),
        unsigned_of_written ht hwritten hrest.stops, Double.toDouble_of_value ht hvalue]
      rfl

/-! ## Beginnings -/

/-- The characters that the text of a number begins with. -/
def startsNumber (c : Char) : Bool := isAsciiDigit c || c ∈ ['-', 'N', 'I']

/-- The characters that the text of a value begins with. -/
def startsValue (c : Char) : Bool :=
  startsNumber c || c ∈ ['\x22', '[', '\x7b', 'n', 't', 'f']

theorem ne_of_startsNumber {c : Char} (hc : startsNumber c = true) {d : Char}
    (hd : startsNumber d = false) : d ≠ c := by
  rintro rfl
  rw [hc] at hd
  cases hd

theorem ne_of_startsValue {c : Char} (hc : startsValue c = true) {d : Char}
    (hd : startsValue d = false) : c ≠ d := by
  rintro rfl
  rw [hc] at hd
  cases hd

theorem exists_startsNumber (n : Number) :
    ∃ c t, n.text Double.jsonLayout = c :: t ∧ startsNumber c = true := by
  rw [Number.text_eq]
  cases n.hasMinus with
  | true => exact ⟨'-', n.body, rfl, rfl⟩
  | false =>
    have hdigit : ∀ {s : List Char}, (∃ c t, s = c :: t ∧ isAsciiDigit c = true) →
        ∃ c t, s = c :: t ∧ startsNumber c = true := by
      rintro s ⟨c, t, h, hc⟩
      exact ⟨c, t, h, by rw [startsNumber, hc, Bool.true_or]⟩
    cases n with
    | int n => exact hdigit (exists_digit_natDigits n.natAbs)
    | double x =>
      cases x with
      | nan => exact ⟨'N', _, Double.body_nan, rfl⟩
      | infinite negative => exact ⟨'I', _, Double.body_infinite negative, rfl⟩
      | finite negative biased fraction =>
        obtain ⟨t, ht, hwritten, -⟩ := Double.written_body negative biased fraction
        exact hdigit (exists_digit_of_written ht hwritten)

variable {f : JsonFormat} [f.OneLine] {leaf : Empty → List Char}

theorem exists_startsValue (v : Json) (level : Nat) :
    ∃ c t, v.print f leaf level = c :: t ∧ startsValue c = true := by
  cases v with
  | null => exact ⟨_, _, rfl, rfl⟩
  | bool b => cases b <;> exact ⟨_, _, rfl, rfl⟩
  | num n =>
    obtain ⟨c, t, h, hc⟩ := exists_startsNumber n
    exact ⟨c, t, h, by rw [startsValue, hc, Bool.true_or]⟩
  | str s => exact ⟨_, _, rfl, rfl⟩
  | arr items => exact ⟨_, _, print_arr f leaf level items, rfl⟩
  | obj members => exact ⟨_, _, print_obj f leaf level members, rfl⟩
  | foreign e => cases e

theorem exists_startsValue_elements {vs : List Json} (hne : vs ≠ []) (level : Nat) :
    ∃ c t, elements f leaf level vs = c :: t ∧ startsValue c = true := by
  obtain ⟨v, rest, rfl⟩ := List.exists_cons_of_ne_nil hne
  obtain ⟨c, t, h, hc⟩ := @exists_startsValue f _ leaf v level
  exact ⟨c, _, by rw [elements, h, List.cons_append], hc⟩

omit [f.OneLine] in
theorem exists_startsValue_fields {ms : List (String × Json)} (hne : ms ≠ []) (level : Nat) :
    ∃ c t, fields f leaf level ms = c :: t ∧ startsValue c = true := by
  obtain ⟨m, rest, rfl⟩ := List.exists_cons_of_ne_nil hne
  exact ⟨_, _, rfl, rfl⟩

theorem skipSpace_of_startsValue {c : Char} (hc : startsValue c = true) (s : List Char) :
    skipSpace (c :: s) = c :: s := by
  have hspace : isSpace c = false := by
    by_contra h
    simp only [isSpace, Bool.not_eq_false, Bool.or_eq_true, decide_eq_true_eq, or_assoc] at h
    rcases h with rfl | rfl | rfl | rfl <;> exact absurd hc (by decide)
  rw [skipSpace, List.dropWhile_cons_of_neg (by simp [hspace])]

/-- Blanks in front are skipped. -/
theorem skipSpace_append {w : List Char} (h : ∀ c ∈ w, isSpace c = true) (s : List Char) :
    skipSpace (w ++ s) = skipSpace s := by
  rw [skipSpace, List.dropWhile_append_of_pos h, skipSpace]

theorem skipSpace_print (v : Json) (level : Nat) (s : List Char) :
    skipSpace (v.print f leaf level ++ s) = v.print f leaf level ++ s := by
  obtain ⟨c, t, h, hc⟩ := @exists_startsValue f _ leaf v level
  rw [h, List.cons_append, skipSpace_of_startsValue hc]

theorem skipSpace_elements {vs : List Json} (hne : vs ≠ []) (level : Nat) (s : List Char) :
    skipSpace (elements f leaf level vs ++ s) = elements f leaf level vs ++ s := by
  obtain ⟨c, t, h, hc⟩ := @exists_startsValue_elements f _ leaf vs hne level
  rw [h, List.cons_append, skipSpace_of_startsValue hc]

omit [f.OneLine] in
theorem skipSpace_fields {ms : List (String × Json)} (hne : ms ≠ []) (level : Nat)
    (s : List Char) : skipSpace (fields f leaf level ms ++ s) = fields f leaf level ms ++ s := by
  obtain ⟨c, t, h, hc⟩ := @exists_startsValue_fields f leaf ms hne level
  rw [h, List.cons_append, skipSpace_of_startsValue hc]

theorem skipSpace_of_ends {s : List Char} (h : Ends s) : skipSpace s = s := by
  cases s with
  | nil => rfl
  | cons c s =>
    have hspace : isSpace c = false := by
      rcases h c rfl with rfl | rfl | rfl <;> decide
    rw [skipSpace, List.dropWhile_cons_of_neg (by simp [hspace])]

/-! ## Steps of the reader -/

theorem atom_text (n : Number) {rest : List Char} (hrest : Ends rest) :
    atom (n.text Double.jsonLayout ++ rest) = orFault n.fault? (.num n, rest) := by
  have hread := number_text n hrest
  obtain ⟨c, t, h, hc⟩ := exists_startsNumber n
  rw [h, List.cons_append] at hread ⊢
  have hdrop : ∀ {d : Char} (w : List Char), startsNumber d = false →
      dropExact (d :: w) (c :: (t ++ rest)) = none :=
    fun w hd => dropExact_of_ne (ne_of_startsNumber hc hd).symm w _
  have hnull : dropExact "null".toList (c :: (t ++ rest)) = none := hdrop _ (by decide)
  have htrue : dropExact "true".toList (c :: (t ++ rest)) = none := hdrop _ (by decide)
  have hfalse : dropExact "false".toList (c :: (t ++ rest)) = none := hdrop _ (by decide)
  rw [atom, hnull, htrue, hfalse]
  simp only [hread]
  cases n.fault? <;> rfl

theorem value_of_startsNumber {c : Char} (hc : startsNumber c = true) (fuel depth : Nat)
    (s : List Char) : value (fuel + 1) depth (c :: s) = atom (c :: s) := by
  have hquote : '\x22' ≠ c := ne_of_startsNumber hc (by decide)
  have harray : '[' ≠ c := ne_of_startsNumber hc (by decide)
  have hobject : '\x7b' ≠ c := ne_of_startsNumber hc (by decide)
  rw [value]
  · rintro t ⟨⟩
    exact hquote rfl
  · rintro t ⟨⟩
    exact harray rfl
  · rintro t ⟨⟩
    exact hobject rfl

theorem value_quote (ascii : Bool) (text : List Char) (fuel depth : Nat) (s : List Char) :
    value (fuel + 1) depth (Quoted.quote ascii text ++ s) = .ok (Tree.ofString text, s) := by
  rw [Quoted.quote, List.cons_append, List.cons_append, List.append_assoc, List.singleton_append,
    value, Quoted.stringBody_encode]

theorem value_arr {vs : List Json} (hne : vs ≠ []) (fuel depth level : Nat) (s : List Char) :
    value (fuel + 1) (depth + 1) ('[' :: (elements f leaf level vs ++ s)) =
      (items fuel depth (elements f leaf level vs ++ s)).map
        fun (items, rest) => (.arr items, rest) := by
  obtain ⟨c, t, h, hc⟩ := @exists_startsValue_elements f _ leaf vs hne level
  have hend : c ≠ ']' := ne_of_startsValue hc (by decide)
  rw [h, List.cons_append]
  simp [value, skipSpace_of_startsValue hc, hend]

omit [f.OneLine] in
theorem value_obj {ms : List (String × Json)} (hne : ms ≠ []) (fuel depth level : Nat)
    (s : List Char) :
    value (fuel + 1) (depth + 1) ('\x7b' :: (fields f leaf level ms ++ s)) =
      (members fuel depth (fields f leaf level ms ++ s)).map
        fun (members, rest) => (.obj (assignAll members), rest) := by
  obtain ⟨c, t, h, hc⟩ := @exists_startsValue_fields f leaf ms hne level
  have hend : c ≠ '\x7d' := ne_of_startsValue hc (by decide)
  rw [h, List.cons_append]
  simp [value, skipSpace_of_startsValue hc, hend]

theorem items_last {fuel depth : Nat} {s t : List Char} {v : Json}
    (h : value fuel depth s = .ok (v, ']' :: t)) : items (fuel + 1) depth s = .ok ([v], t) := by
  have hskip : skipSpace (']' :: t) = ']' :: t := skipSpace_of_ends (ends_cons (by decide) t)
  rw [items, h]
  simp only [hskip]

theorem skipSpace_comma (s : List Char) :
    skipSpace (f.comma ++ s) = ',' :: (f.comma.tail ++ s) := by
  rw [JsonFormat.OneLine.comma_eq]
  exact skipSpace_of_ends (ends_cons (by decide) _)

theorem items_comma {fuel depth : Nat} {s t : List Char} {v : Json}
    (h : value fuel depth s = .ok (v, f.comma ++ t)) :
    items (fuel + 1) depth s =
      (items fuel depth (skipSpace t)).map fun (items, rest) => (v :: items, rest) := by
  rw [items, h]
  simp only [skipSpace_comma, skipSpace_append JsonFormat.OneLine.comma_blank]

theorem items_error {fuel depth : Nat} {s : List Char} {e : JsonError}
    (h : value fuel depth s = .error e) : items (fuel + 1) depth s = .error e := by
  rw [items, h]

section Members

variable {fuel depth level : Nat} {s t : List Char} {v : Json} (key : String)

theorem skipSpace_colon (s : List Char) :
    skipSpace (f.colon ++ s) = ':' :: (f.colon.tail ++ s) := by
  rw [JsonFormat.OneLine.colon_eq]
  exact List.dropWhile_cons_of_neg (by decide)

theorem members_last
    (h : value fuel depth (v.print f leaf level ++ s) = .ok (v, '\x7d' :: t)) :
    members (fuel + 1) depth
        (Quoted.quote f.ascii key.toList ++ (f.colon ++ (v.print f leaf level ++ s))) =
      .ok ([(key, v)], t) := by
  have hskip : skipSpace ('\x7d' :: t) = '\x7d' :: t := skipSpace_of_ends (ends_cons (by decide) t)
  simp only [Quoted.quote_append, members, Quoted.stringBody_encode, skipSpace_colon,
    skipSpace_append JsonFormat.OneLine.colon_blank, skipSpace_print, h, hskip,
    String.ofList_toList]

theorem members_comma
    (h : value fuel depth (v.print f leaf level ++ s) = .ok (v, f.comma ++ t)) :
    members (fuel + 1) depth
        (Quoted.quote f.ascii key.toList ++ (f.colon ++ (v.print f leaf level ++ s))) =
      (members fuel depth (skipSpace t)).map
        fun (members, rest) => ((key, v) :: members, rest) := by
  simp only [Quoted.quote_append, members, Quoted.stringBody_encode, skipSpace_colon,
    skipSpace_append JsonFormat.OneLine.colon_blank, skipSpace_print, h, skipSpace_comma,
    skipSpace_append JsonFormat.OneLine.comma_blank, String.ofList_toList]

theorem members_error {e : JsonError}
    (h : value fuel depth (v.print f leaf level ++ s) = .error e) :
    members (fuel + 1) depth
        (Quoted.quote f.ascii key.toList ++ (f.colon ++ (v.print f leaf level ++ s))) =
      .error e := by
  simp only [Quoted.quote_append, members, Quoted.stringBody_encode, skipSpace_colon,
    skipSpace_append JsonFormat.OneLine.colon_blank, skipSpace_print, h]

end Members

/-! ## Values -/

-- By induction on the value.  The length of its text is fuel enough: every reader spends one unit on
-- a text that has at least one character besides those of its parts.
mutual

/-- The text of a value is read back up to its end, unless there is a fault in the value. -/
theorem value_print (v : Json) (hv : v.Distinct) {fuel depth level : Nat} {s : List Char}
    (hs : Ends s) (hfuel : (v.print f leaf level).length ≤ fuel) :
    value fuel depth (v.print f leaf level ++ s) = orFault (v.fault? depth) (v, s) := by
  obtain ⟨fuel, rfl⟩ : ∃ k, fuel = k + 1 := by
    obtain ⟨c, t, h, -⟩ := @exists_startsValue f _ leaf v level
    rw [h, List.length_cons] at hfuel
    exact ⟨fuel - 1, by omega⟩
  cases v with
  | null => rfl
  | bool b => cases b <;> rfl
  | num n =>
    obtain ⟨c, t, h, hc⟩ := exists_startsNumber n
    have hread := atom_text n hs
    rw [h, List.cons_append] at hread
    rw [Tree.print, h, List.cons_append, value_of_startsNumber hc, hread, fault?]
  | str text =>
    have hread := value_quote f.ascii text.toList fuel depth s
    rwa [Tree.ofString, String.ofList_toList] at hread
  | foreign e => cases e
  | arr items =>
    rw [print_arr, List.length_cons, List.length_append, List.length_singleton] at hfuel
    rw [print_arr, List.cons_append, List.append_assoc, List.singleton_append]
    cases depth with
    | zero => rfl
    | succ depth =>
      by_cases hne : items = []
      · subst hne
        rfl
      · rw [value_arr hne, items_elements items hne hv (by omega), fault?]
        cases itemsFault? depth items <;> rfl
  | obj members =>
    rw [print_obj, List.length_cons, List.length_append, List.length_singleton] at hfuel
    rw [print_obj, List.cons_append, List.append_assoc, List.singleton_append]
    obtain ⟨hkeys, hmembers⟩ := hv
    cases depth with
    | zero => rfl
    | succ depth =>
      by_cases hne : members = []
      · subst hne
        rfl
      · rw [value_obj hne, members_fields members hne hmembers (by omega), fault?]
        cases membersFault? depth members with
        | none =>
          show Except.ok (Tree.obj (assignAll members), s) = _
          rw [assignAll_of_nodup hkeys]
          rfl
        | some fault => rfl

theorem items_elements (vs : List Json) (hne : vs ≠ []) (hvs : ItemsDistinct vs)
    {fuel depth level : Nat} {s : List Char}
    (hfuel : (elements f leaf level vs).length + 1 ≤ fuel) :
    items fuel depth (elements f leaf level vs ++ ']' :: s) =
      orFault (itemsFault? depth vs) (vs, s) := by
  obtain ⟨fuel, rfl⟩ : ∃ k, fuel = k + 1 := ⟨fuel - 1, by omega⟩
  obtain ⟨v, rest, rfl⟩ := List.exists_cons_of_ne_nil hne
  rw [elements, List.length_append, printItems_eq] at hfuel
  rw [elements, List.append_assoc, printItems_eq, itemsFault?]
  have hends := ends_afterComma f rest (elements f leaf level rest) (.inl rfl) s
  have hvalue : value fuel depth (v.print f leaf level ++
      (afterComma f rest (elements f leaf level rest) ++ ']' :: s)) = orFault (v.fault? depth) _ :=
    value_print v hvs.1 hends (by omega)
  cases hfault : v.fault? depth with
  | some fault =>
    rw [hfault] at hvalue
    exact items_error hvalue
  | none =>
    rw [hfault] at hvalue
    by_cases hrest : rest = []
    · subst hrest
      exact items_last hvalue
    · rw [afterComma_of_ne f hrest, List.append_assoc] at hvalue ⊢
      rw [afterComma_of_ne f hrest, List.length_append] at hfuel
      have hcomma := length_comma_pos f
      rw [items_comma hvalue, skipSpace_elements hrest, items_elements rest hrest hvs.2 (by omega),
        Option.none_or]
      cases itemsFault? depth rest <;> rfl

theorem members_fields (ms : List (String × Json)) (hne : ms ≠ []) (hms : MembersDistinct ms)
    {fuel depth level : Nat} {s : List Char}
    (hfuel : (fields f leaf level ms).length + 1 ≤ fuel) :
    members fuel depth (fields f leaf level ms ++ '\x7d' :: s) =
      orFault (membersFault? depth ms) (ms, s) := by
  obtain ⟨fuel, rfl⟩ : ∃ k, fuel = k + 1 := ⟨fuel - 1, by omega⟩
  obtain ⟨⟨key, v⟩, rest, rfl⟩ := List.exists_cons_of_ne_nil hne
  rw [fields, List.length_append, List.length_append, List.length_append, printMembers_eq] at hfuel
  have hquote : 0 < (Quoted.quote f.ascii key.toList).length := Nat.succ_pos _
  rw [fields, List.append_assoc, List.append_assoc, List.append_assoc, printMembers_eq,
    membersFault?]
  have hends := ends_afterComma f rest (fields f leaf level rest) (.inr rfl) s
  have hvalue : value fuel depth (v.print f leaf level ++
      (afterComma f rest (fields f leaf level rest) ++ '\x7d' :: s)) = orFault (v.fault? depth) _ :=
    value_print v hms.1 hends (by omega)
  cases hfault : v.fault? depth with
  | some fault =>
    rw [hfault] at hvalue
    exact members_error key hvalue
  | none =>
    rw [hfault] at hvalue
    by_cases hrest : rest = []
    · subst hrest
      exact members_last key hvalue
    · rw [afterComma_of_ne f hrest, List.append_assoc] at hvalue ⊢
      rw [afterComma_of_ne f hrest, List.length_append] at hfuel
      have hcomma := length_comma_pos f
      rw [members_comma key hvalue, skipSpace_fields hrest,
        members_fields rest hrest hms.2 (by omega), Option.none_or]
      cases membersFault? depth rest <;> rfl

end

variable (f) in
/-- A whole text of one line is read as its value, or refused for the fault in it. -/
theorem parse_write {v : Json} (hv : v.Distinct) :
    parse (write f v) = orFault (v.fault? maxDepth) v := by
  obtain ⟨leaf, htext⟩ : ∃ leaf, write f v = v.print f leaf 0 := ⟨_, rfl⟩
  have hskip := @skipSpace_print f _ leaf v 0 []
  have hread := @value_print f _ leaf v hv (2 * (v.print f leaf 0).length + 2) maxDepth 0 []
    ends_nil (by omega)
  rw [List.append_nil] at hskip hread
  rw [parse, htext, hskip, hread]
  cases v.fault? maxDepth <;> rfl

/-- The canonical text of a value is read as the value with its integral doubles replaced. -/
theorem parse_canonical {v : Json} (hv : v.Distinct) :
    parse v.canonical = orFault (v.fault? maxDepth) v.normalize := by
  rw [canonical, parse_write .compact hv.normalize, fault?_normalize]

end Json

end Pigeonhole

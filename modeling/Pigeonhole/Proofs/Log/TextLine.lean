import Pigeonhole.Proofs.Json.Message
import Pigeonhole.Proofs.Log.JsonLine
import Pigeonhole.Proofs.Log.Secrecy

/-!
# Lines of text

The fields of a line of text show the strings of the context as they are, and every other value in
one line.  So a record without an exception takes more than one line exactly if its logger, its
message, its correlation id, a key or a string of its context does (`mem_line_iff`).  If only
the strings of the context are left to ask, they alone decide (`textLine_breaks_iff`).
-/

namespace Pigeonhole.Log

open Text

/-- No end of line. -/
def IsOneLine (s : List Char) : Prop := ∀ c ∈ s, isLineEnd c = false

instance : DecidablePred IsOneLine := fun s =>
  inferInstanceAs (Decidable (∀ c ∈ s, isLineEnd c = false))

theorem IsOneLine.not_mem {s : List Char} (h : IsOneLine s) {c : Char} (hc : isLineEnd c = true) :
    c ∉ s := by
  intro hmem
  rw [h c hmem] at hc
  cases hc

theorem isOneLine_of_isPlain {s : List Char} (h : ∀ c ∈ s, IsPlain c) : IsOneLine s :=
  fun c hc => isLineEnd_of_isPlain (h c hc)

/-! ## Times -/

theorem isPlain_of_mem_padded (width n : Nat) : ∀ c ∈ padded width n, IsPlain c := by
  rw [padded, List.forall_mem_append]
  refine ⟨fun c hc => ?_, fun c hc =>
    Json.isPlain_of_isNumberChar (Numeral.isNumberChar_of_mem_natDigits hc)⟩
  rw [List.eq_of_mem_replicate hc]
  decide

theorem Moment.isPlain_of_mem_text (m : Moment) (yearWidth : Nat) {mark : Char}
    (hmark : IsPlain mark) : ∀ c ∈ m.text yearWidth mark, IsPlain c := by
  have hdash : IsPlain '-' := by decide
  have hcolon : IsPlain ':' := by decide
  have hyear : ∀ c ∈ (if m.year < 0 then '-' :: padded yearWidth m.year.natAbs
      else padded yearWidth m.year.toNat), IsPlain c := by
    split
    · exact List.forall_mem_cons.2 ⟨hdash, isPlain_of_mem_padded _ _⟩
    · exact isPlain_of_mem_padded _ _
  simp only [text, List.cons_append, List.append_assoc, List.forall_mem_append,
    List.forall_mem_cons]
  exact ⟨hyear, hdash, isPlain_of_mem_padded _ _, hdash, isPlain_of_mem_padded _ _, hmark,
    isPlain_of_mem_padded _ _, hcolon, isPlain_of_mem_padded _ _, hcolon, isPlain_of_mem_padded _ _⟩

theorem isOneLine_plainTime {created : Number} {time : List Char}
    (h : plainTime created = .ok time) : IsOneLine time := by
  rw [plainTime] at h
  cases hseconds : wholeSeconds created with
  | error e => rw [hseconds] at h; cases h
  | ok seconds =>
    cases hm : momentAt seconds with
    | error e => simp only [hseconds, hm, bind, Except.bind] at h; cases h
    | ok m =>
      simp only [hseconds, hm, bind, Except.bind] at h
      split at h
      · cases h
      · obtain rfl := Except.ok.inj h
        exact isOneLine_of_isPlain (m.isPlain_of_mem_text 1 (by decide))

/-! ## Parts of a line -/

variable {r : Record} {c : Char} {time text : List Char}

theorem Level.isOneLine_name (l : Level) : IsOneLine l.name.toList := by
  cases l <;> decide

theorem mem_heading_iff (hc : isLineEnd c = true) (htime : IsOneLine time) :
    c ∈ r.heading time ↔ c ∈ r.logger.toList := by
  have hopen : IsOneLine " [".toList := by decide
  have hclose : IsOneLine "] ".toList := by decide
  have hcolon : IsOneLine ": ".toList := by decide
  simp only [Record.heading, List.mem_append, htime.not_mem hc, hopen.not_mem hc,
    hclose.not_mem hc, hcolon.not_mem hc, r.level.isOneLine_name.not_mem hc, false_or, or_false]

/-- The fields come in front of the first line break or at the end, so nothing is lost. -/
theorem mem_insertFields_iff (hc : isLineEnd c = true) (fields : List (List Char)) :
    c ∈ insertFields text fields ↔ c ∈ text ∨ ∃ field ∈ fields, c ∈ field := by
  have hbar : IsOneLine " | ".toList := by decide
  have hblank : IsOneLine [' '] := by decide
  cases fields with
  | nil => simp [insertFields]
  | cons field rest =>
    rw [insertFields, if_neg (by simp), List.mem_append, List.mem_append, List.mem_append,
      mem_joinWith_iff (hblank.not_mem hc), or_iff_left (hbar.not_mem hc), or_right_comm,
      ← List.mem_append, List.takeWhile_append_dropWhile]

theorem mem_fieldText_iff (hc : isLineEnd c = true) (m : String × Value) :
    c ∈ fieldText m ↔ c ∈ m.1.toList ∨ ∃ s, m.2 = .str s ∧ c ∈ s.toList := by
  have hequals : c ≠ '=' := by
    rintro rfl
    revert hc
    decide
  rw [fieldText, List.mem_append, List.mem_cons, or_iff_right hequals, Value.mem_display_iff hc]

theorem mem_fields_iff (hc : isLineEnd c = true) :
    (∃ field ∈ r.fields, c ∈ field) ↔
      (∃ id, r.correlationId = some id ∧ c ∈ id.toList) ∨
        ∃ m ∈ r.context, c ∈ m.1.toList ∨ ∃ s, m.2 = .str s ∧ c ∈ s.toList := by
  have hcorr : c ∉ "corr".toList := IsOneLine.not_mem (by decide) hc
  have hmap : ∀ ms : List (String × Value), (∃ field ∈ ms.map fieldText, c ∈ field) ↔
      ∃ m ∈ ms, c ∈ m.1.toList ∨ ∃ s, m.2 = .str s ∧ c ∈ s.toList := by
    simp [mem_fieldText_iff hc]
  rw [fields_eq, hmap]
  simp only [List.mem_append, or_and_right, exists_or]
  refine or_congr_left ⟨?_, ?_⟩
  · rintro ⟨m, hm, h⟩
    obtain ⟨id, hid, rfl⟩ := List.mem_map.1 hm
    obtain ⟨s, hs, h⟩ := h.resolve_left hcorr
    obtain rfl := Tree.str.inj hs
    exact ⟨id, Option.mem_toList.1 hid, h⟩
  · rintro ⟨id, hid, h⟩
    exact ⟨("corr", .str id), List.mem_map.2 ⟨id, Option.mem_toList.2 hid, rfl⟩, .inr ⟨id, rfl, h⟩⟩

/-! ## JSON contexts -/

theorem membersOfJson_eq_map (context : List (String × Json)) :
    (Tree.membersOfJson context : List (String × Value)) =
      context.map fun m => (m.1, Tree.ofJson m.2) := by
  induction context with
  | nil => rfl
  | cons m rest ih => exact congrArg _ ih

theorem ofJson_eq_str_iff {v : Json} {s : String} :
    (Tree.ofJson v : Value) = .str s ↔ v = .str s := by
  cases v with
  | str t => simp [Tree.ofJson]
  | foreign leaf => exact leaf.elim
  | _ => simp [Tree.ofJson]

/-! ## Lines -/

theorem textLine_eq (hexception : r.exception = none) (htext : r.text = .ok text)
    (htime : plainTime r.created = .ok time) :
    r.textLine =
      if r.isContextWritable then .ok (insertFields (r.heading time ++ text) r.fields)
      else .error .longInteger := by
  simp only [Record.textLine, htext, htime, hexception, withException]

/-- The parts of a record without an exception that end a line of its text. -/
theorem mem_line_iff (hc : isLineEnd c = true) (htime : plainTime r.created = .ok time) :
    c ∈ insertFields (r.heading time ++ text) r.fields ↔
      c ∈ r.logger.toList ∨ c ∈ text ∨ (∃ id, r.correlationId = some id ∧ c ∈ id.toList) ∨
        ∃ m ∈ r.context, c ∈ m.1.toList ∨ ∃ s, m.2 = .str s ∧ c ∈ s.toList := by
  rw [mem_insertFields_iff hc, mem_fields_iff hc, List.mem_append,
    mem_heading_iff hc (isOneLine_plainTime htime), or_assoc]

/-- The line of text of a record without an exception, in which no line ends but in the context of
JSON values, ends a line exactly as the strings do that are values of the context themselves: what
stands inside arrays and objects ends none.  A record is refused only for a time that has no form in
text, and for an integer in its context that is too long. -/
theorem textLine_breaks_iff (r : Record) (message : List Char) (context : List (String × Json))
    (htext : r.text = .ok message) (hexception : r.exception = none)
    (hcontext : r.context = Tree.membersOfJson context) (hmessage : IsOneLine message)
    (hlogger : IsOneLine r.logger.toList)
    (hcorrelation : ∀ id, r.correlationId = some id → IsOneLine id.toList)
    (hkeys : ∀ m ∈ context, IsOneLine m.1.toList) :
    (∀ e, plainTime r.created = .error e → r.textLine = .error (.time e)) ∧
    ∀ time, plainTime r.created = .ok time →
      (¬ Json.Short (Json.membersIntegers context) → r.textLine = .error .longInteger) ∧
      (Json.Short (Json.membersIntegers context) → ∃ line, r.textLine = .ok line ∧
        ∀ c, isLineEnd c = true →
          (c ∈ line ↔ ∃ key s, (key, .str s) ∈ context ∧ c ∈ s.toList)) := by
  refine ⟨fun e he => by simp only [Record.textLine, htext, he], fun time htime => ?_⟩
  have hline := textLine_eq hexception htext htime
  refine ⟨fun hlong => ?_, fun hshort => ?_⟩
  · rwa [if_neg (mt (isContextWritable_iff hcontext).1 hlong)] at hline
  rw [if_pos ((isContextWritable_iff hcontext).2 hshort)] at hline
  refine ⟨_, hline, fun c hc => ?_⟩
  have hid : ¬ ∃ id, r.correlationId = some id ∧ c ∈ id.toList := by
    rintro ⟨id, hid, hmem⟩
    exact (hcorrelation id hid).not_mem hc hmem
  rw [mem_line_iff hc htime, or_iff_right (hlogger.not_mem hc), or_iff_right (hmessage.not_mem hc),
    or_iff_right hid, hcontext, membersOfJson_eq_map]
  constructor
  · rintro ⟨m, hm, h⟩
    obtain ⟨⟨key, v⟩, hmem, rfl⟩ := List.mem_map.1 hm
    obtain ⟨s, hs, hin⟩ := h.resolve_left ((hkeys _ hmem).not_mem hc)
    exact ⟨key, s, ofJson_eq_str_iff.1 hs ▸ hmem, hin⟩
  · rintro ⟨key, s, hmem, h⟩
    exact ⟨_, List.mem_map.2 ⟨_, hmem, rfl⟩, .inr ⟨s, rfl, h⟩⟩

/-- A line break inside an array is shown by an escape. -/
theorem textLine_breaks_iff_array :
    let context : List (String × Json) :=
      [("pkey", .arr [.str "a\nb"]), ("query", .str "SELECT * FROM c")]
    let r : Record :=
      { level := .info
        logger := "client"
        message := .str "QUERY people"
        correlation := some (some "run")
        context := Tree.membersOfJson context }
    let time := "1970-01-01 00:00:00".toList
    plainTime r.created = .ok time ∧
      ∃ line, r.textLine = .ok line ∧ ∀ c, isLineEnd c = true → c ∉ line := by
  intro context r time
  have htime : plainTime r.created = .ok time := by decide +kernel
  have hcorrelation : ∀ id, r.correlationId = some id → IsOneLine id.toList := by
    rintro _ ⟨⟩
    decide
  obtain ⟨-, htold⟩ := textLine_breaks_iff r "QUERY people".toList context rfl rfl rfl
    (by decide) (by decide) hcorrelation (by decide)
  obtain ⟨line, hline, hbreaks⟩ := (htold time htime).2 (List.forall_mem_nil _)
  refine ⟨htime, line, hline, fun c hc hmem => ?_⟩
  obtain ⟨key, s, hstring, hin⟩ := (hbreaks c hc).1 hmem
  obtain ⟨-, rfl⟩ : key = "query" ∧ s = "SELECT * FROM c" := by simpa [context] using hstring
  exact IsOneLine.not_mem (by decide) hc hin

/-- A string breaks the line: the text of a query, which may have several lines. -/
theorem string_breaks_line :
    let r : Record :=
      { Record.plain .info "test" "QUERY people" with
        context := [("query", .str "SELECT *\nFROM c")] }
    r.exception = none ∧ r.text = .ok "QUERY people".toList ∧ r.correlationId = none ∧
      IsOneLine "QUERY people".toList ∧ IsOneLine r.logger.toList ∧
      (∀ m ∈ r.context, IsOneLine m.1.toList) ∧
      ∃ line, r.textLine = .ok line ∧ '\n' ∈ line ∧
        Text.lines line =
          ["1970-01-01 00:00:00 [INFO] test: QUERY people | query=SELECT *".toList,
            "FROM c".toList] := by
  refine ⟨rfl, rfl, rfl, by decide, by decide, by decide,
    "1970-01-01 00:00:00 [INFO] test: QUERY people | query=SELECT *\nFROM c".toList, ?_, ?_, ?_⟩
  · decide +kernel
  · decide +kernel
  · decide +kernel

end Pigeonhole.Log

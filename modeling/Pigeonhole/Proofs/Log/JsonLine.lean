import Pigeonhole.Log.Format
import Pigeonhole.Proofs.Json.Ascii
import Pigeonhole.Proofs.Json.Embedding
import Pigeonhole.Proofs.Json.Reading

/-!
# JSON lines

The JSON line of a record holds no line break, whatever the record says (`isPlain_of_mem_jsonLine`).
If the context of the record is JSON with short integers, the line is the text of one value only, and
that value has the members that the record tells and no others (`jsonLine_tells`).  It is read back
unless the context is nested too deeply.
-/

namespace Pigeonhole.Log

open Json Numeral

variable {r : Record} {time text : List Char}

/-! ## Lines -/

theorem isPlain_of_mem_foreignText (leaf : Foreign) : ∀ c ∈ foreignText leaf, IsPlain c :=
  Quoted.isPlain_of_mem_quote leaf.message

theorem jsonLine_eq (htime : isoTime r.created = .ok time) (htext : r.text = .ok text) :
    r.jsonLine =
      if r.isContextWritable then
        .ok (Tree.print .line foreignText 0 (.obj (r.members time text)))
      else .error .longInteger := by
  rw [Record.jsonLine, htime]
  simp only [htext]

/-- No JSON line holds a line break. -/
theorem isPlain_of_mem_jsonLine {line : List Char} (h : r.jsonLine = .ok line) :
    ∀ c ∈ line, IsPlain c := by
  rw [Record.jsonLine] at h
  split at h
  · cases h
  · split at h
    · cases h
    · split at h
      · obtain rfl := Except.ok.inj h
        exact isPlain_of_mem_print isPlain_of_mem_foreignText _ 0
      · cases h

/-! ## What a record tells -/

/-- The members that tell about a record with a message and a context. -/
structure Record.Tells (r : Record) (time : List Char) (message : String)
    (context members : List (String × Json)) : Prop where
  nodup : (members.map (·.1)).Nodup
  timestamp : members.lookup "timestamp" = some (Tree.ofString time)
  level : members.lookup "level" = some (.str r.level.name)
  logger : members.lookup "logger" = some (.str r.logger)
  message : members.lookup "message" = some (.str message)
  correlation : ∀ v, members.lookup "correlation_id" = some v ↔
    ∃ id, r.correlation = some (some id) ∧ id ≠ "" ∧ v = .str id
  context : ∀ v, members.lookup "context" = some v ↔ context ≠ [] ∧ v = .obj context
  only : ∀ key ∈ members.map (·.1),
    key ∈ ["timestamp", "level", "logger", "message", "correlation_id", "context"]

/-- The members of the object of a record as JSON. -/
def Record.told (r : Record) (time : List Char) (message : String)
    (context : List (String × Json)) : List (String × Json) :=
  [("timestamp", Tree.ofString time), ("level", .str r.level.name), ("logger", .str r.logger),
    ("message", .str message)] ++
  ((r.correlationId.toList.map fun id => ("correlation_id", .str id)) ++
  if context.isEmpty then [] else [("context", .obj context)])

theorem correlationId_eq_some {id : String} :
    r.correlationId = some id ↔ r.correlation = some (some id) ∧ id ≠ "" := by
  rw [Record.correlationId, Option.filter_eq_some_iff, Option.join_eq_some_iff]
  simp

variable {message : String} {context : List (String × Json)}

theorem tells_told : r.Tells time message context (r.told time message context) where
  nodup := by
    rw [Record.told]
    cases r.correlationId <;> cases context <;> simp
  timestamp := rfl
  level := rfl
  logger := rfl
  message := rfl
  correlation v := by
    have hlookup : (r.told time message context).lookup "correlation_id" =
        r.correlationId.map Tree.str := by
      rw [Record.told]
      cases r.correlationId <;> cases context <;> rfl
    rw [hlookup, Option.map_eq_some_iff]
    constructor
    · rintro ⟨id, hid, rfl⟩
      obtain ⟨hset, hne⟩ := correlationId_eq_some.1 hid
      exact ⟨id, hset, hne, rfl⟩
    · rintro ⟨id, hset, hne, rfl⟩
      exact ⟨id, correlationId_eq_some.2 ⟨hset, hne⟩, rfl⟩
  context v := by
    have hlookup : (r.told time message context).lookup "context" =
        if context = [] then none else some (.obj context) := by
      rw [Record.told]
      cases r.correlationId <;> cases context <;> rfl
    rw [hlookup]
    by_cases h : context = [] <;> simp [h, eq_comm]
  only := by
    rw [Record.told]
    cases r.correlationId <;> cases context <;> simp

/-! ## Reading a line -/

theorem membersOfJson_told :
    (Tree.membersOfJson (r.told time message context) : List (String × Value)) =
      { r with
        context := Tree.membersOfJson context
        exception := none }.members time message.toList := by
  rw [Record.told, Record.members]
  simp only [Record.correlationId]
  cases r.correlation.join.filter (!·.isEmpty) <;> cases context <;>
    simp [Tree.membersOfJson, Tree.ofJson, Tree.ofString]

theorem distinct_told (h : Distinct (.obj context)) :
    Distinct (.obj (r.told time message context)) := by
  refine ⟨tells_told.nodup, ?_⟩
  rw [Record.told]
  cases r.correlationId <;> cases context <;> simp_all [MembersDistinct, Distinct, Tree.ofString]

/-- The integers in a context of JSON values are written exactly if they are short. -/
theorem isContextWritable_iff (hcontext : r.context = Tree.membersOfJson context) :
    r.isContextWritable = true ↔ Short (membersIntegers context) := by
  have hobj : r.isContextWritable = (Tree.ofJson (.obj context) : Value).isWritable := by
    rw [Tree.ofJson, Tree.isWritable_obj, Record.isContextWritable, hcontext]
  rw [hobj, Tree.isWritable_ofJson, isWritable_iff_short, integers]

/-- There is no fault in what a record tells exactly if there is none in its context. -/
theorem fault?_told :
    fault? maxDepth (.obj (r.told time message context)) = none ↔
      membersNesting context + 2 ≤ maxDepth ∧ Short (membersIntegers context) := by
  rw [fault?_eq_none_iff]
  have hnesting : nesting (.obj (r.told time message context)) =
      if context = [] then 1 else membersNesting context + 2 := by
    rw [Record.told]
    cases r.correlationId <;> cases context <;>
      simp [nesting, membersNesting, Tree.ofString]
  have hintegers : integers (.obj (r.told time message context)) = membersIntegers context := by
    rw [Record.told]
    cases r.correlationId <;> cases context <;>
      simp [integers, membersIntegers, Tree.ofString]
  rw [hnesting, hintegers]
  cases context with
  | nil => simp [membersNesting, maxDepth]
  | cons => simp

/-- The JSON line of a record with a plain message, a context of JSON values and no exception holds
no line break and is the text of one object only.  The object tells the time, the level, the logger
and the message; the correlation id if there is one that is not empty; the context if it is not
empty; and nothing else.  The line is read as this object if not too many arrays and objects stand
inside each other in the context.  A record is refused only for a time that has no machine-readable
form, and for an integer in its context that is too long. -/
theorem jsonLine_tells (r : Record) (message : String) (context : List (String × Json))
    (hmessage : r.message = .str message) (harguments : r.arguments = [])
    (hexception : r.exception = none) (hcontext : r.context = Tree.membersOfJson context)
    (hdistinct : Distinct (.obj context)) :
    (∀ e, isoTime r.created = .error e → r.jsonLine = .error (.time e)) ∧
    ∀ time, isoTime r.created = .ok time →
      (¬ Short (membersIntegers context) → r.jsonLine = .error .longInteger) ∧
      (Short (membersIntegers context) →
        ∃ line members, r.jsonLine = .ok line ∧ (∀ c ∈ line, IsPlain c) ∧
          r.Tells time message context members ∧ (∀ v, write .line v = line ↔ v = .obj members) ∧
          parse line = orFault (fault? maxDepth (.obj members)) (.obj members) ∧
          (fault? maxDepth (.obj members) = none ↔ membersNesting context + 2 ≤ maxDepth)) := by
  refine ⟨fun e he => by rw [Record.jsonLine, he], fun time htime => ?_⟩
  have htext : r.text = .ok message.toList := by
    rw [Record.text, harguments, hmessage]
    exact congrArg Except.ok (String.toList_ofList ..)
  have hline := jsonLine_eq htime htext
  refine ⟨fun hlong => ?_, fun hshort => ?_⟩
  · rwa [if_neg (mt (isContextWritable_iff hcontext).1 hlong)] at hline
  rw [if_pos ((isContextWritable_iff hcontext).2 hshort)] at hline
  have hmembers : r.members time message.toList =
      Tree.membersOfJson (r.told time message context) := by
    rw [membersOfJson_told, ← hcontext, ← hexception]
  have hwrite : Tree.print .line foreignText 0 (.obj (r.members time message.toList)) =
      write .line (.obj (r.told time message context)) := by
    rw [hmembers]
    exact print_ofJson .line foreignText _ (.obj (r.told time message context)) 0
  rw [hwrite] at hline
  refine ⟨_, _, hline, isPlain_of_mem_jsonLine hline, tells_told, fun v => ?_,
    parse_write .line (distinct_told hdistinct), fault?_told.trans (and_iff_left hshort)⟩
  exact ⟨write_inj .line, fun h => by rw [h]⟩

/-- A message with a line break and a character that is written in two halves, and a key that is an
array. -/
theorem jsonLine_tells_array :
    let context : List (String × Json) := [("pkey", .arr [.str "a\u2028b", .null])]
    let r : Record :=
      { level := .info
        logger := "client"
        message := .str "READ\n😀"
        correlation := some (some "run")
        context := Tree.membersOfJson context }
    let time := "1970-01-01T00:00:00+00:00".toList
    isoTime r.created = .ok time ∧
      ∃ line members, r.jsonLine = .ok line ∧ (∀ c ∈ line, IsPlain c) ∧
        r.Tells time "READ\n😀" context members ∧ parse line = .ok (.obj members) := by
  intro context r time
  have htime : isoTime r.created = .ok time := by decide +kernel
  have hdistinct : Distinct (.obj context) := by
    simp [context, Distinct, MembersDistinct, ItemsDistinct]
  obtain ⟨-, htells⟩ := jsonLine_tells r _ context rfl rfl rfl rfl hdistinct
  obtain ⟨line, members, hline, hplain, hmembers, -, hread, hfault⟩ :=
    (htells time htime).2 (List.forall_mem_nil _)
  have hnone : fault? maxDepth (.obj members) = none := hfault.2 (by decide)
  rw [hnone] at hread
  exact ⟨htime, line, members, hline, hplain, hmembers, hread⟩

/-- An integer of one digit more than are written keeps the record out of the log. -/
theorem long_integer_not_logged :
    let context : List (String × Json) := [("n", .int (tenPow maxDigits))]
    let r : Record := { Record.plain .info "test" "x" with context := Tree.membersOfJson context }
    isoTime r.created = .ok "1970-01-01T00:00:00+00:00".toList ∧ Distinct (.obj context) ∧
      r.jsonLine = .error .longInteger := by
  intro context r
  have htime : isoTime r.created = .ok "1970-01-01T00:00:00+00:00".toList := by decide +kernel
  have hlong : r.isContextWritable = false := by
    show ((Tree.ofJson (.int (tenPow maxDigits)) : Value).isWritable && true) = false
    rw [Tree.isWritable_ofJson, isWritable_tenPow, Bool.false_and]
  refine ⟨htime, ⟨List.nodup_singleton "n", trivial, trivial⟩, ?_⟩
  have htext : r.text = .ok "x".toList := congrArg Except.ok (String.toList_ofList ..)
  rw [jsonLine_eq htime htext, hlong]
  rfl

end Pigeonhole.Log

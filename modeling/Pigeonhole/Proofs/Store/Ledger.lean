import Mathlib.Data.List.Find
import Pigeonhole.Proofs.Json.Embedding
import Pigeonhole.Proofs.Store.Invariant

/-!
# A store is an ordered list of documents

A `Ledger` is nothing but the documents in the order in which their entries were first made.  Two
documents are the same entry if their ids are equal and their partition key values have one
canonical text, and every operation is a plain list operation: replacing the first equal entry or
appending, `find?`, `eraseP`, `filter`.  There are no storage keys and no stored copies of ids and
partition key values.  `answers_eq_ledger` says that no run of JSON requests tells a store from its
ledger, as long as the partition key values of the requests can be written.  A request whose value
cannot be written fails and changes nothing, where the ledger alone would carry it out.
-/

namespace Pigeonhole

/-- The documents in the order in which their entries were first made. -/
abbrev Ledger := List Json

namespace Ledger

/-- A request whose values are JSON. -/
inductive Request where
  | upsert (document : Json)
  | read (id : String) (partitionKey : Option Json)
  | delete (id : String) (partitionKey : Option Json)
  | list (partitionKey : Option Json)
  | count
  | clear

/-- The request to a store. -/
def Request.toCall : Request → Store.Call
  | .upsert document => .upsert (Tree.ofJson document)
  | .read id partitionKey => .read ⟨.str id, partitionKey.map Tree.ofJson⟩
  | .delete id partitionKey => .delete ⟨.str id, partitionKey.map Tree.ofJson⟩
  | .list partitionKey => .list (partitionKey.map Tree.ofJson)
  | .count => .count
  | .clear => .clear

/-- The id of a document, if it is a string that is not empty. -/
def id? (document : Json) : Option String :=
  match document.member? "id" with
  | some (.str id) => if id = "" then none else some id
  | _ => none

variable (field : String)

/-- Whether a document has a partition key value, up to canonical text. -/
def inPartition (partitionKey : Json) (document : Json) : Bool :=
  (document.resolve field).any (Json.same · partitionKey)

/-- Whether a document has an id and, if one is given, a partition key value. -/
def isAt (id : String) (partitionKey : Option Json) (document : Json) : Bool :=
  id? document = some id && partitionKey.all fun k => inPartition field k document

/-- Whether two documents are the same entry. -/
def sameEntry (a b : Json) : Bool :=
  id? a = id? b && (b.resolve field).any fun k => inPartition field k a

/-- Why a document is refused: only objects with an id and with a partition key value that is no
object are stored. -/
def refusal? (document : Json) : Option Failure :=
  match document with
  | .obj _ =>
    if id? document = none then some .noId
    else
      match document.resolve field with
      | none | some (.obj _) => some (.noPartitionKey field)
      | some _ => none
  | _ => some .notObject

/-- The ledger with a document: in place of the same entry, or at the end. -/
def place (document : Json) : Ledger → Ledger
  | [] => [document]
  | d :: rest => if sameEntry field d document then document :: rest else d :: place document rest

/-- The answer to a request, and the ledger afterwards. -/
def step (ledger : Ledger) : Request → Store.Answer × Ledger
  | .upsert document =>
    match refusal? field document with
    | some e => (.failed e, ledger)
    | none => (.document document, ledger.place field document)
  | .read id partitionKey => (.found (ledger.find? (isAt field id partitionKey)), ledger)
  | .delete id partitionKey =>
    match ledger.find? (isAt field id partitionKey) with
    | some document => (.document document, ledger.eraseP (isAt field id partitionKey))
    | none => (.failed (.notFound (.str id) ((partitionKey.map Json.text).getD "")), ledger)
  | .list none => (.listed ledger, ledger)
  | .list (some partitionKey) => (.listed (ledger.filter (inPartition field partitionKey)), ledger)
  | .count => (.counted ledger.length, ledger)
  | .clear => (.cleared, [])

/-- Whether the partition key value can be written that a request stores or asks for; a document that
is refused is not asked for its value. -/
def Request.isWritable : Request → Bool
  | .upsert document =>
    (refusal? field document).isSome || (document.resolve field).all Tree.isWritable
  | .read _ partitionKey | .delete _ partitionKey | .list partitionKey =>
    partitionKey.all Tree.isWritable
  | .count | .clear => true

/-- Whether a request has nothing to compare its partition key value with. -/
def Request.isIdle (ledger : Ledger) : Request → Bool
  | .list _ => ledger.isEmpty
  | _ => false

/-- The answer to a request that fails if its partition key value is needed and cannot be written. -/
def limitedStep (ledger : Ledger) (request : Request) : Store.Answer × Ledger :=
  if request.isWritable field || request.isIdle ledger then step field ledger request
  else (.failed (.noText .longInteger), ledger)

end Ledger

namespace Ledger

variable (step : Ledger → Request → Store.Answer × Ledger)

/-- The answers of a run. -/
def answers (ledger : Ledger) : List Request → List Store.Answer
  | [] => []
  | request :: requests => (step ledger request).1 :: answers (step ledger request).2 requests

/-- The ledger after a run. -/
def after (ledger : Ledger) : List Request → Ledger
  | [] => ledger
  | request :: requests => after (step ledger request).2 requests

end Ledger

/-! ## Keys and entries -/

theorem StorageKey.of_eq_of_iff (id id' : String) (k k' : Json) :
    StorageKey.of id k = StorageKey.of id' k' ↔ id = id' ∧ Json.same k k' = true := by
  simp only [StorageKey.of, StorageKey.mk.injEq, Json.text, String.ofList_inj, Json.same, beq_iff_eq]

namespace Row.Sound

variable {field : String} {row : Row}

theorem id?_eq (h : row.Sound field) : Ledger.id? row.document = some row.id := by
  simp only [Ledger.id?, h.member_id, if_neg h.id_ne]

theorem inPartition_eq (h : row.Sound field) (k : Json) :
    Ledger.inPartition field k row.document = Json.same row.partitionKey k := by
  simp only [Ledger.inPartition, h.resolve_field, Option.any_some]

theorem isAt_none (h : row.Sound field) (id : String) :
    Ledger.isAt field id none row.document = decide (row.id = id) := by
  simp only [Ledger.isAt, h.id?_eq, Option.some.injEq, Option.all_none, Bool.and_true]

theorem isAt_some (h : row.Sound field) (id : String) (k : Json) :
    Ledger.isAt field id (some k) row.document = decide (row.key = StorageKey.of id k) := by
  rw [Bool.eq_iff_iff, decide_eq_true_iff, Row.key, StorageKey.of_eq_of_iff]
  simp only [Ledger.isAt, h.id?_eq, Option.some.injEq, Option.all_some, h.inPartition_eq,
    Bool.and_eq_true, decide_eq_true_iff]

theorem sameEntry_eq {row' : Row} (h : row.Sound field) (h' : row'.Sound field) :
    Ledger.sameEntry field row.document row'.document = decide (row.key = row'.key) := by
  rw [Bool.eq_iff_iff, decide_eq_true_iff, Row.key, Row.key, StorageKey.of_eq_of_iff]
  simp only [Ledger.sameEntry, h.id?_eq, h'.id?_eq, h'.resolve_field, Option.any_some,
    h.inPartition_eq, Option.some.injEq, Bool.and_eq_true, decide_eq_true_iff]

end Row.Sound

/-! ## A document is refused for the same reason -/

/-- The id in an object decides the first checks of a document. -/
theorem Row.ofValue_ofJson_obj (field : String) (ms : List (String × Json)) :
    Row.ofValue field (Tree.ofJson (.obj ms)) =
      match Ledger.id? (.obj ms) with
      | none => .error .noId
      | some id =>
        match (Tree.obj ms : Json).resolve field with
        | some k =>
          if Json.isPartitionKey k then (Json.written k ⟨id, k, .obj ms⟩).mapError .noText
          else .error (.noPartitionKey field)
        | none => .error (.noPartitionKey field) := by
  have hjson : (Tree.obj (Tree.membersOfJson ms) : Value).toJson? = some (.obj ms) :=
    Tree.toJson?_ofJson (.obj ms)
  simp only [Row.ofValue, Tree.ofJson, Value.members?, Tree.lookup_membersOfJson, Ledger.id?,
    Tree.member?]
  cases ms.lookup "id" with
  | none => rfl
  | some v =>
    cases v with
    | str id =>
      by_cases hid : id = ""
      · subst hid
        rfl
      · have hempty : id.isEmpty = false := by simpa [String.isEmpty_iff] using hid
        simp only [Option.map_some, Tree.ofJson, hempty, hjson, if_neg hid]
        rfl
    | foreign leaf => exact leaf.elim
    | _ => rfl

/-- Reading a JSON document as a row fails exactly where a ledger refuses the document, and for a
partition key value that cannot be written. -/
theorem Row.ofValue_ofJson (field : String) (document : Json) :
    match Ledger.refusal? field document with
    | some e => Row.ofValue field (Tree.ofJson document) = .error e
    | none =>
      if (document.resolve field).all Tree.isWritable then
        ∃ row, Row.ofValue field (Tree.ofJson document) = .ok row ∧ row.document = document
      else Row.ofValue field (Tree.ofJson document) = .error (.noText .longInteger) := by
  cases document with
  | obj ms =>
    rw [Row.ofValue_ofJson_obj]
    simp only [Ledger.refusal?]
    cases Ledger.id? (.obj ms) with
    | none => rfl
    | some id =>
      simp only [reduceCtorEq, if_false]
      cases (Tree.obj ms : Json).resolve field with
      | none => rfl
      | some k =>
        -- an object is refused; any other value is a partition key, and only has to be written
        by_cases hobj : ∃ members, k = .obj members
        · obtain ⟨members, rfl⟩ := hobj
          rfl
        · have hkey : Json.isPartitionKey k = true := by
            cases k with
            | obj members => exact absurd ⟨members, rfl⟩ hobj
            | _ => rfl
          have hrefusal : (match some k with
              | none | some (.obj _) => some (Failure.noPartitionKey field)
              | some _ => none) = none := by
            cases k with
            | obj members => exact absurd ⟨members, rfl⟩ hobj
            | _ => rfl
          rw [hrefusal]
          simp only [hkey, if_true, Option.all_some]
          cases hwritable : k.isWritable with
          | true => exact ⟨_, by rw [Json.written_of_isWritable hwritable]; rfl, rfl⟩
          | false => rw [Json.written_of_not hwritable]; rfl
  | foreign leaf => exact leaf.elim
  | _ => rfl

/-! ## Each operation on the rows is the list operation on the documents -/

theorem lookup_eq_find? (key : StorageKey) (rows : List (StorageKey × Row)) :
    rows.lookup key = (rows.find? fun entry => entry.1 = key).map (·.2) := by
  induction rows with
  | nil => rfl
  | cons entry rest ih =>
    obtain ⟨k, row⟩ := entry
    by_cases h : k = key
    · subst h
      simp
    · have h' : (key == k) = false := by simp [Ne.symm h]
      simp [List.lookup_cons, h, h', ih]

/-- A search that is no wider than another one and accepts what that one finds removes the same
entry. -/
theorem eraseP_eq_of_find? {α : Type} {p q : α → Bool} {l : List α} {a : α}
    (ha : l.find? p = some a) (hq : q a = true) (hpq : ∀ b ∈ l, q b = true → p b = true) :
    l.eraseP q = l.eraseP p := by
  induction l with
  | nil => rfl
  | cons b l ih =>
    rw [List.find?_cons] at ha
    cases hp : p b with
    | true =>
      rw [hp] at ha
      obtain rfl := Option.some.inj ha
      rw [List.eraseP_cons_of_pos hq, List.eraseP_cons_of_pos hp]
    | false =>
      rw [hp] at ha
      have hb : ¬ q b = true := fun h => by
        rw [hpq b List.mem_cons_self h] at hp
        cases hp
      rw [List.eraseP_cons_of_neg hb, List.eraseP_cons_of_neg (by simp [hp]),
        ih ha fun c hc => hpq c (List.mem_cons_of_mem _ hc)]

namespace Store

variable {s : Store}

/-- A JSON value is given, null too. -/
theorem given_ofJson (k : Json) : Value.given (some (Tree.ofJson k)) = some (Tree.ofJson k) := by
  cases k with
  | foreign leaf => exact leaf.elim
  | _ => rfl

theorem given_map_ofJson (k : Option Json) :
    Value.given (k.map Tree.ofJson) = k.map Tree.ofJson := by
  cases k with
  | none => rfl
  | some k => exact given_ofJson k

/-- An address with a partition key value that cannot be written is not looked for. -/
theorem find_of_not_isWritable {k : Json} (hk : k.isWritable = false) (id : Value) :
    s.find ⟨id, some (Tree.ofJson k)⟩ = .error (.noText .longInteger) := by
  simp only [find, given_ofJson, Json.written?_ofJson, Json.written_of_not hk]

/-- The entry at an address is the first whose document a ledger finds there. -/
theorem Sound.find_eq (h : s.Sound) (id : String) {k : Option Json}
    (hk : k.all Tree.isWritable = true) :
    s.find ⟨.str id, k.map Tree.ofJson⟩ =
      .ok (s.rows.find? fun entry => Ledger.isAt s.field id k entry.2.document) := by
  cases k with
  | none =>
    have hfirst : s.first? id =
        s.rows.find? fun entry => Ledger.isAt s.field id none entry.2.document :=
      List.find?_congr fun entry he => ((h.row_sound entry he).isAt_none id).symm
    rw [← hfirst]
    rfl
  | some k =>
    have hlookup : s.lookup? id k =
        s.rows.find? fun entry => Ledger.isAt s.field id (some k) entry.2.document := by
      have hkey : (s.rows.find? fun entry => entry.1 = StorageKey.of id k) =
          s.rows.find? fun entry => Ledger.isAt s.field id (some k) entry.2.document :=
        List.find?_congr fun entry he => by
          rw [h.key_eq entry he, (h.row_sound entry he).isAt_some id k]
      rw [lookup?, lookup_eq_find?, ← hkey, Option.map_map]
      cases hf : s.rows.find? fun entry => entry.1 = StorageKey.of id k with
      | none => rfl
      | some entry =>
        obtain ⟨key, row⟩ := entry
        have : key = StorageKey.of id k := by simpa using List.find?_some hf
        subst this
        rfl
    rw [← hlookup]
    simp only [find, Option.map_some, given_ofJson, Json.written?_ofJson,
      Json.written_of_isWritable hk]

theorem Sound.documents_put (h : s.Sound) {row : Row} (hrow : row.Sound s.field) :
    (s.put row).documents = Ledger.place s.field row.document s.documents := by
  have key : ∀ rows : List (StorageKey × Row), (∀ entry ∈ rows, entry.1 = entry.2.key) →
      (∀ entry ∈ rows, entry.2.Sound s.field) →
      (assign row.key row rows).map (·.2.document) =
        Ledger.place s.field row.document (rows.map (·.2.document)) := by
    intro rows hkey hsound
    induction rows with
    | nil => rfl
    | cons entry rest ih =>
      obtain ⟨k, r⟩ := entry
      obtain rfl : k = r.key := hkey _ List.mem_cons_self
      have hsame := (hsound _ List.mem_cons_self).sameEntry_eq hrow
      have ih := ih (fun e he => hkey e (List.mem_cons_of_mem _ he))
        (fun e he => hsound e (List.mem_cons_of_mem _ he))
      by_cases hk : r.key = row.key
      · simp [assign, Ledger.place, hsame, hk]
      · simp [assign, Ledger.place, hsame, hk, ih]
  exact key s.rows h.key_eq h.row_sound

/-- Removing the entry found at an address is removing the first document there. -/
theorem Sound.documents_erase (h : s.Sound) {id : String} {k : Option Json} {key : StorageKey}
    {row : Row} (hfound : (s.rows.find? fun entry => Ledger.isAt s.field id k entry.2.document) =
      some (key, row)) :
    (s.erase key).documents = s.documents.eraseP (Ledger.isAt s.field id k) := by
  have hmem := List.mem_of_find?_eq_some hfound
  have hat := List.find?_some hfound
  -- an entry under the key that was found has the same id and the same partition key value
  have hwider : ∀ entry ∈ s.rows, decide (entry.1 = key) = true →
      Ledger.isAt s.field id k entry.2.document = true := by
    intro entry he hk
    rw [decide_eq_true_iff] at hk
    have hkeys : entry.2.key = row.key := by
      rw [← h.key_eq entry he, hk]
      exact h.key_eq _ hmem
    cases k with
    | none =>
      have hid : entry.2.id = row.id := congrArg StorageKey.id hkeys
      rw [(h.row_sound _ hmem).isAt_none] at hat
      rw [(h.row_sound entry he).isAt_none, hid]
      exact hat
    | some k =>
      rw [(h.row_sound _ hmem).isAt_some] at hat
      rw [(h.row_sound entry he).isAt_some, hkeys]
      exact hat
  have herase := eraseP_eq_of_find? hfound (decide_eq_true rfl) hwider
  rw [documents, documents, List.eraseP_map, Store.erase, herase]
  rfl

theorem Sound.inPartition_eq (h : s.Sound) (k : Json) :
    s.inPartition k = s.documents.filter (Ledger.inPartition s.field k) := by
  rw [documents, List.filter_map, inPartition]
  congr 1
  exact List.filter_congr fun entry he => ((h.row_sound entry he).inPartition_eq k).symm

end Store

/-! ## Runs -/

namespace Store

variable {s : Store}

theorem shownKey_map_ofJson {k : Option Json} (hk : k.all Tree.isWritable = true) :
    shownKey (k.map Tree.ofJson) = (k.map Json.text).getD "" := by
  rw [shownKey, given_map_ofJson]
  cases k with
  | none => rfl
  | some k =>
    rw [Option.map_some, Option.bind_some, Value.text?, Json.written?_ofJson,
      Json.written_of_isWritable hk]
    rfl

/-- A request whose partition key value can be written is answered alike by a store and by its
ledger, and leaves them in step. -/
theorem Sound.step_of_isWritable (h : s.Sound) {request : Ledger.Request}
    (hrequest : request.isWritable s.field = true) :
    (s.step request.toCall).1 = (Ledger.step s.field s.documents request).1 ∧
      (s.step request.toCall).2.documents = (Ledger.step s.field s.documents request).2 := by
  cases request with
  | upsert document =>
    have hread := Row.ofValue_ofJson s.field document
    simp only [Ledger.Request.toCall, Store.step, Ledger.step]
    cases hr : Ledger.refusal? s.field document with
    | some e =>
      rw [hr] at hread
      simp [upsert, hread, bind, Except.bind]
    | none =>
      simp only [Ledger.Request.isWritable, hr, Option.isSome_none, Bool.false_or] at hrequest
      simp only [hr, hrequest, if_true] at hread
      obtain ⟨row, hrow, rfl⟩ := hread
      have hput := upsert_eq_ok_iff.2 ⟨hrow, rfl⟩
      rw [hput]
      exact ⟨rfl, h.documents_put (Row.sound_of_ofValue hrow)⟩
  | read id k =>
    refine ⟨?_, ?_⟩
    · simp only [Ledger.Request.toCall, Store.step, read, h.find_eq id hrequest, Ledger.step, bind,
        Except.bind, pure, Except.pure, documents, List.find?_map]
      rfl
    · simp only [Ledger.Request.toCall, Store.step, read, h.find_eq id hrequest, Ledger.step, bind,
        Except.bind, pure, Except.pure]
  | delete id k =>
    have hledger : s.documents.find? (Ledger.isAt s.field id k) =
        (s.rows.find? fun entry => Ledger.isAt s.field id k entry.2.document).map
          (·.2.document) := by
      rw [documents, List.find?_map]
      rfl
    simp only [Ledger.Request.toCall, Store.step, delete, h.find_eq id hrequest, Ledger.step, hledger]
    cases hf : s.rows.find? fun entry => Ledger.isAt s.field id k entry.2.document with
    | none => simp [bind, Except.bind, shownKey_map_ofJson hrequest]
    | some entry =>
      obtain ⟨key, row⟩ := entry
      exact ⟨rfl, h.documents_erase hf⟩
  | list k =>
    simp only [Ledger.Request.toCall, Store.step, list, given_map_ofJson]
    cases k with
    | none => exact ⟨rfl, rfl⟩
    | some k =>
      simp only [Option.map_some, Json.written?_ofJson, Json.written_of_isWritable hrequest,
        h.inPartition_eq, Ledger.step, and_self]
  | count => exact ⟨congrArg Answer.counted (List.length_map _).symm, rfl⟩
  | clear => exact ⟨rfl, rfl⟩

/-- A request whose partition key value cannot be written fails and changes nothing, unless it lists
a store without documents. -/
theorem step_of_not_isWritable {request : Ledger.Request}
    (hrequest : request.isWritable s.field = false) (hidle : request.isIdle s.documents = false) :
    s.step request.toCall = (.failed (.noText .longInteger), s) := by
  cases request with
  | upsert document =>
    have hread := Row.ofValue_ofJson s.field document
    rw [Ledger.Request.isWritable, Bool.or_eq_false_iff, Option.isSome_eq_false_iff,
      Option.isNone_iff_eq_none] at hrequest
    simp only [hrequest.1, hrequest.2, Bool.false_eq_true, if_false] at hread
    simp only [Ledger.Request.toCall, step, upsert, hread, bind, Except.bind]
  | read id k =>
    obtain ⟨k, rfl, hk⟩ := (Option.all_eq_false _ _).1 hrequest
    simp only [Ledger.Request.toCall, step, read, Option.map_some, find_of_not_isWritable hk, bind,
      Except.bind]
  | delete id k =>
    obtain ⟨k, rfl, hk⟩ := (Option.all_eq_false _ _).1 hrequest
    simp only [Ledger.Request.toCall, step, delete, Option.map_some, find_of_not_isWritable hk, bind,
      Except.bind]
  | list k =>
    obtain ⟨k, rfl, hk⟩ := (Option.all_eq_false _ _).1 hrequest
    have hrows : s.rows.isEmpty = false := by
      rwa [Ledger.Request.isIdle, documents, List.isEmpty_map] at hidle
    simp only [Ledger.Request.toCall, step, list, Option.map_some, given_ofJson, Json.written?_ofJson,
      Json.written_of_not hk, hrows, Bool.false_eq_true, if_false]
  | count => cases hrequest
  | clear => cases hrequest

/-- One request is answered alike by a store and by its ledger, and leaves them in step. -/
theorem Sound.step_eq_ledger (h : s.Sound) (request : Ledger.Request) :
    (s.step request.toCall).1 = (Ledger.limitedStep s.field s.documents request).1 ∧
      (s.step request.toCall).2.documents =
        (Ledger.limitedStep s.field s.documents request).2 := by
  rw [Ledger.limitedStep]
  cases hrequest : request.isWritable s.field with
  | true => exact h.step_of_isWritable hrequest
  | false =>
    cases hidle : request.isIdle s.documents with
    | false =>
      rw [step_of_not_isWritable hrequest hidle]
      exact ⟨rfl, rfl⟩
    | true =>
      cases request with
      | list k =>
        obtain ⟨k, rfl, hk⟩ := (Option.all_eq_false _ _).1 hrequest
        have hdocuments : s.documents = [] := List.isEmpty_iff.1 hidle
        have hrows : s.rows.isEmpty = true := by
          rwa [Ledger.Request.isIdle, documents, List.isEmpty_map] at hidle
        simp only [Ledger.Request.toCall, Store.step, list, Option.map_some, given_ofJson,
          Json.written?_ofJson, Json.written_of_not hk, hrows, if_true, Bool.or_true, Ledger.step,
          hdocuments, List.filter_nil, and_self]
      | _ => cases hidle

theorem Sound.answers_eq (h : s.Sound) (requests : List Ledger.Request) :
    s.answers (requests.map Ledger.Request.toCall) =
        Ledger.answers (Ledger.limitedStep s.field) s.documents requests ∧
      (s.after (requests.map Ledger.Request.toCall)).documents =
        Ledger.after (Ledger.limitedStep s.field) s.documents requests := by
  induction requests generalizing s with
  | nil => exact ⟨rfl, rfl⟩
  | cons request requests ih =>
    obtain ⟨hanswer, hdocuments⟩ := h.step_eq_ledger request
    obtain ⟨ihanswers, ihafter⟩ := ih (h.step request.toCall)
    rw [field_step, hdocuments] at ihanswers ihafter
    constructor
    · rw [List.map_cons, Store.answers, hanswer, ihanswers, Ledger.answers]
    · rw [List.map_cons, Store.after, ihafter, Ledger.after]

/-- No two documents of a store are the same entry. -/
theorem Sound.pairwise_documents (h : s.Sound) :
    s.documents.Pairwise fun a b => Ledger.sameEntry s.field a b = false := by
  rw [documents, List.pairwise_map]
  refine (List.pairwise_map.1 h.keys_nodup).imp_of_mem ?_
  intro a b ha hb hne
  rw [(h.row_sound a ha).sameEntry_eq (h.row_sound b hb), decide_eq_false_iff_not,
    ← h.key_eq a ha, ← h.key_eq b hb]
  exact hne

end Store

namespace Ledger

/-- As long as the partition key values can be written, the limit does not show. -/
theorem answers_limitedStep (field : String) (ledger : Ledger) {requests : List Request}
    (h : ∀ request ∈ requests, request.isWritable field = true) :
    answers (limitedStep field) ledger requests = answers (step field) ledger requests ∧
      after (limitedStep field) ledger requests = after (step field) ledger requests := by
  induction requests generalizing ledger with
  | nil => exact ⟨rfl, rfl⟩
  | cons request requests ih =>
    obtain ⟨hrequest, hrest⟩ := List.forall_mem_cons.1 h
    have hstep : limitedStep field ledger request = step field ledger request := by
      rw [limitedStep, hrequest]
      rfl
    rw [answers, answers, after, after, hstep, (ih _ hrest).1, (ih _ hrest).2]
    exact ⟨rfl, rfl⟩

end Ledger

namespace Store

/-- A store answers every run of requests as an ordered list of documents does, up to the requests
whose partition key value cannot be written: these fail and change nothing.  If there are none, the
answers are those of the list itself.  Afterwards the store holds the documents of the list, in its
order, and no two of them are the same entry. -/
theorem answers_eq_ledger (field : String) (requests : List Ledger.Request) :
    let limited := Ledger.limitedStep field
    (empty field).answers (requests.map Ledger.Request.toCall) =
        Ledger.answers limited [] requests ∧
      ((empty field).after (requests.map Ledger.Request.toCall)).documents =
        Ledger.after limited [] requests ∧
      ((Ledger.after limited [] requests).Pairwise fun a b =>
        Ledger.sameEntry field a b = false) ∧
      ((∀ request ∈ requests, request.isWritable field = true) →
        Ledger.answers limited [] requests = Ledger.answers (Ledger.step field) [] requests ∧
          Ledger.after limited [] requests = Ledger.after (Ledger.step field) [] requests) := by
  intro limited
  obtain ⟨hanswers, hafter⟩ := (sound_empty field).answers_eq requests
  refine ⟨hanswers, hafter, ?_, Ledger.answers_limitedStep field []⟩
  have hpairwise := (sound_after field (requests.map Ledger.Request.toCall)).pairwise_documents
  rw [field_after, hafter] at hpairwise
  exact hpairwise

theorem answers_of_long {n : Int} (h : (Tree.int n : Json).isWritable = false) :
    let document : Json := .obj [("id", .str "a"), ("pk", Tree.int n)]
    let requests : List Ledger.Request := [.upsert document, .count]
    (empty "pk").answers (requests.map Ledger.Request.toCall) =
        [.failed (.noText .longInteger), .counted 0] ∧
      Ledger.answers (Ledger.step "pk") [] requests = [.document document, .counted 1] := by
  intro document requests
  have hrefused : Ledger.limitedStep "pk" [] (.upsert document) =
      (.failed (.noText .longInteger), []) := by
    have hwritable : Ledger.Request.isWritable "pk" (.upsert document) = false := h
    rw [Ledger.limitedStep, hwritable]
    rfl
  refine ⟨?_, rfl⟩
  rw [((sound_empty "pk").answers_eq requests).1]
  show Ledger.answers (Ledger.limitedStep "pk") [] requests = _
  rw [Ledger.answers, hrefused]
  rfl

/-- A document with a partition key value that cannot be written is refused, where the list takes
it. -/
theorem long_partition_not_stored :
    let document : Json := .obj [("id", .str "a"), ("pk", Tree.int (tenPow Numeral.maxDigits))]
    let requests : List Ledger.Request := [.upsert document, .count]
    (empty "pk").answers (requests.map Ledger.Request.toCall) =
        [.failed (.noText .longInteger), .counted 0] ∧
      Ledger.answers (Ledger.step "pk") [] requests = [.document document, .counted 1] :=
  answers_of_long Json.isWritable_tenPow

end Store

end Pigeonhole

import Pigeonhole.Proofs.Json.Size
import Pigeonhole.Proofs.Session.Events
import Pigeonhole.Proofs.Store.Interleaving

/-!
# Payload lengths

Every response reports how many bytes its payload has.  For a document that is the number of bytes
of its canonical text, whichever request it answers; for a listing it is the bytes of its documents
with two for the brackets and one for every comma.  So the length of a listing is known from the
lengths that reads of its documents report (`payloads_add_up`).  A payload that cannot be written is
not measured, so its response is not sent.
-/

namespace Pigeonhole

/-- The address of a document by its id and its partition key value. -/
def Address.ofDocument (field : String) (document : Json) : Address :=
  ⟨(document.member? "id").elim .null Tree.ofJson, (document.resolve field).map Tree.ofJson⟩

/-- The bytes of the canonical text of a document. -/
def Json.byteSize (document : Json) : Nat := (Json.text document).utf8ByteSize

namespace Store

variable {s : Store}

/-- A stored document is found at its address. -/
theorem Sound.find_ofDocument (h : s.Sound) {entry : StorageKey × Row} (hentry : entry ∈ s.rows) :
    s.find (.ofDocument s.field entry.2.document) = .ok (some entry) := by
  have hrow := h.row_sound entry hentry
  have hkey : entry.1 = StorageKey.of entry.2.id entry.2.partitionKey := h.key_eq entry hentry
  have hlookup : s.row? (.of entry.2.id entry.2.partitionKey) = some entry.2 := by
    rw [← hkey]
    exact (lookup_eq_some_iff h.keys_nodup).2 hentry
  have haddress : Address.ofDocument s.field entry.2.document =
      ⟨.str entry.2.id, some (Tree.ofJson entry.2.partitionKey)⟩ := by
    rw [Address.ofDocument, hrow.member_id, hrow.resolve_field]
    rfl
  rw [haddress, find_keyed s _ hrow.writable, hlookup, ← hkey]
  rfl

/-- The documents of a feed are those in its scope, in their order. -/
theorem Sound.list_eq (h : s.Sound) {scope : Option Json} (hscope : s.lists scope = true) :
    s.list (scope.map Tree.ofJson) =
      .ok (s.documents.filter fun d => scope.all (Ledger.inPartition s.field · d)) := by
  rw [list_of_lists hscope]
  cases scope with
  | none => simp only [Option.elim_none, Option.all_none, List.filter_true]
  | some k => simp only [Option.elim_some, h.inPartition_eq, Option.all_some]

theorem Sound.ne_null (h : s.Sound) {document : Json} (hdocument : document ∈ s.documents) :
    document ≠ .null := by
  obtain ⟨entry, hentry, rfl⟩ := List.mem_map.1 hdocument
  intro hnull
  have hid := (h.row_sound entry hentry).member_id
  rw [hnull] at hid
  cases hid

end Store

namespace Session

/-- Whether an operation, however long it takes, answers with a document and reports so many bytes; if
a response with the document is not sent, it fails for that. -/
def Reports (charge : Number) (o : Double → Outcome Container (ItemResponse Empty)) (document : Json)
    (bytes : Nat) : Prop :=
  ∀ elapsed, match unsent? charge document with
    | none => ∃ r, (o elapsed).result = .ok r ∧ r.resource = document ∧
      r.diagnostics.payloadLength = bytes
    | some e => (o elapsed).result = .error e

section Operations

variable {c : Container} {document : Json}

/-- A response with a document reports the bytes of the document. -/
theorem reports_of_responded (hdocument : document ≠ .null)
    {o : Double → Outcome Container (ItemResponse Empty)}
    (ho : ∀ elapsed, (o elapsed).result =
      Container.responded document (ItemResponse.ofJson elapsed document c.charge)) :
    Reports c.charge o document document.byteSize := by
  intro elapsed
  have hresult := ho elapsed
  rw [ItemResponse.ofJson, responded_chargeOf] at hresult
  split
  next hsent =>
    rw [hsent] at hresult
    exact ⟨_, hresult, rfl, congrArg Nat.cast (Json.payloadLength_of_ne_null hdocument)⟩
  next e hunsent =>
    rw [hunsent] at hresult
    exact hresult

/-- The address of a stored document can be shown. -/
theorem display?_ofDocument (h : c.store.Sound) {entry : StorageKey × Row}
    (hentry : entry ∈ c.store.rows) :
    (Address.ofDocument c.field entry.2.document).id.display? = .ok entry.2.id := by
  rw [Address.ofDocument, (h.row_sound entry hentry).member_id]
  exact congrArg Except.ok String.ofList_toList

theorem reports_read (h : c.store.Sound) (hdocument : document ∈ c.store.documents) :
    Reports c.charge (c.read · (.ofDocument c.field document)) document document.byteSize := by
  refine reports_of_responded (h.ne_null hdocument) fun elapsed => ?_
  obtain ⟨entry, hentry, rfl⟩ := List.mem_map.1 hdocument
  have hread : c.store.read (.ofDocument c.field entry.2.document) = .ok (some entry.2.document) := by
    simp only [Store.read, Container.field, h.find_ofDocument hentry, bind, Except.bind, pure,
      Except.pure, Option.map_some]
  simp only [Container.read, hread, display?_ofDocument h hentry, Option.getD_some]

theorem reports_delete (h : c.store.Sound) (hdocument : document ∈ c.store.documents) :
    Reports c.charge (c.delete · (.ofDocument c.field document)) document document.byteSize := by
  refine reports_of_responded (h.ne_null hdocument) fun elapsed => ?_
  obtain ⟨entry, hentry, rfl⟩ := List.mem_map.1 hdocument
  simp only [Container.delete, Store.delete, Container.field, h.find_ofDocument hentry, bind,
    Except.bind, pure, Except.pure]

theorem state_upsert {item : Value} {row : Row} (hrow : Row.ofValue c.field item = .ok row)
    (elapsed : Double) : (c.upsert elapsed item).state = c.withStore (c.store.put row) := by
  have hput := Store.upsert_eq_ok_iff.2 ⟨hrow, rfl⟩
  simp only [Container.upsert, hput]

/-- An item that is taken is stored, and is what the upsert answers with. -/
theorem reports_upsert (h : c.store.Sound) {item : Value} {row : Row}
    (hrow : Row.ofValue c.field item = .ok row) :
    Reports c.charge (c.upsert · item) row.document row.document.byteSize ∧
      row.document ∈ (c.store.put row).documents := by
  have hput := Store.upsert_eq_ok_iff.2 ⟨hrow, rfl⟩
  have hmem : row.document ∈ (c.store.put row).documents :=
    List.mem_map.2 ⟨(row.key, row), mem_of_lookup (lookup_assign_self _ _ _), rfl⟩
  have hnull := (h.put (Row.sound_of_ofValue hrow)).ne_null hmem
  exact ⟨reports_of_responded hnull fun elapsed => by simp only [Container.upsert, hput], hmem⟩

/-- What an upsert takes is stored, and as long as it is, a read and a removal report the bytes that
the upsert reports. -/
theorem reports_upserted (h : c.store.Sound) {item : Value} {row : Row}
    (hrow : Row.ofValue c.field item = .ok row) (elapsed : Double) :
    let d : Json := row.document
    Reports c.charge (c.upsert · item) d d.byteSize ∧
      d ∈ (c.upsert elapsed item).state.store.documents ∧
      ∀ more, let later := after (c.upsert elapsed item).state more
        d ∈ later.store.documents →
          Reports c.charge (later.read · (.ofDocument c.field d)) d d.byteSize ∧
          Reports c.charge (later.delete · (.ofDocument c.field d)) d d.byteSize := by
  intro d
  obtain ⟨hreports, hstored⟩ := reports_upsert h hrow
  refine ⟨hreports, (state_upsert hrow elapsed).symm ▸ hstored, ?_⟩
  intro more later hlater
  have hafter : later = after c (.act elapsed (.upsert item) :: more) := rfl
  have hsound : later.store.Sound := hafter ▸ sound_store_after h _
  have hfield : later.field = c.field := by rw [hafter, field_after]
  have hcharge : later.charge = c.charge := by rw [hafter, charge_after]
  rw [← hfield, ← hcharge]
  exact ⟨reports_read hsound hlater, reports_delete hsound hlater⟩

/-- A listing reports the bytes of its documents and of the marks around them. -/
theorem payloadLength_readAll (h : c.store.Sound) {options : Value} {feed : FeedOptions}
    {scope : Option Json} (hoptions : FeedOptions.ofValue options = .ok feed)
    (hscope : feed.scope = scope.map Tree.ofJson) (hlists : c.store.lists scope = true)
    (elapsed : Double) :
    let documents := c.store.documents.filter fun d => scope.all (Ledger.inPartition c.field · d)
    match unsent? c.charge (.arr documents) with
    | none => ∃ r, (c.readAll elapsed options).result = .ok r ∧ r.resources = documents ∧
      r.diagnostics.payloadLength =
        (2 + (documents.length - 1) + (documents.map Json.byteSize).sum : Nat)
    | some e => (c.readAll elapsed options).result = .error e := by
  intro documents
  have hlisted : c.listed feed = .ok documents := by
    rw [Container.listed, hscope]
    exact h.list_eq hlists
  have hresult : (c.readAll elapsed options).result =
      Container.responded (.arr documents) (FeedResponse.ofJson elapsed documents c.charge) := by
    simp only [Container.readAll, hoptions, Container.feed, hlisted]
  rw [FeedResponse.ofJson, responded_chargeOf] at hresult
  split
  next hsent =>
    rw [hsent] at hresult
    exact ⟨_, hresult, rfl, congrArg Nat.cast (Json.payloadLength_arr documents)⟩
  next e hunsent =>
    rw [hunsent] at hresult
    exact hresult

/-- A partition whose value cannot be written is not listed. -/
theorem readAll_of_not_lists {options : Value} {feed : FeedOptions} {scope : Option Json}
    (hoptions : FeedOptions.ofValue options = .ok feed) (hscope : feed.scope = scope.map Tree.ofJson)
    (hlists : c.store.lists scope = false) (elapsed : Double) :
    (c.readAll elapsed options).result = .error (.noText .longInteger) := by
  have hlisted : c.listed feed = .error (.noText .longInteger) := by
    rw [Container.listed, hscope]
    exact Store.list_of_not_lists hlists
  simp only [Container.readAll, hoptions, Container.feed, hlisted, Outcome.failed]

end Operations

/-- After every run of events, the payload length of a listing is two, one less than the number of
its documents if there are any, and the sum of the payload lengths of reads of these documents by id
and partition key value.  An upsert, a later read of its document and the removal of it report the
bytes of the document's canonical text.  What cannot be written is not reported, and under a charge
that does not fit nothing is. -/
theorem payloads_add_up (request : ContainerRequest) (charge : Number) (events : List Event) :
    let c := after (Container.create request charge) events
    (∀ options feed (scope : Option Json), FeedOptions.ofValue options = .ok feed →
      feed.scope = scope.map Tree.ofJson →
      let documents := c.store.documents.filter fun d => scope.all (Ledger.inPartition c.field · d)
      (∀ d ∈ documents, Reports charge (c.read · (.ofDocument c.field d)) d d.byteSize) ∧
      (c.store.lists scope = true → ∀ elapsed,
        match unsent? charge (.arr documents) with
        | none => ∃ r, (c.readAll elapsed options).result = .ok r ∧ r.resources = documents ∧
          r.diagnostics.payloadLength =
            (2 + (documents.length - 1) + (documents.map Json.byteSize).sum : Nat)
        | some e => (c.readAll elapsed options).result = .error e) ∧
      (c.store.lists scope = false → ∀ elapsed,
        (c.readAll elapsed options).result = .error (.noText .longInteger))) ∧
    ∀ item row, Row.ofValue c.field item = .ok row → ∀ elapsed,
      let d : Json := row.document
      Reports charge (c.upsert · item) d d.byteSize ∧
      d ∈ (c.upsert elapsed item).state.store.documents ∧
      ∀ more, let later := after (c.upsert elapsed item).state more
        d ∈ later.store.documents →
          Reports charge (later.read · (.ofDocument c.field d)) d d.byteSize ∧
          Reports charge (later.delete · (.ofDocument c.field d)) d d.byteSize := by
  intro c
  have hcharge : c.charge = charge := charge_after _ _
  have hsound : c.store.Sound := sound_store_after (Store.sound_empty _) _
  rw [← hcharge]
  refine ⟨?_, fun item row hrow elapsed => reports_upserted hsound hrow elapsed⟩
  intro options feed scope hoptions hscope documents
  exact ⟨fun d hd => reports_read hsound (List.mem_of_mem_filter hd),
    payloadLength_readAll hsound hoptions hscope, readAll_of_not_lists hoptions hscope⟩

/-- A document with a double as its partition key value and a letter of two bytes, stored twice: it is
written, read and removed with 29 bytes, and with the brackets listed with 31 in the partition of the
equal integer. -/
theorem payloads_add_up_accented :
    let document : Json :=
      .obj [("id", .str "a"), ("pk", Tree.double (Double.ofInt 5)), ("name", .str "é")]
    let five : Json := Tree.int 5
    let charge : Number := .double Double.one
    let request : ContainerRequest := { id := "c", partitionKey := { paths := ["/pk"] } }
    let c := after (Container.create request charge)
      [.act Double.one (.upsert (Tree.ofJson document))]
    let later := (c.upsert Double.one (Tree.ofJson document)).state
    (∃ r, (c.readAll Double.one (partitionOptions (Tree.ofJson five))).result = .ok r ∧
      r.diagnostics.payloadLength = 31) ∧
    unsent? charge document = none ∧
    Reports charge (c.upsert · (Tree.ofJson document)) document 29 ∧
    document ∈ later.store.documents ∧
    Reports charge (later.read · (.ofDocument c.field document)) document 29 ∧
    Reports charge (later.delete · (.ofDocument c.field document)) document 29 := by
  intro document five charge request c later
  have hpath : partitionKeyField "/pk" = "pk" := by decide
  have hkey : (Tree.double (Double.ofInt 5) : Json).isWritable = true := rfl
  have hrow : Row.ofValue "pk" (Tree.ofJson document) =
      .ok ⟨"a", Tree.double (Double.ofInt 5), document⟩ :=
    congrArg (Except.mapError Failure.noText) (Json.written_of_isWritable hkey _)
  have hsize : document.byteSize = 29 := by decide +kernel
  have hsent : unsent? charge document = none := unsent?_eq_none_iff.2 ⟨by decide +kernel, rfl⟩
  have hlists : c.store.lists (some five) = true := by decide +kernel
  have hlisting : unsent? charge (.arr (c.store.documents.filter fun d =>
      (some five).all (Ledger.inPartition c.field · d))) = none :=
    unsent?_eq_none_iff.2 ⟨by decide +kernel, rfl⟩
  have hlength : 2 + ((c.store.documents.filter fun d =>
      (some five).all (Ledger.inPartition c.field · d)).length - 1) +
      ((c.store.documents.filter fun d =>
        (some five).all (Ledger.inPartition c.field · d)).map Json.byteSize).sum = 31 := by
    decide +kernel
  have hlater : later = (c.upsert Double.one (Tree.ofJson document)).state := rfl
  have hc : c = after (Container.create request charge)
    [.act Double.one (.upsert (Tree.ofJson document))] := rfl
  -- from here on the two containers are known by their equations only
  clear_value later c
  obtain ⟨hfeeds, hitems⟩ := payloads_add_up request charge
    [.act Double.one (.upsert (Tree.ofJson document))]
  rw [← hc] at hfeeds hitems
  obtain ⟨-, hlisted, -⟩ := hfeeds (partitionOptions (Tree.ofJson five)) _ (some five) rfl rfl
  have hanswer := hlisted hlists Double.one
  rw [hlisting] at hanswer
  obtain ⟨listed, hresult, -, hbytes⟩ := hanswer
  rw [hlength] at hbytes
  have hfield : c.field = "pk" := by rw [hc, field_after]; exact hpath
  rw [← hfield] at hrow
  obtain ⟨hwritten, hmem, hreads⟩ := hitems _ _ hrow Double.one
  rw [← hlater] at hmem hreads
  obtain ⟨hread, hdelete⟩ := hreads [] hmem
  rw [hsize] at hwritten hread hdelete
  exact ⟨⟨listed, hresult, hbytes⟩, hsent, hwritten, hmem, hread, hdelete⟩

/-- A document with a number that cannot be written is stored, and reads of it are not answered. -/
theorem read_of_not_isWritable {v : Json} (hv : v.isWritable = false) :
    let document : Json := .obj [("id", .str "a"), ("pk", .str "x"), ("n", v)]
    let request : ContainerRequest := { id := "c", partitionKey := { paths := ["/pk"] } }
    let c := after (Container.create request (.double Double.one))
      [.act Double.one (.upsert (Tree.ofJson document))]
    document ∈ c.store.documents ∧
      (c.read Double.one (.ofDocument c.field document)).result = .error (.noText .longInteger) := by
  intro document request c
  have hpath : partitionKeyField "/pk" = "pk" := by decide
  have hrow : Row.ofValue "pk" (Tree.ofJson document) = .ok ⟨"a", .str "x", document⟩ := by
    rw [Row.ofValue_ofJson_obj]
    rfl
  have hlong : document.isWritable = false := by simp [document, hv]
  let before : Container := Container.create request (.double Double.one)
  have hc : c = (before.upsert Double.one (Tree.ofJson document)).state := rfl
  have hbefore : before.store.Sound := Store.sound_empty _
  have hfield : before.field = "pk" := hpath
  have hcharge : before.charge = .double Double.one := rfl
  clear_value c before document
  rw [← hfield] at hrow
  have hmem : document ∈ c.store.documents := by
    rw [hc, state_upsert hrow]
    exact (reports_upsert hbefore hrow).2
  obtain ⟨-, -, hreads⟩ := reports_upserted hbefore hrow Double.one
  have hread := (hreads [] (hc ▸ hmem)).1 Double.one
  rw [hcharge, unsent?_of_not_isWritable hlong] at hread
  refine ⟨hmem, ?_⟩
  have hkept : c.field = before.field := by rw [hc, state_upsert hrow]; rfl
  rw [hkept, hc]
  exact hread

/-- A stored document with an integer that is too long to be written has no payload length. -/
theorem long_integer_not_measured :
    let document : Json :=
      .obj [("id", .str "a"), ("pk", .str "x"), ("n", Tree.int (tenPow Numeral.maxDigits))]
    let request : ContainerRequest := { id := "c", partitionKey := { paths := ["/pk"] } }
    let c := after (Container.create request (.double Double.one))
      [.act Double.one (.upsert (Tree.ofJson document))]
    document ∈ c.store.documents ∧
      (c.read Double.one (.ofDocument c.field document)).result = .error (.noText .longInteger) :=
  read_of_not_isWritable Json.isWritable_tenPow

end Session

end Pigeonhole

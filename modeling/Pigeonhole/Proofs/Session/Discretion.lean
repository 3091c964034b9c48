import Pigeonhole.Proofs.Session.Payload
import Pigeonhole.Proofs.Session.Telemetry
import Pigeonhole.Proofs.Store.Entries

/-!
# What records keep to themselves

The records of a call that succeeded show how it was addressed and how large its answer is.  Two
calls that are addressed alike and have answers of one size leave the same records, but for their
correlation ids, whatever else the documents, items and parameters hold (`records_alike`).

Every record of a container is known from what the call shows: an upsert from the id and the
partition key value of the item (`Row.shown_of_ofValue`), a removal from its address
(`Store.Sound.find_shown`), a feed from the number of resources.  A removal without a key is the one
record that also shows something of the store: the partition of the document that it took.
-/

namespace Pigeonhole

/-! ## Documents and their addresses -/

/-- The canonical text of a value, if it can be written. -/
def Value.writtenText? (v : Value) : Option String := v.text?.toOption

namespace Row

variable {field : String} {item : Value} {row : Row}

/-- The id and the canonical text of the partition key value of a row are those of its item. -/
theorem shown_of_ofValue (h : ofValue field item = .ok row) :
    item.member? "id" = some (.str row.id) ∧
      (item.resolve field).bind Value.writtenText? = some row.key.partition := by
  have hrow := sound_of_ofValue h
  rw [Tree.ofJson_of_toJson? item (toJson?_of_ofValue h), Tree.member?_ofJson, hrow.member_id,
    Tree.resolve_ofJson, hrow.resolve_field]
  refine ⟨rfl, ?_⟩
  rw [Option.map_some, Option.bind_some, Value.writtenText?, Value.text?, Json.written?_ofJson,
    Json.written_of_isWritable hrow.writable]
  rfl

end Row

namespace Store

variable {s : Store}

/-- The canonical text of the partition key value of the first document with an id. -/
def firstPartition? (s : Store) : Value → Option String
  | .str id => (s.first? id).map (·.1.partition)
  | _ => none

/-- A found entry stands in the store, under the id and the partition key value it is addressed by;
without a value it is the first entry with the id. -/
theorem Sound.find_shown (h : s.Sound) {address : Address} {key : StorageKey} {row : Row}
    (hfind : s.find address = .ok (some (key, row))) :
    (key, row) ∈ s.rows ∧ address.id = .str row.id ∧
      (Value.given address.partitionKey).elim (s.firstPartition? address.id) Value.writtenText? =
        some row.key.partition := by
  unfold find at hfind
  split at hfind
  next hgiven =>
    split at hfind
    next id hid =>
      have hfirst := Except.ok.inj hfind
      have hmem := List.mem_of_find?_eq_some hfirst
      have hsame : row.id = id := of_decide_eq_true
        (List.find?_some (p := fun entry : StorageKey × Row => decide (entry.2.id = id)) hfirst)
      rw [hid, hgiven, Option.elim_none, firstPartition?, hfirst, ← h.key_eq _ hmem]
      exact ⟨hmem, congrArg Tree.str hsame.symm, rfl⟩
    · cases hfind
  next v hgiven =>
    split at hfind
    · cases hfind
    next partitionKey hkey =>
      split at hfind
      next id hid =>
        have hlookup := Except.ok.inj hfind
        rw [lookup?, Option.map_eq_some_iff] at hlookup
        obtain ⟨row', hrow, heq⟩ := hlookup
        obtain ⟨rfl, rfl⟩ := Prod.mk.inj heq
        have hmem := mem_of_lookup hrow
        have hsame : StorageKey.of id partitionKey = row'.key := h.key_eq _ hmem
        rw [hid, hgiven, Option.elim_some, Value.writtenText?, Value.text?, hkey, ← hsame]
        exact ⟨hsame ▸ hmem, congrArg Tree.str (congrArg StorageKey.id hsame), rfl⟩
      · cases hfind
      · cases hfind
      · cases hfind

end Store

/-! ## Actions that succeed -/

namespace Container

variable {c : Container} {elapsed : Double}

theorem eq_of_responded {α : Type} {charge : Number} {payload : Json} {response : Double → α} {a : α}
    (h : responded payload ((chargeOf charge).map response) = .ok a) :
    a = response charge.shown := by
  rw [responded_chargeOf] at h
  split at h
  · exact (Except.ok.inj h).symm
  · cases h

/-- The response around a document after so many milliseconds. -/
def envelope (c : Container) (elapsed : Double) (document : Json) : ItemResponse Empty where
  resource := document
  charge := c.charge.shown
  diagnostics := { duration := .double elapsed, payloadLength := document.payloadLength }

/-- The response around the resources of a feed after so many milliseconds. -/
def feedEnvelope (c : Container) (elapsed : Double) (resources : List Json) :
    FeedResponse Empty where
  resources := resources
  charge := c.charge.shown
  diagnostics :=
    { duration := .double elapsed, payloadLength := Json.payloadLength (.arr resources) }

theorem upsert_of_ok {item : Value} {r : ItemResponse Empty}
    (h : (c.upsert elapsed item).result = .ok r) :
    ∃ row, Row.ofValue c.field item = .ok row ∧ r = c.envelope elapsed row.document ∧
      (c.upsert elapsed item).records = [storeDebug
        ("Upserted document '" ++ row.id ++ "' in partition " ++ row.key.partition)] := by
  unfold upsert at h ⊢
  cases hstored : c.store.upsert item with
  | error e =>
    rw [hstored] at h
    cases h
  | ok stored =>
    obtain ⟨row, store⟩ := stored
    rw [hstored] at h
    exact ⟨row, (Store.upsert_eq_ok_iff.1 hstored).1, eq_of_responded h, rfl⟩

theorem read_of_ok {address : Address} {r : ItemResponse Empty}
    (h : (c.read elapsed address).result = .ok r) :
    ∃ found shown, c.store.read address = .ok found ∧ address.id.display? = .ok shown ∧
      r = c.envelope elapsed (found.getD .null) ∧
      (c.read elapsed address).records =
        [debug ("Read item '" ++ shown ++ "' from container " ++ c.quoted ++ " (" ++
          (if found.isSome then "hit" else "miss") ++ ")")] := by
  unfold read at h ⊢
  cases hfound : c.store.read address with
  | error e =>
    rw [hfound] at h
    cases h
  | ok found =>
    cases hshown : address.id.display? with
    | error fault =>
      simp only [hfound, hshown] at h
      cases h
    | ok shown =>
      simp only [hfound, hshown] at h
      exact ⟨found, shown, rfl, rfl, eq_of_responded h, rfl⟩

theorem delete_of_ok {address : Address} {r : ItemResponse Empty}
    (h : (c.delete elapsed address).result = .ok r) :
    ∃ key row, c.store.find address = .ok (some (key, row)) ∧ r = c.envelope elapsed row.document ∧
      (c.delete elapsed address).records =
        [storeDebug ("Deleted document '" ++ row.id ++ "' from partition " ++ row.key.partition),
          debug ("Deleted item '" ++ row.id ++ "' from container " ++ c.quoted)] := by
  unfold delete at h ⊢
  cases hremoved : c.store.delete address with
  | error e =>
    rw [hremoved] at h
    cases h
  | ok removed =>
    obtain ⟨row, store⟩ := removed
    obtain ⟨key, hfind, -⟩ := Store.delete_eq_ok hremoved
    rw [hremoved] at h
    exact ⟨key, row, hfind, eq_of_responded h, rfl⟩

/-- Whether an outcome is that of a feed with a description, or of a failure before the feed. -/
def Feeds (c : Container) (elapsed : Double) (description : String)
    (o : Outcome Container (FeedResponse Empty)) : Prop :=
  (∃ e, o = .failed c e) ∨ ∃ found, o = c.feed elapsed description found

theorem feeds_readAll (options : Value) : c.Feeds elapsed "ReadAll" (c.readAll elapsed options) := by
  unfold readAll
  split
  · exact .inl ⟨_, rfl⟩
  · exact .inr ⟨_, rfl⟩

theorem feeds_query (query options : Value) :
    c.Feeds elapsed "Query" (c.query elapsed query options) := by
  unfold Container.query
  split
  · exact .inl ⟨_, rfl⟩
  · exact .inr ⟨_, rfl⟩

theorem Feeds.of_ok {description : String} {o : Outcome Container (FeedResponse Empty)}
    (h : c.Feeds elapsed description o) {r : FeedResponse Empty} (hr : o.result = .ok r) :
    r = c.feedEnvelope elapsed r.resources ∧ o.records =
      [debug (description ++ " on container " ++ c.quoted ++ " returned " ++
        String.ofList (Text.natDigits r.resources.length) ++ " resources")] := by
  obtain ⟨e, rfl⟩ | ⟨found, rfl⟩ := h
  · cases hr
  · unfold feed at hr ⊢
    cases found with
    | error e => cases hr
    | ok resources =>
      obtain rfl := eq_of_responded hr
      exact ⟨rfl, rfl⟩

/-- A read is a hit exactly if it answers with something. -/
theorem isSome_iff_of_read (h : c.store.Sound) {address : Address} {found : Option Json}
    (hfound : c.store.read address = .ok found) :
    found.isSome = true ↔ found.getD .null ≠ .null := by
  cases found with
  | none => simp
  | some document =>
    refine iff_of_true rfl (h.ne_null ?_)
    cases hfind : c.store.find address with
    | error e => simp [Store.read, hfind, bind, Except.bind] at hfound
    | ok entry =>
      simp only [Store.read, hfind, bind, Except.bind, pure, Except.pure, Except.ok.injEq,
        Option.map_eq_some_iff] at hfound
      obtain ⟨⟨key, row⟩, rfl, rfl⟩ := hfound
      exact List.mem_map_of_mem (h.find_shown hfind).1

end Container

/-! ## Answers of one size -/

/-- Whether two responses are of one size: a hit or a miss both, with as many resources and as many
bytes. -/
structure Response.SameSize (r₁ r₂ : Response) : Prop where
  hit_iff : r₁.payload = .null ↔ r₂.payload = .null
  count_eq : r₁.count? = r₂.count?
  bytes_eq : Json.payloadLength r₁.payload = Json.payloadLength r₂.payload

instance : (json : Json) → Decidable (json = .null)
  | .null => isTrue rfl
  | .bool _ | .num _ | .str _ | .arr _ | .obj _ | .foreign _ => isFalse nofun

instance (r₁ r₂ : Response) : Decidable (r₁.SameSize r₂) :=
  decidable_of_iff ((r₁.payload = .null ↔ r₂.payload = .null) ∧ r₁.count? = r₂.count? ∧
      Json.payloadLength r₁.payload = Json.payloadLength r₂.payload)
    ⟨fun h => ⟨h.1, h.2.1, h.2.2⟩, fun h => ⟨h.hit_iff, h.count_eq, h.bytes_eq⟩⟩

instance : (answer₁ answer₂ : Except Failure Response) →
    Decidable (∃ r₁ r₂ : Response, answer₁ = .ok r₁ ∧ answer₂ = .ok r₂ ∧ r₁.SameSize r₂)
  | .ok r₁, .ok r₂ =>
    decidable_of_iff (r₁.SameSize r₂)
      ⟨fun h => ⟨r₁, r₂, rfl, rfl, h⟩, by rintro ⟨_, _, h₁, h₂, h⟩; cases h₁; cases h₂; exact h⟩
  | .error _, _ => isFalse (by rintro ⟨_, _, h, -⟩; cases h)
  | .ok _, .error _ => isFalse (by rintro ⟨_, _, -, h, -⟩; cases h)

namespace Session

/-- Whether two calls to two stores are addressed alike: by the same id and key, with the same
options and query text, or with an item of the same id and partition key value.  A removal without a
key is addressed by its id only, and takes the first document with it; both have to be in one
partition. -/
inductive Call.Alike (s₁ s₂ : Store) : Call → Call → Prop
  | getItem (id key : Value) : Alike s₁ s₂ (.getItem id key) (.getItem id key)
  | getItems (key : Value) : Alike s₁ s₂ (.getItems key) (.getItems key)
  | getIds (key : Value) : Alike s₁ s₂ (.getIds key) (.getIds key)
  | getCount : Alike s₁ s₂ .getCount .getCount
  | query {query₁ query₂ : Value} (options : Value)
      (htext : queryText? query₁ = queryText? query₂) :
      Alike s₁ s₂ (.query query₁ options) (.query query₂ options)
  | upsertItem {item₁ item₂ : Value} (hid : item₁.member? "id" = item₂.member? "id")
      (hkey : (s₁.partitionKeyOf item₁).bind Value.writtenText? =
        (s₂.partitionKeyOf item₂).bind Value.writtenText?) :
      Alike s₁ s₂ (.upsertItem item₁) (.upsertItem item₂)
  | deleteItem (id key : Value)
      (hfirst : Value.given (some key) = none → s₁.firstPartition? id = s₂.firstPartition? id) :
      Alike s₁ s₂ (.deleteItem id key) (.deleteItem id key)

/-! ## Records of actions -/

section Actions

variable {c c₁ c₂ : Container} {elapsed elapsed₁ elapsed₂ : Double}

theorem exists_of_map_eq_ok {ε α β : Type} {f : α → β} {x : Except ε α} {b : β}
    (h : x.map f = .ok b) : ∃ a, x = .ok a ∧ f a = b := by
  cases x with
  | error e => cases h
  | ok a => exact ⟨a, rfl, Except.ok.inj h⟩

/-- What an action that succeeds leaves behind: a response that shows the charge of the container, the
time that the action took and the bytes of what it carries, and records without a correlation id and
without a context. -/
structure Answered (c : Container) (elapsed : Double) (records : List Log.Record) (r : Response) :
    Prop where
  charge_eq : r.charge = c.charge.shown
  diagnostics_eq : r.diagnostics =
    { duration := .double elapsed, payloadLength := Json.payloadLength r.payload }
  plain : ∀ record ∈ records, record.correlation = none ∧ record.context = []

theorem answered_run {action : Action} {r : Response} (h : (c.run elapsed action).result = .ok r) :
    Answered c elapsed (c.run elapsed action).records r := by
  have hplain : ∀ text text' : String,
      (∀ record ∈ [Container.debug text], record.correlation = none ∧ record.context = []) ∧
      (∀ record ∈ [Container.storeDebug text], record.correlation = none ∧ record.context = []) ∧
      ∀ record ∈ [Container.storeDebug text, Container.debug text'],
        record.correlation = none ∧ record.context = [] := by
    simp [Container.debug, Container.storeDebug, Log.Record.plain]
  cases action with
  | upsert item =>
    obtain ⟨a, ha, rfl⟩ := exists_of_map_eq_ok h
    obtain ⟨row, -, rfl, hrecords⟩ := Container.upsert_of_ok ha
    exact ⟨rfl, rfl, hrecords ▸ (hplain _ "").2.1⟩
  | read address =>
    obtain ⟨a, ha, rfl⟩ := exists_of_map_eq_ok h
    obtain ⟨found, shown, -, -, rfl, hrecords⟩ := Container.read_of_ok ha
    exact ⟨rfl, rfl, hrecords ▸ (hplain _ "").1⟩
  | delete address =>
    obtain ⟨a, ha, rfl⟩ := exists_of_map_eq_ok h
    obtain ⟨key, row, -, rfl, hrecords⟩ := Container.delete_of_ok ha
    exact ⟨rfl, rfl, hrecords ▸ (hplain _ _).2.2⟩
  | readAll options =>
    obtain ⟨a, ha, rfl⟩ := exists_of_map_eq_ok h
    obtain ⟨henvelope, hrecords⟩ := (Container.feeds_readAll options).of_ok ha
    rw [henvelope]
    exact ⟨rfl, rfl, hrecords ▸ (hplain _ "").1⟩
  | query query options =>
    obtain ⟨a, ha, rfl⟩ := exists_of_map_eq_ok h
    obtain ⟨henvelope, hrecords⟩ := (Container.feeds_query query options).of_ok ha
    rw [henvelope]
    exact ⟨rfl, rfl, hrecords ▸ (hplain _ "").1⟩

/-- Two feeds with one description log the same if they find as many resources. -/
theorem records_feeds_alike {description : String} {o₁ o₂ : Outcome Container (FeedResponse Empty)}
    (hfeeds₁ : c₁.Feeds elapsed₁ description o₁) (hfeeds₂ : c₂.Feeds elapsed₂ description o₂)
    (hquoted : c₁.quoted = c₂.quoted) {r₁ r₂ : Response}
    (hr₁ : o₁.result.map Response.feed = .ok r₁) (hr₂ : o₂.result.map Response.feed = .ok r₂)
    (hcount : r₁.count? = r₂.count?) : o₁.records = o₂.records := by
  obtain ⟨a₁, ha₁, rfl⟩ := exists_of_map_eq_ok hr₁
  obtain ⟨a₂, ha₂, rfl⟩ := exists_of_map_eq_ok hr₂
  have hlength : a₁.resources.length = a₂.resources.length := Option.some.inj hcount
  rw [(hfeeds₁.of_ok ha₁).2, (hfeeds₂.of_ok ha₂).2, hquoted, hlength]

theorem records_read_alike (h₁ : c₁.store.Sound) (h₂ : c₂.store.Sound)
    (hquoted : c₁.quoted = c₂.quoted) (address : Address) {r₁ r₂ : Response}
    (hr₁ : (c₁.run elapsed₁ (.read address)).result = .ok r₁)
    (hr₂ : (c₂.run elapsed₂ (.read address)).result = .ok r₂)
    (hhit : r₁.payload = .null ↔ r₂.payload = .null) :
    (c₁.run elapsed₁ (.read address)).records = (c₂.run elapsed₂ (.read address)).records := by
  obtain ⟨a₁, ha₁, rfl⟩ := exists_of_map_eq_ok hr₁
  obtain ⟨a₂, ha₂, rfl⟩ := exists_of_map_eq_ok hr₂
  obtain ⟨found₁, shown₁, hfound₁, hshown₁, rfl, hrecords₁⟩ := Container.read_of_ok ha₁
  obtain ⟨found₂, shown₂, hfound₂, hshown₂, rfl, hrecords₂⟩ := Container.read_of_ok ha₂
  obtain rfl : shown₁ = shown₂ := Except.ok.inj (hshown₁.symm.trans hshown₂)
  have hfound : found₁.isSome = found₂.isSome := by
    rw [Bool.eq_iff_iff, Container.isSome_iff_of_read h₁ hfound₁,
      Container.isSome_iff_of_read h₂ hfound₂]
    exact not_congr hhit
  rw [hquoted, hfound] at hrecords₁
  exact hrecords₁.trans hrecords₂.symm

theorem records_upsert_alike {item₁ item₂ : Value} (hid : item₁.member? "id" = item₂.member? "id")
    (hkey : (c₁.store.partitionKeyOf item₁).bind Value.writtenText? =
      (c₂.store.partitionKeyOf item₂).bind Value.writtenText?) {r₁ r₂ : Response}
    (hr₁ : (c₁.run elapsed₁ (.upsert item₁)).result = .ok r₁)
    (hr₂ : (c₂.run elapsed₂ (.upsert item₂)).result = .ok r₂) :
    (c₁.run elapsed₁ (.upsert item₁)).records = (c₂.run elapsed₂ (.upsert item₂)).records := by
  obtain ⟨a₁, ha₁, -⟩ := exists_of_map_eq_ok hr₁
  obtain ⟨a₂, ha₂, -⟩ := exists_of_map_eq_ok hr₂
  obtain ⟨row₁, hrow₁, -, hrecords₁⟩ := Container.upsert_of_ok ha₁
  obtain ⟨row₂, hrow₂, -, hrecords₂⟩ := Container.upsert_of_ok ha₂
  obtain ⟨hid₁, hkey₁⟩ := Row.shown_of_ofValue hrow₁
  obtain ⟨hid₂, hkey₂⟩ := Row.shown_of_ofValue hrow₂
  have hids : row₁.id = row₂.id := by
    rw [hid₁, hid₂] at hid
    exact Tree.str.inj (Option.some.inj hid)
  have hpartitions : row₁.key.partition = row₂.key.partition :=
    Option.some.inj (hkey₁.symm.trans (hkey.trans hkey₂))
  rw [hids, hpartitions] at hrecords₁
  exact hrecords₁.trans hrecords₂.symm

theorem records_delete_alike (h₁ : c₁.store.Sound) (h₂ : c₂.store.Sound)
    (hquoted : c₁.quoted = c₂.quoted) {address : Address}
    (hfirst : Value.given address.partitionKey = none →
      c₁.store.firstPartition? address.id = c₂.store.firstPartition? address.id)
    {r₁ r₂ : Response} (hr₁ : (c₁.run elapsed₁ (.delete address)).result = .ok r₁)
    (hr₂ : (c₂.run elapsed₂ (.delete address)).result = .ok r₂) :
    (c₁.run elapsed₁ (.delete address)).records = (c₂.run elapsed₂ (.delete address)).records := by
  obtain ⟨a₁, ha₁, -⟩ := exists_of_map_eq_ok hr₁
  obtain ⟨a₂, ha₂, -⟩ := exists_of_map_eq_ok hr₂
  obtain ⟨key₁, row₁, hfind₁, -, hrecords₁⟩ := Container.delete_of_ok ha₁
  obtain ⟨key₂, row₂, hfind₂, -, hrecords₂⟩ := Container.delete_of_ok ha₂
  obtain ⟨-, hid₁, hkey₁⟩ := h₁.find_shown hfind₁
  obtain ⟨-, hid₂, hkey₂⟩ := h₂.find_shown hfind₂
  have hids : row₁.id = row₂.id := Tree.str.inj (hid₁.symm.trans hid₂)
  have hpartitions : row₁.key.partition = row₂.key.partition := by
    -- a given key is the partition itself; without one it is that of the first document
    cases hgiven : Value.given address.partitionKey with
    | none =>
      rw [hgiven] at hkey₁ hkey₂
      exact Option.some.inj (hkey₁.symm.trans ((hfirst hgiven).trans hkey₂))
    | some v =>
      rw [hgiven] at hkey₁ hkey₂
      exact Option.some.inj (hkey₁.symm.trans hkey₂)
  rw [hids, hpartitions, hquoted] at hrecords₁
  exact hrecords₁.trans hrecords₂.symm

/-- Two actions of calls that are addressed alike log the same if their responses are of one
size. -/
theorem records_action_alike (h₁ : c₁.store.Sound) (h₂ : c₂.store.Sound) (hid : c₁.id = c₂.id)
    {call₁ call₂ : Call} (halike : Call.Alike c₁.store c₂.store call₁ call₂) {r₁ r₂ : Response}
    (hr₁ : (c₁.run elapsed₁ call₁.action).result = .ok r₁)
    (hr₂ : (c₂.run elapsed₂ call₂.action).result = .ok r₂) (hsize : r₁.SameSize r₂) :
    (c₁.run elapsed₁ call₁.action).records = (c₂.run elapsed₂ call₂.action).records := by
  have hquoted : c₁.quoted = c₂.quoted := by rw [Container.quoted, Container.quoted, hid]
  cases halike with
  | getItem _ _ => exact records_read_alike h₁ h₂ hquoted _ hr₁ hr₂ hsize.hit_iff
  | getItems _ =>
    exact records_feeds_alike (Container.feeds_readAll _) (Container.feeds_readAll _) hquoted hr₁
      hr₂ hsize.count_eq
  | getIds _ | getCount | query _ _ =>
    exact records_feeds_alike (Container.feeds_query _ _) (Container.feeds_query _ _) hquoted hr₁
      hr₂ hsize.count_eq
  | upsertItem hitem hkey => exact records_upsert_alike hitem hkey hr₁ hr₂
  | deleteItem _ _ hfirst => exact records_delete_alike h₁ h₂ hquoted hfirst hr₁ hr₂

end Actions

/-! ## Records of calls -/

/-- A record of an action that took so many milliseconds instead. -/
def timed (elapsed : Double) (record : Log.Record) : Log.Record :=
  { record with
    context := record.context.map fun (key, v) =>
      (key, if key = "ms" then Tree.double elapsed else v) }

/-- A record under another correlation id. -/
def renamed (id id' : String) (record : Log.Record) : Log.Record :=
  if record.correlation = some (some id) then record.withCorrelation (some id') else record

/-- The partition key value that a call is shown with. -/
def Call.given? : Call → Option Value
  | getItem _ key | getItems key | deleteItem _ key => some key
  | getIds key => optionsKey (partitionOptions key)
  | getCount => optionsKey .null
  | query _ options => optionsKey options
  | upsertItem _ => none

/-- The query that a call is shown with. -/
def Call.query? : Call → Option Value
  | getIds _ => some idsQuery
  | getCount => some countQuery
  | query text _ => some text
  | _ => none

/-- The telemetry of a call from the response to its action. -/
def Call.telemetry (name : String) (call : Call) (r : Response) : Telemetry where
  action := call.word
  container := name
  charge := r.charge
  diagnostics := r.diagnostics
  partitionKey := call.given?
  query := call.query?
  count := r.count?

theorem records_finish_of_ok {α : Type} {id tag : String} {o : Outcome Container α} {a : α}
    (answer : α → Json) (telemetry : α → Telemetry) (h : o.result = .ok a) :
    (finish id tag o answer telemetry).records = o.records ++ [(telemetry a).record id] := by
  unfold finish
  rw [h]

/-- A call that succeeds adds the record of its telemetry to those of its action. -/
theorem records_run_of_ok (name id : String) {c : Container} {elapsed : Double} {call : Call}
    {r : Response} (h : (c.run elapsed call.action).result = .ok r) :
    (run name id c elapsed call).records =
      (c.run elapsed call.action).records ++ [(call.telemetry name r).record id] := by
  cases call <;>
  · obtain ⟨a, ha, rfl⟩ := exists_of_map_eq_ok h
    exact records_finish_of_ok _ _ ha

namespace Telemetry

/-- Of a query the record shows the text only. -/
theorem record_congr (t : Telemetry) {query : Option Value}
    (h : t.query.map queryText? = query.map queryText?) (id : String) :
    t.record id = { t with query }.record id := by
  have hcontext : t.context? = { t with query }.context? := by
    have hshown : { t with query }.shownKey = t.shownKey := rfl
    cases hquery : t.query <;> cases query <;> rw [hquery] at h <;>
      simp_all [context?]
  rw [record, record, hcontext]

theorem record_renamed (t : Telemetry) (id id' : String) :
    t.record id' = renamed id id' (t.record id) := by
  rw [record, record]
  cases t.context? with
  | none => rfl
  | some context => rw [renamed, if_pos rfl]; rfl

theorem record_timed (t : Telemetry) (elapsed : Double) (id : String) :
    timed elapsed (t.record id) =
      { t with diagnostics := { t.diagnostics with duration := .double elapsed } }.record id := by
  have hcontext : { t with
      diagnostics := { t.diagnostics with duration := .double elapsed } }.context? =
        t.context?.map (List.map fun (key, v) =>
          (key, if key = "ms" then Tree.double elapsed else v)) := by
    have hshown : { t with
        diagnostics := { t.diagnostics with duration := .double elapsed } }.shownKey =
          t.shownKey := rfl
    rw [context?, context?, hshown]
    cases t.query with
    | none => cases t.shownKey <;> cases t.count <;> rfl
    | some query =>
      cases htext : queryText? query with
      | none => simp [htext]
      | some text => cases t.shownKey <;> cases t.count <;> simp [htext, Tree.double]
  rw [record, record, hcontext]
  cases t.context? <;> rfl

end Telemetry

/-- The reports of two calls that are addressed alike are the same if their responses are of one
size: the text of the query is all that they show of it. -/
theorem telemetry_alike (name : String) {s₁ s₂ : Store} {call₁ call₂ : Call}
    (halike : Call.Alike s₁ s₂ call₁ call₂) {c₁ c₂ : Container}
    {elapsed₁ elapsed₂ : Double}
    {records₁ records₂ : List Log.Record} {r₁ r₂ : Response}
    (hr₁ : Answered c₁ elapsed₁ records₁ r₁) (hr₂ : Answered c₂ elapsed₂ records₂ r₂)
    (hcharge : c₁.charge = c₂.charge) (hsize : r₁.SameSize r₂) (id : String) :
    (call₂.telemetry name r₂).record id =
      timed elapsed₂ ((call₁.telemetry name r₁).record id) := by
  have hquery : (call₁.telemetry name r₁).query.map queryText? = call₂.query?.map queryText? := by
    cases halike with
    | query options htext => exact congrArg some htext
    | _ => rfl
  have hword : call₁.word = call₂.word := by cases halike <;> rfl
  have hgiven : call₁.given? = call₂.given? := by cases halike <;> rfl
  have hshown : r₁.charge = r₂.charge := by rw [hr₁.charge_eq, hr₂.charge_eq, hcharge]
  have hdiagnostics :
      { r₁.diagnostics with duration := .double elapsed₂ } = r₂.diagnostics := by
    rw [hr₁.diagnostics_eq, hr₂.diagnostics_eq, hsize.bytes_eq]
  rw [Telemetry.record_congr _ hquery, Telemetry.record_timed]
  simp only [Call.telemetry, hword, hgiven, hshown, hdiagnostics, hsize.count_eq]

/-- Two calls of one kind that succeed on containers of one name and one charge, each after any
history of its own, leave the same records if they are addressed alike and their answers are of one
size: the debug records of store and client and the report of the call, in one order and with equal
messages and contexts.  Only the correlation ids and the time that the call took are their own. -/
theorem records_alike (request₁ request₂ : ContainerRequest) (charge : Number)
    (events₁ events₂ : List Event) (hid : request₁.id = request₂.id) :
    let c₁ := after (Container.create request₁ charge) events₁
    let c₂ := after (Container.create request₂ charge) events₂
    ∀ {elapsed₁ elapsed₂ : Double} {call₁ call₂ : Call} {r₁ r₂ : Response},
      Call.Alike c₁.store c₂.store call₁ call₂ →
      (c₁.run elapsed₁ call₁.action).result = .ok r₁ →
      (c₂.run elapsed₂ call₂.action).result = .ok r₂ →
      r₁.SameSize r₂ →
      ∀ (supply₁ supply₂ : Nat → String) (around₁ around₂ : Log.Correlation) (name : String),
        (perform supply₂ around₂ name c₂ elapsed₂ call₂).2.records =
          (perform supply₁ around₁ name c₁ elapsed₁ call₁).2.records.map fun record =>
            timed elapsed₂ (renamed (around₁.scopeId supply₁ none) (around₂.scopeId supply₂ none)
              record) := by
  intro c₁ c₂ elapsed₁ elapsed₂ call₁ call₂ r₁ r₂ halike hr₁ hr₂ hsize supply₁ supply₂
    around₁ around₂ name
  have hsound₁ : c₁.store.Sound := sound_store_after (Store.sound_empty _) events₁
  have hsound₂ : c₂.store.Sound := sound_store_after (Store.sound_empty _) events₂
  have hname : c₁.id = c₂.id :=
    ((id_after _ events₁).trans hid).trans (id_after (Container.create request₂ charge) events₂).symm
  have hcharge : c₁.charge = c₂.charge :=
    (charge_after _ events₁).trans (charge_after (Container.create request₂ charge) events₂).symm
  have hactions := records_action_alike hsound₁ hsound₂ hname halike hr₁ hr₂ hsize
  have hreports :=
    telemetry_alike name halike (answered_run hr₁) (answered_run hr₂) hcharge hsize
  show (run name (around₂.scopeId supply₂ none) c₂ elapsed₂ call₂).records =
    (run name (around₁.scopeId supply₁ none) c₁ elapsed₁ call₁).records.map _
  rw [records_run_of_ok name _ hr₁, records_run_of_ok name _ hr₂, List.map_append, ← hactions]
  congr 1
  · -- records of the action carry no correlation id and no context, so there is nothing to exchange
    refine (List.map_id' _).symm.trans (List.map_congr_left fun record hrecord => ?_)
    obtain ⟨hcorrelation, hcontext⟩ := (answered_run hr₁).plain record hrecord
    rw [renamed, if_neg (by simp [hcorrelation]), timed, hcontext, List.map_nil,
      ← hcontext]
  · rw [List.map_singleton, ← Telemetry.record_renamed, hreports]

/-- Two queries of one text with different parameters, on containers with different documents. -/
theorem records_alike_parameters :
    let one : Double := Double.one
    let two : Double := Double.ofInt 2
    let document (n : Int) : Value :=
      .obj [("id", .str "a"), ("pk", .str "p"), ("n", Tree.int n)]
    let request : ContainerRequest := { id := "c", partitionKey := { paths := ["/pk"] } }
    let c (n : Int) :=
      after (Container.create request (.double Double.one)) [.act Double.one (.upsert (document n))]
    let call (n : Int) : Call :=
      .query (.obj [("query", .str "SELECT * FROM c WHERE c.n = @n"),
        ("parameters", .arr [.obj [("name", .str "@n"), ("value", Tree.int n)]])]) .null
    (∃ r₁ r₂ : Response, ((c 7).run one (call 7).action).result = .ok r₁ ∧
        ((c 8).run two (call 8).action).result = .ok r₂ ∧ r₁.SameSize r₂) ∧
      (perform (fun _ => "77e1") {} "people" (c 8) two (call 8)).2.records =
        (perform (fun _ => "5a0c") {} "people" (c 7) one (call 7)).2.records.map
          (fun record => timed two (renamed "5a0c" "77e1" record)) := by
  intro one two document request c call
  have hanswered : ∃ r₁ r₂ : Response, ((c 7).run one (call 7).action).result = .ok r₁ ∧
      ((c 8).run two (call 8).action).result = .ok r₂ ∧ r₁.SameSize r₂ := by
    decide +kernel
  have halike : Call.Alike (c 7).store (c 8).store (call 7) (call 8) := .query .null rfl
  obtain ⟨r₁, r₂, h₁, h₂, hsize⟩ := hanswered
  exact ⟨⟨r₁, r₂, h₁, h₂, hsize⟩,
    records_alike request request (.double Double.one) [.act Double.one (.upsert (document 7))]
      [.act Double.one (.upsert (document 8))] rfl halike h₁ h₂ hsize (fun _ => "5a0c")
      (fun _ => "77e1") {} {} "people"⟩

/-- A removal without a key tells the partition of the document that it removes. -/
theorem records_tell_partition :
    let document (key : String) : Value := .obj [("id", .str "a"), ("pk", .str key)]
    let request : ContainerRequest := { id := "c", partitionKey := { paths := ["/pk"] } }
    let c (key : String) :=
      after (Container.create request (.double Double.one)) [.act Double.one (.upsert (document key))]
    let call : Call := .deleteItem (.str "a") (.foreign .missing)
    (∃ r₁ r₂ : Response, ((c "p").run Double.one call.action).result = .ok r₁ ∧
        ((c "q").run Double.one call.action).result = .ok r₂ ∧ r₁.SameSize r₂) ∧
      (perform (fun _ => "77e1") {} "people" (c "q") Double.one call).2.records ≠
        (perform (fun _ => "5a0c") {} "people" (c "p") Double.one call).2.records.map
          (fun record => timed Double.one (renamed "5a0c" "77e1" record)) := by
  intro document request c call
  refine ⟨by decide +kernel, fun h => ?_⟩
  have hmessages := congrArg (List.map (·.message.text?)) h
  revert hmessages
  decide +kernel

end Session

end Pigeonhole

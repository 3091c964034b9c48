import Pigeonhole.Proofs.Query.Meeting
import Pigeonhole.Proofs.Session.Events
import Pigeonhole.Proofs.Store.Entries
import Pigeonhole.Proofs.Store.Partitions

/-!
# Views of a container

The calls that look at a container are equations over its store: whatever they find is `sent`, that
is, answered if its text can be written and the charge of the container fits.  They find it in
different ways: by a listing, a query for ids, a query for a number and a look-up.  `Agree` says how
their answers fit together, and `views_agree` that they do after every run of events.
-/

namespace Pigeonhole.Session

/-! ## Answers -/

theorem map_feed (c : Container) (elapsed : Double) (description : String) (found : List Json) :
    ((c.feed elapsed description (.ok found)).result.map fun r => (.arr r.resources : Json)) =
      sent c.charge (.arr found) (.arr found) := by
  simp only [Container.feed, FeedResponse.ofJson, responded_chargeOf, sent]
  cases unsent? c.charge (.arr found) <;> rfl

theorem ofValue_partitionOptions (p : Json) :
    FeedOptions.ofValue (partitionOptions (Tree.ofJson p)) =
      .ok { partitionKey := some (Tree.ofJson p) } :=
  rfl

theorem listed_partition {c : Container} {p : Json} (h : c.store.lists (some p) = true) :
    c.listed { partitionKey := some (Tree.ofJson p) } = .ok (c.store.inPartition p) := by
  rw [Container.listed, FeedOptions.scope, Store.given_ofJson]
  exact Store.list_of_lists h

theorem listed_partition_of_not {c : Container} {p : Json} (h : c.store.lists (some p) = false) :
    c.listed { partitionKey := some (Tree.ofJson p) } = .error (.noText .longInteger) := by
  rw [Container.listed, FeedOptions.scope, Store.given_ofJson]
  exact Store.list_of_not_lists h

/-- A statement without conditions is answered from all documents of the feed. -/
theorem queried_of_parsed {c : Container} {text : String} (shape : Query.Shape)
    (hparsed : Query.Parsed.ofSpec { text } = .ok ⟨text, shape, [], []⟩) {options : FeedOptions}
    {documents : List Json} (h : c.listed options = .ok documents) :
    c.queried (.str text) options = .ok (shape.select documents) := by
  have hspec : Query.Spec.ofValue (.str text) = .ok { text } := rfl
  have hall : Query.meeting [] documents = .ok documents := by
    rw [Query.meeting_of_conclusive fun _ _ => rfl]
    exact congrArg Except.ok (List.filter_true documents)
  have hexecute : (⟨text, shape, [], []⟩ : Query.Parsed).execute documents =
      .ok (shape.select documents) := by
    have hcompiled : Query.compileAll (α := Empty) [] [] = .ok [] := rfl
    rw [Query.Parsed.execute_of_ok hcompiled, hall]
    rfl
  simp only [Container.queried, hspec, hparsed, h, hexecute, Except.mapError, bind, Except.bind]

theorem queried_of_unlisted {c : Container} {text : String} (shape : Query.Shape)
    (hparsed : Query.Parsed.ofSpec { text } = .ok ⟨text, shape, [], []⟩) {options : FeedOptions}
    {e : Failure} (h : c.listed options = .error e) : c.queried (.str text) options = .error e := by
  have hspec : Query.Spec.ofValue (.str text) = .ok { text } := rfl
  simp only [Container.queried, hspec, hparsed, h, Except.mapError, bind, Except.bind]

section Calls

variable (name id : String) {c : Container} (elapsed : Double) {p : Json}

theorem result_query {query options : Value} {feed : FeedOptions} {found : List Json}
    (hoptions : FeedOptions.ofValue options = .ok feed)
    (h : c.queried query feed = .ok found) :
    (runQuery name id c elapsed query options).result = sent c.charge (.arr found) (.arr found) := by
  simp only [runQuery, result_finish, Container.query, hoptions, h, map_feed]

theorem result_getItems (h : c.store.lists (some p) = true) :
    (run name id c elapsed (.getItems (Tree.ofJson p))).result =
      sent c.charge (.arr (c.store.inPartition p)) (.arr (c.store.inPartition p)) := by
  simp only [run, result_finish, Container.readAll, ofValue_partitionOptions, listed_partition h,
    map_feed]

theorem result_getIds (h : c.store.lists (some p) = true) :
    (run name id c elapsed (.getIds (Tree.ofJson p))).result =
      sent c.charge (.arr ((c.store.inPartition p).map Query.idEntry))
        (.arr ((c.store.inPartition p).map fun d => (d.member? "id").getD .null)) := by
  have hquery : c.queried idsQuery { partitionKey := some (Tree.ofJson p) } =
      .ok ((c.store.inPartition p).map Query.idEntry) :=
    queried_of_parsed .ids rfl (listed_partition h)
  have hids : idsOf (.arr ((c.store.inPartition p).map Query.idEntry)) =
      .arr ((c.store.inPartition p).map fun d => (d.member? "id").getD .null) := by
    -- every entry has an id, so none is left out
    have hentry : ((·.member? "id") ∘ Query.idEntry : Json → Option Json) =
        some ∘ fun d => (d.member? "id").getD .null := rfl
    rw [idsOf, itemsOf, List.filterMap_map, hentry, List.filterMap_eq_map]
  rw [run, mapResult, Outcome.map,
    result_query name id elapsed (ofValue_partitionOptions p) hquery, map_sent, hids]

theorem result_getItems_of_not (h : c.store.lists (some p) = false) :
    (run name id c elapsed (.getItems (Tree.ofJson p))).result = .error (.noText .longInteger) := by
  simp only [run, result_finish, Container.readAll, ofValue_partitionOptions,
    listed_partition_of_not h, Container.feed, Outcome.failed, Except.map]

theorem result_getIds_of_not (h : c.store.lists (some p) = false) :
    (run name id c elapsed (.getIds (Tree.ofJson p))).result = .error (.noText .longInteger) := by
  have hquery : c.queried idsQuery { partitionKey := some (Tree.ofJson p) } =
      .error (.noText .longInteger) :=
    queried_of_unlisted .ids rfl (listed_partition_of_not h)
  simp only [run, mapResult, Outcome.map, runQuery, result_finish, Container.query,
    ofValue_partitionOptions, hquery, Container.feed, Outcome.failed, Except.map]

theorem result_getCount :
    (run name id c elapsed .getCount).result =
      sent c.charge (.arr [Tree.int c.store.documents.length])
        (Tree.int c.store.documents.length) := by
  have hquery : c.queried countQuery {} = .ok [Tree.int c.store.documents.length] :=
    queried_of_parsed .count rfl rfl
  rw [run, mapResult, Outcome.map, result_query name id elapsed rfl hquery, map_sent]
  rfl

/-- A look-up with a string as the id and a JSON value as the partition key finds what stands under
them. -/
theorem result_getItem (item : String) (hp : p.isWritable = true) :
    (run name id c elapsed (.getItem (.str item) (Tree.ofJson p))).result =
      sent c.charge (((c.store.rows.lookup (.of item p)).map Row.document).getD .null)
        (((c.store.rows.lookup (.of item p)).map Row.document).getD .null) := by
  have hwritten : Value.written? (Tree.ofJson p) = .ok p :=
    (Json.written?_ofJson p).trans (Json.written_of_isWritable hp p)
  have hread : c.store.read ⟨.str item, some (Tree.ofJson p)⟩ =
      .ok ((c.store.rows.lookup (.of item p)).map Row.document) :=
    Store.read_eq_of_given (Store.given_ofJson p) rfl hwritten
  have hshown : Value.display? (.str item) = .ok item := congrArg Except.ok String.ofList_toList
  simp only [run, result_finish, Container.read, hread, hshown, ItemResponse.ofJson,
    responded_chargeOf, sent]
  cases unsent? c.charge (((c.store.rows.lookup (.of item p)).map Row.document).getD .null) <;> rfl

theorem result_getItem_of_not (item : String) (hp : p.isWritable = false) :
    (run name id c elapsed (.getItem (.str item) (Tree.ofJson p))).result =
      .error (.noText .longInteger) := by
  have hread : c.store.read ⟨.str item, some (Tree.ofJson p)⟩ = .error (.noText .longInteger) := by
    simp only [Store.read, Store.find_of_not_isWritable hp, bind, Except.bind]
  simp only [run, result_finish, Container.read, hread, Outcome.failed, Except.map]

end Calls

/-! ## Agreement -/

/-- The answers of calls are those of documents in partitions: the documents and the ids of every
partition, the number of all documents, which is the sum over the partitions, and every document in
exactly one partition, where it is found under its id.  `send` says what comes of an answer with its
payload.  A partition key value that cannot be written is refused as soon as there are documents. -/
structure Agree (s : Store) (send : Json → Json → Except Failure Json)
    (answer : Call → Except Failure Json) : Prop where
  items : ∀ p, s.lists (some p) = true → answer (.getItems (Tree.ofJson p)) =
    send (.arr (s.inPartition p)) (.arr (s.inPartition p))
  ids : ∀ p, s.lists (some p) = true → ∃ ids : List String,
    (s.inPartition p).map Ledger.id? = ids.map some ∧
      answer (.getIds (Tree.ofJson p)) =
        send (.arr (ids.map fun id => .obj [("id", .str id)])) (.arr (ids.map .str))
  count : answer .getCount =
    send (.arr [Tree.int s.documents.length]) (Tree.int s.documents.length)
  represented : ∃ keys, Representatives s.field s.documents keys
  sum : ∀ keys, Representatives s.field s.documents keys →
    s.documents.length = (keys.map fun k => (s.inPartition k).length).sum
  partition : ∀ keys, Representatives s.field s.documents keys → ∀ d ∈ s.documents,
    ∃! k, k ∈ keys ∧ d ∈ s.inPartition k
  item : ∀ p, ∀ d ∈ s.inPartition p, p.isWritable = true ∧ ∃ id, Ledger.id? d = some id ∧
    answer (.getItem (.str id) (Tree.ofJson p)) = send d d
  unlisted : ∀ p, s.lists (some p) = false → answer (.getItems (Tree.ofJson p)) =
      .error (.noText .longInteger) ∧
    answer (.getIds (Tree.ofJson p)) = .error (.noText .longInteger)
  unasked : ∀ p, p.isWritable = false → ∀ id,
    answer (.getItem (.str id) (Tree.ofJson p)) = .error (.noText .longInteger)

section Sound

variable {s : Store}

theorem ids_inPartition (h : s.Sound) (p : Json) :
    ∃ ids : List String, (s.inPartition p).map Ledger.id? = ids.map some ∧
      ((s.inPartition p).map fun d => (d.member? "id").getD .null) = ids.map .str := by
  refine ⟨(s.rows.filter fun e => Json.same e.2.partitionKey p).map (·.2.id), ?_, ?_⟩ <;>
    rw [Store.inPartition, List.map_map, List.map_map] <;>
    refine List.map_congr_left fun e he => ?_
  · exact (h.row_sound e (List.mem_of_mem_filter he)).id?_eq
  · have hmember := (h.row_sound e (List.mem_of_mem_filter he)).member_id
    rw [Function.comp_apply, hmember]
    rfl

theorem exists_resolve (h : s.Sound) : ∀ d ∈ s.documents, ∃ k, d.resolve s.field = some k := by
  intro d hd
  obtain ⟨e, he, rfl⟩ := List.mem_map.1 hd
  exact ⟨_, (h.row_sound e he).resolve_field⟩

/-- A document of a partition stands under its id and any value of the partition, and all these values
can be written. -/
theorem lookup_of_mem_inPartition (h : s.Sound) {p d : Json} (hd : d ∈ s.inPartition p) :
    p.isWritable = true ∧ ∃ id, Ledger.id? d = some id ∧
      (s.rows.lookup (.of id p)).map Row.document = some d := by
  obtain ⟨⟨key, row⟩, he, rfl⟩ := List.mem_map.1 hd
  obtain ⟨hmem, hsame⟩ := List.mem_filter.1 he
  have hkey : key = StorageKey.of row.id p :=
    (h.key_eq _ hmem).trans ((StorageKey.of_eq_of_iff _ _ _ _).2 ⟨rfl, hsame⟩)
  refine ⟨(Json.isWritable_of_same hsame).symm.trans (h.row_sound _ hmem).writable, row.id,
    (h.row_sound _ hmem).id?_eq, ?_⟩
  rw [← hkey, (lookup_eq_some_iff h.keys_nodup).2 hmem]
  rfl

end Sound

theorem agree_of_sound {c : Container} (h : c.store.Sound) (name id : String) (elapsed : Double) :
    Agree c.store (sent c.charge) fun call => (run name id c elapsed call).result where
  items p hp := result_getItems name id elapsed hp
  ids p hp := by
    obtain ⟨ids, hids, hshown⟩ := ids_inPartition h p
    refine ⟨ids, hids, ?_⟩
    have hentries : (c.store.inPartition p).map Query.idEntry =
        ids.map fun id => .obj [("id", .str id)] := by
      have hmap := congrArg (List.map fun id : Json => (.obj [("id", id)] : Json)) hshown
      rwa [List.map_map, List.map_map] at hmap
    rw [result_getIds name id elapsed hp, hshown, hentries]
  count := result_getCount name id elapsed
  represented := exists_representatives (exists_resolve h)
  sum keys hkeys := by
    simp only [h.inPartition_eq]
    exact hkeys.length_eq_sum
  partition keys hkeys d hd := by
    simp only [h.inPartition_eq, List.mem_filter, hd, true_and]
    exact hkeys.existsUnique_partition hd
  item p d hd := by
    obtain ⟨hp, item, hitem, hfound⟩ := lookup_of_mem_inPartition h hd
    refine ⟨hp, item, hitem, ?_⟩
    rw [result_getItem name id elapsed item hp, hfound]
    rfl
  unlisted p hp :=
    ⟨result_getItems_of_not name id elapsed hp, result_getIds_of_not name id elapsed hp⟩
  unasked p hp item := result_getItem_of_not name id elapsed item hp

/-- Answers that can be written are all sent under a charge that fits. -/
theorem Agree.of_isWritable {s : Store} {charge : Number} {answer : Call → Except Failure Json}
    (h : Agree s (sent charge) answer) (hfits : charge.fits = true)
    (hdocuments : ∀ d ∈ s.documents, d.isWritable = true)
    (hnumber : (Tree.int s.documents.length : Json).isWritable = true) :
    Agree s (fun _ answer => .ok answer) answer := by
  have hsent : ∀ payload r : Json, payload.isWritable = true → sent charge payload r = .ok r := by
    intro payload r hpayload
    rw [sent_of_isWritable hpayload, if_pos hfits]
  have hpartition : ∀ p, ∀ d ∈ s.inPartition p, d.isWritable = true := by
    intro p d hd
    obtain ⟨entry, hentry, rfl⟩ := List.mem_map.1 hd
    exact hdocuments _ (List.mem_map_of_mem (List.mem_of_mem_filter hentry))
  exact {
    h with
    items := fun p hp => by
      rw [h.items p hp, hsent]
      rw [Tree.isWritable_arr, List.all_eq_true]
      exact hpartition p
    ids := fun p hp => by
      obtain ⟨ids, hids, hanswer⟩ := h.ids p hp
      refine ⟨ids, hids, ?_⟩
      rw [hanswer, hsent]
      simp
    count := by
      rw [h.count, hsent]
      rw [Tree.isWritable_arr, List.all_cons, hnumber]
      rfl
    item := fun p d hd => by
      obtain ⟨hp, id, hid, hanswer⟩ := h.item p d hd
      exact ⟨hp, id, hid, hanswer.trans (hsent d d (hpartition p d hd))⟩ }

/-- After every run of events the calls that look at a container agree, as far as their answers are
sent.  All are if the charge fits and the documents and their number can be written. -/
theorem views_agree (request : ContainerRequest) (charge : Number) (events : List Event)
    (name id : String) (elapsed : Double) :
    let c := after (Container.create request charge) events
    let answer := fun call => (run name id c elapsed call).result
    Agree c.store (sent charge) answer ∧
      (charge.fits = true → (∀ d ∈ c.store.documents, d.isWritable = true) →
        (Tree.int c.store.documents.length : Json).isWritable = true →
        Agree c.store (fun _ answer => .ok answer) answer) := by
  intro c answer
  have hsound : c.store.Sound := sound_store_after (Store.sound_empty _) _
  have hcharge : c.charge = charge := charge_after _ _
  have hagree : Agree c.store (sent charge) answer := hcharge ▸ agree_of_sound hsound name id elapsed
  exact ⟨hagree, hagree.of_isWritable⟩

/-- Documents with one id under an integer, under the double equal to it and under null: the second
takes the place of the first. -/
theorem views_agree_numbers :
    let upsert (id : String) (key : Json) : Call :=
      .upsertItem (.obj [("id", .str id), ("pk", Tree.ofJson key)])
    let five : Json := Tree.double (Double.ofInt 5)
    let request : ContainerRequest := { id := "c", partitionKey := { paths := ["/pk"] } }
    let ms : Double := Double.one
    let events : List Event := [.call "c" "1" ms (upsert "a" (Tree.int 5)),
      .call "c" "2" ms (upsert "b" (Tree.int 5)), .call "c" "3" ms (upsert "a" five),
      .call "c" "4" ms (upsert "a" .null)]
    let c := after (Container.create request (.double Double.one)) events
    let answer := fun call => (run "c" "5" c ms call).result
    answer .getCount = .ok (Tree.int 3) ∧
    answer (.getIds (Tree.ofJson five)) = .ok (.arr [.str "a", .str "b"]) := by
  intro upsert five request ms events c answer
  have hthree : c.store.documents.length = 3 := by decide +kernel
  have hdocuments : ∀ d ∈ c.store.documents, d.isWritable = true := by decide +kernel
  have hnumber : (Tree.int c.store.documents.length : Json).isWritable = true := by
    rw [hthree]
    decide +kernel
  have hagree := (views_agree request (.double Double.one) events "c" "5" ms).2 rfl hdocuments hnumber
  have hcount : answer .getCount = .ok (Tree.int c.store.documents.length) := hagree.count
  have htwo : (c.store.inPartition five).map Ledger.id? = ["a", "b"].map some := by decide +kernel
  have hlists : c.store.lists (some five) = true := by decide +kernel
  obtain ⟨ids, hids, hanswer⟩ := hagree.ids five hlists
  obtain rfl : ids = ["a", "b"] :=
    (List.map_inj_right fun _ _ => Option.some.inj).1 (hids.symm.trans htwo)
  rw [hthree] at hcount
  exact ⟨hcount, hanswer⟩

theorem getItem_of_not_isWritable {v : Json} (hv : v.isWritable = false) :
    let request : ContainerRequest := { id := "c", partitionKey := { paths := ["/pk"] } }
    let document : Json := .obj [("id", .str "a"), ("pk", .str "x"), ("n", v)]
    let c := after (Container.create request (.double Double.one))
      [.call "c" "1" Double.one (.upsertItem (Tree.ofJson document))]
    c.store.documents = [document] ∧
      (run "c" "2" c Double.one (.getItem (.str "a") (.str "x"))).result =
        .error (.noText .longInteger) := by
  intro request document c
  have hstore : c.store = (Store.empty "pk").put ⟨"a", .str "x", document⟩ := by
    have hrow : Row.ofValue "pk" (Tree.ofJson document) = .ok ⟨"a", .str "x", document⟩ := by
      rw [Row.ofValue_ofJson_obj]
      rfl
    have hpath : partitionKeyField "/pk" = "pk" := by decide
    have hfield : (Container.create request (.double Double.one)).store = Store.empty "pk" :=
      congrArg Store.empty hpath
    rw [show c = _ from after_eq _ _]
    simp only [List.map_cons, List.map_nil, Event.effect, Call.action, Action.effect, Store.after,
      hfield, Container.withStore]
    rw [Store.step_upsert_of_ok (s := Store.empty "pk") hrow]
  have hlong : document.isWritable = false := by simp [document, hv]
  have hfound : (c.store.rows.lookup (.of "a" (.str "x"))).map Row.document = some document := by
    rw [hstore]
    rfl
  refine ⟨by rw [hstore]; rfl, ?_⟩
  have hitem := result_getItem "c" "2" (c := c) Double.one (p := .str "x") "a" rfl
  rw [hfound] at hitem
  exact hitem.trans (sent_of_not_isWritable hlong _)

/-- A document that is stored is not read back if it holds an integer that is too long to be
written. -/
theorem long_integer_hides_item :
    let request : ContainerRequest := { id := "c", partitionKey := { paths := ["/pk"] } }
    let document : Json :=
      .obj [("id", .str "a"), ("pk", .str "x"), ("n", Tree.int (tenPow Numeral.maxDigits))]
    let c := after (Container.create request (.double Double.one))
      [.call "c" "1" Double.one (.upsertItem (Tree.ofJson document))]
    c.store.documents = [document] ∧
      (run "c" "2" c Double.one (.getItem (.str "a") (.str "x"))).result =
        .error (.noText .longInteger) :=
  getItem_of_not_isWritable Json.isWritable_tenPow

end Pigeonhole.Session

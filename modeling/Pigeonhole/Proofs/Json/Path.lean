import Pigeonhole.Json.Path
import Pigeonhole.Proofs.Files.Path
import Pigeonhole.Proofs.Text.Cut

/-!
# Partition key paths

A `WrittenPath` is a partition key path as it may be written: segments with one slash or more between
them, and any number before and after.  `Tree.Reaches` says that a value is found from another one by
going down from mapping to mapping.  A document has at the field path of a written path what is found
along its segments, however the path is written (`resolve_written`).
-/

namespace Pigeonhole

/-! ## Going down -/

namespace Tree

variable {α : Type}

/-- Whether a value is found by going down along names, each of them a key of a mapping. -/
inductive Reaches : List String → Tree α → Tree α → Prop
  | here (v : Tree α) : Reaches [] v v
  | down {name : String} {names : List String} {ms : List (String × Tree α)} {v w : Tree α}
      (hmember : ms.lookup name = some v) (hrest : Reaches names v w) :
      Reaches (name :: names) (.obj ms) w

/-- Whether the way down along names ends at a value that is no mapping with the next key. -/
def Ends (names : List String) (v : Tree α) : Prop :=
  ∃ before name after w, names = before ++ name :: after ∧ Reaches before v w ∧
    ∀ ms, w = .obj ms → ms.lookup name = none

theorem member?_eq_some_iff {name : String} {v w : Tree α} :
    v.member? name = some w ↔ ∃ ms, v = .obj ms ∧ ms.lookup name = some w := by
  constructor
  · intro h
    cases v with
    | obj ms => exact ⟨ms, rfl, h⟩
    | _ => cases h
  · rintro ⟨ms, rfl, h⟩
    exact h

theorem member?_eq_none_iff {name : String} {v : Tree α} :
    v.member? name = none ↔ ∀ ms, v = .obj ms → ms.lookup name = none := by
  constructor
  · rintro h ms rfl
    exact h
  · intro h
    cases v with
    | obj ms => exact h ms rfl
    | _ => rfl

theorem descend_eq_some_iff {names : List String} {v w : Tree α} :
    v.descend names = some w ↔ Reaches names v w := by
  constructor
  · intro h
    induction names generalizing v with
    | nil =>
      obtain rfl := Option.some.inj h
      exact .here v
    | cons name names ih =>
      rw [descend_cons, Option.bind_eq_some_iff] at h
      obtain ⟨u, hmember, hrest⟩ := h
      obtain ⟨ms, rfl, hlookup⟩ := member?_eq_some_iff.1 hmember
      exact .down hlookup (ih hrest)
  · intro h
    induction h with
    | here v => rfl
    | down hmember hrest ih =>
      rw [descend_cons, member?_eq_some_iff.2 ⟨_, rfl, hmember⟩]
      exact ih

theorem descend_eq_none_iff {names : List String} {v : Tree α} :
    v.descend names = none ↔ Ends names v := by
  constructor
  · intro h
    induction names generalizing v with
    | nil => cases h
    | cons name names ih =>
      rw [descend_cons, Option.bind_eq_none_iff] at h
      cases hmember : v.member? name with
      | none => exact ⟨[], name, names, v, rfl, .here v, member?_eq_none_iff.1 hmember⟩
      | some u =>
        obtain ⟨ms, rfl, hlookup⟩ := member?_eq_some_iff.1 hmember
        obtain ⟨before, next, after, w, rfl, hreaches, hend⟩ := ih (h u hmember)
        exact ⟨name :: before, next, after, w, rfl, .down hlookup hreaches, hend⟩
  · rintro ⟨before, name, after, w, rfl, hreaches, hend⟩
    rw [descend_append, descend_eq_some_iff.2 hreaches, Option.bind_some, descend_cons,
      member?_eq_none_iff.2 hend, Option.bind_none]

end Tree

/-! ## Written paths -/

/-- A segment of a partition key path: a text that is not empty and has neither slashes nor points. -/
structure PathSegment where
  text : String
  text_ne : text ≠ ""
  no_slash : '/' ∉ text.toList
  no_point : '.' ∉ text.toList

/-- A run of slashes. -/
def slashes (n : Nat) : List Char := List.replicate n '/'

/-- A partition key path as it is written. -/
structure WrittenPath where
  /-- How many slashes stand at the front. -/
  leading : Nat
  first : PathSegment
  /-- The other segments, each with the number of slashes in front of it less one. -/
  rest : List (Nat × PathSegment)
  /-- How many slashes stand at the end. -/
  trailing : Nat

namespace WrittenPath

/-- The names of the segments. -/
def names (p : WrittenPath) : List String := p.first.text :: p.rest.map (·.2.text)

/-- The segments with the slashes between them. -/
def body (p : WrittenPath) : List Char :=
  Text.joined (fun n => slashes (n + 1)) p.first.text.toList
    (p.rest.map fun (n, segment) => (n, segment.text.toList))

/-- The text of the path. -/
def text (p : WrittenPath) : String :=
  String.ofList (slashes p.leading ++ (p.body ++ slashes p.trailing))

end WrittenPath

/-! ## Reading a written path -/

/-- The pieces of a text between its slashes that are not empty. -/
def slashPieces (s : List Char) : List (List Char) :=
  (Text.splitOnChar '/' s).filter (!·.isEmpty)

theorem slashPieces_slashes_append (n : Nat) (s : List Char) :
    slashPieces (slashes n ++ s) = slashPieces s := by
  induction n with
  | zero => rfl
  | succ n ih =>
    have hempty : '/' ∉ ([] : List Char) := List.not_mem_nil
    have hsplit : Text.splitOnChar '/' (slashes (n + 1) ++ s) =
        [] :: Text.splitOnChar '/' (slashes n ++ s) := Text.splitOnChar_append hempty _
    rw [slashPieces, hsplit]
    exact ih

namespace PathSegment

variable (segment : PathSegment)

theorem isEmpty_eq_false : segment.text.toList.isEmpty = false := by
  rw [List.isEmpty_eq_false_iff, ne_eq, String.toList_eq_nil_iff]
  exact segment.text_ne

/-- A segment before slashes, or at the end of a path, is a piece. -/
theorem slashPieces_append (n : Nat) (s : List Char) :
    slashPieces (segment.text.toList ++ (slashes (n + 1) ++ s)) =
      segment.text.toList :: slashPieces s := by
  have hsplit : Text.splitOnChar '/' (segment.text.toList ++ (slashes (n + 1) ++ s)) =
      segment.text.toList :: Text.splitOnChar '/' (slashes n ++ s) :=
    Text.splitOnChar_append segment.no_slash _
  rw [slashPieces, hsplit, List.filter_cons_of_pos (by rw [segment.isEmpty_eq_false]; rfl)]
  exact congrArg _ (slashPieces_slashes_append n s)

theorem slashPieces_trailing (n : Nat) :
    slashPieces (segment.text.toList ++ slashes n) = [segment.text.toList] := by
  cases n with
  | zero =>
    rw [slashes, List.replicate_zero, List.append_nil, slashPieces,
      Text.splitOnChar_of_not_mem segment.no_slash,
      List.filter_cons_of_pos (by rw [segment.isEmpty_eq_false]; rfl), List.filter_nil]
  | succ n =>
    have hend := segment.slashPieces_append n []
    rwa [List.append_nil] at hend

end PathSegment

theorem slashPieces_joined (first : PathSegment) (rest : List (Nat × PathSegment)) (trailing : Nat) :
    slashPieces (Text.joined (fun n => slashes (n + 1)) first.text.toList
      (rest.map fun (n, segment) => (n, segment.text.toList)) ++ slashes trailing) =
      first.text.toList :: rest.map (·.2.text.toList) := by
  induction rest generalizing first with
  | nil => exact first.slashPieces_trailing trailing
  | cons entry rest ih =>
    obtain ⟨n, next⟩ := entry
    rw [List.map_cons, Text.joined, List.append_assoc, List.append_assoc, first.slashPieces_append,
      ih, List.map_cons]

namespace WrittenPath

variable (p : WrittenPath)

theorem partitionKeySegments_text : partitionKeySegments p.text = p.names.map String.toList := by
  have hpieces : partitionKeySegments p.text =
      slashPieces (slashes p.leading ++ (p.body ++ slashes p.trailing)) := by
    rw [partitionKeySegments, text, String.toList_ofList]
    rfl
  rw [hpieces, slashPieces_slashes_append, body, slashPieces_joined, names, List.map_cons,
    List.map_map]
  rfl

/-- The field path of a written path has the names of its segments. -/
theorem segments_partitionKeyField : Tree.segments (partitionKeyField p.text) = p.names := by
  have hpoint : ∀ piece ∈ p.names.map String.toList, '.' ∉ piece := by
    intro piece hpiece
    obtain ⟨name, hname, rfl⟩ := List.mem_map.1 hpiece
    rcases List.mem_cons.1 hname with rfl | hname
    · exact p.first.no_point
    · obtain ⟨entry, -, rfl⟩ := List.mem_map.1 hname
      exact entry.2.no_point
  have hne : p.names.map String.toList ≠ [] := by simp [names]
  have hback : (String.ofList ∘ String.toList) = id := funext fun _ => String.ofList_toList
  rw [Tree.segments, partitionKeyField, String.toList_ofList, partitionKeySegments_text,
    Text.splitOnChar_joinWith hne hpoint, List.map_map, hback, List.map_id]

end WrittenPath

/-- However a partition key path is written, a document has at its field path the value that is found
by going down along the segments, whichever value that is, and none exactly if the way ends at a value
that is no mapping or lacks the next key. -/
theorem resolve_written {α : Type} (p : WrittenPath) (document : Tree α) :
    (∀ value, document.resolve (partitionKeyField p.text) = some value ↔
      Tree.Reaches p.names document value) ∧
    (document.resolve (partitionKeyField p.text) = none ↔ Tree.Ends p.names document) := by
  rw [Tree.resolve, p.segments_partitionKeyField]
  exact ⟨fun _ => Tree.descend_eq_some_iff, Tree.descend_eq_none_iff⟩

/-- A path with more slashes than it needs. -/
example :
    let path : WrittenPath := ⟨2, ⟨"address", by decide, by decide, by decide⟩,
      [(2, ⟨"zip", by decide, by decide, by decide⟩)], 1⟩
    path.text = "//address///zip/" ∧ partitionKeyField path.text = "address.zip" := by
  decide

end Pigeonhole

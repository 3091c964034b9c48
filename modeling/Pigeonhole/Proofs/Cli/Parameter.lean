import Mathlib.Data.List.TakeWhile
import Pigeonhole.Cli.Input
import Pigeonhole.Proofs.Json.Reading
import Pigeonhole.Proofs.Json.Same

/-!
# Parameters undo serialization

A parameter is cut at its first equals sign (`parseParameter_append`), and a canonical text after it
is read as JSON, never as a string (`parameterValue_canonical`).  So the value comes back with its
integral doubles as integers, and it is refused only for an integer with too many digits or for too
many arrays and objects inside each other (`parseParameter_text`).
-/

namespace Pigeonhole.Cli

open Text

/-- A name that holds no equals sign ends at the first one. -/
theorem parseParameter_append {name : String} (hname : '=' ∉ name.toList) (text : String) :
    parseParameter (name ++ "=" ++ text) =
      (parameterValue text.toList).map (String.ofList (parameterName name.toList), ·) := by
  have hall : ∀ c ∈ name.toList, (c != '=') = true := by
    rintro c hc
    rw [bne_iff_ne]
    rintro rfl
    exact hname hc
  have hraw : (name ++ "=" ++ text).toList = name.toList ++ '=' :: text.toList := by simp
  have hdrop : (name.toList ++ '=' :: text.toList).dropWhile (· != '=') = '=' :: text.toList := by
    rw [List.dropWhile_append_of_pos hall]
    rfl
  have htake : (name.toList ++ '=' :: text.toList).takeWhile (· != '=') = name.toList := by
    rw [List.takeWhile_append_of_pos hall]
    exact List.append_nil _
  rw [parseParameter, hraw, hdrop, htake]

theorem toList_text (v : Json) : v.text.toList = v.canonical := String.toList_ofList

/-- The error that a parameter is refused with for a fault in its value. -/
def InputError.ofFault : JsonFault → InputError
  | .longInteger => .range
  | .tooDeep => .depth

/-- A canonical text is never taken for a string: it is read as its value, or refused for the fault
in it. -/
theorem parameterValue_canonical {v : Json} (hv : v.Distinct) :
    parameterValue v.canonical =
      match v.fault? Json.maxDepth with
      | none => .ok v.normalize
      | some fault => .error (.ofFault fault) := by
  rw [parameterValue, Json.parse_canonical hv]
  cases v.fault? Json.maxDepth with
  | none => rfl
  | some fault => cases fault <;> rfl

/-- The name and the canonical text of a value are read as the name, stripped and with its mark, and
the value with its integral doubles as integers, which is equal to the value.  They are refused
exactly if an integer in the value has too many digits or the value is nested too deeply, with the
error of the first fault. -/
theorem parseParameter_text {name : String} (hname : '=' ∉ name.toList) {v : Json}
    (hv : v.Distinct) :
    let stripped := strip name.toList
    let marked := if stripped.head? = some '@' then stripped else '@' :: stripped
    parseParameter (name ++ "=" ++ v.text) =
      (match v.fault? Json.maxDepth with
      | none => .ok (String.ofList marked, v.normalize)
      | some fault => .error (.ofFault fault)) ∧
    (v.fault? Json.maxDepth = none ↔ v.nesting ≤ Json.maxDepth ∧ Json.Short v.integers) ∧
    Json.same v.normalize v = true := by
  intro stripped marked
  refine ⟨?_, v.fault?_eq_none_iff Json.maxDepth, Json.same_normalize v⟩
  rw [parseParameter_append hname, toList_text, parameterValue_canonical hv]
  cases v.fault? Json.maxDepth <;> rfl

/-- A key that stands at two levels, a string with an equals sign, a quote and a line break, a double
that is integral and one that is no number. -/
theorem parseParameter_text_nested :
    let v : Json := .obj
      [("a", .arr [.str "=\x22\n", .double (.ofInt 2), .double .nan]), ("b", .obj [("a", .null)])]
    '=' ∉ " min ".toList ∧ v.Distinct ∧
      parseParameter (" min " ++ "=" ++ v.text) = .ok ("@min", .obj
        [("a", .arr [.str "=\x22\n", .int 2, .double .nan]), ("b", .obj [("a", .null)])]) := by
  intro v
  have hname : '=' ∉ " min ".toList := by decide
  have hv : v.Distinct := by
    simp [v, Json.Distinct, Json.ItemsDistinct, Json.MembersDistinct, Tree.double]
  obtain ⟨hread, hfault, -⟩ := parseParameter_text hname hv
  have hnone : v.fault? Json.maxDepth = none :=
    hfault.2 ⟨by decide, by simp [v, Json.Short, Json.integers, Json.itemsIntegers,
      Json.membersIntegers, Tree.double]⟩
  have htwo : (Number.double (.ofInt 2)).normalize = .int 2 := by decide +kernel
  have hnan : (Number.double .nan).normalize = .double .nan := rfl
  have hstripped : strip " min ".toList = "min".toList := by decide +kernel
  refine ⟨hname, hv, ?_⟩
  rw [hread, hnone, hstripped]
  simp [v, Tree.normalize, Tree.normalizeMembers, Tree.normalizeItems, Tree.double, Tree.int, htwo,
    hnan]

/-- The number with one digit more than are read is refused. -/
theorem long_parameter_refused :
    let v : Json := .int (tenPow Numeral.maxDigits)
    '=' ∉ "a".toList ∧ v.Distinct ∧ parseParameter ("a" ++ "=" ++ v.text) = .error .range := by
  intro v
  have hname : '=' ∉ "a".toList := by decide
  have hv : v.Distinct := trivial
  have hfault : v.fault? Json.maxDepth = some .longInteger :=
    Json.fault?_int_of_long (lt_length_natDigits_tenPow Numeral.maxDigits) Json.maxDepth
  refine ⟨hname, hv, ?_⟩
  rw [parseParameter_append hname, toList_text, parameterValue_canonical hv, hfault]
  rfl

end Pigeonhole.Cli

import Pigeonhole.Proofs.Text.Cut
import Pigeonhole.Proofs.Text.Decimal
import Pigeonhole.Query.Builder

/-!
# Reading built statements

The text of a builder is a selection of documents: `parse?_text` reads the limit and the clauses back
from it.  The clauses of the condition stand in parentheses with `groupMark` between them.
-/

namespace Pigeonhole.Query

open Text

/-! ## After the source -/

theorem clause?_where_stripLeft {s : List Char} (h : stripLeft s ≠ []) :
    clause? (" WHERE ".toList ++ s) = some (some (stripLeft s)) := by
  have hword : dropBlanks1 (' ' :: s) = some (stripLeft s) := rfl
  have hstart : (" WHERE ".toList ++ s).isEmpty = false := rfl
  have hdrop : dropWord "where" (" WHERE ".toList ++ s) = some (' ' :: s) := rfl
  obtain ⟨c, rest, hs⟩ := List.exists_cons_of_ne_nil h
  simp only [clause?, hstart, hdrop, Option.bind_some, hword, hs]
  rfl

theorem clause?_where {c : Char} (h : isBlank c = false) (s : List Char) :
    clause? (" WHERE ".toList ++ c :: s) = some (some (c :: s)) := by
  have hs : stripLeft (c :: s) = c :: s := stripLeft_cons_of_not_isBlank h s
  have hne : stripLeft (c :: s) ≠ [] := by rw [hs]; exact List.cons_ne_nil c s
  rw [clause?_where_stripLeft hne, hs]

theorem ofSource?_from {s : List Char} {clause : Option (List Char)} (h : clause? s = some clause)
    (shape : Shape) :
    Statement.ofSource? shape (" FROM c".toList ++ s) = some { shape, clause } := by
  have hsource : dropSource (" FROM c".toList ++ s) = some s := rfl
  rw [Statement.ofSource?, hsource, Option.bind_some, h]
  rfl

/-! ## Limits -/

/-- A limit as it is written. -/
def limitText : Option Int → List Char
  | some n => "TOP ".toList ++ (intDigits n ++ [' '])
  | none => []

theorem allTail?_limit {limit : Option Int} (hlimit : ∀ n ∈ limit, 0 ≤ n) {s : List Char}
    {clause : Option (List Char)} (h : clause? s = some clause) :
    allTail? (' ' :: (limitText limit ++ ("* FROM c".toList ++ s))) =
      some { shape := .all (limit.map Int.toNat), clause, limitDigits := limitLength limit } := by
  have hstar : dropWord "*" (' ' :: ("* FROM c".toList ++ s)) = some (" FROM c".toList ++ s) := rfl
  cases limit with
  | none =>
    have hlimit? : limit? (' ' :: ("* FROM c".toList ++ s)) = none := rfl
    rw [limitText, List.nil_append, allTail?, hlimit?, hstar, Option.bind_some, ofSource?_from h]
    rfl
  | some n =>
    have hn : 0 ≤ n := hlimit n rfl
    have hnatural : intDigits n = natDigits n.natAbs := if_neg (by omega)
    have hvalue : n.toNat = n.natAbs := by omega
    obtain ⟨ds, hds, hlt, hne, hdigits⟩ := exists_digits n.natAbs
    have hlength : limitLength (some n) = ds.length := by
      rw [limitLength, Option.map_some, hds, List.length_map]
      rfl
    obtain ⟨d, ds, rfl⟩ := List.exists_cons_of_ne_nil hne
    have hfirst : isBlank (digitChar d) = false := by
      have checked : ∀ d < 10, isBlank (digitChar d) = false := by decide +kernel
      exact checked d (hlt d List.mem_cons_self)
    have htop : (dropWord "top" (' ' :: ("TOP ".toList ++ ((d :: ds).map digitChar ++ [' '] ++
        ("* FROM c".toList ++ s))))).bind dropBlanks1 =
        some ((d :: ds).map digitChar ++ ' ' :: ("* FROM c".toList ++ s)) := by
      have hword : dropWord "top" (' ' :: ("TOP ".toList ++ ((d :: ds).map digitChar ++ [' '] ++
          ("* FROM c".toList ++ s)))) =
          some (' ' :: ((d :: ds).map digitChar ++ [' '] ++ ("* FROM c".toList ++ s))) := rfl
      rw [hword, Option.bind_some, dropBlanks1_cons_of_isBlank (by decide), List.append_assoc,
        List.map_cons, List.cons_append, stripLeft_cons_of_not_isBlank hfirst]
      rfl
    have hspace : ∀ c ∈ (' ' :: ("* FROM c".toList ++ s)).head?, digitValue? c = none := by
      intro c hc
      obtain rfl := Option.some.inj hc
      decide +kernel
    have hread : limit? (' ' :: (limitText (some n) ++ ("* FROM c".toList ++ s))) =
        some (d :: ds, ' ' :: ("* FROM c".toList ++ s)) := by
      rw [limitText, hnatural, hds, List.append_assoc, limit?, htop, Option.map_some,
        spanDecimals_append hlt hspace]
    rw [allTail?, hread]
    simp only [hstar, Option.bind_some, ofSource?_from h, Option.map_some, hdigits, hvalue, hlength]

theorem ofTrimmed?_limit {limit : Option Int} (hlimit : ∀ n ∈ limit, 0 ≤ n) {s : List Char}
    {clause : Option (List Char)} (h : clause? s = some clause) :
    Statement.ofTrimmed? ("SELECT ".toList ++ (limitText limit ++ ("* FROM c".toList ++ s))) =
      some { shape := .all (limit.map Int.toNat), clause, limitDigits := limitLength limit } := by
  have hselect : dropKeyword "select".toList
      ("SELECT ".toList ++ (limitText limit ++ ("* FROM c".toList ++ s))) =
      some (' ' :: (limitText limit ++ ("* FROM c".toList ++ s))) := rfl
  have hcount : countTail? (' ' :: (limitText limit ++ ("* FROM c".toList ++ s))) = none := by
    cases limit <;> rfl
  have hids : idsTail? (' ' :: (limitText limit ++ ("* FROM c".toList ++ s))) = none := by
    cases limit <;> rfl
  rw [Statement.ofTrimmed?, hselect]
  simp only [hcount, hids, Option.none_or, allTail?_limit hlimit h]

/-! ## Whole texts -/

/-- The condition of clauses as it is written. -/
def groupedText (clauses : List (List Char)) : List Char :=
  '(' :: (joinWith groupMark clauses ++ [')'])

theorem intercalate_toList (clause : String) (rest : List String) :
    (String.intercalate " AND " ((clause :: rest).map fun c => "(" ++ c ++ ")")).toList =
      groupedText ((clause :: rest).map String.toList) := by
  induction rest generalizing clause with
  | nil => simp [groupedText, joinWith]
  | cons next rest ih =>
    have hjoin : String.intercalate " AND " ((clause :: next :: rest).map fun c => "(" ++ c ++ ")") =
        "(" ++ clause ++ ")" ++ " AND " ++
          String.intercalate " AND " ((next :: rest).map fun c => "(" ++ c ++ ")") := by
      rw [← String.toList_inj]
      simp [String.toList_intercalate, List.intercalate]
    have hmark : groupMark = [')', ' ', 'A', 'N', 'D', ' ', '('] := rfl
    rw [hjoin, String.toList_append, ih]
    simp [groupedText, joinWith, hmark]

theorem text_toList (limit : Option Int) (clauses : List String) :
    (Builder.text limit clauses).toList =
      "SELECT ".toList ++ (limitText limit ++ ("* FROM c".toList ++
        (if clauses = [] then [' ']
         else " WHERE ".toList ++ groupedText (clauses.map String.toList)))) := by
  cases clauses with
  | nil => cases limit <;> simp [Builder.text, limitText]
  | cons clause rest =>
    have hgrouped := intercalate_toList clause rest
    cases limit <;> simp [Builder.text, limitText] at hgrouped ⊢ <;> rw [hgrouped]

/-- The text of a builder is read as a selection with its limit and its clauses. -/
theorem parse?_text {limit : Option Int} (hlimit : ∀ n ∈ limit, 0 < n) (clauses : List String) :
    Statement.parse? (Builder.text limit clauses).toList =
      some { shape := .all (limit.map Int.toNat)
             clause := if clauses = [] then none
               else some (groupedText (clauses.map String.toList))
             limitDigits := limitLength limit } := by
  have hlimit : ∀ n ∈ limit, 0 ≤ n := fun n hn => Int.le_of_lt (hlimit n hn)
  rw [text_toList, Statement.parse?]
  by_cases hclauses : clauses = []
  · have hstrip : strip ("SELECT ".toList ++ (limitText limit ++ ("* FROM c".toList ++ [' ']))) =
        "SELECT ".toList ++ (limitText limit ++ ("* FROM c".toList ++ [])) := by
      have hlast : "SELECT ".toList ++ (limitText limit ++ ("* FROM c".toList ++ [])) =
          'S' :: ("ELECT ".toList ++ (limitText limit ++ "* FROM ".toList) ++ ['c']) := by
        simp only [List.append_assoc, List.append_nil]
        rfl
      have hspace : "SELECT ".toList ++ (limitText limit ++ ("* FROM c".toList ++ [' '])) =
          'S' :: ("ELECT ".toList ++ (limitText limit ++ "* FROM ".toList) ++ ['c']) ++ [' '] := by
        simp only [List.append_assoc, List.cons_append]
        rfl
      rw [hspace, hlast]
      exact strip_cons_concat_append (by decide) (by decide) _ (by decide)
    rw [if_pos hclauses, if_pos hclauses, hstrip]
    exact ofTrimmed?_limit hlimit rfl
  · have hstrip : strip ("SELECT ".toList ++ (limitText limit ++ ("* FROM c".toList ++
        (" WHERE ".toList ++ groupedText (clauses.map String.toList))))) =
        "SELECT ".toList ++ (limitText limit ++ ("* FROM c".toList ++
        (" WHERE ".toList ++ groupedText (clauses.map String.toList)))) := by
      have hends : "SELECT ".toList ++ (limitText limit ++ ("* FROM c".toList ++
          (" WHERE ".toList ++ groupedText (clauses.map String.toList)))) =
          'S' :: ("ELECT ".toList ++ (limitText limit ++ ("* FROM c".toList ++
          (" WHERE (".toList ++ joinWith groupMark (clauses.map String.toList)))) ++ [')']) := by
        simp only [groupedText, List.append_assoc]
        rfl
      rw [hends]
      exact strip_cons_concat (by decide) (by decide) _
    rw [if_neg hclauses, if_neg hclauses, hstrip]
    exact ofTrimmed?_limit hlimit (clause?_where (by decide) _)

end Pigeonhole.Query

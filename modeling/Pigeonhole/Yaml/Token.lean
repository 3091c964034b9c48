import Pigeonhole.Json.Parser
import Pigeonhole.Yaml.Error

/-!
# Tokens of YAML text

`tokens` cuts a text into tokens.  Indentation becomes tokens of its own, and so do the keys of
mappings: whether a scalar is a key shows only at the colon after it, so the mark of a key is put in
front of it later.  Where a text falls into no tokens, the list ends with `Token.fault`: in place of
the first token that was not yet certain, so a reader of the tokens before it does not come to the
fault.

Comments, block and flow collections, plain and quoted scalars and document marks are covered.
-/

namespace Pigeonhole.Yaml

open Text

/-- A token. -/
inductive Token where
  | blockSequence
  | blockMapping
  | blockEnd
  | openBracket
  | closeBracket
  | openBrace
  | closeBrace
  | dash
  | comma
  | key
  | colon
  | scalar (plain : Bool) (text : List Char)
  | documentStart
  | documentEnd
  | finish
  | fault (e : YamlError)
deriving DecidableEq, Repr, Inhabited

/-- Line breaks. -/
def isBreak (c : Char) : Bool := c = '\n' || c = '\x85' || c = '\u2028' || c = '\u2029'

/-- The line break that a scalar keeps. -/
def keptBreak (c : Char) : Char := if c = '\x85' then '\n' else c

/-- Whether a text is at its end or at a blank. -/
def atBlank : List Char → Bool
  | [] => true
  | c :: _ => c = ' ' || c = '\t' || isBreak c

/-- Whether a mark between documents stands at the beginning of a text. -/
def atMark (mark : String) (s : List Char) : Bool :=
  (dropExact mark.toList s).any atBlank

/-- Whether a document begins or ends at the beginning of a text. -/
def atDocumentMark (s : List Char) : Bool := atMark "---" s || atMark "..." s

/-! ## Scalars -/

/-- The line breaks after the first one, with the blanks around them, and the rest; `none` if a
document ends in between. -/
def moreBreaks (tabs : Bool) : Nat → List Char → Option (List Char × List Char)
  | 0, s => some ([], s)
  | fuel + 1, s =>
    if atDocumentMark s then none
    else
      match s.dropWhile fun c => c = ' ' || (tabs && c = '\t') with
      | c :: t =>
        if isBreak c then
          (moreBreaks tabs fuel t).map fun (breaks, rest) => (keptBreak c :: breaks, rest)
        else some ([], c :: t)
      | [] => some ([], [])

/-- What a line break in a scalar and those after it stand for: a single one is a blank. -/
def foldBreaks (first : Char) (more : List Char) : List Char :=
  (if keptBreak first ≠ '\n' then [first] else if more.isEmpty then [' '] else []) ++ more

/-- The characters of escapes with a letter. -/
def escapes : List (Char × Char) :=
  [('0', '\x00'), ('a', '\x07'), ('b', '\x08'), ('t', '\t'), ('\t', '\t'), ('n', '\n'),
    ('v', '\x0b'), ('f', '\x0c'), ('r', '\r'), ('e', '\x1b'), (' ', ' '), ('\x22', '\x22'),
    ('\\', '\\'), ('/', '/'), ('N', '\x85'), ('_', '\xa0'), ('L', '\u2028'), ('P', '\u2029')]

/-- How many digits follow the letter of an escape by number. -/
def escapeDigits : List (Char × Nat) := [('x', 2), ('u', 4), ('U', 8)]

/-- The largest character number that is looked up. -/
def maxCharNumber : Nat := 0x7fffffff

/-- The character of an escape by number, and the rest. -/
def numberEscape (count : Nat) (s : List Char) : Except YamlError (Char × List Char) :=
  let ds := (s.take count).filterMap Json.hexValue?
  let n := ds.foldl (fun n d => n * 16 + d) 0
  if ds.length ≠ count then .error .token
  else if n < 0x110000 then
    match Json.pointChar? n with
    | some c => .ok (c, s.drop count)
    | none => .error .range
  else .error (if n ≤ maxCharNumber then .range else .overflow)

/-- A part of a quoted scalar put before what follows it. -/
def withPart (part : List Char) (rest : Except YamlError (List Char × List Char)) :
    Except YamlError (List Char × List Char) :=
  rest.map fun (text, rest) => (part ++ text, rest)

/-- The text of a quoted scalar after its opening quote, and the rest; the fuel bounds its
length. -/
def quotedText (double : Bool) : Nat → List Char → Except YamlError (List Char × List Char)
  | 0, _ => .error .token
  | fuel + 1, s =>
    match s with
    | [] => .error .token
    | c :: t =>
      if c = (if double then '\x22' else '\x27') then
        match double, t with
        | false, '\x27' :: u => withPart ['\x27'] (quotedText double fuel u)
        | _, _ => .ok ([], t)
      else if double && c = '\\' then
        match t with
        | [] => .error .token
        | e :: u =>
          match escapes.lookup e, escapeDigits.lookup e with
          | some x, _ => withPart [x] (quotedText double fuel u)
          | none, some count =>
            match numberEscape count u with
            | .error e => .error e
            | .ok (x, u) => withPart [x] (quotedText double fuel u)
          | none, none =>
            if isBreak e then
              match moreBreaks true u.length u with
              | none => .error .token
              | some (breaks, u) => withPart breaks (quotedText double fuel u)
            else .error .token
      else if c = ' ' || c = '\t' || isBreak c then
        let blanks := s.takeWhile fun c => c = ' ' || c = '\t'
        match s.drop blanks.length with
        | [] => .error .token
        | b :: u =>
          if isBreak b then
            match moreBreaks true u.length u with
            | none => .error .token
            | some (breaks, u) => withPart (foldBreaks b breaks) (quotedText double fuel u)
          else withPart blanks (quotedText double fuel (b :: u))
      else withPart [c] (quotedText double fuel t)

/-- Whether a plain scalar ends before a text. -/
def endsPlain (flow : Bool) (s : List Char) : Bool :=
  match s with
  | [] => true
  | ':' :: t => atBlank t || (flow && (t.head?.any fun c => ",[]\x7b\x7d".toList.contains c))
  | c :: _ => atBlank s || (flow && ",?[]\x7b\x7d".toList.contains c)

/-- The characters of a plain scalar up to a blank, and the rest. -/
def plainRun (flow : Bool) : List Char → List Char × List Char
  | [] => ([], [])
  | c :: s =>
    if endsPlain flow (c :: s) then ([], c :: s)
    else ((c :: (plainRun flow s).1), (plainRun flow s).2)

/-- How far a plain scalar goes on over blanks. -/
structure Pause where
  /-- What the blanks stand for inside the scalar, `none` if it ends here for good. -/
  text : Option (List Char)
  rest : List Char
  /-- Whether a line ended. -/
  broken : Bool
  /-- The column of the rest if a line ended. -/
  column : Nat

/-- The columns between the last line break of a text and a rest of it. -/
def columnAt (s rest : List Char) : Nat :=
  ((s.take (s.length - rest.length)).reverse.takeWhile (!isBreak ·)).length

/-- The blanks after a part of a plain scalar. -/
def pause (s : List Char) : Pause :=
  let blanks := s.takeWhile (· = ' ')
  match s.drop blanks.length with
  | b :: t =>
    if isBreak b then
      match moreBreaks false t.length t with
      | some (breaks, rest) => ⟨some (foldBreaks b breaks), rest, true, columnAt (b :: t) rest⟩
      | none =>
        let rest := t.dropWhile fun c => c = ' ' || isBreak c
        ⟨none, rest, true, columnAt (b :: t) rest⟩
    else ⟨if blanks.isEmpty then none else some blanks, b :: t, false, 0⟩
  | [] => ⟨if blanks.isEmpty then none else some blanks, [], false, 0⟩

/-- The text of a plain scalar, the rest, and whether its last blanks ended a line; the fuel bounds
its parts. -/
def plainText (flow : Bool) (indent : Int) : Nat → List Char → List Char × List Char × Bool
  | 0, s => ([], s, false)
  | fuel + 1, s =>
    let (run, rest) := plainRun flow s
    let p := pause rest
    let goesOn := match p.text, p.rest with
      | none, _ => false
      | some _, [] => false
      | some _, c :: t =>
        c ≠ '#' && !(!flow && p.broken && (p.column : Int) < indent) && !endsPlain flow (c :: t)
    match goesOn, p.text with
    | true, some blanks =>
      let (text, rest, broken) := plainText flow indent fuel p.rest
      (run ++ blanks ++ text, rest, broken)
    | _, _ => (run, p.rest, p.broken)

/-! ## The scanner -/

/-- A place where a key may have begun. -/
structure PossibleKey where
  /-- How many tokens came before it. -/
  position : Nat
  line : Nat
  column : Nat
  index : Nat
  /-- Whether there has to be a key. -/
  required : Bool

/-- How far a text has been cut into tokens. -/
structure Scan where
  rest : List Char
  line : Nat := 0
  column : Nat := 0
  index : Nat := 0
  /-- The column of the innermost block collection. -/
  indent : Int := -1
  outer : List Int := []
  /-- How many flow collections are open. -/
  depth : Nat := 0
  /-- Whether a key may begin here. -/
  keyAllowed : Bool := true
  keys : List (Nat × PossibleKey) := []
  tokens : Array Token := #[]

namespace Scan

/-- The scan moved forward to a rest of its text. -/
def moveTo (s : Scan) (rest : List Char) : Scan :=
  let passed := s.rest.take (s.rest.length - rest.length)
  let step := fun (line, column) c => if isBreak c then (line + 1, 0) else (line, column + 1)
  let (line, column) := passed.foldl step (s.line, s.column)
  { s with rest, line, column, index := s.index + passed.length }

/-- The scan with one more token. -/
def push (s : Scan) (t : Token) : Scan := { s with tokens := s.tokens.push t }

/-- The rest after blanks, comments and line breaks, and whether a line ended. -/
def skipGap : Nat → List Char → List Char × Bool
  | 0, s => (s, false)
  | fuel + 1, s =>
    let s := s.dropWhile (· = ' ')
    let s := match s with
      | '#' :: _ => s.dropWhile (!isBreak ·)
      | _ => s
    match s with
    | c :: t => if isBreak c then ((skipGap fuel t).1, true) else (s, false)
    | [] => (s, false)

/-- The scan at the next token. -/
def toToken (s : Scan) : Scan :=
  let (rest, broken) := skipGap (s.rest.length + 1) s.rest
  let s := s.moveTo rest
  if broken && s.depth = 0 then { s with keyAllowed := true } else s

/-- The longest key. -/
def maxKeyLength : Nat := 1024

/-- The scan without the possible keys that have come too far. -/
def dropStale (s : Scan) : Except YamlError Scan :=
  let stale := fun (k : PossibleKey) => k.line ≠ s.line || maxKeyLength < s.index - k.index
  if s.keys.any fun (_, k) => stale k && k.required then .error .token
  else .ok { s with keys := s.keys.filter fun (_, k) => !stale k }

/-- The scan with the block collections closed that are indented deeper than a column. -/
def unwind (column : Int) : Nat → Scan → Scan
  | 0, s => s
  | fuel + 1, s =>
    if s.depth = 0 ∧ column < s.indent then
      unwind column fuel
        { s.push .blockEnd with indent := s.outer.headD (-1), outer := s.outer.tail }
    else s

/-- The scan without a possible key at the present depth. -/
def dropKey (s : Scan) : Except YamlError Scan :=
  match s.keys.lookup s.depth with
  | some k =>
    if k.required then .error .token else .ok { s with keys := s.keys.filter (·.1 ≠ s.depth) }
  | none => .ok s

/-- The scan with a possible key here. -/
def saveKey (s : Scan) : Except YamlError Scan :=
  if s.keyAllowed then
    s.dropKey.map fun s =>
      { s with keys := (s.depth, { position := s.tokens.size, line := s.line, column := s.column
                                   index := s.index
                                   required := s.depth = 0 && s.indent = s.column }) :: s.keys }
  else .ok s

/-- The scan inside a deeper block collection, if the column is deeper. -/
def indentTo (s : Scan) (column : Nat) : Option Scan :=
  if s.indent < column then some { s with indent := column, outer := s.indent :: s.outer } else none

/-- The scan after a token of one character. -/
def mark (s : Scan) (t : Token) : Scan := (s.push t).moveTo (s.rest.drop 1)

/-- The scan after an opening bracket or brace. -/
def openFlow (s : Scan) (t : Token) : Except YamlError Scan :=
  s.saveKey.map fun s => { s with depth := s.depth + 1, keyAllowed := true }.mark t

/-- The scan after a closing bracket or brace. -/
def closeFlow (s : Scan) (t : Token) : Except YamlError Scan :=
  s.dropKey.map fun s => { s with depth := s.depth - 1, keyAllowed := false }.mark t

/-- The scan after a comma. -/
def comma (s : Scan) : Except YamlError Scan :=
  s.dropKey.map fun s => { s with keyAllowed := true }.mark .comma

/-- The scan at an entry of a block collection, which begins there if the entry is indented deeper;
a fault where no entry may stand.  Inside brackets nothing begins. -/
def openBlock (s : Scan) (begin : Token) : Except YamlError Scan :=
  if s.depth ≠ 0 then .ok s
  else if s.keyAllowed then .ok (((s.indentTo s.column).map (·.push begin)).getD s)
  else .error .token

/-- The scan after the dash of an entry. -/
def dash (s : Scan) : Except YamlError Scan :=
  ((s.openBlock .blockSequence).bind dropKey).map fun s => { s with keyAllowed := true }.mark .dash

/-- The scan after the question mark of a key. -/
def question (s : Scan) : Except YamlError Scan :=
  ((s.openBlock .blockMapping).bind dropKey).map fun s =>
    { s with keyAllowed := s.depth = 0 }.mark .key

/-- The scan after the colon of a value. -/
def colon (s : Scan) : Except YamlError Scan :=
  match s.keys.lookup s.depth with
  | some k =>
    let keyed := { s with
      keys := s.keys.filter (·.1 ≠ s.depth)
      tokens := s.tokens.insertIdxIfInBounds k.position .key }
    let opened :=
      if s.depth = 0 then
        ((keyed.indentTo k.column).map fun s =>
          { s with tokens := s.tokens.insertIdxIfInBounds k.position .blockMapping }).getD keyed
      else keyed
    .ok ({ opened with keyAllowed := false }.mark .colon)
  | none =>
    ((s.openBlock .blockMapping).bind dropKey).map fun s =>
      { s with keyAllowed := s.depth = 0 }.mark .colon

/-- The scan after a mark between documents. -/
def documentMark (s : Scan) (t : Token) : Except YamlError Scan :=
  (unwind (-1) (s.outer.length + 1) s).dropKey.map fun s =>
    ({ s with keyAllowed := false }.push t).moveTo (s.rest.drop 3)

/-- The scan after a quoted scalar. -/
def quoted (s : Scan) (double : Bool) : Except YamlError Scan :=
  s.saveKey.bind fun s =>
    (quotedText double s.rest.length (s.rest.drop 1)).map fun (text, rest) =>
      ({ s with keyAllowed := false }.push (.scalar false text)).moveTo rest

/-- Whether a plain scalar may begin here. -/
def startsPlain (s : Scan) : Bool :=
  match s.rest with
  | [] => false
  | c :: t =>
    !(atBlank s.rest || "-?:,[]\x7b\x7d#&*!|>\x27\x22%@`".toList.contains c) ||
      (!atBlank t && (c = '-' || (s.depth = 0 && (c = '?' || c = ':'))))

/-- The scan after a plain scalar. -/
def plain (s : Scan) : Except YamlError Scan :=
  s.saveKey.map fun s =>
    let (text, rest, broken) := plainText (s.depth ≠ 0) (s.indent + 1) s.rest.length s.rest
    ({ s with keyAllowed := broken }.push (.scalar true text)).moveTo rest

/-- The scan after its last token. -/
def atEnd (s : Scan) : Except YamlError Scan :=
  (unwind (-1) (s.outer.length + 1) s).dropKey.map (·.push .finish)

/-- The scan after one more token. -/
def next (s : Scan) : Except YamlError Scan :=
  match s.rest with
  | [] => s.atEnd
  | c :: t =>
    if s.column = 0 && c = '%' then .error .token
    else if s.column = 0 && atMark "---" s.rest then s.documentMark .documentStart
    else if s.column = 0 && atMark "..." s.rest then s.documentMark .documentEnd
    else if c = '[' then s.openFlow .openBracket
    else if c = '\x7b' then s.openFlow .openBrace
    else if c = ']' then s.closeFlow .closeBracket
    else if c = '\x7d' then s.closeFlow .closeBrace
    else if c = ',' then s.comma
    else if c = '-' && atBlank t then s.dash
    else if c = '?' && (s.depth ≠ 0 || atBlank t) then s.question
    else if c = ':' && (s.depth ≠ 0 || atBlank t) then s.colon
    else if c = '\x27' then s.quoted false
    else if c = '\x22' then s.quoted true
    else if s.startsPlain then s.plain
    else .error .token

/-- The scan after the gap in front of the next token, that token, and whether it is the last. -/
def step (s : Scan) : Except YamlError (Scan × Bool) := do
  let s ← s.toToken.dropStale
  let after ← (unwind s.column (s.outer.length + 1) s).next
  if s.rest.isEmpty then return (after, true) else return (← after.dropStale, false)

/-- How many tokens are certain: none from a possible key on. -/
def certain (s : Scan) : Nat := s.keys.foldl (fun n (_, k) => min n k.position) s.tokens.size

/-- The tokens that are certain, and a fault after them. -/
def faulty (s : Scan) (e : YamlError) : List Token := s.tokens.toList.take s.certain ++ [.fault e]

/-- The tokens of a scan up to the end of its text or a fault; the fuel bounds their number. -/
def run : Nat → Scan → List Token
  | 0, s => s.faulty .token
  | fuel + 1, s =>
    match s.step with
    | .error e => s.faulty e
    | .ok (after, true) => after.tokens.toList
    | .ok (after, false) => run fuel after

end Scan

/-- Whether a character may stand in a document. -/
def isAllowed (c : Char) : Bool :=
  let n := c.toNat
  n = 0x09 || n = 0x0a || n = 0x0d || (0x20 ≤ n && n ≤ 0x7e) || n = 0x85 ||
    (0xa0 ≤ n && n ≤ 0xd7ff) || (0xe000 ≤ n && n ≤ 0xfffd) || 0x10000 ≤ n

/-- The tokens of a text. -/
def tokens (s : List Char) : List Token := Scan.run (s.length + 1) { rest := s }

end Pigeonhole.Yaml

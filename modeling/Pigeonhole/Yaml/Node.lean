import Pigeonhole.Yaml.Scalar
import Pigeonhole.Yaml.Token

/-!
# Nodes of YAML text

Tokens form a tree of nodes, and every node stands for a value.  `parse` reads a whole text with one
document; a text without one stands for null.  Of several faulty nodes the one that is nearest to
the root counts, and of those as near as it the first.
-/

namespace Pigeonhole.Yaml

/-- A node. -/
inductive Node where
  | scalar (plain : Bool) (text : List Char)
  | sequence (items : List Node)
  | mapping (pairs : List (Node × Node))
deriving Inhabited

/-- The node that stands where none is written. -/
def Node.empty : Node := .scalar true []

/-- Whether the next token ends an entry. -/
def endsEntry (ends : List Token) : List Token → Bool
  | t :: _ => ends.contains t
  | [] => true

/-- The failure at a token that does not fit. -/
def unexpected {α : Type} : List Token → Except YamlError α
  | .fault e :: _ => .error e
  | _ => .error .node

mutual

/-- The node at the beginning of tokens, and the rest; `block` admits block collections and
`flush` a sequence without an indentation of its own.  The fuel bounds the number of steps. -/
def node : Nat → Bool → Bool → List Token → Except YamlError (Node × List Token)
  | 0, _, _, ts => unexpected ts
  | fuel + 1, block, flush, ts =>
    match ts with
    | .scalar plain text :: rest => .ok (.scalar plain text, rest)
    | .openBracket :: rest => do
      let (items, rest) ← flowItems fuel true rest
      return (.sequence items, rest)
    | .openBrace :: rest => do
      let (pairs, rest) ← flowPairs fuel true rest
      return (.mapping pairs, rest)
    | .dash :: _ =>
      if flush then do
        let (items, rest) ← flushItems fuel ts
        return (.sequence items, rest)
      else unexpected ts
    | .blockSequence :: rest =>
      if block then do
        let (items, rest) ← blockItems fuel rest
        return (.sequence items, rest)
      else unexpected ts
    | .blockMapping :: rest =>
      if block then do
        let (pairs, rest) ← blockPairs fuel rest
        return (.mapping pairs, rest)
      else unexpected ts
    | _ => unexpected ts

/-- The node of an entry, the empty one if the entry ends at once. -/
def entry : Nat → Bool → Bool → List Token → List Token → Except YamlError (Node × List Token)
  | 0, _, _, _, ts => unexpected ts
  | fuel + 1, block, flush, ends, ts =>
    if endsEntry ends ts then .ok (.empty, ts) else node fuel block flush ts

/-- The items of a block sequence. -/
def blockItems : Nat → List Token → Except YamlError (List Node × List Token)
  | 0, ts => unexpected ts
  | fuel + 1, ts =>
    match ts with
    | .dash :: rest => do
      let (item, rest) ← entry fuel true false [.dash, .blockEnd] rest
      let (items, rest) ← blockItems fuel rest
      return (item :: items, rest)
    | .blockEnd :: rest => .ok ([], rest)
    | _ => unexpected ts

/-- The items of a sequence without an indentation of its own. -/
def flushItems : Nat → List Token → Except YamlError (List Node × List Token)
  | 0, ts => unexpected ts
  | fuel + 1, ts =>
    match ts with
    | .dash :: rest => do
      let (item, rest) ← entry fuel true false [.dash, .key, .colon, .blockEnd] rest
      let (items, rest) ← flushItems fuel rest
      return (item :: items, rest)
    | _ => .ok ([], ts)

/-- The value of a pair after its key, if there is one. -/
def pairValue : Nat → Bool → List Token → List Token → Except YamlError (Node × List Token)
  | 0, _, _, ts => unexpected ts
  | fuel + 1, block, ends, ts =>
    match ts with
    | .colon :: rest => entry fuel block block ends rest
    | _ => .ok (.empty, ts)

/-- The pairs of a block mapping. -/
def blockPairs : Nat → List Token → Except YamlError (List (Node × Node) × List Token)
  | 0, ts => unexpected ts
  | fuel + 1, ts =>
    match ts with
    | .key :: rest => do
      let (key, rest) ← entry fuel true true [.key, .colon, .blockEnd] rest
      let (value, rest) ← pairValue fuel true [.key, .colon, .blockEnd] rest
      let (pairs, rest) ← blockPairs fuel rest
      return ((key, value) :: pairs, rest)
    | .blockEnd :: rest => .ok ([], rest)
    | _ => unexpected ts

/-- The items of a flow sequence; a pair among them is a mapping of its own. -/
def flowItems : Nat → Bool → List Token → Except YamlError (List Node × List Token)
  | 0, _, ts => unexpected ts
  | fuel + 1, first, ts =>
    match ts with
    | .closeBracket :: rest => .ok ([], rest)
    | _ => do
      let ts ← match first, ts with
        | true, _ => pure ts
        | false, .comma :: rest => pure rest
        | false, _ => unexpected ts
      match ts with
      | .closeBracket :: rest => return ([], rest)
      | .key :: rest =>
        let (key, rest) ← entry fuel false false [.colon, .comma, .closeBracket] rest
        let (value, rest) ← pairValue fuel false [.comma, .closeBracket] rest
        let (items, rest) ← flowItems fuel false rest
        return (.mapping [(key, value)] :: items, rest)
      | _ =>
        let (item, rest) ← node fuel false false ts
        let (items, rest) ← flowItems fuel false rest
        return (item :: items, rest)

/-- The pairs of a flow mapping. -/
def flowPairs : Nat → Bool → List Token → Except YamlError (List (Node × Node) × List Token)
  | 0, _, ts => unexpected ts
  | fuel + 1, first, ts =>
    match ts with
    | .closeBrace :: rest => .ok ([], rest)
    | _ => do
      let ts ← match first, ts with
        | true, _ => pure ts
        | false, .comma :: rest => pure rest
        | false, _ => unexpected ts
      match ts with
      | .closeBrace :: rest => return ([], rest)
      | .key :: rest =>
        let (key, rest) ← entry fuel false false [.colon, .comma, .closeBrace] rest
        let (value, rest) ← pairValue fuel false [.comma, .closeBrace] rest
        let (pairs, rest) ← flowPairs fuel false rest
        return ((key, value) :: pairs, rest)
      | _ =>
        let (key, rest) ← node fuel false false ts
        let (pairs, rest) ← flowPairs fuel false rest
        return ((key, .empty) :: pairs, rest)

end

/-- Whether a node is the key of a merge. -/
def Node.isMerge : Node → Bool
  | .scalar true text => text = ['<', '<']
  | _ => false

/-- The pairs of a mapping: those that are merged into it, and its own. -/
structure MergedPairs where
  merged : List (Node × Node) := []
  own : List (Node × Node) := []

/-- All pairs, those that are merged in first. -/
def MergedPairs.all (p : MergedPairs) : List (Node × Node) := p.merged ++ p.own

mutual

/-- The pairs that the value of a merge stands for: those of a mapping, or of a list of mappings,
the last mapping first. -/
def Node.mergeSource : Node → Except YamlError (List (Node × Node))
  | .mapping pairs => (mergePairs pairs).map MergedPairs.all
  | .sequence items => mergeSources items
  | .scalar .. => .error .value

/-- The pairs of a list of mappings, the last mapping first. -/
def mergeSources : List Node → Except YamlError (List (Node × Node))
  | [] => .ok []
  | .mapping pairs :: rest =>
    match mergePairs pairs with
    | .error e => .error e
    | .ok here => (mergeSources rest).map (· ++ here.all)
  | _ :: _ => .error .value

/-- The pairs of a mapping with its merges done. -/
def mergePairs : List (Node × Node) → Except YamlError MergedPairs
  | [] => .ok {}
  | (key, value) :: rest =>
    if key.isMerge then
      match value.mergeSource with
      | .error e => .error e
      | .ok source => (mergePairs rest).map fun p => { p with merged := source ++ p.merged }
    else (mergePairs rest).map fun p => { p with own := (key, value) :: p.own }

end

/-- The value of a scalar. -/
def scalarValue (plain : Bool) (text : List Char) : Except YamlError Value :=
  if plain then plainValue text else .ok (Tree.ofString text)

/-- The key that a value is; a value of another kind shows its text. -/
def keyOf (text : List Char) : Value → Key
  | .null => .null
  | .bool b => .bool b
  | .num n => .num n
  | .str s => .str s
  | _ => .other (String.ofList text)

/-- The key that a node stands for; an equals sign is a string here, and no collection is a key. -/
def Node.key : Node → Except YamlError Key
  | .scalar true ['='] => .ok (.str "=")
  | .scalar plain text => (scalarValue plain text).map (keyOf text)
  | _ => .error .value

/-- The value that a node stands for; the fuel bounds the collections inside each other. -/
def Node.value : Nat → Node → Except YamlError Value
  | _, .scalar plain text => scalarValue plain text
  | 0, _ => .error .depth
  | fuel + 1, .sequence items => (items.mapM (Node.value fuel)).map .arr
  | fuel + 1, .mapping pairs => do
    let entries ← (← mergePairs pairs).all.mapM fun (key, value) => do
      let k ← key.key
      return (k, ← value.value fuel)
    return Value.ofEntries (Key.assignAll entries)

/-! ## Faulty nodes -/

/-- The error of a result, if it is one. -/
def errorOf? {α : Type} : Except YamlError α → Option YamlError
  | .error e => some e
  | .ok _ => none

/-- The fault of a scalar; collections are left for later. -/
def Node.scalarFault? : Node → Option YamlError
  | .scalar plain text => errorOf? (scalarValue plain text)
  | _ => none

/-- The first fault of a collection, those of the collections in it left out. -/
def Node.fault? : Node → Option YamlError
  | .scalar plain text => errorOf? (scalarValue plain text)
  | .sequence items => items.findSome? Node.scalarFault?
  | .mapping pairs =>
    match mergePairs pairs with
    | .error e => some e
    | .ok p => p.all.findSome? fun (key, value) => (errorOf? key.key).or value.scalarFault?

/-- The nodes directly in a collection. -/
def Node.parts : Node → List Node
  | .scalar .. => []
  | .sequence items => items
  | .mapping pairs =>
    match mergePairs pairs with
    | .error _ => []
    | .ok p => p.all.map (·.2)

/-- The first fault among nodes, or else in the collections among their parts; the fuel bounds the
collections inside each other. -/
def firstFault? : Nat → List Node → Option YamlError
  | 0, _ => none
  | fuel + 1, nodes =>
    match nodes with
    | [] => none
    | _ :: _ => (nodes.findSome? Node.fault?).or (firstFault? fuel (nodes.flatMap Node.parts))

/-- Whether a node is a collection. -/
def Node.isCollection : Node → Bool
  | .scalar .. => false
  | _ => true

/-- Whether there are more collections inside each other than a number. -/
def isDeeper : Nat → List Node → Bool
  | fuel, nodes =>
    match fuel, nodes.filter Node.isCollection with
    | _, [] => false
    | 0, _ :: _ => true
    | fuel + 1, collections => isDeeper fuel (collections.flatMap Node.parts)

/-- How many collections may stand inside each other. -/
def maxDepth : Nat := 480

/-- The value that the root of a document stands for. -/
def rootValue (root : Node) : Except YamlError Value :=
  match root.value maxDepth with
  | .ok v => .ok v
  | .error e =>
    if isDeeper maxDepth [root] then .error .depth
    else .error ((firstFault? (maxDepth + 1) [root]).getD e)

/-- The node of the only document of tokens, if there is a document. -/
def document (ts : List Token) : Except YamlError (Option Node) := do
  let fuel := 4 * ts.length + 4
  match ts with
  | [.finish] => return none
  | _ =>
    let (root, rest) ← match ts with
      | .documentStart :: rest =>
        entry fuel true false [.documentStart, .documentEnd, .finish] rest
      | _ => node fuel true false ts
    match rest.dropWhile (· = .documentEnd) with
    | [.finish] => return some root
    | .documentStart :: _ => throw .severalDocuments
    | rest => unexpected rest

/-- Every line break as a single line feed. -/
def unifyBreaks : List Char → List Char
  | '\r' :: '\n' :: s => '\n' :: unifyBreaks s
  | '\r' :: s => '\n' :: unifyBreaks s
  | c :: s => c :: unifyBreaks s
  | [] => []

/-- Reads a whole text. -/
def parse (s : List Char) : Except YamlError Value :=
  let s := unifyBreaks s
  if s.all isAllowed then
    let s := (Text.dropExact ['\ufeff'] s).getD s
    match document (tokens s) with
    | .error e => .error e
    | .ok none => .ok .null
    | .ok (some root) => rootValue root
  else .error .character

end Pigeonhole.Yaml

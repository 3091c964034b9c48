import Pigeonhole.Text.Split

/-!
# File paths

A path is cut into its parts at slashes; empty parts and single dots mean nothing.  `Path.text`
writes the parts back, so two spellings of one path have one text.  The suffix of a path is what
its last part has from its last dot on.  Two dots lead to the folder above, and `Path.place` does
without them where it can.
-/

namespace Pigeonhole

/-- A file path. -/
structure Path where
  /-- The slashes in front. -/
  root : List Char
  parts : List (List Char)
deriving DecidableEq, Repr

namespace Path

/-- The slashes that a path keeps in front: two of them mean more than one, more than two do not. -/
def rootOf (s : List Char) : List Char :=
  match (s.takeWhile (· = '/')).length with
  | 0 => []
  | 2 => ['/', '/']
  | _ => ['/']

/-- Whether a part of a path means something. -/
def isPart (part : List Char) : Bool := !part.isEmpty && part != ['.']

/-- The path that a text spells. -/
def ofText (s : List Char) : Path := ⟨rootOf s, (Text.splitOnChar '/' s).filter isPart⟩

/-- The text of a path. -/
def text (p : Path) : List Char :=
  let s := p.root ++ Text.joinWith ['/'] p.parts
  if s.isEmpty then ['.'] else s

/-- The last part of a path. -/
def name (p : Path) : List Char := (p.parts.getLast?).getD []

/-- The end of a name from its last dot on; none if the name begins or ends with that dot. -/
def suffixOf (name : List Char) : List Char :=
  let extension := (name.reverse.takeWhile (· != '.')).reverse
  let stem := name.take (name.length - extension.length - 1)
  if extension.isEmpty || stem.isEmpty then [] else '.' :: extension

/-- The suffix of a path. -/
def suffix (p : Path) : List Char := suffixOf p.name

/-- The part that leads to the folder above. -/
def upward : List Char := ['.', '.']

/-- The folder above a place; above the root is the root. -/
def up (p : Path) : Path :=
  if p.name.isEmpty || p.name = upward then
    if p.root.isEmpty then { p with parts := p.parts ++ [upward] } else p
  else { p with parts := p.parts.dropLast }

/-- The place that a part leads to from a folder. -/
def child (p : Path) (part : List Char) : Path :=
  if part = upward then p.up else { p with parts := p.parts ++ [part] }

/-- The path of the folder that a path names its last part in. -/
def folder (p : Path) : Path := { p with parts := p.parts.dropLast }

/-- The place that a path leads to if all folders on the way are there. -/
def place (p : Path) : Path := p.parts.foldl child ⟨p.root, []⟩

/-- Whether a place lies above every name: the root, the working folder or a folder above it. -/
def isBase (p : Path) : Bool := p.parts.all (· = upward)

end Path

end Pigeonhole

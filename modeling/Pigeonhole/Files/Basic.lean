import Pigeonhole.Files.Path

/-!
# Files

`Files` is what can be read: the texts of files by their paths.  The folders on the way to a file
are there with it.  `Files.entry` looks a path up, and `Files.makeFolder` and `Files.openFile` say
whether a file can be written to.
-/

namespace Pigeonhole

/-- The texts of files by their paths. -/
abbrev Files := List (String × String)

/-- What stands at a path. -/
inductive Entry where
  | file (text : String)
  | folder
deriving DecidableEq, Repr

/-- Why a path leads to nothing that can be used. -/
inductive PathError where
  /-- Nothing stands there. -/
  | absent
  /-- The path or one of its names is longer than any can be. -/
  | tooLong
  /-- The path holds a character that none can hold. -/
  | character
  /-- A folder stands where a file is to be. -/
  | folder
  /-- A file stands where a folder is to be. -/
  | file
  /-- A file stands where a folder on the way is to be. -/
  | fileOnTheWay
deriving DecidableEq, Repr

namespace Files

/-- The path that a string spells. -/
def pathOf (name : String) : Path := Path.ofText name.toList

/-- The file at a place. -/
def fileAt? (files : Files) (place : Path) : Option String :=
  (files.find? fun (other, _) => pathOf other = place).map (·.2)

/-- Whether a path leads to a folder above another path. -/
def isAbove (folder path : Path) : Bool :=
  folder.root = path.root && folder.parts.isPrefixOf path.parts && folder.parts != path.parts

/-- Whether a folder is at a place. -/
def isFolder (files : Files) (place : Path) : Bool :=
  place.isBase || files.any fun (other, _) => isAbove place (pathOf other)

/-- The most bytes of one name. -/
def maxNameLength : Nat := 255

/-- The most bytes of a path. -/
def maxPathLength : Nat := 4095

/-- Checks that a text can be a path. -/
def checkText (name : String) : Except PathError Unit :=
  if name.toList.contains '\x00' then .error .character
  else if name.isEmpty then .error .absent
  else if maxPathLength < name.utf8ByteSize then .error .tooLong
  else .ok ()

/-- Checks that a part can be a name. -/
def checkName (part : List Char) : Except PathError Unit :=
  if maxNameLength < (String.ofList part).utf8ByteSize then .error .tooLong else .ok ()

/-- The place that a part of a path leads to from another place, which has to be a folder. -/
def walk (files : Files) (place : Path) (part : List Char) : Except PathError Path :=
  if !files.isFolder place then .error .absent
  else if Path.isPart part then (checkName part).map fun _ => place.child part
  else .ok place

/-- The place that a path leads to. -/
def locate (files : Files) (name : String) : Except PathError Path := do
  checkText name
  (Text.splitOnChar '/' name.toList).foldlM files.walk ⟨Path.rootOf name.toList, []⟩

/-- What stands at a path. -/
def entry (files : Files) (name : String) : Except PathError Entry := do
  let place ← files.locate name
  match files.fileAt? place with
  | some text => return .file text
  | none => if files.isFolder place then return .folder else throw .absent

/-! ## Writing -/

/-- The place of a folder in another one, made if it is not there. -/
def enterFolder (files : Files) (place : Path) (part : List Char) : Except PathError Path := do
  if (files.fileAt? place).isSome then throw .fileOnTheWay
  checkName part
  return place.child part

/-- Makes the folder that a file is to be written in, with those on the way to it. -/
def makeFolder (files : Files) (name : String) : Except PathError Unit := do
  if name.toList.contains '\x00' then throw .character
  let folder := (pathOf name).folder
  let place ← folder.parts.foldlM files.enterFolder ⟨folder.root, []⟩
  if (files.fileAt? place).isSome then throw .file

/-- Opens a file for writing at its end, and returns the text that it holds already. -/
def openFile (files : Files) (name : String) : Except PathError String := do
  let place := (pathOf name).place
  checkText (String.ofList place.text)
  checkName place.name
  if files.isFolder place then throw .folder
  return (files.fileAt? place).getD ""

/-- The files with the text of one set. -/
def write (files : Files) (name text : String) : Files :=
  (name, text) :: files.filter fun (other, _) => pathOf other ≠ pathOf name

/-- Whether the suffix of a path announces YAML. -/
def isYaml (name : String) : Bool :=
  let suffix := String.ofList (pathOf name).suffix
  suffix = ".yaml" || suffix = ".yml"

end Files

end Pigeonhole

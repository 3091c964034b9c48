import Pigeonhole.Json.Printer

/-!
# Rotated files

A log file that would reach its limit with the next line is put aside first.  The files put aside
are numbered from the newest, and only so many of them are kept; if none is to be kept, the file
just goes on.
-/

namespace Pigeonhole.Log

/-- A log file with the files put aside. -/
structure RotatedFile where
  /-- The path of the file. -/
  name : String
  /-- The limit in bytes; zero for none. -/
  limit : Nat
  /-- How many files put aside are kept. -/
  keep : Nat
  /-- What the file holds. -/
  text : List Char := []
  /-- What the files put aside hold, newest first. -/
  older : List (List Char) := []

namespace RotatedFile

/-- Whether a line would make the file reach its limit; the line is measured in characters. -/
def isDue (f : RotatedFile) (line : List Char) : Bool :=
  f.limit ≠ 0 && f.limit ≤ utf8Length f.text + line.length + 1

/-- The file after it was put aside. -/
def rotate (f : RotatedFile) : RotatedFile :=
  if f.keep = 0 then f else { f with text := [], older := (f.text :: f.older).take f.keep }

/-- The file with one more line. -/
def write (f : RotatedFile) (line : List Char) : RotatedFile :=
  let f := if f.isDue line then f.rotate else f
  { f with text := f.text ++ (line ++ ['\n']) }

/-- The path of a file put aside, by its number from one on. -/
def asideName (f : RotatedFile) (number : Nat) : String :=
  f.name ++ "." ++ String.ofList (Text.natDigits number)

/-- All files by their paths, the newest first. -/
def files (f : RotatedFile) : List (String × List Char) :=
  (f.name, f.text) :: f.older.mapIdx fun i text => (f.asideName (i + 1), text)

end RotatedFile

end Pigeonhole.Log

import Pigeonhole.Log.Record
import Pigeonhole.Text.Blank
import Pigeonhole.Text.Keyword

/-!
# Redaction

Account keys, master keys and authorization tokens are masked before a record is written.  A
`Secret` says how the text before such a secret looks and which characters belong to it; `mask`
replaces every one of them, from left to right.
-/

namespace Pigeonhole.Log

open Text

/-- What stands in place of a secret. -/
def redacted : List Char := "***REDACTED***".toList

/-- A kind of secret in a text. -/
structure Secret where
  /-- The rest after the text that announces a secret. -/
  lead : List Char → Option (List Char)
  /-- Whether a character belongs to the secret. -/
  holds : Char → Bool

namespace Secret

/-- The announcement of a secret at the beginning of a text, and the rest after the secret. -/
def at? (p : Secret) (s : List Char) : Option (List Char × List Char) :=
  match p.lead s with
  | some rest =>
    if (rest.takeWhile p.holds).isEmpty then none
    else some (s.take (s.length - rest.length), rest.dropWhile p.holds)
  | none => none

/-- The text with every secret of a kind masked. -/
def mask (p : Secret) (s : List Char) : List Char :=
  match s with
  | [] => []
  | c :: t =>
    match p.at? (c :: t) with
    | some (announced, rest) =>
      if rest.length < (c :: t).length then announced ++ redacted ++ mask p rest
      else c :: mask p t
    | none => c :: mask p t
termination_by s.length
decreasing_by
  · assumption
  · exact Nat.lt_succ_self _
  · exact Nat.lt_succ_self _

end Secret

/-- The rest without one quote at its beginning. -/
def dropQuote : List Char → List Char
  | c :: s => if c = '\x22' ∨ c = '\x27' then s else c :: s
  | [] => []

/-- An account key in a connection string: all up to the next semicolon. -/
def accountKey : Secret where
  lead := dropKeyword "accountkey=".toList
  holds c := c != ';'

/-- The rest after a colon or an equals sign. -/
def dropAssignment : List Char → Option (List Char)
  | c :: s => if c = ':' ∨ c = '=' then some s else none
  | [] => none

/-- A master key after a colon or an equals sign, quoted or not. -/
def masterKey : Secret where
  lead s :=
    (dropKeyword "masterkey".toList s).bind fun rest =>
      (dropAssignment (stripLeft (dropQuote rest))).map fun rest => dropQuote (stripLeft rest)
  holds c := !(isBlank c || c = '\x22' || c = '\x27' || c = ',' || c = ';')

/-- The first word of an authorization header. -/
def authorization : Secret where
  lead s := (dropKeyword "authorization:".toList s).bind dropBlanks1
  holds c := !isBlank c

/-- A text with its secrets masked. -/
def redact (s : List Char) : List Char :=
  authorization.mask (masterKey.mask (accountKey.mask s))

/-- A string with its secrets masked. -/
def redactText (s : String) : String := String.ofList (redact s.toList)

/-- A value with its secrets masked if it is a string. -/
def redactValue : Value → Value
  | .str s => .str (redactText s)
  | v => v

/-- The record with the secrets of its message and of the strings of its context masked. -/
def Record.redacted (r : Record) : Record :=
  { r with
    message := redactValue r.message
    context := r.context.map fun (key, v) => (key, redactValue v) }

end Pigeonhole.Log

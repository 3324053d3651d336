import Montage.Settings.Basic
import Montage.Text.Pattern

/-!
# Files of environment variables

A settings file has one assignment to a line, `name=value` or `name: value`.
A value may stand between quotes and then go over several lines; `#` begins a
comment.  A name assigned twice has its later value.

The conventions for such files are those of a library that the program is built
on.  Results about runs need to know no more of them than that loading a file
changes nothing but the environment, which is `Program.run_loadEnvFile`.
-/

namespace Montage.EnvFile

open Text (Pattern)
open Text.Pattern (char except blank inLine optional sequence)

/-- The characters of a name: ASCII letters and digits, `_`, `.` and `-`. -/
def isNameChar (character : Char) : Bool :=
  character.isAlphanum || character = '_' || character = '.' || character = '-'

/-- A value between two of the given quotes, with blanks before it.  A
backslash before the quote keeps it from ending the value. -/
def quotedValue (quote : Char) : Pattern :=
  sequence [.many true blank, char quote,
    .many true (.either (.both (char '\\') (char quote)) (except [quote])), char quote]

/-- A value without quotes goes up to a comment or the end of the line. -/
def bareValue : Pattern := .oneOrMore true (except ['#', '\r', '\n'])

/-- One assignment: its name is kept as piece 1, its value as piece 2. -/
def assignment : Pattern :=
  sequence [
    .lineStart,
    .many true blank,
    optional (.both (sequence ("export".toList.map char)) (.oneOrMore true blank)),
    .keep 1 (.oneOrMore true (.one isNameChar)),
    .either
      (sequence [.many true blank, char '=', .many false blank])
      (.both (char ':') (.oneOrMore false blank)),
    optional (.keep 2
      (.either (quotedValue '\x27')
        (.either (quotedValue '"')
          (.either (quotedValue '\x60') bareValue)))),
    .many true blank,
    optional (.both (char '#') (.many true inLine)),
    .lineEnd]

/-- A line or more between two quotes of one sort; what is between them is kept
as piece 2. -/
def enclosed (quote : Char) : Pattern :=
  sequence [.lineStart, char quote, .keep 2 (.many true (.one fun _ => true)),
    char quote, .lineEnd]

def enclosedInQuotes : Pattern :=
  .either (enclosed '\x27') (.either (enclosed '"') (enclosed '\x60'))

/-- Every carriage return, with or without a line feed after it, becomes a line
feed. -/
def unifyLineEnds : List Char → List Char
  | [] => []
  | '\r' :: '\n' :: rest => '\n' :: unifyLineEnds rest
  | '\r' :: rest => '\n' :: unifyLineEnds rest
  | character :: rest => character :: unifyLineEnds rest

/-- Every backslash with a given letter after it becomes one character. -/
def expand (letter meaning : Char) : List Char → List Char
  | [] => []
  | [last] => [last]
  | first :: second :: rest =>
      if first = '\\' ∧ second = letter then meaning :: expand letter meaning rest
      else first :: expand letter meaning (second :: rest)

/-- The value that the text after a name stands for. -/
def valueOf (written : List Char) : List Char :=
  let trimmed := Text.trimList written
  let bare := enclosedInQuotes.replaceAll (fun found => (found.piece? 2).getD [])
    (trimmed.length + 1) none trimmed
  if trimmed.head? = some '"' then expand 'r' '\r' (expand 'n' '\n' bare) else bare

def assignments (text : String) : List (String × String) :=
  let input := unifyLineEnds text.toList
  (assignment.allMatches (input.length + 1) none input).map fun found =>
    (String.ofList ((found.piece? 1).getD []),
      String.ofList (valueOf ((found.piece? 2).getD [])))

/-- The variables that a file sets. -/
def read (text : String) : Environment :=
  (assignments text).foldl (fun found entry => found.set entry.1 entry.2) []

/-- The environment with the variables of a file that it does not have. -/
def addMissing (found environment : Environment) : Environment :=
  found.foldl
    (fun extended entry =>
      if (extended.get? entry.1).isSome then extended
      else extended.assign entry.1 entry.2)
    environment

end Montage.EnvFile
